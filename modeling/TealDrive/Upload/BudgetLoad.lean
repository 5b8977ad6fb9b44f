import TealDrive.Upload.Budget

namespace TealDrive

/-!
# The load of the staging directory

Each identifier contributes a charge: that of its live lease, or the size of a
file without one.  The load and the number of transfers are sums over any finite
set that contains every identifier with a charge.  They can then be compared
between two states identifier by identifier.
-/

open scoped BigOperators

namespace Budget

namespace State

/-! ## Charges -/

/-- What one identifier contributes to the load. -/
def charge (state : State) (id : Uuid) : Nat :=
  if state.live id then max (((state.leases.find id).map Lease.reserved).getD 0) (state.size id)
  else state.size id

def occupied (state : State) (id : Uuid) : Bool :=
  state.live id || (state.files.find id).isSome

/-- What one identifier contributes to the number of transfers. -/
def place (state : State) (id : Uuid) : Nat :=
  if state.occupied id then 1 else 0

theorem size_eq_zero {state : State} {id : Uuid} (absent : state.files.find id = none) :
    state.size id = 0 := by
  simp [size, absent]

/-- A live lease stands for its identifier, and a file for one without. -/
theorem tally_eq_sum {state : State} (held : Uuid -> Lease -> Nat) (loose : Uuid -> Nat -> Nat)
    {cover : Finset Uuid} (covered : forall id, state.occupied id = true -> id ∈ cover) :
    state.leases.total (fun id lease => if lease.live then held id lease else 0) +
        state.files.total (fun id size => if state.live id then 0 else loose id size) =
      ∑ id ∈ cover, if state.live id then state.leases.weigh held id
        else state.files.weigh loose id := by
  rw [Table.total_eq_sum cover, Table.total_eq_sum cover, ← Finset.sum_add_distrib]
  · apply Finset.sum_congr rfl
    intro id _
    unfold live Table.weigh
    cases found : state.leases.find id with
    | none => simp [found]
    | some lease =>
        cases holder : lease.live with
        | false => simp [found, holder]
        | true => cases file : state.files.find id <;> simp [found, holder]
  · intro id heavy
    apply covered
    cases found : state.files.find id with
    | none => simp [Table.weigh, found] at heavy
    | some size => simp [occupied, found]
  · intro id heavy
    apply covered
    cases found : state.leases.find id with
    | none => simp [Table.weigh, found] at heavy
    | some lease =>
        cases holder : lease.live with
        | false => simp [Table.weigh, found, holder] at heavy
        | true => simp [occupied, live, found, holder]

theorem load_eq_sum {state : State} (cover : Finset Uuid)
    (covered : forall id, state.occupied id = true -> id ∈ cover) :
    state.load = ∑ id ∈ cover, state.charge id := by
  unfold load
  rw [tally_eq_sum (fun id lease => max lease.reserved (state.size id)) (fun _ size => size) covered]
  apply Finset.sum_congr rfl
  intro id _
  unfold charge live Table.weigh
  cases found : state.leases.find id with
  | none => cases file : state.files.find id <;> simp [size, file]
  | some lease => cases file : state.files.find id <;> simp [size, file]

theorem number_eq_sum {state : State} (cover : Finset Uuid)
    (covered : forall id, state.occupied id = true -> id ∈ cover) :
    state.number = ∑ id ∈ cover, state.place id := by
  unfold number
  rw [Table.count_eq_total, Table.count_eq_total]
  have ones := tally_eq_sum (fun _ _ => 1) (fun _ _ => 1) covered
  have turned : forall id : Uuid, (if (!state.live id) = true then 1 else 0) =
      if state.live id = true then 0 else 1 := by
    intro id
    cases state.live id <;> rfl
  simp only [turned]
  rw [ones]
  apply Finset.sum_congr rfl
  intro id _
  unfold place occupied live Table.weigh
  cases found : state.leases.find id with
  | none => cases file : state.files.find id <;> simp
  | some lease => cases file : state.files.find id <;> simp

/-- The identifiers that have a lease or a file. -/
def ids (state : State) : Finset Uuid :=
  state.leases.keys ∪ state.files.keys

theorem mem_ids {state : State} {id : Uuid} (occupied : state.occupied id = true) :
    id ∈ state.ids := by
  unfold ids
  rw [Finset.mem_union]
  rcases Bool.or_eq_true_iff.mp occupied with live | staged
  · rcases Option.any_eq_true_iff_get _ _ |>.mp live with ⟨present, _⟩
    exact Or.inl (Table.mem_keys (Option.some_get present).symm)
  · rcases Option.isSome_iff_exists.mp staged with ⟨size, found⟩
    exact Or.inr (Table.mem_keys found)

/-! ## States that weigh less -/

/-- No identifier is charged more, and none is charged that was not before. -/
def Lighter (before after : State) : Prop :=
  forall id, after.charge id ≤ before.charge id ∧
    (after.occupied id = true -> before.occupied id = true)

theorem Lighter.place_le {before after : State} (lighter : Lighter before after) (id : Uuid) :
    after.place id ≤ before.place id := by
  unfold place
  split
  case isTrue still => rw [if_pos ((lighter id).2 still)]
  case isFalse => exact Nat.zero_le _

theorem Lighter.load_le {before after : State} (lighter : Lighter before after) :
    after.load ≤ before.load := by
  rw [load_eq_sum before.ids (fun id occupied => mem_ids ((lighter id).2 occupied)),
    load_eq_sum before.ids (fun id occupied => mem_ids occupied)]
  exact Finset.sum_le_sum (fun id _ => (lighter id).1)

theorem Lighter.number_le {before after : State} (lighter : Lighter before after) :
    after.number ≤ before.number := by
  rw [number_eq_sum before.ids (fun id occupied => mem_ids ((lighter id).2 occupied)),
    number_eq_sum before.ids (fun id occupied => mem_ids occupied)]
  exact Finset.sum_le_sum (fun id _ => lighter.place_le id)

theorem live_iff {state : State} {id : Uuid} :
    state.live id = true ↔ ∃ lease, state.leases.find id = some lease ∧ lease.live = true := by
  unfold live
  cases found : state.leases.find id <;> simp

theorem charge_of_live {state : State} {id : Uuid} {lease : Lease}
    (found : state.leases.find id = some lease) (live : lease.live = true) :
    state.charge id = max lease.reserved (state.size id) := by
  have held : state.live id = true := live_iff.mpr ⟨lease, found, live⟩
  simp [charge, held, found]

theorem charge_of_dead {state : State} {id : Uuid} (dead : state.live id = false) :
    state.charge id = state.size id := by
  simp [charge, dead]

theorem size_le_charge (state : State) (id : Uuid) : state.size id ≤ state.charge id := by
  unfold charge
  split
  · exact Nat.le_max_right _ _
  · exact Nat.le_refl _

/-- Leases may go or lose their lock, and new ones come without a lock. -/
theorem lighter_of_leases {before after : State} (files : after.files = before.files)
    (leases : forall id lease, after.leases.find id = some lease -> lease.live = true ->
      ∃ old, before.leases.find id = some old ∧ old.live = true ∧ old.reserved = lease.reserved) :
    Lighter before after := by
  have size : forall id, after.size id = before.size id := by
    intro id
    unfold State.size
    rw [files]
  intro id
  cases held : after.live id with
  | true =>
      rcases live_iff.mp held with ⟨lease, found, live⟩
      rcases leases id lease found live with ⟨old, there, alive, same⟩
      constructor
      · rw [charge_of_live found live, charge_of_live there alive, same, size]
      · intro _
        simp [occupied, live_iff.mpr ⟨old, there, alive⟩]
  | false =>
      constructor
      · rw [charge_of_dead held, size]
        exact size_le_charge before id
      · intro busy
        simp only [occupied, held, Bool.false_or, files] at busy
        simp [occupied, busy]

/-- Staging files may go, and those with a live lease come and grow up to what
the lease reserves. -/
theorem lighter_of_files {before after : State} (leases : after.leases = before.leases)
    (files : forall id size, after.files.find id = some size ->
      before.files.find id = some size ∨
        ∃ lease, before.leases.find id = some lease ∧ lease.live = true ∧
          size ≤ max lease.reserved (before.size id)) :
    Lighter before after := by
  have live : forall id, after.live id = before.live id := by
    intro id
    unfold State.live
    rw [leases]
  intro id
  cases file : after.files.find id with
  | none =>
      have none_ := size_eq_zero file
      constructor
      · unfold charge
        rw [live, leases, none_]
        split
        · exact max_le_max_left _ (Nat.zero_le _)
        · exact Nat.zero_le _
      · intro busy
        simp only [occupied, file, Option.isSome_none, Bool.or_false, live] at busy
        simp [occupied, busy]
  | some size =>
      rcases files id size file with same | ⟨lease, found, alive, small⟩
      · constructor
        · unfold charge State.size
          rw [live, leases, file, same]
        · intro _
          simp [occupied, same]
      · constructor
        · rw [charge_of_live (leases ▸ found) alive, charge_of_live found alive]
          refine max_le (Nat.le_max_left _ _) ?_
          simpa [State.size, file] using small
        · intro _
          simp [occupied, live_iff.mpr ⟨lease, found, alive⟩]

theorem lighter_of_same {before after : State} (leases : after.leases = before.leases)
    (files : after.files = before.files) : Lighter before after :=
  lighter_of_files leases (fun _ _ found => Or.inl (files ▸ found))

end State

end Budget

end TealDrive
