import TealDrive.Upload.BudgetLoad

namespace TealDrive

/-!
# The invariant of the ledger

The charge of one identifier grows in a single step of the whole protocol, when
a new lease is locked.  All other steps, of whichever process, leave every
charge as it is or lower it.  A scan therefore stays an upper bound on what it
has passed, although files come and go while it runs: its invariant says that
the identifiers it has passed are charged no more than its total, and that
every other identifier with a charge is still to come.
-/

open scoped BigOperators

namespace Budget

namespace State

/-- The lease of the call is there, and the call holds its lock. -/
def Owned (state : State) (run : Nat) (call : Call) : Prop :=
  ∃ lease, state.leases.find call.id = some lease ∧ lease.holder = some run ∧
    lease.reserved = call.bytes

/-- What the scan has passed is charged no more than its variables say. -/
structure Counted (state : State) (ledger : Ledger) (covered : Finset Uuid) : Prop where
  bytes : ∑ id ∈ covered, state.charge id ≤ ledger.total
  transfers : ∑ id ∈ covered, state.place id ≤ ledger.count
  accounted : forall id, id ∈ ledger.accounted -> id ∈ covered

/-- There is room for one more transfer. -/
def Room (limits : Limits) (state : State) (bytes : Nat) : Prop :=
  state.load + bytes ≤ limits.maximum ∧ state.number < limits.maxTransfers

/-- What holds at each place of a section. -/
def At (limits : Limits) (state : State) (run : Nat) (call : Call) : Place -> Prop
  | .opened | .discarding => True
  | .leases todo ledger =>
      (∃ covered, Counted state ledger covered) ∧
        forall id lease, state.leases.find id = some lease -> id ∈ ledger.accounted ∨ id ∈ todo
  | .probed id abandoned todo ledger =>
      (∃ covered, Counted state ledger covered) ∧
        (forall other lease, state.leases.find other = some lease ->
          other ∈ ledger.accounted ∨ other ∈ id :: todo) ∧
        (abandoned = true -> state.live id = false)
  | .files todo ledger =>
      (forall id lease, state.leases.find id = some lease -> id ∈ ledger.accounted) ∧
        ∃ covered, Counted state ledger covered ∧
          forall id, state.occupied id = true -> id ∈ covered ∨ id ∈ todo
  | .judged => Room limits state call.bytes
  | .created =>
      Room limits state call.bytes ∧
        ∃ lease, state.leases.find call.id = some lease ∧ lease.holder = none ∧
          lease.reserved = call.bytes
  | .flocked | .recorded => Owned state run call

/-- The phase of a call at a place of its section. -/
def phaseAt : Place -> Phase
  | .discarding => .dropping
  | _ => .reserving

structure Sound (limits : Limits) (state : State) : Prop where
  fresh : forall run call, state.calls.find run = some call -> run < state.next
  owned : forall run call, state.calls.find run = some call ->
    call.phase = .held ∨ call.phase = .dropping -> Owned state run call
  written : forall id lease run, state.leases.find id = some lease -> lease.holder = some run ->
    lease.content = some lease.reserved ∨
      state.global = some (run, .flocked) ∧ ∃ call, state.calls.find run = some call ∧ call.id = id
  inside : forall run place, state.global = some (run, place) ->
    ∃ call, state.calls.find run = some call ∧ call.phase = phaseAt place ∧
      At limits state run call place
  within : state.load ≤ limits.maximum ∧ state.number ≤ limits.maxTransfers

theorem sound_initial (limits : Limits) : Sound limits initial where
  fresh := by
    intro run call found
    cases found
  owned := by
    intro run call found
    cases found
  written := by
    intro id lease run found
    cases found
  inside := by
    intro run place global
    cases global
  within := ⟨Nat.zero_le _, Nat.zero_le _⟩

/-! ## Steps outside the section -/

/-- What a section of `run` sees of steps that others take. -/
structure Outside (run : Nat) (before after : State) : Prop where
  lighter : Lighter before after
  leases : forall id, after.leases.find id = before.leases.find id ∨
    ∃ lease, before.leases.find id = some lease ∧ lease.holder ≠ some run ∧
      after.leases.find id = some lease.abandon

theorem Outside.earlier {run : Nat} {before after : State} (outside : Outside run before after)
    {id : Uuid} {lease : Lease} (found : after.leases.find id = some lease) :
    ∃ old, before.leases.find id = some old := by
  rcases outside.leases id with same | ⟨old, there, _, _⟩
  · exact ⟨lease, same ▸ found⟩
  · exact ⟨old, there⟩

theorem Outside.live_le {run : Nat} {before after : State} (outside : Outside run before after)
    {id : Uuid} (dead : before.live id = false) : after.live id = false := by
  unfold live at *
  rcases outside.leases id with same | ⟨old, there, _, abandoned⟩
  · rw [same]
    exact dead
  · rw [abandoned]
    rfl

theorem Counted.lighter {before after : State} {ledger : Ledger} {covered : Finset Uuid}
    (counted : Counted before ledger covered) (lighter : Lighter before after) :
    Counted after ledger covered where
  bytes := (Finset.sum_le_sum (fun id _ => (lighter id).1)).trans counted.bytes
  transfers := (Finset.sum_le_sum (fun id _ => lighter.place_le id)).trans counted.transfers
  accounted := counted.accounted

theorem Room.lighter {limits : Limits} {before after : State} {bytes : Nat}
    (room : Room limits before bytes) (lighter : Lighter before after) :
    Room limits after bytes := by
  have load := lighter.load_le
  have number := lighter.number_le
  unfold Room at *
  omega

theorem Owned.outside {run : Nat} {before after : State} {call : Call}
    (owned : Owned before run call) (outside : Outside run before after) :
    Owned after run call := by
  rcases owned with ⟨lease, found, holder, reserved⟩
  rcases outside.leases call.id with same | ⟨old, there, other, _⟩
  · exact ⟨lease, same ▸ found, holder, reserved⟩
  · rw [found] at there
    cases there
    exact absurd holder other

/-- The knowledge of a section survives what others do. -/
theorem At.outside {limits : Limits} {run : Nat} {before after : State} {call : Call}
    {place : Place} (at_ : At limits before run call place) (outside : Outside run before after) :
    At limits after run call place := by
  have lighter := outside.lighter
  cases place with
  | opened => trivial
  | discarding => trivial
  | leases todo ledger =>
      rcases at_ with ⟨⟨covered, counted⟩, listed⟩
      refine ⟨⟨covered, counted.lighter lighter⟩, ?_⟩
      intro id lease found
      rcases outside.earlier found with ⟨old, there⟩
      exact listed id old there
  | probed id abandoned todo ledger =>
      rcases at_ with ⟨⟨covered, counted⟩, listed, dead⟩
      refine ⟨⟨covered, counted.lighter lighter⟩, ?_, fun free => outside.live_le (dead free)⟩
      intro other lease found
      rcases outside.earlier found with ⟨old, there⟩
      exact listed other old there
  | files todo ledger =>
      rcases at_ with ⟨listed, covered, counted, rest⟩
      refine ⟨?_, covered, counted.lighter lighter, ?_⟩
      · intro id lease found
        rcases outside.earlier found with ⟨old, there⟩
        exact listed id old there
      · intro id busy
        exact rest id ((lighter id).2 busy)
  | judged => exact Room.lighter at_ lighter
  | created =>
      rcases at_ with ⟨room, lease, found, holder, reserved⟩
      refine ⟨room.lighter lighter, ?_⟩
      rcases outside.leases call.id with same | ⟨old, there, _, abandoned⟩
      · exact ⟨lease, same ▸ found, holder, reserved⟩
      · rw [found] at there
        cases there
        exact ⟨lease.abandon, abandoned, rfl, reserved⟩
  | flocked => exact Owned.outside at_ outside
  | recorded => exact Owned.outside at_ outside

/-- A step outside the section keeps the invariant when it treats leases as
`Outside` says, keeps the call of the section, and leaves every reservation in
force with its lease. -/
theorem Sound.outside {limits : Limits} {before after : State} (sound : Sound limits before)
    (fresh : forall run call, after.calls.find run = some call -> run < after.next)
    (lighter : Lighter before after)
    (leases : forall id, after.leases.find id = before.leases.find id ∨
      after.leases.find id = (before.leases.find id).map Lease.abandon)
    (owned : forall run call, after.calls.find run = some call ->
      call.phase = .held ∨ call.phase = .dropping -> Owned after run call)
    (flocked : forall id lease run, after.leases.find id = some lease ->
      lease.holder = some run -> before.global = some (run, .flocked) ->
        after.global = some (run, .flocked))
    (inside : forall run place, after.global = some (run, place) ->
      before.global = some (run, place) ∧ Outside run before after ∧
        after.calls.find run = before.calls.find run) :
    Sound limits after where
  fresh := fresh
  owned := owned
  written := by
    intro id lease run found holder
    rcases leases id with same | gone
    · rcases sound.written id lease run (same ▸ found) holder with content | ⟨global, mine⟩
      · exact Or.inl content
      · have still := flocked id lease run found holder global
        rw [← (inside run .flocked still).2.2] at mine
        exact Or.inr ⟨still, mine⟩
    · rw [gone, Option.map_eq_some_iff] at found
      rcases found with ⟨old, _, rfl⟩
      cases holder
  inside := by
    intro run place global
    rcases inside run place global with ⟨earlier, outside, same⟩
    rcases sound.inside run place earlier with ⟨call, found, phase, at_⟩
    exact ⟨call, same.trans found, phase, at_.outside outside⟩
  within := ⟨lighter.load_le.trans sound.within.1, lighter.number_le.trans sound.within.2⟩

/-- Where no lease changes, nothing has to be said about leases. -/
theorem Sound.keep {limits : Limits} {before after : State} (sound : Sound limits before)
    (fresh : forall run call, after.calls.find run = some call -> run < after.next)
    (lighter : Lighter before after) (leases : after.leases = before.leases)
    (calls : forall run call, after.calls.find run = some call ->
      call.phase = .held ∨ call.phase = .dropping ->
        ∃ old, before.calls.find run = some old ∧ (old.phase = .held ∨ old.phase = .dropping) ∧
          old.id = call.id ∧ old.bytes = call.bytes)
    (global : after.global = before.global)
    (inside : forall run place, before.global = some (run, place) ->
      after.calls.find run = before.calls.find run) :
    Sound limits after := by
  refine sound.outside fresh lighter (fun id => Or.inl (by rw [leases])) ?_ ?_ ?_
  · intro run call found phase
    rcases calls run call found phase with ⟨old, there, before, same, amount⟩
    rcases sound.owned run old there before with ⟨lease, has, holder, reserved⟩
    exact ⟨lease, by rw [leases, ← same]; exact has, holder, by rw [reserved, amount]⟩
  · intro _ _ run _ _ place
    rw [global]
    exact place
  · intro run place entered
    rw [global] at entered
    exact ⟨entered, ⟨lighter, fun id => Or.inl (by rw [leases])⟩, inside run place entered⟩

/-- A call between its sections is not the one in the section. -/
theorem Sound.elsewhere {limits : Limits} {state : State} (sound : Sound limits state)
    {run other : Nat} {call : Call} {place : Place} (found : state.calls.find run = some call)
    (phase : call.phase ≠ phaseAt place) (global : state.global = some (other, place)) :
    other ≠ run := by
  rintro rfl
  rcases sound.inside other place global with ⟨same, there, at_, _⟩
  rw [found] at there
  cases there
  exact phase at_

theorem Sound.files {limits : Limits} {state : State} (sound : Sound limits state)
    {files : Table Uuid Nat} (lighter : Lighter state { state with files := files }) :
    Sound limits { state with files := files } :=
  sound.keep sound.fresh lighter rfl (fun _ call found phase => ⟨call, found, phase, rfl, rfl⟩) rfl
    (fun _ _ _ => rfl)

theorem sound_unstage {limits : Limits} {state : State} (sound : Sound limits state) (id : Uuid) :
    Sound limits (state.unstage id) := by
  refine sound.files (lighter_of_files rfl ?_)
  intro other size found
  exact Or.inl (Table.of_find_erase found).2

theorem sound_stage {limits : Limits} {state : State} (sound : Sound limits state) (run : Nat) :
    Sound limits (state.stage run) := by
  unfold stage
  cases found : state.calls.find run with
  | none => exact sound
  | some call =>
      dsimp only
      split
      case isFalse => exact sound
      case isTrue ready =>
        rcases sound.owned run call found (Or.inl ready.1) with ⟨lease, has, holder, _⟩
        refine sound.files (lighter_of_files rfl ?_)
        intro other size staged
        by_cases same : other = call.id
        · subst same
          change (state.files.insert call.id 0).find call.id = some size at staged
          rw [Table.find_insert_self] at staged
          cases staged
          exact Or.inr ⟨lease, has, by simp [Lease.live, holder], Nat.zero_le _⟩
        · change (state.files.insert call.id 0).find other = some size at staged
          rw [Table.find_insert_of_ne _ same] at staged
          exact Or.inl staged

theorem sound_write {limits : Limits} {state : State} (sound : Sound limits state)
    (run upto : Nat) : Sound limits (state.write run upto) := by
  unfold write
  cases found : state.calls.find run with
  | none => exact sound
  | some call =>
      dsimp only
      split
      case isFalse => exact sound
      case isTrue ready =>
        rcases sound.owned run call found (Or.inl ready.1) with ⟨lease, has, holder, reserved⟩
        refine sound.files (lighter_of_files rfl ?_)
        intro other size staged
        by_cases same : other = call.id
        · subst same
          change (state.files.modify call.id _).find call.id = some size at staged
          rw [Table.find_modify_self, Option.map_eq_some_iff] at staged
          rcases staged with ⟨old, there, rfl⟩
          refine Or.inr ⟨lease, has, by simp [Lease.live, holder], ?_⟩
          have before : state.size call.id = old := by simp [State.size, there]
          have bound := ready.2
          omega
        · change (state.files.modify call.id _).find other = some size at staged
          rw [Table.find_modify_of_ne _ same] at staged
          exact Or.inl staged

theorem sound_start {limits : Limits} {state : State} (sound : Sound limits state)
    (process : Nat) (id : Uuid) (bytes : Nat) :
    Sound limits (state.start limits process id bytes) := by
  unfold start
  split
  · exact sound
  · refine sound.keep ?_ (lighter_of_same rfl rfl) rfl ?_ rfl ?_
    · intro run call found
      by_cases same : run = state.next
      · rw [same]
        exact Nat.lt_succ_self _
      · change (state.calls.insert state.next _).find run = some call at found
        rw [Table.find_insert_of_ne _ same] at found
        exact (sound.fresh run call found).trans (Nat.lt_succ_self _)
    · intro run call found phase
      change (state.calls.insert state.next _).find run = some call at found
      by_cases same : run = state.next
      · rw [same, Table.find_insert_self] at found
        cases found
        simp at phase
      · rw [Table.find_insert_of_ne _ same] at found
        exact ⟨call, found, phase, rfl, rfl⟩
    · intro run place global
      rcases sound.inside run place global with ⟨call, found, _, _⟩
      exact Table.find_insert_of_ne _ (Nat.ne_of_lt (sound.fresh run call found))

theorem find_modify_found {Value : Type} {table : Table Nat Value} {key : Nat} {value : Value}
    {change : Value -> Value} (found : table.find key = some value) :
    (table.modify key change).find key = some (change value) := by
  rw [Table.find_modify_self, found]
  rfl

/-- Rewriting a call that is in no section, with its reservation as before. -/
theorem Sound.call {limits : Limits} {state : State} (sound : Sound limits state) {run : Nat}
    {call new : Call} {usage : Nat -> StageUsage} {released : List Nat} {calls : Table Nat Call}
    (found : state.calls.find run = some call)
    (idle : call.phase ≠ .reserving ∧ call.phase ≠ .dropping)
    (self : calls.find run = some new)
    (others : forall other, other ≠ run -> calls.find other = state.calls.find other)
    (same : new.id = call.id ∧ new.bytes = call.bytes)
    (phase : new.phase = .held ∨ new.phase = .dropping -> call.phase = .held) :
    Sound limits { state with usage := usage, released := released, calls := calls } := by
  refine sound.keep ?_ (lighter_of_same rfl rfl) rfl ?_ rfl ?_
  · intro other any there
    by_cases here : other = run
    · rw [here]
      exact sound.fresh run call found
    · exact sound.fresh other any ((others other here).symm.trans there)
  · intro other any there waits
    by_cases here : other = run
    · subst here
      change calls.find other = some any at there
      rw [self] at there
      cases there
      exact ⟨call, found, Or.inl (phase waits), same.1.symm, same.2.symm⟩
    · exact ⟨any, (others other here).symm.trans there, waits, rfl, rfl⟩
  · intro other place global
    apply others other
    apply sound.elsewhere found _ global
    cases place <;> simp [phaseAt, idle]

theorem sound_clone {limits : Limits} {state : State} (sound : Sound limits state) (run : Nat) :
    Sound limits (state.clone run) := by
  unfold clone
  cases found : state.calls.find run with
  | none => exact sound
  | some call =>
      dsimp only
      split
      case isFalse => exact sound
      case isTrue held =>
        refine sound.call found (by simp [held]) (find_modify_found found) (fun other different =>
          Table.find_modify_of_ne _ different) ⟨rfl, rfl⟩ (fun _ => held)

theorem sound_release {limits : Limits} {state : State} (sound : Sound limits state) (run : Nat) :
    Sound limits (state.release run) := by
  unfold release
  cases found : state.calls.find run with
  | none => exact sound
  | some call =>
      dsimp only
      split
      case isFalse => exact sound
      case isTrue ready =>
        have idle : call.phase ≠ .reserving ∧ call.phase ≠ .dropping := by
          rcases ready with held | refused
          · simp [held]
          · simp [refused]
        split
        · refine sound.call found idle (find_modify_found found) (fun other different =>
            Table.find_modify_of_ne _ different) ⟨rfl, rfl⟩ ?_
          intro phase
          rcases phase with held | dropping
          · exact held
          · exact absurd dropping idle.2
        · refine sound.call found idle (Table.find_insert_self _ _ _) (fun other different =>
            Table.find_insert_of_ne _ different) ⟨rfl, rfl⟩ ?_
          intro phase
          by_contra other
          simp [other] at phase

theorem live_of_holder {lease : Lease} {run : Nat} (holder : lease.holder = some run) :
    lease.live = true := by
  simp [Lease.live, holder]

/-- Leases of a table that loses the locks of some holders. -/
theorem lighter_of_abandon {before after : State} (files : after.files = before.files)
    (leases : forall id, after.leases.find id = before.leases.find id ∨
      after.leases.find id = (before.leases.find id).map Lease.abandon) :
    Lighter before after := by
  refine lighter_of_leases files ?_
  intro id lease found live
  rcases leases id with same | gone
  · exact ⟨lease, same ▸ found, live, rfl⟩
  · rw [gone, Option.map_eq_some_iff] at found
    rcases found with ⟨old, _, rfl⟩
    cases live

theorem sound_lose {limits : Limits} {state : State} (sound : Sound limits state) (run : Nat) :
    Sound limits (state.lose run) := by
  unfold lose
  cases found : state.calls.find run with
  | none => exact sound
  | some call =>
      dsimp only
      split
      case isFalse => exact sound
      case isTrue ready =>
        rcases sound.owned run call found (Or.inr ready.1) with ⟨lease, has, holder, _⟩
        -- The lease that loses its lock is that of the call.
        have mine : (state.leases.modify call.id Lease.abandon).find call.id =
            some lease.abandon := find_modify_found has
        have kept : forall id, id ≠ call.id ->
            (state.leases.modify call.id Lease.abandon).find id = state.leases.find id :=
          fun id different => Table.find_modify_of_ne _ different
        have leases : forall id,
            (state.leases.modify call.id Lease.abandon).find id = state.leases.find id ∨
              (state.leases.modify call.id Lease.abandon).find id =
                (state.leases.find id).map Lease.abandon := by
          intro id
          by_cases here : id = call.id
          · rw [here, Table.find_modify_self]
            exact Or.inr rfl
          · exact Or.inl (kept id here)
        have apart : forall other place, state.global = some (other, place) -> other ≠ run := by
          intro other place global
          by_cases closing : place = .discarding
          · subst closing
            rintro rfl
            exact ready.2 global
          · apply sound.elsewhere found _ global
            rw [ready.1]
            cases place <;> simp [phaseAt] at closing ⊢
        have calls : forall other, other ≠ run ->
            (state.calls.modify run (fun call => { call with phase := Phase.dropped })).find other =
              state.calls.find other := fun other different => Table.find_modify_of_ne _ different
        refine sound.outside ?_ (lighter_of_abandon rfl leases) leases ?_ ?_ ?_
        · intro other any there
          by_cases here : other = run
          · rw [here]
            exact sound.fresh run call found
          · exact sound.fresh other any ((calls other here).symm.trans there)
        · intro other any there phase
          by_cases here : other = run
          · subst here
            have new : any = { call with phase := .dropped } :=
              Option.some.inj (there.symm.trans (find_modify_found found))
            rw [new] at phase
            simp at phase
          · rcases sound.owned other any ((calls other here).symm.trans there) phase with
              ⟨held, hers, owner, reserved⟩
            have different : any.id ≠ call.id := by
              intro same
              rw [same, has] at hers
              cases hers
              rw [holder] at owner
              exact here (Option.some.inj owner).symm
            exact ⟨held, (kept any.id different).trans hers, owner, reserved⟩
        · intro id any other _ _ global
          exact global
        · intro other place global
          refine ⟨global, ⟨lighter_of_abandon rfl leases, ?_⟩, calls other (apart other place global)⟩
          intro id
          by_cases here : id = call.id
          · refine Or.inr ⟨lease, here ▸ has, ?_, here ▸ mine⟩
            rw [holder]
            exact fun same => apart other place global (Option.some.inj same).symm
          · exact Or.inl (kept id here)

theorem sound_crash {limits : Limits} {state : State} (sound : Sound limits state)
    (process : Nat) : Sound limits (state.crash process) := by
  -- A lease keeps its lock unless its holder belongs to the process.
  have find : forall id, (state.crash process).leases.find id =
      (state.leases.find id).map (fun lease =>
        if lease.holder.any (state.ofProcess process) then lease.abandon else lease) :=
    fun id => Table.find_map _ _ id
  have leases : forall id, (state.crash process).leases.find id = state.leases.find id ∨
      (state.crash process).leases.find id = (state.leases.find id).map Lease.abandon := by
    intro id
    rw [find]
    cases state.leases.find id with
    | none => exact Or.inl rfl
    | some lease =>
        simp only [Option.map_some]
        split
        · exact Or.inr rfl
        · exact Or.inl rfl
  have kept : forall id lease run, state.leases.find id = some lease ->
      lease.holder = some run -> state.ofProcess process run = false ->
        (state.crash process).leases.find id = some lease := by
    intro id lease run found holder foreign
    rw [find, found]
    simp [holder, foreign]
  have calls : forall run call, (state.crash process).calls.find run = some call ->
      state.calls.find run = some call ∧ state.ofProcess process run = false := by
    intro run call found
    have both := (Table.find_filter _ _ run).symm.trans found
    rw [Option.filter_eq_some_iff] at both
    refine ⟨both.1, ?_⟩
    simpa [ofProcess, both.1] using both.2
  refine sound.outside ?_ (lighter_of_abandon rfl leases) leases ?_ ?_ ?_
  · intro run call found
    exact sound.fresh run call (calls run call found).1
  · intro run call found phase
    rcases calls run call found with ⟨there, foreign⟩
    rcases sound.owned run call there phase with ⟨lease, has, holder, reserved⟩
    exact ⟨lease, kept call.id lease run has holder foreign, holder, reserved⟩
  · intro id lease run found holder global
    have foreign : state.ofProcess process run = false := by
      rw [find, Option.map_eq_some_iff] at found
      rcases found with ⟨old, _, changed⟩
      split at changed
      · rw [← changed] at holder
        cases holder
      · rename_i foreign
        rw [changed, holder] at foreign
        simpa using foreign
    change state.global.filter _ = some (run, Place.flocked)
    rw [global]
    simp [foreign]
  · intro run place global
    have both := Option.filter_eq_some_iff.mp global
    have foreign : state.ofProcess process run = false := by simpa using both.2
    refine ⟨both.1, ⟨lighter_of_abandon rfl leases, ?_⟩, ?_⟩
    · intro id
      cases has : state.leases.find id with
      | none =>
          rw [find, has]
          exact Or.inl rfl
      | some lease =>
          by_cases mine : lease.holder = some run
          · exact Or.inl (kept id lease run has mine foreign)
          · rcases leases id with same | gone
            · exact Or.inl (same.trans has)
            · rw [has] at gone
              exact Or.inr ⟨lease, rfl, mine, gone⟩
    · rcases sound.inside run place both.1 with ⟨call, found, _, _⟩
      refine (Table.find_filter _ _ run).trans ?_
      rw [found]
      have other : call.process ≠ process := by simpa [ofProcess, found] using foreign
      simp [other]

/-! ## Steps inside the section -/

/-- The section goes on to another place and leaves everything else. -/
theorem Sound.enter {limits : Limits} {state : State} {run : Nat} {call : Call}
    {place next : Place} (sound : Sound limits state) (global : state.global = some (run, place))
    (found : state.calls.find run = some call) (quiet : place ≠ .flocked)
    (phase : phaseAt next = phaseAt place) (at_ : At limits state run call next) :
    Sound limits (state.enter run next) where
  fresh := sound.fresh
  owned := sound.owned
  written := by
    intro id lease other there holder
    rcases sound.written id lease other there holder with content | ⟨flocked, _⟩
    · exact Or.inl content
    · rw [global] at flocked
      cases flocked
      exact absurd rfl quiet
  inside := by
    intro other now entered
    cases entered
    rcases sound.inside run place global with ⟨same, there, before, _⟩
    rw [found] at there
    cases there
    refine ⟨call, found, before.trans phase.symm, ?_⟩
    exact at_.outside ⟨lighter_of_same rfl rfl, fun _ => Or.inl rfl⟩
  within := sound.within

/-- `reserve` gives up before it has a lease. -/
theorem Sound.refuse {limits : Limits} {state : State} {run : Nat} {place : Place}
    (sound : Sound limits state) (global : state.global = some (run, place))
    (quiet : place ≠ .flocked) : Sound limits (state.refuse run) where
  fresh := by
    intro other call found
    have there := (Table.find_map _ _ other).symm.trans found
    rcases Option.map_eq_some_iff.mp there with ⟨old, before, _⟩
    exact sound.fresh other old before
  owned := by
    intro other call found phase
    by_cases here : other = run
    · subst here
      have there := (Table.find_modify_self _).symm.trans found
      rcases Option.map_eq_some_iff.mp there with ⟨old, _, rfl⟩
      simp at phase
    · exact sound.owned other call ((Table.find_modify_of_ne _ here).symm.trans found) phase
  written := by
    intro id lease other there holder
    rcases sound.written id lease other there holder with content | ⟨flocked, _⟩
    · exact Or.inl content
    · rw [global] at flocked
      cases flocked
      exact absurd rfl quiet
  inside := by
    intro other place entered
    cases entered
  within := sound.within

/-- The section rewrites one lease that nobody else holds. -/
theorem Sound.rewrite {limits : Limits} {before after : State} {run : Nat} {place : Place}
    {new : Call} (sound : Sound limits before) (key : Uuid)
    (global : before.global = some (run, place))
    (mine : forall lease other, before.leases.find key = some lease ->
      lease.holder = some other -> other = run)
    (quiet : place = .flocked -> forall call, before.calls.find run = some call -> call.id = key)
    (leases : forall id, id ≠ key -> after.leases.find id = before.leases.find id)
    (calls : forall other, other ≠ run -> after.calls.find other = before.calls.find other)
    (next : after.next = before.next) (self : after.calls.find run = some new)
    (owned : new.phase = .held ∨ new.phase = .dropping -> Owned after run new)
    (written : forall lease other, after.leases.find key = some lease ->
      lease.holder = some other -> lease.content = some lease.reserved ∨
        after.global = some (other, .flocked) ∧
          ∃ call, after.calls.find other = some call ∧ call.id = key)
    (inside : forall other place, after.global = some (other, place) ->
      other = run ∧ new.phase = phaseAt place ∧ At limits after run new place)
    (within : after.load ≤ limits.maximum ∧ after.number ≤ limits.maxTransfers) :
    Sound limits after where
  fresh := by
    intro other call found
    rw [next]
    by_cases here : other = run
    · rcases sound.inside run place global with ⟨old, there, _, _⟩
      rw [here]
      exact sound.fresh run old there
    · exact sound.fresh other call ((calls other here).symm.trans found)
  owned := by
    intro other call found phase
    by_cases here : other = run
    · subst here
      rw [self] at found
      cases found
      exact owned phase
    · rcases sound.owned other call ((calls other here).symm.trans found) phase with
        ⟨lease, has, holder, reserved⟩
      have different : call.id ≠ key := by
        intro same
        exact here (mine lease other (same ▸ has) holder)
      exact ⟨lease, (leases call.id different).trans has, holder, reserved⟩
  written := by
    intro id lease other found holder
    by_cases here : id = key
    · subst here
      exact written lease other found holder
    · rcases sound.written id lease other ((leases id here).symm.trans found) holder with
        content | ⟨flocked, call, there, same⟩
      · exact Or.inl content
      · rw [global] at flocked
        cases flocked
        exact absurd (same.symm.trans (quiet rfl call there)) here
  inside := by
    intro other place entered
    rcases inside other place entered with ⟨same, phase, at_⟩
    subst same
    exact ⟨new, self, phase, at_⟩
  within := within

theorem sound_lock {limits : Limits} {state : State} (sound : Sound limits state) (run : Nat) :
    Sound limits (state.lock run) := by
  unfold lock
  split
  case h_2 => exact sound
  case h_1 call free found =>
    have content : forall id lease other, state.leases.find id = some lease ->
        lease.holder = some other -> lease.content = some lease.reserved := by
      intro id lease other there holder
      rcases sound.written id lease other there holder with content | ⟨flocked, _⟩
      · exact content
      · rw [free] at flocked
        cases flocked
    split
    case h_3 => exact sound
    case h_1 admitted =>
      refine ⟨?_, ?_, ?_, ?_, sound.within⟩
      · intro other any there
        rcases Option.map_eq_some_iff.mp ((Table.find_map _ _ other).symm.trans there) with
          ⟨old, before, _⟩
        exact sound.fresh other old before
      · intro other any there phase
        by_cases here : other = run
        · subst here
          have new := Option.some.inj (there.symm.trans (find_modify_found found))
          rw [new] at phase
          simp at phase
        · exact sound.owned other any ((Table.find_modify_of_ne _ here).symm.trans there) phase
      · intro id lease other there holder
        exact Or.inl (content id lease other there holder)
      · intro other place entered
        cases entered
        exact ⟨_, find_modify_found found, rfl, trivial⟩
    case h_2 dropping =>
      refine ⟨sound.fresh, sound.owned, ?_, ?_, sound.within⟩
      · intro id lease other there holder
        exact Or.inl (content id lease other there holder)
      · intro other place entered
        cases entered
        exact ⟨call, found, dropping, trivial⟩

theorem sound_listLeases {limits : Limits} {state : State} (sound : Sound limits state)
    (names : List Uuid) : Sound limits (state.listLeases names) := by
  unfold listLeases
  split
  case h_2 => exact sound
  case h_1 run global =>
    rcases sound.inside run _ global with ⟨call, found, _, _⟩
    split
    case isFalse => exact sound
    case isTrue all =>
      refine sound.enter global found (by simp) rfl ⟨⟨∅, ?_⟩, ?_⟩
      · exact ⟨Nat.le_refl 0, Nat.le_refl 0, fun id none_ => absurd none_ List.not_mem_nil⟩
      · intro id lease there
        have member := List.all_eq_true.mp all _ (Table.find_eq_some_iff.mp there)
        exact Or.inr (by simpa using member)

theorem sound_probe {limits : Limits} {state : State} (sound : Sound limits state) :
    Sound limits state.probe := by
  unfold probe
  split
  case h_2 => exact sound
  case h_1 run id todo ledger global =>
    rcases sound.inside run _ global with ⟨call, found, _, counted, listed⟩
    split
    · exact sound.refuse global (by simp)
    · rename_i lease there
      refine sound.enter global found (by simp) rfl ⟨counted, listed, ?_⟩
      intro dead
      simpa [live, there] using dead

theorem Counted.insert {state : State} {ledger charged : Ledger} {covered : Finset Uuid}
    {id : Uuid} {amount : Nat} (counted : Counted state ledger covered)
    (enough : state.charge id ≤ amount) (added : ledger.charge amount = some charged) :
    Counted state charged (insert id covered) := by
  unfold Ledger.charge at added
  split at added
  case isFalse => cases added
  case isTrue =>
    cases added
    have one : state.place id ≤ 1 := by
      unfold place
      split <;> omega
    refine ⟨?_, ?_, fun other member => Finset.mem_insert_of_mem (counted.accounted other member)⟩
    · have bytes := counted.bytes
      by_cases again : id ∈ covered
      · rw [Finset.insert_eq_of_mem again]
        exact bytes.trans (Nat.le_add_right _ _)
      · rw [Finset.sum_insert again]
        dsimp only
        omega
    · have transfers := counted.transfers
      by_cases again : id ∈ covered
      · rw [Finset.insert_eq_of_mem again]
        exact transfers.trans (Nat.le_add_right _ _)
      · rw [Finset.sum_insert again]
        dsimp only
        omega

theorem Counted.note {state : State} {ledger : Ledger} {covered : Finset Uuid} {id : Uuid}
    (counted : Counted state ledger covered) (member : id ∈ covered) :
    Counted state { ledger with accounted := id :: ledger.accounted } covered where
  bytes := counted.bytes
  transfers := counted.transfers
  accounted := by
    intro other listed
    rcases List.mem_cons.mp listed with here | there
    · rw [here]
      exact member
    · exact counted.accounted other there

/-- One more lease is charged with at least what it contributes. -/
theorem sound_account {limits : Limits} {state : State} {run : Nat} {id : Uuid}
    {abandoned : Bool} {todo : List Uuid} {ledger : Ledger} {amount : Nat}
    (sound : Sound limits state)
    (global : state.global = some (run, .probed id abandoned todo ledger))
    (enough : state.charge id ≤ amount) :
    Sound limits (state.account run id todo ledger amount) := by
  unfold account
  rcases sound.inside run _ global with ⟨call, found, _, ⟨covered, counted⟩, listed, _⟩
  split
  · exact sound.refuse global (by simp)
  · rename_i charged added
    have kept : charged.accounted = ledger.accounted := by
      unfold Ledger.charge at added
      split at added <;> cases added
      rfl
    refine sound.enter global found (by simp) rfl ⟨⟨insert id covered, ?_⟩, ?_⟩
    · exact (counted.insert enough added).note (Finset.mem_insert_self id covered)
    · intro other lease there
      rcases listed other lease there with before | later
      · exact Or.inl (List.mem_cons_of_mem id (kept ▸ before))
      · rcases List.mem_cons.mp later with here | after
        · rw [here]
          exact Or.inl List.mem_cons_self
        · exact Or.inr after

/-- An abandoned lease without a file goes. -/
theorem sound_collect {limits : Limits} {state : State} {run : Nat} {id : Uuid}
    {todo : List Uuid} {ledger : Ledger} (sound : Sound limits state)
    (global : state.global = some (run, .probed id true todo ledger)) :
    Sound limits ({ state with leases := state.leases.erase id }.enter run (.leases todo ledger)) := by
  rcases sound.inside run _ global with ⟨call, found, phase, ⟨covered, counted⟩, listed, dead⟩
  have lighter : Lighter state
      ({ state with leases := state.leases.erase id }.enter run (.leases todo ledger)) := by
    refine lighter_of_leases rfl ?_
    intro other lease there live
    exact ⟨lease, (Table.of_find_erase there).2, live, rfl⟩
  refine sound.rewrite id global ?_ (by simp) ?_ (fun _ _ => rfl) rfl found ?_ ?_ ?_ ?_
  · intro lease other there holder
    have live : state.live id = true := live_iff.mpr ⟨lease, there, live_of_holder holder⟩
    rw [dead rfl] at live
    cases live
  · intro other different
    exact Table.find_erase_of_ne different
  · intro waits
    rw [phase] at waits
    simp [phaseAt] at waits
  · intro lease other there
    exact absurd there (by simp [enter, Table.find_erase_self])
  · intro other place entered
    cases entered
    refine ⟨rfl, phase, ⟨covered, counted.lighter lighter⟩, ?_⟩
    intro other lease there
    rcases Table.of_find_erase there with ⟨different, before⟩
    rcases listed other lease before with early | later
    · exact Or.inl early
    · exact Or.inr (List.mem_of_ne_of_mem different later)
  · exact ⟨lighter.load_le.trans sound.within.1, lighter.number_le.trans sound.within.2⟩

theorem sound_measure {limits : Limits} {state : State} (sound : Sound limits state) :
    Sound limits state.measure := by
  unfold measure
  split
  case h_3 => exact sound
  case h_1 run id todo ledger global =>
    split
    · exact sound_collect sound global
    · rename_i actual staged
      rcases sound.inside run _ global with ⟨_, _, _, _, _, dead⟩
      refine sound_account sound global ?_
      rw [charge_of_dead (dead rfl)]
      simp [size, staged]
  case h_2 run id todo ledger global =>
    split
    · exact sound.refuse global (by simp)
    · rename_i content spelled
      refine sound_account sound global ?_
      cases held : state.live id with
      | false =>
          rw [charge_of_dead held]
          exact Nat.le_max_right _ _
      | true =>
          rcases live_iff.mp held with ⟨lease, there, live⟩
          rcases Option.isSome_iff_exists.mp live with ⟨holder, holds⟩
          rw [there] at spelled
          -- The creator of a live lease has left the section, so the amount is written.
          rcases sound.written id lease holder there holds with written | ⟨flocked, _⟩
          · have same : content = lease.reserved :=
              Option.some.inj (spelled.symm.trans written)
            rw [charge_of_live there live, same]
          · rw [global] at flocked
            cases flocked

theorem sound_listFiles {limits : Limits} {state : State} (sound : Sound limits state)
    (names : List Uuid) : Sound limits (state.listFiles names) := by
  unfold listFiles
  split
  case h_2 => exact sound
  case h_1 run ledger global =>
    rcases sound.inside run _ global with ⟨call, found, _, ⟨covered, counted⟩, listed⟩
    split
    case isFalse => exact sound
    case isTrue all =>
      have passed : forall id lease, state.leases.find id = some lease ->
          id ∈ ledger.accounted := by
        intro id lease there
        rcases listed id lease there with before | none_
        · exact before
        · exact absurd none_ List.not_mem_nil
      refine sound.enter global found (by simp) rfl ⟨passed, covered, counted, ?_⟩
      intro id busy
      rcases Bool.or_eq_true_iff.mp busy with live | staged
      · rcases live_iff.mp live with ⟨lease, there, _⟩
        exact Or.inl (counted.accounted id (passed id lease there))
      · rcases Option.isSome_iff_exists.mp staged with ⟨size, there⟩
        have member := List.all_eq_true.mp all _ (Table.find_eq_some_iff.mp there)
        exact Or.inr (by simpa using member)

theorem sound_nextFile {limits : Limits} {state : State} (sound : Sound limits state)
    (listed : Bool) : Sound limits (state.nextFile listed) := by
  unfold nextFile
  split
  case h_2 => exact sound
  case h_1 run id todo ledger global =>
    rcases sound.inside run _ global with ⟨call, found, _, passed, covered, counted, rest⟩
    split
    case isTrue known =>
      refine sound.enter global found (by simp) rfl ⟨passed, covered, counted, ?_⟩
      intro other busy
      rcases rest other busy with before | later
      · exact Or.inl before
      · rcases List.mem_cons.mp later with here | after
        · rw [here]
          exact Or.inl (counted.accounted id (by simpa using known))
        · exact Or.inr after
    case isFalse unknown =>
      -- A lease would have been accounted for, so the identifier has none.
      have dead : state.live id = false := by
        cases live : state.live id with
        | false => rfl
        | true =>
            rcases live_iff.mp live with ⟨lease, there, _⟩
            exact absurd (passed id lease there) (by simpa using unknown)
      cases staged : state.files.find id with
      | none =>
          dsimp only
          split
          · exact sound.refuse global (by simp)
          · refine sound.enter global found (by simp) rfl ⟨passed, covered, counted, ?_⟩
            intro other busy
            rcases rest other busy with before | later
            · exact Or.inl before
            · rcases List.mem_cons.mp later with here | after
              · rw [here] at busy
                simp [occupied, dead, staged] at busy
              · exact Or.inr after
      | some actual =>
          dsimp only
          split
          · exact sound.refuse global (by simp)
          · rename_i charged added
            have kept : charged.accounted = ledger.accounted := by
              unfold Ledger.charge at added
              split at added <;> cases added
              rfl
            have enough : state.charge id ≤ actual := by
              rw [charge_of_dead dead]
              simp [size, staged]
            refine sound.enter global found (by simp) rfl
              ⟨fun other lease there => kept ▸ passed other lease there, insert id covered,
                counted.insert enough added, ?_⟩
            intro other busy
            rcases rest other busy with before | later
            · exact Or.inl (Finset.mem_insert_of_mem before)
            · rcases List.mem_cons.mp later with here | after
              · rw [here]
                exact Or.inl (Finset.mem_insert_self id covered)
              · exact Or.inr after

theorem sound_judge {limits : Limits} {state : State} (sound : Sound limits state) :
    Sound limits (state.judge limits) := by
  unfold judge
  split
  case h_2 => exact sound
  case h_1 run ledger global =>
    rcases sound.inside run _ global with ⟨call, found, _, _, covered, counted, rest⟩
    simp only [found]
    split
    case isFalse => exact sound.refuse global (by simp)
    case isTrue fits =>
      have all : forall id, state.occupied id = true -> id ∈ covered := by
        intro id busy
        rcases rest id busy with before | none_
        · exact before
        · exact absurd none_ List.not_mem_nil
      have load : state.load ≤ ledger.total := (load_eq_sum covered all).trans_le counted.bytes
      have number : state.number ≤ ledger.count :=
        (number_eq_sum covered all).trans_le counted.transfers
      refine sound.enter global found (by simp) rfl ?_
      change state.load + call.bytes ≤ limits.maximum ∧ state.number < limits.maxTransfers
      omega

theorem sound_create {limits : Limits} {state : State} (sound : Sound limits state) :
    Sound limits state.create := by
  unfold create
  split
  case h_2 => exact sound
  case h_1 run global =>
    rcases sound.inside run _ global with ⟨call, found, phase, room⟩
    simp only [found]
    split
    · exact sound.refuse global (by simp)
    · rename_i absent
      let lease : Lease := { reserved := call.bytes, content := none, holder := none }
      have lighter : Lighter state
          ({ state with leases := state.leases.insert call.id lease }.enter run .created) := by
        refine lighter_of_leases rfl ?_
        intro other held there live
        by_cases here : other = call.id
        · have new : held = lease := by
            rw [here] at there
            exact Option.some.inj (there.symm.trans (Table.find_insert_self _ _ _))
          rw [new] at live
          cases live
        · exact ⟨held, (Table.find_insert_of_ne _ here).symm.trans there, live, rfl⟩
      refine sound.rewrite call.id global ?_ (by simp) ?_ (fun _ _ => rfl) rfl found ?_ ?_ ?_ ?_
      · intro held other there
        rw [absent] at there
        cases there
      · intro other different
        exact Table.find_insert_of_ne _ different
      · intro waits
        rw [phase] at waits
        simp [phaseAt] at waits
      · intro held other there holder
        have new : held = lease := Option.some.inj (there.symm.trans (Table.find_insert_self _ _ _))
        rw [new] at holder
        cases holder
      · intro other place entered
        cases entered
        exact ⟨rfl, phase, Room.lighter room lighter, lease, Table.find_insert_self _ _ _, rfl, rfl⟩
      · exact ⟨lighter.load_le.trans sound.within.1, lighter.number_le.trans sound.within.2⟩

/-- The identifiers with a charge when only one is added. -/
theorem mem_ids_or {before after : State} {key : Uuid}
    (busy : forall id, after.occupied id = true -> before.occupied id = true ∨ id = key)
    {id : Uuid} (now : after.occupied id = true) : id ∈ insert key before.ids := by
  rcases busy id now with earlier | same
  · exact Finset.mem_insert_of_mem (mem_ids earlier)
  · rw [same]
    exact Finset.mem_insert_self key before.ids

/-- One identifier grows by an amount. -/
theorem load_le_add {before after : State} {key : Uuid} {amount : Nat}
    (charges : forall id, after.charge id ≤ before.charge id + if id = key then amount else 0)
    (busy : forall id, after.occupied id = true -> before.occupied id = true ∨ id = key) :
    after.load ≤ before.load + amount := by
  rw [load_eq_sum (insert key before.ids) (fun _ => mem_ids_or busy),
    load_eq_sum (insert key before.ids)
      (fun id earlier => Finset.mem_insert_of_mem (mem_ids earlier))]
  exact Table.sum_le_sum_add key _ charges

theorem number_le_succ {before after : State} {key : Uuid}
    (busy : forall id, after.occupied id = true -> before.occupied id = true ∨ id = key) :
    after.number ≤ before.number + 1 := by
  rw [number_eq_sum (insert key before.ids) (fun _ => mem_ids_or busy),
    number_eq_sum (insert key before.ids)
      (fun id earlier => Finset.mem_insert_of_mem (mem_ids earlier))]
  refine Table.sum_le_sum_add key _ ?_
  intro id
  unfold place
  split
  case isTrue now =>
    rcases busy id now with earlier | same
    · simp [earlier]
    · simp [same]
  case isFalse => exact Nat.zero_le _

/-- The step that makes the load grow: the room was judged to be there. -/
theorem sound_flock {limits : Limits} {state : State} (sound : Sound limits state) :
    Sound limits state.flock := by
  unfold flock
  split
  case h_2 => exact sound
  case h_1 run global =>
    rcases sound.inside run _ global with ⟨call, found, phase, room, lease, has, free, reserved⟩
    simp only [found]
    let held : Lease := { lease with holder := some run }
    let after := (state.setLease call (fun lease => { lease with holder := some run })).enter
      run .flocked
    have mine : after.leases.find call.id = some held := find_modify_found has
    have kept : forall id, id ≠ call.id -> after.leases.find id = state.leases.find id :=
      fun id different => Table.find_modify_of_ne _ different
    have charges : forall id, after.charge id ≤
        state.charge id + if id = call.id then call.bytes else 0 := by
      intro id
      by_cases here : id = call.id
      · subst here
        have before := size_le_charge state call.id
        have same : after.size call.id = state.size call.id := rfl
        have now : after.charge call.id = max held.reserved (after.size call.id) :=
          charge_of_live mine rfl
        have amount : held.reserved = call.bytes := reserved
        rw [if_pos rfl]
        omega
      · have same : after.charge id = state.charge id := by
          unfold charge live size
          rw [kept id here]
          rfl
        rw [same]
        exact Nat.le_add_right _ _
    have busy : forall id, after.occupied id = true -> state.occupied id = true ∨ id = call.id := by
      intro id now
      by_cases here : id = call.id
      · exact Or.inr here
      · refine Or.inl ?_
        unfold occupied live at now ⊢
        rw [kept id here] at now
        exact now
    have load := load_le_add charges busy
    have number := number_le_succ busy
    refine sound.rewrite call.id global ?_ (by simp) kept (fun _ _ => rfl) rfl found
      ?_ ?_ ?_ ?_
    · intro old other there holder
      rw [has] at there
      cases there
      rw [free] at holder
      cases holder
    · intro waits
      rw [phase] at waits
      simp [phaseAt] at waits
    · intro now other there holder
      rw [mine] at there
      cases there
      cases holder
      exact Or.inr ⟨rfl, call, found, rfl⟩
    · intro other place entered
      cases entered
      exact ⟨rfl, phase, held, mine, rfl, reserved⟩
    · unfold Room at room
      change after.load ≤ _ ∧ after.number ≤ _
      omega

theorem sound_record {limits : Limits} {state : State} (sound : Sound limits state) :
    Sound limits state.record := by
  unfold record
  split
  case h_2 => exact sound
  case h_1 run global =>
    rcases sound.inside run _ global with ⟨call, found, phase, lease, has, holder, reserved⟩
    simp only [found]
    let spelled : Lease := { lease with content := some call.bytes }
    let after := (state.setLease call (fun lease => { lease with content := some call.bytes })).enter
      run .recorded
    have mine : after.leases.find call.id = some spelled := find_modify_found has
    have kept : forall id, id ≠ call.id -> after.leases.find id = state.leases.find id :=
      fun id different => Table.find_modify_of_ne _ different
    have lighter : Lighter state after := by
      refine lighter_of_leases rfl ?_
      intro other any there live
      by_cases here : other = call.id
      · rw [here, mine] at there
        cases there
        exact ⟨lease, here ▸ has, live, rfl⟩
      · exact ⟨any, (kept other here).symm.trans there, live, rfl⟩
    refine sound.rewrite call.id global ?_ ?_ kept (fun _ _ => rfl) rfl found
      ?_ ?_ ?_ ?_
    · intro old other there owner
      rw [has] at there
      cases there
      exact (Option.some.inj (holder.symm.trans owner)).symm
    · intro _ any there
      rw [found] at there
      cases there
      rfl
    · intro waits
      rw [phase] at waits
      simp [phaseAt] at waits
    · intro any other there _
      rw [mine] at there
      cases there
      exact Or.inl (congrArg some reserved.symm)
    · intro other place entered
      cases entered
      exact ⟨rfl, phase, spelled, mine, holder, reserved⟩
    · exact ⟨lighter.load_le.trans sound.within.1, lighter.number_le.trans sound.within.2⟩

/-- A section ends and its lease loses the lock or goes. -/
theorem Sound.close {limits : Limits} {state : State} {run : Nat} {call : Call} {place : Place}
    {phase : Phase} (sound : Sound limits state) (global : state.global = some (run, place))
    (found : state.calls.find run = some call) (beyond : phase ≠ .held ∧ phase ≠ .dropping)
    (mine : forall lease other, state.leases.find call.id = some lease ->
      lease.holder = some other -> other = run)
    {leases : Table Uuid Lease}
    (dead : forall lease, leases.find call.id = some lease -> lease.holder = none)
    (kept : forall id, id ≠ call.id -> leases.find id = state.leases.find id) :
    Sound limits
      { { state with leases := leases }.setPhase run phase with global := none } := by
  have lighter : Lighter state
      { { state with leases := leases }.setPhase run phase with global := none } := by
    refine lighter_of_leases rfl ?_
    intro id lease there live
    by_cases here : id = call.id
    · have gone := dead lease (here ▸ there)
      simp [Lease.live, gone] at live
    · exact ⟨lease, (kept id here).symm.trans there, live, rfl⟩
  refine sound.rewrite call.id global mine ?_ kept
    (fun other different => Table.find_modify_of_ne _ different) rfl (find_modify_found found)
    ?_ ?_ ?_ ?_
  · intro _ any there
    rw [found] at there
    cases there
    rfl
  · intro waits
    simp [beyond] at waits
  · intro lease other there holder
    rw [dead lease there] at holder
    cases holder
  · intro other place entered
    cases entered
  · exact ⟨lighter.load_le.trans sound.within.1, lighter.number_le.trans sound.within.2⟩

theorem leave_kept (state : State) (call : Call) (left : Option (Option Nat)) :
    ∃ leases, state.leave call left = { state with leases := leases } ∧
      (forall lease, leases.find call.id = some lease -> lease.holder = none) ∧
      forall id, id ≠ call.id -> leases.find id = state.leases.find id := by
  cases left with
  | none =>
      refine ⟨state.leases.erase call.id, rfl, ?_, fun id different =>
        Table.find_erase_of_ne different⟩
      intro lease there
      rw [Table.find_erase_self] at there
      cases there
  | some content =>
      refine ⟨_, rfl, ?_, fun id different => Table.find_modify_of_ne _ different⟩
      intro lease there
      rw [Table.find_modify_self, Option.map_eq_some_iff] at there
      rcases there with ⟨old, _, rfl⟩
      rfl

theorem sound_leave {limits : Limits} {state : State} {run : Nat} {call : Call} {place : Place}
    (sound : Sound limits state) (global : state.global = some (run, place))
    (found : state.calls.find run = some call)
    (mine : forall lease other, state.leases.find call.id = some lease ->
      lease.holder = some other -> other = run)
    (left : Option (Option Nat)) : Sound limits ((state.leave call left).refuse run) := by
  rcases leave_kept state call left with ⟨leases, same, dead, kept⟩
  rw [same]
  exact sound.close global found (by simp) mine dead kept

theorem Owned.mine {state : State} {run : Nat} {call : Call} (owned : Owned state run call)
    {lease : Lease} {other : Nat} (there : state.leases.find call.id = some lease)
    (holder : lease.holder = some other) : other = run := by
  rcases owned with ⟨held, has, owner, _⟩
  rw [has] at there
  cases there
  exact (Option.some.inj (owner.symm.trans holder)).symm

theorem sound_fail {limits : Limits} {state : State} (sound : Sound limits state)
    (left : Option (Option Nat)) : Sound limits (state.fail left) := by
  unfold fail
  split
  case h_1 => exact sound
  case h_2 run place global =>
    rcases sound.inside run place global with ⟨call, found, _, at_⟩
    simp only [found]
    cases place with
    | discarding => exact sound
    | created =>
        rcases at_ with ⟨_, lease, has, free, _⟩
        refine sound_leave sound global found ?_ left
        intro old other there holder
        rw [has] at there
        cases there
        rw [free] at holder
        cases holder
    | flocked =>
        exact sound_leave sound global found (fun _ _ there holder => Owned.mine at_ there holder) left
    | recorded =>
        exact sound_leave sound global found (fun _ _ there holder => Owned.mine at_ there holder) left
    | opened => exact sound.refuse global (by simp)
    | leases => exact sound.refuse global (by simp)
    | probed => exact sound.refuse global (by simp)
    | files => exact sound.refuse global (by simp)
    | judged => exact sound.refuse global (by simp)

theorem sound_discard {limits : Limits} {state : State} (sound : Sound limits state)
    (removed : Bool) : Sound limits (state.discard removed) := by
  unfold discard
  split
  case h_2 => exact sound
  case h_1 run global =>
    rcases sound.inside run _ global with ⟨call, found, phase, _⟩
    have owned := sound.owned run call found (Or.inr phase)
    simp only [found]
    cases removed with
    | true =>
        refine sound.close global found (by simp) (fun _ _ there holder => owned.mine there holder)
          ?_ (fun id different => Table.find_erase_of_ne different)
        intro lease there
        rw [Table.find_erase_self] at there
        cases there
    | false =>
        refine sound.close global found (by simp) (fun _ _ there holder => owned.mine there holder)
          ?_ (fun id different => Table.find_modify_of_ne _ different)
        intro lease there
        rw [Table.find_modify_self, Option.map_eq_some_iff] at there
        rcases there with ⟨old, _, rfl⟩
        rfl

/-- `reserve` succeeds: the amount is written and the lock of the lease held. -/
theorem sound_finish {limits : Limits} {state : State} (sound : Sound limits state) :
    Sound limits state.finish := by
  unfold finish
  split
  case h_2 => exact sound
  case h_1 run global =>
    rcases sound.inside run _ global with ⟨call, found, _, owned⟩
    refine sound.rewrite call.id global (fun _ _ there holder => Owned.mine owned there holder)
      (by simp) (fun _ _ => rfl) (fun other different => Table.find_modify_of_ne _ different) rfl
      (find_modify_found found) (fun _ => owned) ?_ ?_ sound.within
    · intro lease other there holder
      rcases sound.written call.id lease other there holder with content | ⟨flocked, _⟩
      · exact Or.inl content
      · rw [global] at flocked
        cases flocked
    · intro other place entered
      cases entered

/-- Every step of every process keeps the invariant. -/
theorem sound_step {limits : Limits} {state : State} (operation : Step)
    (sound : Sound limits state) : Sound limits (step limits state operation) := by
  cases operation with
  | start process id bytes => exact sound_start sound process id bytes
  | lock run => exact sound_lock sound run
  | listLeases names => exact sound_listLeases sound names
  | probe => exact sound_probe sound
  | measure => exact sound_measure sound
  | listFiles names => exact sound_listFiles sound names
  | nextFile listed => exact sound_nextFile sound listed
  | judge => exact sound_judge sound
  | create => exact sound_create sound
  | flock => exact sound_flock sound
  | record => exact sound_record sound
  | finish => exact sound_finish sound
  | fail left => exact sound_fail sound left
  | stage run => exact sound_stage sound run
  | write run upto => exact sound_write sound run upto
  | unstage id => exact sound_unstage sound id
  | clone run => exact sound_clone sound run
  | release run => exact sound_release sound run
  | discard removed => exact sound_discard sound removed
  | lose run => exact sound_lose sound run
  | crash process => exact sound_crash sound process

end State

end Budget

end TealDrive
