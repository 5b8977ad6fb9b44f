import TealDrive.Upload.BudgetSteps

namespace TealDrive

/-!
# The staging budget over all interleavings

The counters of the processes follow their permits through every step.  With
the invariant of the ledger this settles what any number of processes can do to
the shared directory and to their own counters.
-/

namespace Budget

namespace State

/-- What one call contributes to the counter of a process. -/
def share (process : Nat) (call : Call) : Nat :=
  if call.process = process ∧ 0 < call.clones then 1 else 0

theorem permits_eq (state : State) (process : Nat) :
    state.permits process =
      ⟨state.calls.total (fun _ call => share process call * call.bytes),
        state.calls.total (fun _ call => share process call)⟩ := by
  unfold permits
  rw [Table.count_eq_total]
  congr 1
  · congr 1
    funext run call
    unfold share
    split <;> simp
  · congr 1
    funext run call
    unfold share
    by_cases held : call.process = process ∧ 0 < call.clones <;> simp [held]

/-- A call whose contribution to every counter stays. -/
theorem permits_modify (state : State) (run : Nat) (change : Call -> Call)
    (same : forall process call, share process (change call) = share process call)
    (bytes : forall call, (change call).bytes = call.bytes) (process : Nat) :
    { state with calls := state.calls.modify run change }.permits process =
      state.permits process := by
  rw [permits_eq, permits_eq]
  unfold Table.modify
  simp only [Table.total_map]
  congr 1
  · congr 1
    funext other call
    split
    · rw [same, bytes]
    · rfl
  · congr 1
    funext other call
    split
    · rw [same]
    · rfl

/-- The counters are right, and a permit was dropped exactly when no clone of it
is left. -/
structure Tallied (state : State) : Prop where
  usage : forall process, state.usage process = state.permits process
  once : state.released.Nodup
  past : forall run, run ∈ state.released -> run < state.next
  dropped : forall run call, state.calls.find run = some call ->
    (run ∈ state.released ↔ call.clones = 0)
  clones : forall run call, state.calls.find run = some call ->
    (call.clones = 0 ↔ call.phase = .dropping ∨ call.phase = .dropped)

theorem tallied_initial : Tallied initial where
  usage := fun _ => rfl
  once := List.nodup_nil
  past := fun _ none_ => absurd none_ List.not_mem_nil
  dropped := by
    intro run call found
    cases found
  clones := by
    intro run call found
    cases found

/-- Steps that leave calls and counters alone. -/
theorem Tallied.same {before after : State} (tallied : Tallied before)
    (calls : after.calls = before.calls) (usage : after.usage = before.usage)
    (released : after.released = before.released) (next : after.next = before.next) :
    Tallied after where
  usage := by
    intro process
    rw [usage, tallied.usage, permits_eq, permits_eq, calls]
  once := released ▸ tallied.once
  past := by
    rw [released, next]
    exact tallied.past
  dropped := by
    rw [calls, released]
    exact tallied.dropped
  clones := by
    rw [calls]
    exact tallied.clones

/-- A call moves on; whether it has clones left does not change. -/
theorem Tallied.phase {state : State} (tallied : Tallied state) {run : Nat} {call : Call}
    (phase : Phase) (found : state.calls.find run = some call)
    (kind : (phase = .dropping ∨ phase = .dropped) ↔
      (call.phase = .dropping ∨ call.phase = .dropped)) :
    Tallied (state.setPhase run phase) where
  usage := by
    intro process
    have same := permits_modify state run (fun call => { call with phase := phase })
      (fun _ _ => rfl) (fun _ => rfl) process
    exact (tallied.usage process).trans same.symm
  once := tallied.once
  past := tallied.past
  dropped := by
    intro other any there
    rcases Option.map_eq_some_iff.mp ((Table.find_map _ _ other).symm.trans there) with
      ⟨old, before, changed⟩
    have same : any.clones = old.clones := by
      rw [← changed]
      split <;> rfl
    rw [same]
    exact tallied.dropped other old before
  clones := by
    intro other any there
    by_cases here : other = run
    · subst here
      have new := Option.some.inj (there.symm.trans (find_modify_found found))
      rw [new]
      exact (tallied.clones other call found).trans kind.symm
    · exact tallied.clones other any ((Table.find_modify_of_ne _ here).symm.trans there)

theorem tallied_start {limits : Limits} {state : State} (sound : Sound limits state)
    (tallied : Tallied state) (process : Nat) (id : Uuid) (bytes : Nat) :
    Tallied (state.start limits process id bytes) := by
  unfold start
  split
  · exact tallied
  · rename_i usage reserved
    have added : usage = ⟨(state.usage process).bytes + bytes,
        (state.usage process).transfers + 1⟩ := by
      unfold reserveStaging at reserved
      split at reserved
      · split at reserved <;> cases reserved
        rfl
      · cases reserved
    have absent : state.calls.find state.next = none := by
      cases found : state.calls.find state.next with
      | none => rfl
      | some call => exact absurd (sound.fresh _ _ found) (Nat.lt_irrefl _)
    refine ⟨?_, tallied.once, fun run member => (tallied.past run member).trans (Nat.lt_succ_self _),
      ?_, ?_⟩
    · intro other
      rw [permits_eq]
      simp only [Table.total_insert_of_absent _ _ absent]
      have before := tallied.usage other
      rw [permits_eq] at before
      by_cases here : other = process
      · subst here
        rw [Function.update_self, added, before]
        simp [share]
      · rw [Function.update_of_ne here, before]
        simp [share, Ne.symm here]
    · intro run call found
      by_cases here : run = state.next
      · subst here
        have new := Option.some.inj (found.symm.trans (Table.find_insert_self _ _ _))
        rw [new]
        constructor
        · intro member
          exact absurd (tallied.past _ member) (Nat.lt_irrefl _)
        · intro none_
          cases none_
      · exact tallied.dropped run call ((Table.find_insert_of_ne _ here).symm.trans found)
    · intro run call found
      by_cases here : run = state.next
      · subst here
        have new := Option.some.inj (found.symm.trans (Table.find_insert_self _ _ _))
        rw [new]
        simp
      · exact tallied.clones run call ((Table.find_insert_of_ne _ here).symm.trans found)

/-- The number of clones of a permit changes and stays positive. -/
theorem Tallied.count {state : State} (tallied : Tallied state) {run : Nat} {call : Call}
    (change : Nat -> Nat) (found : state.calls.find run = some call)
    (some_ : 0 < call.clones) (left : 0 < change call.clones) :
    Tallied { state with
      calls := state.calls.modify run (fun call => { call with clones := change call.clones }) } := by
  have self : (state.calls.modify run (fun call =>
      { call with clones := change call.clones })).find run =
        some { call with clones := change call.clones } := find_modify_found found
  refine ⟨?_, tallied.once, tallied.past, ?_, ?_⟩
  · intro process
    refine (tallied.usage process).trans ?_
    rw [permits_eq, permits_eq]
    have bytes := Table.total_modify (fun call : Call => { call with clones := change call.clones })
      (fun _ call => share process call * call.bytes) found
    have transfers := Table.total_modify
      (fun call : Call => { call with clones := change call.clones })
      (fun _ call => share process call) found
    have same : share process { call with clones := change call.clones } = share process call := by
      simp [share, some_, left]
    dsimp only at bytes transfers ⊢
    rw [same] at bytes transfers
    rw [Nat.add_right_cancel bytes, Nat.add_right_cancel transfers]
  · intro other any there
    by_cases here : other = run
    · subst here
      have new := Option.some.inj (there.symm.trans self)
      rw [new, tallied.dropped other call found]
      dsimp only
      omega
    · exact tallied.dropped other any ((Table.find_modify_of_ne _ here).symm.trans there)
  · intro other any there
    by_cases here : other = run
    · subst here
      have new := Option.some.inj (there.symm.trans self)
      have before := tallied.clones other call found
      rw [new]
      dsimp only
      rw [← before]
      omega
    · exact tallied.clones other any ((Table.find_modify_of_ne _ here).symm.trans there)

theorem tallied_clone {state : State} (tallied : Tallied state) (run : Nat) :
    Tallied (state.clone run) := by
  unfold clone
  cases found : state.calls.find run with
  | none => exact tallied
  | some call =>
      dsimp only
      split
      case isFalse => exact tallied
      case isTrue held =>
        have some_ : 0 < call.clones := by
          have none_ := tallied.clones run call found
          simp [held] at none_
          omega
        exact tallied.count (fun clones => clones + 1) found some_ (Nat.succ_pos _)

/-- The last clone of a permit goes, and the subtraction does not saturate. -/
theorem permits_drop {state : State} {run : Nat} {call new : Call} {usage : Nat -> StageUsage}
    {released : List Nat} (found : state.calls.find run = some call) (one : call.clones = 1)
    (gone : new.clones = 0) (process : Nat) :
    { state with
      usage := usage
      released := released
      calls := state.calls.insert run new }.permits process =
        if process = call.process then (state.permits process).drop call.bytes
        else state.permits process := by
  rw [permits_eq, permits_eq]
  have bytes := Table.total_insert_of_found new
    (fun _ call => share process call * call.bytes) found
  have transfers := Table.total_insert_of_found new (fun _ call => share process call) found
  have nothing : share process new = 0 := by simp [share, gone]
  dsimp only at bytes transfers ⊢
  rw [nothing] at bytes transfers
  split
  case isTrue here =>
    have whole : share process call = 1 := by simp [share, one, here]
    rw [whole] at bytes transfers
    simp only [StageUsage.drop, StageUsage.mk.injEq]
    omega
  case isFalse here =>
    have nothing : share process call = 0 := by simp [share, Ne.symm here]
    rw [nothing] at bytes transfers
    simp only [StageUsage.mk.injEq]
    omega

theorem tallied_release {limits : Limits} {state : State} (sound : Sound limits state)
    (tallied : Tallied state) (run : Nat) : Tallied (state.release run) := by
  unfold release
  cases found : state.calls.find run with
  | none => exact tallied
  | some call =>
      dsimp only
      split
      case isFalse => exact tallied
      case isTrue ready =>
        have some_ : call.clones ≠ 0 := by
          have none_ := tallied.clones run call found
          rcases ready with held | refused
          · simpa [held] using none_
          · simpa [refused] using none_
        split
        case isTrue several =>
          exact tallied.count (fun clones => clones - 1) found (by omega) (by omega)
        case isFalse last =>
          have one : call.clones = 1 := by omega
          refine ⟨?_, ?_, ?_, ?_, ?_⟩
          · intro process
            refine Eq.trans ?_ (permits_drop found one rfl process).symm
            by_cases here : process = call.process
            · subst here
              rw [if_pos rfl, ← tallied.usage]
              exact Function.update_self _ _ _
            · rw [if_neg here, ← tallied.usage]
              exact Function.update_of_ne here _ _
          · refine List.nodup_cons.mpr ⟨?_, tallied.once⟩
            rw [tallied.dropped run call found]
            exact some_
          · intro other member
            rcases List.mem_cons.mp member with here | there
            · rw [here]
              exact sound.fresh run call found
            · exact tallied.past other there
          · intro other any there
            by_cases here : other = run
            · subst here
              have new := Option.some.inj (there.symm.trans (Table.find_insert_self _ _ _))
              rw [new]
              simp
            · have before := tallied.dropped other any
                ((Table.find_insert_of_ne _ here).symm.trans there)
              simpa [here] using before
          · intro other any there
            by_cases here : other = run
            · subst here
              have new := Option.some.inj (there.symm.trans (Table.find_insert_self _ _ _))
              rw [new]
              dsimp only
              split <;> simp
            · exact tallied.clones other any ((Table.find_insert_of_ne _ here).symm.trans there)

/-- What a permit had taken from the counter of its process is given back. -/
structure GivesBack (before after : State) (run : Nat) (call : Call) : Prop where
  kept : run ∉ before.released
  released : run ∈ after.released
  bytes : (after.usage call.process).bytes + call.bytes = (before.usage call.process).bytes
  transfers : (after.usage call.process).transfers + 1 = (before.usage call.process).transfers

/-- The drop of the last clone releases the permit. -/
theorem Tallied.release {state : State} (tallied : Tallied state) {run : Nat} {call : Call}
    (found : state.calls.find run = some call)
    (ready : call.phase = .held ∨ call.phase = .refused) (one : call.clones = 1) :
    GivesBack state (state.release run) run call := by
  have dropped : state.release run =
      { state with
        usage := Function.update state.usage call.process
          ((state.usage call.process).drop call.bytes)
        released := run :: state.released
        calls := state.calls.insert run
          { call with
            clones := 0
            phase := if call.phase = .held then .dropping else .dropped } } := by
    unfold State.release
    rw [found]
    dsimp only
    rw [if_pos ready, if_neg (by omega)]
  have taken := tallied.usage call.process
  rw [permits_eq] at taken
  have bytes := Table.total_insert_of_found { call with clones := 0 }
    (fun _ other => share call.process other * other.bytes) found
  have transfers := Table.total_insert_of_found { call with clones := 0 }
    (fun _ other => share call.process other) found
  have whole : share call.process call = 1 := by simp [share, one]
  have nothing : share call.process { call with clones := 0 } = 0 := by simp [share]
  dsimp only at bytes transfers
  rw [whole, nothing] at bytes transfers
  have least : call.bytes ≤ (state.usage call.process).bytes := by
    rw [taken]
    dsimp only
    omega
  have positive : 1 ≤ (state.usage call.process).transfers := by
    rw [taken]
    dsimp only
    omega
  rw [dropped]
  refine ⟨?_, List.mem_cons_self, ?_, ?_⟩
  · rw [tallied.dropped run call found, one]
    exact Nat.one_ne_zero
  · dsimp only
    rw [Function.update_self]
    exact Nat.sub_add_cancel least
  · dsimp only
    rw [Function.update_self]
    exact Nat.sub_add_cancel positive

theorem tallied_crash {state : State} (tallied : Tallied state) (process : Nat) :
    Tallied (state.crash process) := by
  have calls : forall run call, (state.crash process).calls.find run = some call ->
      state.calls.find run = some call := by
    intro run call found
    exact (Option.filter_eq_some_iff.mp ((Table.find_filter _ _ run).symm.trans found)).1
  refine ⟨?_, tallied.once, tallied.past, fun run call found =>
    tallied.dropped run call (calls run call found), fun run call found =>
    tallied.clones run call (calls run call found)⟩
  intro other
  have before := tallied.usage other
  rw [permits_eq] at before
  rw [permits_eq]
  unfold crash
  dsimp only
  rw [Table.total_filter, Table.total_filter]
  by_cases here : other = process
  · subst here
    rw [Function.update_self]
    have none_ : forall amount : Call -> Nat,
        state.calls.total (fun _ call =>
          if decide (call.process ≠ other) = true then share other call * amount call else 0) = 0 := by
      intro amount
      have zero : state.calls.total (fun _ _ => 0) = 0 := by simp [Table.total]
      refine Eq.trans (Table.total_congr ?_) zero
      intro run call _
      by_cases mine : call.process = other <;> simp [share, mine]
    have transfers := none_ (fun _ => 1)
    simp only [Nat.mul_one] at transfers
    rw [none_, transfers]
    rfl
  · rw [Function.update_of_ne here, before]
    have kept : forall amount : Call -> Nat,
        state.calls.total (fun _ call =>
            if decide (call.process ≠ process) = true then share other call * amount call else 0) =
          state.calls.total (fun _ call => share other call * amount call) := by
      intro amount
      apply Table.total_congr
      intro run call _
      by_cases mine : call.process = process
      · have apart : call.process ≠ other := fun same => here (same.symm.trans mine)
        simp [share, apart]
      · simp [mine]
    have transfers := kept (fun _ => 1)
    simp only [Nat.mul_one] at transfers
    rw [kept, transfers]

theorem Tallied.refuse {limits : Limits} {state : State} {run : Nat} {place : Place}
    (sound : Sound limits state) (tallied : Tallied state)
    (global : state.global = some (run, place)) (open_ : place ≠ .discarding) :
    Tallied (state.refuse run) := by
  rcases sound.inside run place global with ⟨call, found, phase, _⟩
  have reserving : call.phase = .reserving := by
    rw [phase]
    cases place <;> simp [phaseAt] at open_ ⊢
  exact (tallied.phase .refused found (by simp [reserving])).same rfl rfl rfl rfl

theorem Tallied.enter {state : State} (tallied : Tallied state) (run : Nat) (place : Place) :
    Tallied (state.enter run place) :=
  tallied.same rfl rfl rfl rfl

theorem tallied_account {limits : Limits} {state : State} {run : Nat} {id : Uuid}
    {place : Place} {todo : List Uuid} {ledger : Ledger} {amount : Nat}
    (sound : Sound limits state) (tallied : Tallied state)
    (global : state.global = some (run, place)) (open_ : place ≠ .discarding) :
    Tallied (state.account run id todo ledger amount) := by
  unfold account
  split
  · exact tallied.refuse sound global open_
  · exact tallied.enter run _

theorem tallied_lock {state : State} (tallied : Tallied state) (run : Nat) :
    Tallied (state.lock run) := by
  unfold lock
  split
  case h_2 => exact tallied
  case h_1 call free found =>
    split
    case h_1 admitted =>
      exact (tallied.phase .reserving found (by simp [admitted])).enter run .opened
    case h_2 => exact tallied.enter run .discarding
    case h_3 => exact tallied

/-- Up to the comparison with the limits a section only moves on or gives up. -/
theorem tallied_scan {limits : Limits} {state : State} (sound : Sound limits state)
    (tallied : Tallied state) (names : List Uuid) (listed : Bool) :
    Tallied (state.listLeases names) ∧ Tallied state.probe ∧ Tallied state.measure ∧
      Tallied (state.listFiles names) ∧ Tallied (state.nextFile listed) ∧
      Tallied (state.judge limits) := by
  refine ⟨?_, ?_, ?_, ?_, ?_, ?_⟩
  · unfold listLeases
    split
    · split
      · exact tallied.enter _ _
      · exact tallied
    · exact tallied
  · unfold probe
    split
    case h_2 => exact tallied
    case h_1 global =>
      split
      · exact tallied.refuse sound global (by simp)
      · exact tallied.enter _ _
  · unfold measure
    split
    case h_3 => exact tallied
    case h_1 global =>
      split
      · exact tallied.same rfl rfl rfl rfl
      · exact tallied_account sound tallied global (by simp)
    case h_2 global =>
      split
      · exact tallied.refuse sound global (by simp)
      · exact tallied_account sound tallied global (by simp)
  · unfold listFiles
    split
    · split
      · exact tallied.enter _ _
      · exact tallied
    · exact tallied
  · unfold nextFile
    split
    case h_2 => exact tallied
    case h_1 global =>
      split
      · exact tallied.enter _ _
      · split
        · split
          · exact tallied.refuse sound global (by simp)
          · exact tallied.enter _ _
        · split
          · exact tallied.refuse sound global (by simp)
          · exact tallied.enter _ _
  · unfold judge
    split
    case h_2 => exact tallied
    case h_1 global =>
      split
      · exact tallied
      · split
        · exact tallied.enter _ _
        · exact tallied.refuse sound global (by simp)

theorem tallied_finish {limits : Limits} {state : State} (sound : Sound limits state)
    (tallied : Tallied state) : Tallied state.finish := by
  unfold finish
  split
  case h_2 => exact tallied
  case h_1 run global =>
    rcases sound.inside run _ global with ⟨call, found, phase, _⟩
    exact (tallied.phase .held found (by simp [phase, phaseAt])).same rfl rfl rfl rfl

theorem tallied_lease {limits : Limits} {state : State} (sound : Sound limits state)
    (tallied : Tallied state) :
    Tallied state.create ∧ Tallied state.flock ∧ Tallied state.record := by
  refine ⟨?_, ?_, ?_⟩
  · unfold create
    split
    case h_2 => exact tallied
    case h_1 global =>
      split
      · exact tallied
      · split
        · exact tallied.refuse sound global (by simp)
        · exact tallied.same rfl rfl rfl rfl
  · unfold flock
    split
    · split
      · exact tallied
      · exact tallied.same rfl rfl rfl rfl
    · exact tallied
  · unfold record
    split
    · split
      · exact tallied
      · exact tallied.same rfl rfl rfl rfl
    · exact tallied

theorem tallied_fail {limits : Limits} {state : State} (sound : Sound limits state)
    (tallied : Tallied state) (left : Option (Option Nat)) : Tallied (state.fail left) := by
  unfold fail
  split
  case h_1 => exact tallied
  case h_2 run place global =>
    rcases sound.inside run place global with ⟨call, found, phase, _⟩
    have leaves : call.phase = .reserving -> Tallied ((state.leave call left).refuse run) := by
      intro reserving
      rcases leave_kept state call left with ⟨leases, same, _, _⟩
      rw [same]
      have phased := tallied.phase .refused found (by simp [reserving])
      exact phased.same rfl rfl rfl rfl
    simp only [found]
    cases place with
    | discarding => exact tallied
    | created => exact leaves phase
    | flocked => exact leaves phase
    | recorded => exact leaves phase
    | opened => exact tallied.refuse sound global (by simp)
    | leases => exact tallied.refuse sound global (by simp)
    | probed => exact tallied.refuse sound global (by simp)
    | files => exact tallied.refuse sound global (by simp)
    | judged => exact tallied.refuse sound global (by simp)

theorem tallied_discard {limits : Limits} {state : State} (sound : Sound limits state)
    (tallied : Tallied state) (removed : Bool) : Tallied (state.discard removed) := by
  unfold discard
  split
  case h_2 => exact tallied
  case h_1 run global =>
    rcases sound.inside run _ global with ⟨call, found, phase, _⟩
    have phased := tallied.phase .dropped found (by simp [phase, phaseAt])
    simp only [found]
    cases removed with
    | true => exact phased.same rfl rfl rfl rfl
    | false => exact phased.same rfl rfl rfl rfl

theorem tallied_lose {state : State} (tallied : Tallied state) (run : Nat) :
    Tallied (state.lose run) := by
  unfold lose
  split
  · exact tallied
  · rename_i call found
    split
    case isTrue ready =>
      exact (tallied.phase .dropped found (by simp [ready])).same rfl rfl rfl rfl
    case isFalse => exact tallied

theorem tallied_files {state : State} (tallied : Tallied state) (run upto : Nat) (id : Uuid) :
    Tallied (state.stage run) ∧ Tallied (state.write run upto) ∧ Tallied (state.unstage id) := by
  refine ⟨?_, ?_, tallied.same rfl rfl rfl rfl⟩
  · unfold stage
    split
    · exact tallied
    · split
      · exact tallied.same rfl rfl rfl rfl
      · exact tallied
  · unfold write
    split
    · exact tallied
    · split
      · exact tallied.same rfl rfl rfl rfl
      · exact tallied

theorem tallied_step {limits : Limits} {state : State} (operation : Step)
    (sound : Sound limits state) (tallied : Tallied state) :
    Tallied (step limits state operation) := by
  cases operation with
  | start process id bytes => exact tallied_start sound tallied process id bytes
  | lock run => exact tallied_lock tallied run
  | listLeases names => exact (tallied_scan sound tallied names false).1
  | probe => exact (tallied_scan sound tallied [] false).2.1
  | measure => exact (tallied_scan sound tallied [] false).2.2.1
  | listFiles names => exact (tallied_scan sound tallied names false).2.2.2.1
  | nextFile listed => exact (tallied_scan sound tallied [] listed).2.2.2.2.1
  | judge => exact (tallied_scan sound tallied [] false).2.2.2.2.2
  | create => exact (tallied_lease sound tallied).1
  | flock => exact (tallied_lease sound tallied).2.1
  | record => exact (tallied_lease sound tallied).2.2
  | finish => exact tallied_finish sound tallied
  | fail left => exact tallied_fail sound tallied left
  | stage run => exact (tallied_files tallied run 0 0).1
  | write run upto => exact (tallied_files tallied run upto 0).2.1
  | unstage id => exact (tallied_files tallied 0 0 id).2.2
  | clone run => exact tallied_clone tallied run
  | release run => exact tallied_release sound tallied run
  | discard removed => exact tallied_discard sound tallied removed
  | lose run => exact tallied_lose tallied run
  | crash process => exact tallied_crash tallied process

/-- What holds in every state that processes can reach. -/
theorem sound_run (limits : Limits) (operations : List Step) :
    Sound limits (Runs.run (step limits) initial operations) ∧
      Tallied (Runs.run (step limits) initial operations) := by
  refine Runs.invariant (fun state => Sound limits state ∧ Tallied state) ?_
    ⟨sound_initial limits, tallied_initial⟩ operations
  intro state operation both
  exact ⟨sound_step operation both.1, tallied_step operation both.1 both.2⟩

end State

/-- In every state of every interleaving the directory stays within both
limits; the counter of every process is what its permits with a clone left
amount to; no permit is dropped twice, of those whose process still runs
exactly the ones without a clone have been dropped, and whoever drops the last
clone of one gives back what it had taken. -/
theorem staging_within_budget (limits : Limits) (operations : List Step) :
    let state := Runs.run (step limits) State.initial operations
    state.load ≤ limits.maximum ∧ state.number ≤ limits.maxTransfers ∧
      (forall process, state.usage process = state.permits process) ∧
      state.released.Nodup ∧
      (forall run call, state.calls.find run = some call ->
        (run ∈ state.released ↔ call.clones = 0)) ∧
      forall run call, state.calls.find run = some call ->
        call.phase = .held ∨ call.phase = .refused -> call.clones = 1 ->
          State.GivesBack state (step limits state (.release run)) run call := by
  intro state
  rcases State.sound_run limits operations with ⟨sound, tallied⟩
  exact ⟨sound.within.1, sound.within.2, tallied.usage, tallied.once, tallied.dropped,
    fun _ _ => tallied.release⟩

/-- The steps of an undisturbed `reserve` that finds the given leases and files. -/
def reserving (run : Nat) (leases files : List Uuid) : List Step :=
  [.lock run, .listLeases leases] ++ leases.flatMap (fun _ => [.probe, .measure]) ++
    [.listFiles files] ++ files.map (fun _ => .nextFile true) ++
    [.judge, .create, .flock, .record, .finish]

-- A process dies with ten bytes written: then 90 more fit into 100 and 91 do not.
example :
    let crashed := [.start 0 7 80] ++ reserving 0 [] [] ++ [.stage 0, .write 0 10, .crash 0]
    let full := Runs.run (step ⟨100, 10⟩) State.initial
      (crashed ++ [.start 1 8 90] ++ reserving 1 [7] [7])
    let crowded := Runs.run (step ⟨100, 10⟩) State.initial
      (crashed ++ [.start 1 8 91] ++ reserving 1 [7] [7])
    (full.load, full.number) = (100, 2) ∧
      (crowded.calls.find 1).map Call.phase = some .refused ∧ crowded.load = 10 := by
  decide

end Budget

end TealDrive
