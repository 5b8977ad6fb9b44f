import TealDrive.Library.Faults

/-!
# What a program guarantees between its worlds

A triple speaks about each world by itself.  A guarantee relates every world a
program passes through to all later ones, whoever made the steps between them.
The relation is reflexive and transitive, so that it is enough to look at single
steps.
-/

namespace Faults

section Guarantees

variable {World Move Error Value Result : Type} {rel : World -> World -> Prop}
variable {safe before broken : World -> Prop}

/-- Each world of a behaviour is related to all later ones. -/
structure Ordered (rel : World -> World -> Prop) (start : World)
    (behaviour : Behaviour World Move Error Value) : Prop where
  visited : (start :: behaviour.visited).Pairwise rel
  world : forall earlier, earlier ∈ start :: behaviour.visited -> rel earlier behaviour.world

/-- A triple, with a guarantee about the steps. -/
def Guided (rel : World -> World -> Prop) (safe before : World -> Prop)
    (program : Program World Move Error Value) (after : Value -> World -> Prop)
    (broken : World -> Prop) : Prop :=
  Triple safe before program after broken ∧
    forall events world, safe world -> before world -> Ordered rel world (program events world)

theorem Ordered.still [IsPreorder World rel] {start : World}
    {behaviour : Behaviour World Move Error Value} (visited : behaviour.visited = [])
    (world : behaviour.world = start) : Ordered rel start behaviour where
  visited := by
    rw [visited]
    exact List.pairwise_singleton rel start
  world := by
    intro earlier member
    rw [visited] at member
    rw [List.mem_singleton.mp member, world]
    exact refl start

theorem Guided.pure [IsPreorder World rel] {value : Value} {after : Value -> World -> Prop}
    (holds : forall world, safe world -> before world -> after value world) :
    Guided rel safe before (Pure.pure value : Program World Move Error Value) after broken :=
  ⟨Triple.pure holds, fun _ _ _ _ => .still rfl rfl⟩

theorem Guided.ofExcept [IsPreorder World rel] {outcome : Except Error Value}
    {after : Value -> World -> Prop}
    (holds : forall value, outcome = .ok value -> forall world, safe world -> before world ->
      after value world)
    (fails : forall world, safe world -> before world -> broken world) :
    Guided rel safe before (Faults.ofExcept outcome : Program World Move Error Value) after
      broken := by
  refine ⟨Triple.ofExcept holds fails, ?_⟩
  intro events world _ _
  cases outcome with
  | ok value => exact .still rfl rfl
  | error problem => exact .still rfl rfl

theorem Ordered.next [IsPreorder World rel] {start : World}
    {behaviour : Behaviour World Move Error Value}
    {program : Value -> Program World Move Error Result} (ordered : Ordered rel start behaviour)
    (rest : forall value, behaviour.ending = .returned value ->
      Ordered rel behaviour.world (program value behaviour.rest behaviour.world)) :
    Ordered rel start (behaviour.next program) := by
  unfold Behaviour.next
  cases ended : behaviour.ending with
  | returned value =>
      have later := rest value ended
      have crossing : forall earlier, earlier ∈ start :: behaviour.visited -> forall next,
          next ∈ (program value behaviour.rest behaviour.world).visited -> rel earlier next := by
        intro earlier member next passed
        exact trans_of rel (ordered.world earlier member) (List.rel_of_pairwise_cons later.visited passed)
      refine ⟨?_, ?_⟩
      · change ((start :: behaviour.visited) ++ _).Pairwise rel
        rw [List.pairwise_append]
        exact ⟨ordered.visited, List.Pairwise.of_cons later.visited, crossing⟩
      · intro earlier member
        change earlier ∈ (start :: behaviour.visited) ++ _ at member
        rcases List.mem_append.mp member with first | second
        · exact trans_of rel (ordered.world earlier first) (later.world _ List.mem_cons_self)
        · exact later.world earlier (List.mem_cons_of_mem _ second)
  | failed error => exact ⟨ordered.visited, ordered.world⟩
  | dead => exact ⟨ordered.visited, ordered.world⟩

theorem Guided.bind [IsPreorder World rel] {first : Program World Move Error Value}
    {next : Value -> Program World Move Error Result} {middle : Value -> World -> Prop}
    {after : Result -> World -> Prop} (start : Guided rel safe before first middle broken)
    (rest : forall value, Guided rel safe (middle value) (next value) after broken) :
    Guided rel safe before (first >>= next) after broken := by
  refine ⟨start.1.bind (fun value => (rest value).1), ?_⟩
  intro events world sound started
  have begun := start.1 events world sound started
  refine (start.2 events world sound started).next ?_
  intro value ended
  exact (rest value).2 _ _ begun.world (begun.returned value ended)

/-- `Guided.bind` with the assertion in the middle written out. -/
theorem Guided.via [IsPreorder World rel] {first : Program World Move Error Value}
    {next : Value -> Program World Move Error Result} {after : Result -> World -> Prop}
    (middle : Value -> World -> Prop) (start : Guided rel safe before first middle broken)
    (rest : forall value, Guided rel safe (middle value) (next value) after broken) :
    Guided rel safe before (first >>= next) after broken :=
  start.bind rest

/-- A part of the precondition that does not mention the world. -/
theorem Guided.given {program : Program World Move Error Value} {fact : Prop}
    {after : Value -> World -> Prop} (holds : fact -> Guided rel safe before program after broken) :
    Guided rel safe (fun world => before world ∧ fact) program after broken :=
  ⟨Triple.given (fun known => (holds known).1),
    fun events world sound started => (holds started.2).2 events world sound started.1⟩

/-- Go on with a fact about the result that does not mention the world. -/
theorem Guided.bindFact [IsPreorder World rel] {first : Program World Move Error Value}
    {next : Value -> Program World Move Error Result} {middle : World -> Prop}
    {fact : Value -> Prop} {after : Result -> World -> Prop}
    (start : Guided rel safe before first (fun value world => middle world ∧ fact value) broken)
    (rest : forall value, fact value -> Guided rel safe middle (next value) after broken) :
    Guided rel safe before (first >>= next) after broken := by
  refine start.bind ?_
  intro value
  exact Guided.given (rest value)

theorem Guided.weaken {program : Program World Move Error Value} {stronger : World -> Prop}
    {after weaker : Value -> World -> Prop} {broken failing : World -> Prop}
    (holds : Guided rel safe stronger program after broken)
    (start : forall world, safe world -> before world -> stronger world)
    (finish : forall value world, safe world -> after value world -> weaker value world)
    (fails : forall world, safe world -> broken world -> failing world) :
    Guided rel safe before program weaker failing :=
  ⟨holds.1.weaken start finish fails,
    fun events world sound started => holds.2 events world sound (start world sound started)⟩

theorem Guided.attempt {program : Program World Move Error Value}
    {after : Except Error Value -> World -> Prop} {broken : World -> Prop} (caught : World -> Prop)
    (holds : Guided rel safe before program (fun value => after (.ok value)) caught)
    (fails : forall error world, safe world -> caught world -> after (.error error) world) :
    Guided rel safe before (Faults.attempt program) after broken := by
  refine ⟨Triple.attempt caught holds.1 fails, ?_⟩
  intro events world sound started
  have ordered := holds.2 events world sound started
  change Ordered rel world (program events world).caught
  unfold Behaviour.caught
  cases (program events world).ending with
  | returned value => exact ⟨ordered.visited, ordered.world⟩
  | failed error => exact ⟨ordered.visited, ordered.world⟩
  | dead => exact ⟨ordered.visited, ordered.world⟩

theorem Guided.provided [IsPreorder World rel] {condition : Bool}
    {program : Program World Move Error Unit} {after : World -> Prop}
    (taken : condition = true -> Guided rel safe before program (fun _ => after) broken)
    (skipped : condition = false -> forall world, safe world -> before world -> after world) :
    Guided rel safe before (Faults.provided condition program) (fun _ => after) broken := by
  cases condition with
  | true => exact taken rfl
  | false => exact Guided.pure (skipped rfl)

/-- The worlds that others' moves pass through. -/
theorem path_ordered [IsPreorder World rel] {move : World -> Move -> World}
    (stable : Stable move safe before)
    (moves : forall world step, safe world -> before world -> rel world (move world step))
    {world : World} (sound : safe world) (holds : before world) (others : List Move) :
    (world :: path move world others).Pairwise rel ∧
      forall earlier, earlier ∈ world :: path move world others ->
        rel earlier (Runs.run move world others) := by
  induction others generalizing world with
  | nil =>
      refine ⟨List.pairwise_singleton rel world, ?_⟩
      intro earlier member
      rw [List.mem_singleton.mp member]
      exact refl world
  | cons first rest ih =>
      rcases stable world first sound holds with ⟨soundNext, holdsNext⟩
      rcases ih soundNext holdsNext with ⟨pairs, final⟩
      have step := moves world first sound holds
      have reaches : forall later, later ∈ move world first :: path move (move world first) rest ->
          rel world later := by
        intro later member
        rcases List.mem_cons.mp member with here | further
        · rw [here]
          exact step
        · exact trans_of rel step (List.rel_of_pairwise_cons pairs further)
      refine ⟨List.pairwise_cons.mpr ⟨reaches, pairs⟩, ?_⟩
      intro earlier member
      rcases List.mem_cons.mp member with here | further
      · rw [here]
        exact trans_of rel step (final _ List.mem_cons_self)
      · exact final earlier further

/-- The rule for one step. -/
theorem Guided.perform [IsPreorder World rel] {move : World -> Move -> World}
    {torn : World -> World} {action : World -> Except Error (Value × World)}
    {after : Value -> World -> Prop} (stable : Stable move safe before)
    (moves : forall world step, safe world -> before world -> rel world (move world step))
    (acts : forall world value final, safe world -> before world ->
      action world = .ok (value, final) -> safe final ∧ after value final ∧ rel world final)
    (tears : forall world, safe world -> before world ->
      safe (torn world) ∧ broken (torn world) ∧ rel world (torn world))
    (fails : forall world, safe world -> before world -> broken world) :
    Guided rel safe before (Faults.perform move torn action) after broken := by
  refine ⟨Triple.perform stable ?_ ?_ fails, ?_⟩
  · intro world value final sound holds done
    exact ⟨(acts world value final sound holds done).1, (acts world value final sound holds done).2.1⟩
  · intro world sound holds
    exact ⟨(tears world sound holds).1, (tears world sound holds).2.1⟩
  intro events world sound started
  cases events with
  | nil => exact .still rfl rfl
  | cons event rest =>
      rcases stable.path sound started event.others with ⟨_, soundNow, holdsNow⟩
      rcases path_ordered stable moves sound started event.others with ⟨pairs, reaches⟩
      -- One more world after those that the others made.
      have longer : forall final, rel (Runs.run move world event.others) final ->
          (world :: (path move world event.others ++ [final])).Pairwise rel ∧
            forall earlier, earlier ∈ world :: (path move world event.others ++ [final]) ->
              rel earlier final := by
        intro final step
        have all : forall earlier, earlier ∈ world :: path move world event.others ->
            rel earlier final := fun earlier member => trans_of rel (reaches earlier member) step
        refine ⟨?_, ?_⟩
        · change ((world :: path move world event.others) ++ [final]).Pairwise rel
          rw [List.pairwise_append]
          refine ⟨pairs, List.pairwise_singleton rel final, ?_⟩
          intro earlier member last equal
          rw [List.mem_singleton.mp equal]
          exact all earlier member
        · intro earlier member
          change earlier ∈ (world :: path move world event.others) ++ [final] at member
          rcases List.mem_append.mp member with first | last
          · exact all earlier first
          · rw [List.mem_singleton.mp last]
            exact refl final
      change Ordered rel world (settle _ rest torn action _ event.fate)
      cases event.fate with
      | dies => exact ⟨pairs, reaches⟩
      | refused error effective =>
          cases effective with
          | true =>
              rcases longer _ (tears _ soundNow holdsNow).2.2 with ⟨visited, last⟩
              exact ⟨visited, last⟩
          | false => exact ⟨pairs, reaches⟩
      | done =>
          unfold settle
          cases outcome : action (Runs.run move world event.others) with
          | ok pair =>
              rcases pair with ⟨value, final⟩
              rcases longer _ (acts _ value final soundNow holdsNow outcome).2.2 with ⟨visited, last⟩
              exact ⟨visited, last⟩
          | error problem => exact ⟨pairs, reaches⟩

end Guarantees

end Faults
