import TealDrive.Library.Runs

/-!
# Programs whose steps may fail

A program takes one atomic step after another on a shared world.  Before a
step other parties may move.  The step itself is done, or is refused, or never
comes because the program dies.  A refused step may have had its effect all
the same; such a step is called torn.

The events of a run are data, so one program has one behaviour for each list of
events, and a list that ends early is a program that dies there.  The triples
below speak about all of them at once: an invariant holds in every world the
program passes through, a postcondition holds when it returns, and another one
when it fails.
-/

namespace Faults

/-- What becomes of one step. -/
inductive Fate (Error : Type) where
  | done
  | refused (error : Error) (torn : Bool)
  | dies

/-- The moves of others before a step, and the fate of the step. -/
structure Event (Move Error : Type) where
  others : List Move
  fate : Fate Error

inductive Ending (Error Value : Type) where
  | returned (value : Value)
  | failed (error : Error)
  | dead

/-- The worlds a program passed through, and how it ended. -/
structure Behaviour (World Move Error Value : Type) where
  visited : List World
  rest : List (Event Move Error)
  world : World
  ending : Ending Error Value

def Program (World Move Error Value : Type) : Type :=
  List (Event Move Error) -> World -> Behaviour World Move Error Value

section Programs

variable {World Move Error Value Result : Type}

/-- Go on with a result, from where a behaviour ended. -/
def Behaviour.next (behaviour : Behaviour World Move Error Value)
    (program : Value -> Program World Move Error Result) : Behaviour World Move Error Result :=
  match behaviour.ending with
  | .returned value =>
      let later := program value behaviour.rest behaviour.world
      ⟨behaviour.visited ++ later.visited, later.rest, later.world, later.ending⟩
  | .failed error => ⟨behaviour.visited, behaviour.rest, behaviour.world, .failed error⟩
  | .dead => ⟨behaviour.visited, behaviour.rest, behaviour.world, .dead⟩

instance : Monad (Program World Move Error) where
  pure value := fun events world => ⟨[], events, world, .returned value⟩
  bind first program := fun events world => (first events world).next program

/-- Fail, or go on with a value; nothing happens to the world. -/
def ofExcept (outcome : Except Error Value) : Program World Move Error Value :=
  fun events world =>
    match outcome with
    | .ok value => ⟨[], events, world, .returned value⟩
    | .error error => ⟨[], events, world, .failed error⟩

/-- Read what the program itself keeps in the world. -/
def look (view : World -> Value) : Program World Move Error Value :=
  fun events world => ⟨[], events, world, .returned (view world)⟩

/-- Turn a failure into a result.  Death stays what it is. -/
def Behaviour.caught (behaviour : Behaviour World Move Error Value) :
    Behaviour World Move Error (Except Error Value) :=
  match behaviour.ending with
  | .returned value => ⟨behaviour.visited, behaviour.rest, behaviour.world, .returned (.ok value)⟩
  | .failed error => ⟨behaviour.visited, behaviour.rest, behaviour.world, .returned (.error error)⟩
  | .dead => ⟨behaviour.visited, behaviour.rest, behaviour.world, .dead⟩

/-- Run a program and catch its failure. -/
def attempt (program : Program World Move Error Value) :
    Program World Move Error (Except Error Value) :=
  fun events world => (program events world).caught

/-- Run a program only when a condition holds. -/
def provided (condition : Bool) (program : Program World Move Error Unit) :
    Program World Move Error Unit :=
  if condition then program else pure ()

/-- The worlds passed by a list of moves. -/
def path (move : World -> Move -> World) (world : World) : List Move -> List World
  | [] => []
  | first :: rest => move world first :: path move (move world first) rest

/-- The behaviour of a step in the world that others left behind. -/
def settle (passed : List World) (rest : List (Event Move Error)) (torn : World -> World)
    (action : World -> Except Error (Value × World)) (now : World) :
    Fate Error -> Behaviour World Move Error Value
  | .dies => ⟨passed, rest, now, .dead⟩
  | .refused error true => ⟨passed ++ [torn now], rest, torn now, .failed error⟩
  | .refused error false => ⟨passed, rest, now, .failed error⟩
  | .done =>
      match action now with
      | .ok (value, after) => ⟨passed ++ [after], rest, after, .returned value⟩
      | .error error => ⟨passed, rest, now, .failed error⟩

/-- One atomic step.  `torn` is the effect of a refused step that went
through. -/
def perform (move : World -> Move -> World) (torn : World -> World)
    (action : World -> Except Error (Value × World)) : Program World Move Error Value
  | [], world => ⟨[], [], world, .dead⟩
  | event :: rest, world =>
      settle (path move world event.others) rest torn action (Runs.run move world event.others)
        event.fate

end Programs

/-! ## Triples -/

section Triples

variable {World Move Error Value Result : Type}

/-- A behaviour that never leaves the invariant and ends as promised. -/
structure Sound (safe : World -> Prop) (behaviour : Behaviour World Move Error Value)
    (after : Value -> World -> Prop) (broken : World -> Prop) : Prop where
  visited : forall world, world ∈ behaviour.visited -> safe world
  world : safe behaviour.world
  returned : forall value, behaviour.ending = .returned value -> after value behaviour.world
  failed : forall error, behaviour.ending = .failed error -> broken behaviour.world

def Triple (safe before : World -> Prop) (program : Program World Move Error Value)
    (after : Value -> World -> Prop) (broken : World -> Prop) : Prop :=
  forall events world, safe world -> before world ->
    Sound safe (program events world) after broken

variable {safe before broken : World -> Prop}

theorem Triple.pure {value : Value} {after : Value -> World -> Prop}
    (holds : forall world, safe world -> before world -> after value world) :
    Triple safe before (Pure.pure value : Program World Move Error Value) after broken := by
  intro events world sound started
  refine ⟨fun _ member => absurd member List.not_mem_nil, sound, ?_, ?_⟩
  · intro result ended
    cases ended
    exact holds world sound started
  · intro error ended
    cases ended

theorem Triple.ofExcept {outcome : Except Error Value} {after : Value -> World -> Prop}
    (holds : forall value, outcome = .ok value -> forall world, safe world -> before world ->
      after value world)
    (fails : forall world, safe world -> before world -> broken world) :
    Triple safe before (Faults.ofExcept outcome : Program World Move Error Value) after broken := by
  intro events world sound started
  cases outcome with
  | ok value =>
      refine ⟨fun _ member => absurd member List.not_mem_nil, sound, ?_, ?_⟩
      · intro result ended
        cases ended
        exact holds value rfl world sound started
      · intro error ended
        cases ended
  | error problem =>
      refine ⟨fun _ member => absurd member List.not_mem_nil, sound, ?_, ?_⟩
      · intro result ended
        cases ended
      · intro error ended
        exact fails world sound started

theorem Triple.look {view : World -> Value} :
    Triple safe before (Faults.look view : Program World Move Error Value)
      (fun value world => before world ∧ value = view world) broken := by
  intro events world sound started
  refine ⟨fun _ member => absurd member List.not_mem_nil, sound, ?_, ?_⟩
  · intro value ended
    cases ended
    exact ⟨started, rfl⟩
  · intro error ended
    cases ended

theorem Sound.next {behaviour : Behaviour World Move Error Value}
    {program : Value -> Program World Move Error Result} {middle : Value -> World -> Prop}
    {after : Result -> World -> Prop} (begun : Sound safe behaviour middle broken)
    (rest : forall value, Triple safe (middle value) (program value) after broken) :
    Sound safe (behaviour.next program) after broken := by
  unfold Behaviour.next
  cases ended : behaviour.ending with
  | returned value =>
      have continued := rest value behaviour.rest behaviour.world begun.world
        (begun.returned value ended)
      refine ⟨?_, continued.world, continued.returned, continued.failed⟩
      intro passed member
      rcases List.mem_append.mp member with earlier | later
      · exact begun.visited passed earlier
      · exact continued.visited passed later
  | failed error =>
      refine ⟨begun.visited, begun.world, ?_, ?_⟩
      · intro value impossible
        cases impossible
      · intro problem _
        exact begun.failed error ended
  | dead =>
      refine ⟨begun.visited, begun.world, ?_, ?_⟩
      · intro value impossible
        cases impossible
      · intro problem impossible
        cases impossible

/-- What holds in every world that is passed holds in the last one. -/
theorem Sound.reached {behaviour : Behaviour World Move Error Value}
    {after : Value -> World -> Prop} (sound : Sound safe behaviour after broken) {world : World}
    (reached : world ∈ behaviour.visited ∨ world = behaviour.world) : safe world := by
  rcases reached with passed | rfl
  · exact sound.visited world passed
  · exact sound.world

theorem Triple.bind {first : Program World Move Error Value}
    {next : Value -> Program World Move Error Result} {middle : Value -> World -> Prop}
    {after : Result -> World -> Prop} (start : Triple safe before first middle broken)
    (rest : forall value, Triple safe (middle value) (next value) after broken) :
    Triple safe before (first >>= next) after broken :=
  fun events world sound started => (start events world sound started).next rest

/-- `Triple.bind` with the assertion in the middle written out. -/
theorem Triple.via {first : Program World Move Error Value}
    {next : Value -> Program World Move Error Result} {after : Result -> World -> Prop}
    (middle : Value -> World -> Prop) (start : Triple safe before first middle broken)
    (rest : forall value, Triple safe (middle value) (next value) after broken) :
    Triple safe before (first >>= next) after broken :=
  start.bind rest

/-- A part of the precondition that does not mention the world. -/
theorem Triple.given {program : Program World Move Error Value} {fact : Prop}
    {after : Value -> World -> Prop} (holds : fact -> Triple safe before program after broken) :
    Triple safe (fun world => before world ∧ fact) program after broken :=
  fun events world sound started => holds started.2 events world sound started.1

/-- Go on with a fact about the result that does not mention the world. -/
theorem Triple.bindFact {first : Program World Move Error Value}
    {next : Value -> Program World Move Error Result} {middle : World -> Prop}
    {fact : Value -> Prop} {after : Result -> World -> Prop}
    (start : Triple safe before first (fun value world => middle world ∧ fact value) broken)
    (rest : forall value, fact value -> Triple safe middle (next value) after broken) :
    Triple safe before (first >>= next) after broken := by
  refine start.bind ?_
  intro value
  exact Triple.given (rest value)

theorem Triple.attempt {program : Program World Move Error Value}
    {after : Except Error Value -> World -> Prop} {broken : World -> Prop}
    (caught : World -> Prop)
    (holds : Triple safe before program (fun value => after (.ok value)) caught)
    (fails : forall error world, safe world -> caught world -> after (.error error) world) :
    Triple safe before (Faults.attempt program) after broken := by
  intro events world sound started
  have run := holds events world sound started
  change Sound safe (program events world).caught after broken
  unfold Behaviour.caught
  cases ended : (program events world).ending with
  | returned value =>
      refine ⟨run.visited, run.world, ?_, ?_⟩
      · intro result same
        cases same
        exact run.returned value ended
      · intro error impossible
        cases impossible
  | failed error =>
      refine ⟨run.visited, run.world, ?_, ?_⟩
      · intro result same
        cases same
        exact fails error _ run.world (run.failed error ended)
      · intro problem impossible
        cases impossible
  | dead =>
      refine ⟨run.visited, run.world, ?_, ?_⟩
      · intro result impossible
        cases impossible
      · intro problem impossible
        cases impossible

theorem Triple.weaken {program : Program World Move Error Value} {stronger : World -> Prop}
    {after weaker : Value -> World -> Prop} {broken failing : World -> Prop}
    (holds : Triple safe stronger program after broken)
    (start : forall world, safe world -> before world -> stronger world)
    (finish : forall value world, safe world -> after value world -> weaker value world)
    (fails : forall world, safe world -> broken world -> failing world) :
    Triple safe before program weaker failing := by
  intro events world sound started
  have run := holds events world sound (start world sound started)
  refine ⟨run.visited, run.world, ?_, ?_⟩
  · intro value ended
    exact finish value _ run.world (run.returned value ended)
  · intro error ended
    exact fails _ run.world (run.failed error ended)

theorem Triple.starting {program : Program World Move Error Value} {stronger : World -> Prop}
    {after : Value -> World -> Prop}
    (start : forall world, safe world -> before world -> stronger world)
    (holds : Triple safe stronger program after broken) :
    Triple safe before program after broken :=
  holds.weaken start (fun _ _ _ done => done) (fun _ _ done => done)

theorem Triple.provided {condition : Bool} {program : Program World Move Error Unit}
    {after : World -> Prop}
    (taken : condition = true -> Triple safe before program (fun _ => after) broken)
    (skipped : condition = false -> forall world, safe world -> before world -> after world) :
    Triple safe before (Faults.provided condition program) (fun _ => after) broken := by
  cases condition with
  | true => exact taken rfl
  | false => exact Triple.pure (skipped rfl)

/-- Others' moves keep the invariant and the assertion. -/
def Stable (move : World -> Move -> World) (safe assertion : World -> Prop) : Prop :=
  forall world step, safe world -> assertion world ->
    safe (move world step) ∧ assertion (move world step)

theorem Stable.path {move : World -> Move -> World} {assertion : World -> Prop}
    (stable : Stable move safe assertion) {world : World} (sound : safe world)
    (holds : assertion world) (moves : List Move) :
    (forall passed, passed ∈ path move world moves -> safe passed) ∧
      safe (Runs.run move world moves) ∧ assertion (Runs.run move world moves) := by
  induction moves generalizing world with
  | nil => exact ⟨fun _ member => absurd member List.not_mem_nil, sound, holds⟩
  | cons first rest ih =>
      rcases stable world first sound holds with ⟨soundNext, holdsNext⟩
      rcases ih soundNext holdsNext with ⟨passed, finish⟩
      refine ⟨?_, finish⟩
      intro other member
      rcases List.mem_cons.mp member with here | later
      · exact here ▸ soundNext
      · exact passed other later

/-- The rule for one step: the assertion survives the moves of others, the
action keeps the invariant and establishes the postcondition, and so does a
torn refusal for the failure condition. -/
theorem Triple.perform {move : World -> Move -> World} {torn : World -> World}
    {action : World -> Except Error (Value × World)} {after : Value -> World -> Prop}
    (stable : Stable move safe before)
    (acts : forall world value final, safe world -> before world ->
      action world = .ok (value, final) -> safe final ∧ after value final)
    (tears : forall world, safe world -> before world -> safe (torn world) ∧ broken (torn world))
    (fails : forall world, safe world -> before world -> broken world) :
    Triple safe before (Faults.perform move torn action) after broken := by
  intro events world sound started
  cases events with
  | nil =>
      refine ⟨fun _ member => absurd member List.not_mem_nil, sound, ?_, ?_⟩
      · intro value impossible
        cases impossible
      · intro error impossible
        cases impossible
  | cons event rest =>
      rcases stable.path sound started event.others with ⟨passed, soundNow, holdsNow⟩
      have appended : forall final, safe final ->
          forall other, other ∈ Faults.path move world event.others ++ [final] -> safe other := by
        intro final soundFinal other member
        rcases List.mem_append.mp member with earlier | last
        · exact passed other earlier
        · exact List.mem_singleton.mp last ▸ soundFinal
      change Sound safe (settle _ rest torn action _ event.fate) after broken
      cases event.fate with
      | dies =>
          refine ⟨passed, soundNow, ?_, ?_⟩
          · intro value impossible
            cases impossible
          · intro error impossible
            cases impossible
      | refused error effective =>
          cases effective with
          | true =>
              rcases tears _ soundNow holdsNow with ⟨soundTorn, brokenTorn⟩
              refine ⟨appended _ soundTorn, soundTorn, ?_, fun _ _ => brokenTorn⟩
              intro value impossible
              cases impossible
          | false =>
              refine ⟨passed, soundNow, ?_, fun _ _ => fails _ soundNow holdsNow⟩
              intro value impossible
              cases impossible
      | done =>
          unfold settle
          cases outcome : action (Runs.run move world event.others) with
          | ok pair =>
              rcases pair with ⟨value, final⟩
              rcases acts _ value final soundNow holdsNow outcome with ⟨soundFinal, holdsFinal⟩
              refine ⟨appended final soundFinal, soundFinal, ?_, ?_⟩
              · intro result ended
                cases ended
                exact holdsFinal
              · intro error impossible
                cases impossible
          | error problem =>
              refine ⟨passed, soundNow, ?_, fun _ _ => fails _ soundNow holdsNow⟩
              intro value impossible
              cases impossible

end Triples

/-! ## Undisturbed programs -/

section Undisturbed

variable {World Move Error Value Result : Type}

/-- Steps that nobody moves before and that are done. -/
def undisturbed (count : Nat) : List (Event Move Error) := List.replicate count ⟨[], .done⟩

def Ending.of : Except Error Value -> Ending Error Value
  | .ok value => .returned value
  | .error error => .failed error

/-- Within a number of undisturbed steps the program computes a function of the
world. -/
def Computes (program : Program World Move Error Value) (cost : Nat)
    (function : World -> Except Error Value × World) : Prop :=
  forall count world, cost ≤ count ->
    ∃ left, count ≤ left + cost ∧
      (program (undisturbed count) world).rest = undisturbed left ∧
      (program (undisturbed count) world).world = (function world).2 ∧
      (program (undisturbed count) world).ending = .of (function world).1

theorem Computes.pure (value : Value) :
    Computes (Pure.pure value : Program World Move Error Value) 0 (fun world => (.ok value, world)) :=
  fun count _ _ => ⟨count, Nat.le_refl _, rfl, rfl, rfl⟩

theorem Computes.ofExcept (outcome : Except Error Value) :
    Computes (Faults.ofExcept outcome : Program World Move Error Value) 0
      (fun world => (outcome, world)) := by
  intro count world _
  cases outcome with
  | ok value => exact ⟨count, Nat.le_refl _, rfl, rfl, rfl⟩
  | error error => exact ⟨count, Nat.le_refl _, rfl, rfl, rfl⟩

theorem Computes.perform {move : World -> Move -> World} {torn : World -> World}
    {action : World -> Except Error (Value × World)} :
    Computes (Faults.perform move torn action) 1 (fun world =>
      match action world with
      | .ok (value, after) => (.ok value, after)
      | .error error => (.error error, world)) := by
  intro count world enough
  rcases Nat.exists_eq_add_of_le enough with ⟨left, rfl⟩
  refine ⟨left, Nat.le_of_eq (Nat.add_comm 1 left), ?_⟩
  have first : (undisturbed (1 + left) : List (Event Move Error)) =
      ⟨[], .done⟩ :: undisturbed left := by
    rw [Nat.add_comm]
    rfl
  have settled : Faults.perform move torn action (undisturbed (1 + left)) world =
      settle [] (undisturbed left) torn action world .done := by
    rw [first]
    rfl
  rw [settled]
  unfold settle
  beta_reduce
  cases action world with
  | ok result => exact ⟨rfl, rfl, rfl⟩
  | error error => exact ⟨rfl, rfl, rfl⟩

theorem Computes.bind {first : Program World Move Error Value}
    {next : Value -> Program World Move Error Result} {cost later : Nat}
    {function : World -> Except Error Value × World}
    {continue_ : Value -> World -> Except Error Result × World}
    (start : Computes first cost function)
    (rest : forall value, Computes (next value) later (continue_ value)) :
    Computes (first >>= next) (cost + later) (fun world =>
      match function world with
      | (.ok value, after) => continue_ value after
      | (.error error, after) => (.error error, after)) := by
  intro count world enough
  have ran := start count world (by omega)
  change ∃ left, _ ∧ ((first (undisturbed count) world).next next).rest = _ ∧
    ((first (undisturbed count) world).next next).world = _ ∧
    ((first (undisturbed count) world).next next).ending = _
  revert ran
  beta_reduce
  rcases function world with ⟨result, after⟩
  rintro ⟨left, most, remaining, reached, ended⟩
  unfold Behaviour.next
  cases result with
  | ok value =>
      simp only [ended, Ending.of, remaining, reached]
      rcases rest value left after (by omega) with ⟨least, fewer, others, final, finished⟩
      exact ⟨least, by omega, others, final, finished⟩
  | error error =>
      simp only [ended, Ending.of]
      exact ⟨left, by omega, remaining, reached, trivial⟩

theorem Computes.congr {program : Program World Move Error Value} {cost : Nat}
    {function other : World -> Except Error Value × World} (computes : Computes program cost function)
    (same : forall world, function world = other world) : Computes program cost other :=
  (funext same : function = other) ▸ computes

theorem Computes.weaken {program : Program World Move Error Value} {cost more : Nat}
    {function : World -> Except Error Value × World} (computes : Computes program cost function)
    (within : cost ≤ more) : Computes program more function := by
  intro count world enough
  rcases computes count world (Nat.le_trans within enough) with ⟨left, most, others⟩
  exact ⟨left, by omega, others⟩

end Undisturbed

end Faults
