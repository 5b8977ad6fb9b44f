import Mathlib.Data.List.Infix

/-!
# Runs of a deterministic machine

A machine takes one operation after another.  `run` is the state after a list
of operations.  Two rules relate single steps to whole runs: a property kept
by every step holds after every run, and a property that holds at the end of a
run but not at its start was established by some operation of the run, after
which it never lapsed.
-/

namespace Runs

universe u v

variable {State : Type u} {Operation : Type v} (step : State -> Operation -> State)

/-- The state after a list of operations. -/
def run (state : State) (operations : List Operation) : State :=
  operations.foldl step state

variable {step}

@[simp] theorem run_nil (state : State) : run step state [] = state := rfl

theorem run_append (state : State) (first second : List Operation) :
    run step state (first ++ second) = run step (run step state first) second :=
  List.foldl_append

theorem run_concat (state : State) (operations : List Operation) (last : Operation) :
    run step state (operations ++ [last]) = step (run step state operations) last := by
  rw [run_append]
  rfl

/-- What every step preserves, every run preserves. -/
theorem invariant (holds : State -> Prop)
    (kept : forall state operation, holds state -> holds (step state operation))
    {state : State} (initial : holds state) (operations : List Operation) :
    holds (run step state operations) := by
  induction operations generalizing state with
  | nil => exact initial
  | cons first rest ih => exact ih (kept state first initial)

variable (step) in
/-- Every state of a run that an operation was done in, with the operation. -/
def visits : State -> List Operation -> List (State × Operation)
  | _, [] => []
  | state, first :: rest => (state, first) :: visits (step state first) rest

/-- An operation of a visit is one of the run. -/
theorem mem_of_visits {state : State} {operations : List Operation} {visit : State × Operation}
    (visited : visit ∈ visits step state operations) : visit.2 ∈ operations := by
  induction operations generalizing state with
  | nil => cases visited
  | cons first rest ih =>
      cases visited with
      | head => exact List.mem_cons_self
      | tail _ later => exact List.mem_cons_of_mem _ (ih later)

/-- What the steps of a run preserve where they were done, the run preserves. -/
theorem invariant_of_visits (holds : State -> Prop) {state : State} {operations : List Operation}
    (kept : forall visit, visit ∈ visits step state operations -> holds visit.1 ->
      holds (step visit.1 visit.2)) (initial : holds state) : holds (run step state operations) := by
  induction operations generalizing state with
  | nil => exact initial
  | cons first rest ih =>
      have next := kept (state, first) List.mem_cons_self initial
      exact ih (fun visit member => kept visit (List.mem_cons_of_mem _ member)) next

/-- What every step preserves holds wherever an operation was done. -/
theorem holds_of_visits (holds : State -> Prop)
    (kept : forall state operation, holds state -> holds (step state operation))
    {state : State} (initial : holds state) {operations : List Operation}
    {visit : State × Operation} (visited : visit ∈ visits step state operations) :
    holds visit.1 := by
  induction operations generalizing state with
  | nil => cases visited
  | cons first rest ih =>
      cases visited with
      | head => exact initial
      | tail _ later => exact ih (kept state first initial) later

/-- A property that holds at the end of a run but not at its start was
established by one operation, and held ever since. -/
theorem established (holds : State -> Prop) {state : State} {operations : List Operation}
    (start : ¬ holds state) (finish : holds (run step state operations)) :
    ∃ before operation after, operations = before ++ operation :: after ∧
      ¬ holds (run step state before) ∧
      forall middle, middle <+: after ->
        holds (run step state (before ++ operation :: middle)) := by
  induction operations using List.reverseRecOn with
  | nil => exact absurd finish start
  | append_singleton front last ih =>
      by_cases already : holds (run step state front)
      · rcases ih already with ⟨before, operation, after, split, fresh, kept⟩
        refine ⟨before, operation, after ++ [last], ?_, fresh, ?_⟩
        · rw [split]
          simp
        · intro middle shorter
          rcases List.prefix_concat_iff.mp shorter with whole | inner
          · rw [whole]
            rw [split] at finish
            simpa using finish
          · exact kept middle inner
      · refine ⟨front, last, [], rfl, already, ?_⟩
        intro middle shorter
        rw [List.prefix_nil.mp shorter]
        exact finish

end Runs
