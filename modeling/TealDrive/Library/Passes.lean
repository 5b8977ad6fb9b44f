import Mathlib.Data.List.Basic

/-!
# Passes that stop at the first error

A pass takes the items of a list one after another and stops at the first error,
with the state that the failing step left behind.  What a successful pass
establishes, and what a failing one leaves, follow from what single steps do.
-/

namespace Passes

universe u v w

variable {Item : Type u} {State : Type v} {Error : Type w}

/-- The steps are told how many items came before. -/
def pass (step : Nat -> Item -> State -> State × Except Error Unit) :
    Nat -> List Item -> State -> State × Except Error Unit
  | _, [], state => (state, .ok ())
  | index, item :: rest, state =>
      match step index item state with
      | (next, .ok ()) => pass step (index + 1) rest next
      | (next, .error error) => (next, .error error)

variable {step : Nat -> Item -> State -> State × Except Error Unit} {index : Nat}
  {items : List Item} {state after : State}

/-- A property of the items taken so far and the state holds at the end of a
pass that succeeds, when every step that succeeds extends it. -/
theorem pass_ok (holds : List Item -> State -> Prop)
    (kept : forall index front item state after, holds front state ->
      step index item state = (after, .ok ()) -> holds (front ++ [item]) after)
    {front : List Item} (start : holds front state)
    (done : pass step index items state = (after, .ok ())) : holds (front ++ items) after := by
  induction items generalizing index front state with
  | nil =>
      cases done
      rw [List.append_nil]
      exact start
  | cons item rest ih =>
      unfold pass at done
      split at done
      · next next outcome =>
          have later := ih (kept index front item state next start outcome) done
          rw [List.append_assoc] at later
          exact later
      · cases done

/-- A pass ends well or badly: every step that succeeds keeps the property, and
one that fails leaves the weaker one. -/
theorem pass_ends (holds : List Item -> State -> Prop) (weak : State -> Prop)
    (kept : forall index front item state after, holds front state ->
      step index item state = (after, .ok ()) -> holds (front ++ [item]) after)
    {front whole : List Item} (split_ : front ++ items = whole)
    (finished : forall state, holds whole state -> weak state)
    (failed : forall index front item state after error, front ++ [item] <+: whole ->
      holds front state -> step index item state = (after, .error error) -> weak after)
    (start : holds front state) : weak (pass step index items state).1 := by
  induction items generalizing index front state with
  | nil =>
      rw [List.append_nil] at split_
      exact finished state (split_ ▸ start)
  | cons item rest ih =>
      have here : front ++ [item] ++ rest = whole := by
        rw [List.append_assoc]
        exact split_
      unfold pass
      split
      · next next outcome => exact ih here (kept index front item state next start outcome)
      · next next error outcome =>
          exact failed index front item state next error ⟨rest, here⟩ start outcome

end Passes
