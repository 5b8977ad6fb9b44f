import Mathlib.Data.List.Infix
import Mathlib.Tactic.ByContra

/-!
# Copying in pieces

A copy reads some of the source, writes what it read, and goes on until it has
copied a given length or the source ends.  How much each read returns and where
something goes wrong is an argument.  There may be a bound that no write may
cross.  Whatever happens, what has been copied is a beginning of the source.
-/

namespace Pump

universe u v

variable {Element : Type u} {Error : Type v}

/-- How a copy turns out: what goes wrong once so much has been copied, and how
many elements the next read may return besides the first. -/
structure Course (Error : Type v) where
  fault : Nat -> Option Error
  more : Nat -> Nat

/-- What a copy is bounded by. -/
structure Bounds (Error : Type v) where
  /-- The length of the longest read. -/
  piece : Nat
  /-- How much is copied. -/
  total : Nat
  /-- How much may be written, and what is answered to a write that goes beyond. -/
  room : Option (Nat × Error)
  /-- What is answered when the source ends early. -/
  ended : Except Error Unit

variable (course : Course Error) (bounds : Bounds Error) (source : List Element)

/-- What the next read returns. -/
def next (copied : List Element) : List Element :=
  (source.drop copied.length).take
    (min (min bounds.piece (bounds.total - copied.length)) (course.more copied.length + 1))

/-- Whether a write goes beyond the bound. -/
def Bounds.refuses (copied piece : List Element) : Option Error :=
  bounds.room.bind (fun room =>
    if copied.length + piece.length ≤ room.1 then none else some room.2)

/-- The loop.  Its first argument is how many more reads it makes. -/
def loop : Nat -> List Element -> List Element × Except Error Unit
  | 0, copied => (copied, bounds.ended)
  | rounds + 1, copied =>
      if bounds.total ≤ copied.length then (copied, .ok ())
      else
        match course.fault copied.length with
        | some error => (copied, .error error)
        | none =>
            match next course bounds source copied with
            | [] => (copied, bounds.ended)
            | first :: rest =>
                match bounds.refuses copied (first :: rest) with
                | some error => (copied, .error error)
                | none => loop rounds (copied ++ first :: rest)

/-- A copy from the start of the source.  Every read but the last returns
something. -/
def run : List Element × Except Error Unit := loop course bounds source (source.length + 1) []

variable {course bounds source}

/-- What a copy has reached. -/
structure Reached (bounds : Bounds Error) (source copied : List Element) : Prop where
  beginning : copied <+: source
  total : copied.length ≤ bounds.total
  room : forall room, bounds.room = some room -> copied.length ≤ room.1

theorem Reached.start (bounds : Bounds Error) (source : List Element) :
    Reached bounds source [] :=
  ⟨List.nil_prefix, Nat.zero_le _, fun _ _ => Nat.zero_le _⟩

/-- What is copied and what is read next is a beginning of the source. -/
theorem append_next {copied : List Element} (beginning : copied <+: source) :
    copied ++ next course bounds source copied <+: source := by
  rcases beginning with ⟨rest, rfl⟩
  unfold next
  rw [List.drop_left]
  exact (List.prefix_append_right_inj copied).mpr (List.take_prefix _ _)

theorem length_next_le (copied : List Element) :
    (next course bounds source copied).length ≤ bounds.total - copied.length := by
  unfold next
  rw [List.length_take]
  omega

/-- A read returns nothing only at the end of the source. -/
theorem next_eq_nil {copied : List Element} (readable : 0 < bounds.piece)
    (beginning : copied <+: source) (unfinished : copied.length < bounds.total)
    (nothing : next course bounds source copied = []) : copied = source := by
  rcases beginning with ⟨rest, rfl⟩
  unfold next at nothing
  rw [List.drop_left] at nothing
  rcases List.take_eq_nil_iff.mp nothing with none_ | done
  · omega
  · rw [done, List.append_nil]

/-- One round. -/
theorem Reached.append {copied : List Element} (reached : Reached bounds source copied)
    (unfinished : copied.length < bounds.total)
    (admitted : bounds.refuses copied (next course bounds source copied) = none) :
    Reached bounds source (copied ++ next course bounds source copied) := by
  have short := @length_next_le Element Error course bounds source copied
  refine ⟨append_next reached.beginning, ?_, ?_⟩
  · rw [List.length_append]
    omega
  · intro room given
    unfold Bounds.refuses at admitted
    rw [given, Option.bind_some] at admitted
    rw [List.length_append]
    by_contra beyond
    rw [if_neg beyond] at admitted
    cases admitted

/-- The loop copies a beginning of the source.  It ends well when everything
asked for is copied, or when the source has ended and that is no error. -/
theorem loop_reached {rounds : Nat} {copied result : List Element} {outcome : Except Error Unit}
    (readable : 0 < bounds.piece) (reached : Reached bounds source copied)
    (enough : source.length < copied.length + rounds)
    (ran : loop course bounds source rounds copied = (result, outcome)) :
    Reached bounds source result ∧
      (outcome = .ok () ->
        result.length = bounds.total ∨ result = source ∧ bounds.ended = .ok ()) := by
  induction rounds generalizing copied with
  | zero =>
      have short := reached.beginning.length_le
      omega
  | succ rounds ih =>
      unfold loop at ran
      split at ran
      · next finished =>
          cases ran
          exact ⟨reached, fun _ => Or.inl (Nat.le_antisymm reached.total finished)⟩
      · next unfinished =>
          have below := Nat.lt_of_not_le unfinished
          split at ran
          · cases ran
            refine ⟨reached, ?_⟩
            intro impossible
            cases impossible
          · split at ran
            · next nothing =>
                cases ran
                have whole := next_eq_nil readable reached.beginning below nothing
                exact ⟨reached, fun fine => Or.inr ⟨whole, fine⟩⟩
            · next first rest read =>
                split at ran
                · cases ran
                  refine ⟨reached, ?_⟩
                  intro impossible
                  cases impossible
                · next admitted =>
                    rw [← read] at admitted ran
                    apply ih (reached.append below admitted) ?_ ran
                    rw [List.length_append, read, List.length_cons]
                    omega

/-- A whole copy. -/
theorem run_reached {result : List Element} {outcome : Except Error Unit}
    (readable : 0 < bounds.piece) (ran : run course bounds source = (result, outcome)) :
    Reached bounds source result ∧
      (outcome = .ok () ->
        result.length = bounds.total ∨ result = source ∧ bounds.ended = .ok ()) :=
  loop_reached readable (Reached.start bounds source) (by rw [List.length_nil]; omega) ran

/-- A copy that ends well has copied all that was asked for, as far as the
source goes. -/
theorem run_ok {result : List Element} (readable : 0 < bounds.piece)
    (ran : run course bounds source = (result, .ok ())) :
    result = source.take bounds.total ∧
      (bounds.total ≤ source.length ∨ bounds.ended = .ok ()) := by
  rcases run_reached readable ran with ⟨reached, ended⟩
  have whole := List.prefix_iff_eq_take.mp reached.beginning
  rcases ended rfl with full | ⟨same, fine⟩
  · rw [full] at whole
    exact ⟨whole, Or.inl (full ▸ reached.beginning.length_le)⟩
  · refine ⟨?_, Or.inr fine⟩
    rw [List.take_of_length_le (same ▸ reached.total), same]

end Pump
