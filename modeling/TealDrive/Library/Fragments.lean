import Mathlib.Data.List.Forall2
import Mathlib.Tactic.TypeStar

/-!
# Cutting messages into pieces and putting them together again

A sender cuts a message into pieces of one size, the last of which may be
shorter, and marks the last one.  A receiver collects pieces until a marked one
arrives.  `Spells` says which marked pieces make up which message, and
`Assembled` what a receiver has made of all the pieces it took so far: whole
messages, each spelled by pieces of its own, and the pieces of a message that
is not yet complete.
-/

namespace Fragments

variable {Item : Type*}

/-- A piece and the mark that says whether it ends its message. -/
abbrev Piece (Item : Type*) := Bool × List Item

/-- The pieces of `slice::chunks`: all of the given size, save a shorter last
one. -/
def chunks (size : Nat) (items : List Item) : List (List Item) :=
  if items.isEmpty || size == 0 then []
  else items.take size :: chunks size (items.drop size)
termination_by items.length
decreasing_by
  rename_i refused
  cases items with
  | nil => simp at refused
  | cons first rest =>
      simp at refused
      simp
      omega

/-- Mark the last of some pieces. -/
def marked : List (List Item) -> List (Piece Item)
  | [] => []
  | [last] => [(true, last)]
  | first :: next :: rest => (false, first) :: marked (next :: rest)

/-- The pieces that make up a message: full ones, and then a marked one that is
neither empty nor longer than a full one. -/
inductive Spells (size : Nat) : List (Piece Item) -> List Item -> Prop where
  | last {piece : List Item} (something : piece ≠ []) (fits : piece.length ≤ size) :
      Spells size [(true, piece)] piece
  | more {piece : List Item} {rest : List (Piece Item)} {message : List Item}
      (full : piece.length = size) (others : Spells size rest message) :
      Spells size ((false, piece) :: rest) (piece ++ message)

theorem chunks_cons {size : Nat} {items : List Item} (something : items ≠ []) (positive : 0 < size) :
    chunks size items = items.take size :: chunks size (items.drop size) := by
  have notEmpty : items.isEmpty = false := List.isEmpty_eq_false_iff.mpr something
  have notZero : (size == 0) = false := beq_false_of_ne (Nat.ne_of_gt positive)
  rw [chunks]
  simp [notEmpty, notZero]

@[simp] theorem chunks_nil (size : Nat) : chunks size ([] : List Item) = [] := by
  rw [chunks]
  rfl

/-- A short message is one piece. -/
theorem chunks_short {size : Nat} {items : List Item} (something : items ≠ [])
    (fits : items.length ≤ size) : chunks size items = [items] := by
  have positive : 0 < size := by
    have := List.length_pos_of_ne_nil something
    omega
  rw [chunks_cons something positive, List.take_of_length_le fits,
    List.drop_eq_nil_of_le fits, chunks_nil]

/-- A long message is a full piece and the pieces of the rest. -/
theorem marked_chunks_long {size : Nat} {items : List Item} (positive : 0 < size)
    (long : size < items.length) :
    marked (chunks size items) =
      (false, items.take size) :: marked (chunks size (items.drop size)) := by
  have something : items ≠ [] := List.ne_nil_of_length_pos (by omega)
  have remains : items.drop size ≠ [] := by
    intro none
    have := List.drop_eq_nil_iff.mp none
    omega
  rw [chunks_cons something positive, chunks_cons remains positive]
  rfl

/-- What a sender cuts a message into spells that message. -/
theorem spells_marked_chunks {size : Nat} (positive : 0 < size) (items : List Item)
    (something : items ≠ []) : Spells size (marked (chunks size items)) items := by
  induction length : items.length using Nat.strongRecOn generalizing items with
  | ind count ih =>
      by_cases fits : items.length ≤ size
      · rw [chunks_short something fits]
        exact .last something fits
      · have long : size < items.length := Nat.lt_of_not_le fits
        have remains : items.drop size ≠ [] := by
          intro none
          have := List.drop_eq_nil_iff.mp none
          omega
        have others := ih (items.drop size).length (by simp; omega) (items.drop size) remains rfl
        have whole := Spells.more (List.length_take_of_le (Nat.le_of_lt long)) others
        rw [marked_chunks_long positive long]
        rwa [List.take_append_drop] at whole

/-- The pieces a receiver has taken, the messages it made of them, and what it
holds of a message that is not complete. -/
structure Assembled (size : Nat) (taken : List (Piece Item)) (messages : List (List Item))
    (partialMessage : List Item) : Prop where
  parted : ∃ blocks waiting, taken = blocks.flatten ++ waiting ∧
    List.Forall₂ (Spells size) blocks messages ∧
    (forall piece, piece ∈ waiting -> piece.1 = false ∧ piece.2.length = size) ∧
    partialMessage = (waiting.map Prod.snd).flatten

theorem Assembled.start (size : Nat) : Assembled size ([] : List (Piece Item)) [] [] :=
  ⟨[], [], rfl, .nil, by simp, rfl⟩

/-- Full pieces before the pieces of a message make it longer. -/
theorem spells_behind {size : Nat} {waiting ending : List (Piece Item)} {message : List Item}
    (full : forall piece, piece ∈ waiting -> piece.1 = false ∧ piece.2.length = size)
    (spelled : Spells size ending message) :
    Spells size (waiting ++ ending) ((waiting.map Prod.snd).flatten ++ message) := by
  induction waiting with
  | nil => exact spelled
  | cons first rest ih =>
      have others := ih (fun piece inside => full piece (List.mem_cons_of_mem _ inside))
      rcases first with ⟨mark, piece⟩
      have here := full (mark, piece) List.mem_cons_self
      have open_ : mark = false := here.1
      subst open_
      have whole := Spells.more here.2 others
      simpa using whole

/-- A full unmarked piece is kept. -/
theorem Assembled.more {size : Nat} {taken : List (Piece Item)} {messages : List (List Item)}
    {partialMessage piece : List Item} (before : Assembled size taken messages partialMessage)
    (full : piece.length = size) :
    Assembled size (taken ++ [(false, piece)]) messages (partialMessage ++ piece) := by
  rcases before.parted with ⟨blocks, waiting, split, spelled, fulls, held⟩
  refine ⟨blocks, waiting ++ [(false, piece)], ?_, spelled, ?_, ?_⟩
  · rw [split, List.append_assoc]
  · intro other inside
    rcases List.mem_append.mp inside with earlier | now
    · exact fulls other earlier
    · rw [List.mem_singleton.mp now]
      exact ⟨rfl, full⟩
  · rw [held]
    simp

/-- A marked piece completes the message that was held. -/
theorem Assembled.last {size : Nat} {taken : List (Piece Item)} {messages : List (List Item)}
    {partialMessage piece : List Item} (before : Assembled size taken messages partialMessage)
    (something : piece ≠ []) (fits : piece.length ≤ size) :
    Assembled size (taken ++ [(true, piece)]) (messages ++ [partialMessage ++ piece]) [] := by
  rcases before.parted with ⟨blocks, waiting, split, spelled, fulls, held⟩
  refine ⟨blocks ++ [waiting ++ [(true, piece)]], [], ?_, ?_, by simp, rfl⟩
  · rw [split]
    simp
  · apply List.rel_append spelled
    rw [held]
    exact .cons (spells_behind fulls (.last something fits)) .nil

end Fragments
