import Mathlib.Data.List.Basic

/-!
# Following a cursor

A listing is delivered in pages.  A page holds some items and perhaps a
cursor, which the reader passes back for the next page.  `Followed` says which
pages a reader sees from a cursor on.  It is a function of the cursor where it
is defined, and it is defined wherever a rank of the cursors decreases from
page to page.

What is left to be delivered at a cursor is a function of the cursor.  When
every page is the front of what is left and its cursor stands for the rest,
the pages together are all that was left.
-/

namespace Pages

universe u v w x

variable {Page : Type u} {Item : Type v} {Cursor : Type w} {Error : Type x}

/-- The pages that are read from a cursor to the end. -/
inductive Followed (fetch : Option Cursor -> Except Error Page) (next : Page -> Option Cursor) :
    Option Cursor -> List Page -> Prop
  | last {cursor page} : fetch cursor = .ok page -> next page = none ->
      Followed fetch next cursor [page]
  | more {cursor page later pages} : fetch cursor = .ok page -> next page = some later ->
      Followed fetch next (some later) pages -> Followed fetch next cursor (page :: pages)

variable {fetch : Option Cursor -> Except Error Page} {next : Page -> Option Cursor}

/-- The first page is there. -/
theorem Followed.fetched {cursor : Option Cursor} {pages : List Page}
    (followed : Followed fetch next cursor pages) : ∃ page, fetch cursor = .ok page := by
  cases followed with
  | last fetched _ => exact ⟨_, fetched⟩
  | more fetched _ _ => exact ⟨_, fetched⟩

/-- A reader comes to an end where pages can be fetched and the cursors
decrease. -/
theorem exists_followed (good : Option Cursor -> Prop) (rank : Option Cursor -> Nat)
    (step : forall cursor, good cursor -> ∃ page, fetch cursor = .ok page ∧
      forall later, next page = some later -> good (some later) ∧ rank (some later) < rank cursor)
    {cursor : Option Cursor} (start : good cursor) : ∃ pages, Followed fetch next cursor pages := by
  induction bound : rank cursor using Nat.strongRecOn generalizing cursor with
  | ind _ ih =>
      rcases step cursor start with ⟨page, fetched, goes⟩
      cases found : next page with
      | none => exact ⟨[page], .last fetched found⟩
      | some later =>
          rcases goes later found with ⟨still, less⟩
          rw [bound] at less
          rcases ih _ less still rfl with ⟨pages, followed⟩
          exact ⟨page :: pages, .more fetched found followed⟩

/-- What the pages hold together. -/
theorem Followed.items_eq (good : Option Cursor -> Prop) {items : Page -> List Item}
    (left : Option Cursor -> List Item)
    (front : forall cursor page, good cursor -> fetch cursor = .ok page ->
      (next page = none -> left cursor = items page) ∧
      forall later, next page = some later ->
        good (some later) ∧ left cursor = items page ++ left (some later))
    {cursor : Option Cursor} {pages : List Page} (followed : Followed fetch next cursor pages)
    (start : good cursor) : pages.flatMap items = left cursor := by
  induction followed with
  | last fetched ends =>
      rw [(front _ _ start fetched).1 ends]
      exact List.flatMap_singleton items _
  | more fetched goes _ ih =>
      rcases (front _ _ start fetched).2 _ goes with ⟨still, whole⟩
      rw [List.flatMap_cons, ih still, whole]

/-- One of the pages, and what is read behind it. -/
theorem Followed.split {cursor : Option Cursor} {pages before after : List Page} {page : Page}
    (followed : Followed fetch next cursor pages) (split : pages = before ++ page :: after) :
    ∃ here, fetch here = .ok page ∧
      ((next page = none ∧ after = []) ∨
        ∃ later, next page = some later ∧ Followed fetch next (some later) after) := by
  induction followed generalizing before with
  | last fetched ends =>
      cases before with
      | nil =>
          cases split
          exact ⟨_, fetched, Or.inl ⟨ends, rfl⟩⟩
      | cons _ rest => simp at split
  | more fetched goes rest ih =>
      cases before with
      | nil =>
          cases split
          exact ⟨_, fetched, Or.inr ⟨_, goes, rest⟩⟩
      | cons _ others =>
          rw [List.cons_append, List.cons.injEq] at split
          exact ih split.2

/-! ## Keysets -/

section Keyset

variable {before : Item -> Item -> Prop} [DecidableRel before]

/-- In a strictly sorted list, what comes behind a member stands behind it. -/
theorem filter_before_eq_drop (asymmetric : forall first second, before first second ->
      ¬ before second first) {items : List Item} (sorted : items.Pairwise before) {place : Nat}
    {item : Item} (here : items[place]? = some item) :
    items.filter (fun other => decide (before item other)) = items.drop (place + 1) := by
  induction items generalizing place with
  | nil => cases here
  | cons first rest ih =>
      rcases List.pairwise_cons.mp sorted with ⟨least, tail⟩
      cases place with
      | zero =>
          cases here
          have itself : ¬ before item item := fun less => asymmetric item item less less
          rw [List.filter_cons_of_neg (by simpa using itself), List.drop_succ_cons, List.drop_zero]
          apply List.filter_eq_self.mpr
          intro other member
          exact decide_eq_true (least other member)
      | succ place =>
          have later : item ∈ rest := List.mem_of_getElem? here
          have earlier : ¬ before item first := asymmetric first item (least item later)
          rw [List.filter_cons_of_neg (by simpa using earlier), List.drop_succ_cons]
          exact ih tail here

omit [DecidableRel before] in
/-- Two strictly sorted lists of the same items are the same. -/
theorem eq_of_perm (asymmetric : forall first second, before first second ->
      ¬ before second first) {first second : List Item} (perm : first.Perm second)
    (left : first.Pairwise before) (right : second.Pairwise before) : first = second := by
  apply perm.eq_of_pairwise _ left right
  intro one other _ _ less more
  exact absurd more (asymmetric one other less)

end Keyset

end Pages
