import Mathlib.Data.List.Sort

/-!
# Sorting by one order and reading by another

A list is sorted stably by a total order.  The result is arranged by some
other relation exactly when every pair of the original list agrees: the
relation holds from the one that the order puts first to the other, and the
order puts first what comes first in the list when it cannot tell.
-/

namespace Sorting

variable {Item : Type} {order relation : Item -> Item -> Prop} [DecidableRel order]

/-- The order and the relation agree on a pair, whose first member comes first
in the list. -/
def Agree (order relation : Item -> Item -> Prop) (first second : Item) : Prop :=
  (order first second -> relation first second) ∧ (¬ order first second -> relation second first)

/-- An item that is inserted into a sorted list is compared with every member. -/
theorem pairwise_orderedInsert_iff (trans : forall first second third, order first second ->
      order second third -> order first third)
    (item : Item) {items : List Item} (sorted : items.Pairwise order) :
    (items.orderedInsert order item).Pairwise relation ↔
      items.Pairwise relation ∧ forall other, other ∈ items -> Agree order relation item other := by
  induction items with
  | nil => simp [Agree]
  | cons first rest ih =>
      rcases List.pairwise_cons.mp sorted with ⟨least, tail⟩
      by_cases before : order item first
      · rw [List.orderedInsert_cons_of_le _ _ before, List.pairwise_cons]
        have all : forall other, other ∈ first :: rest -> order item other := by
          intro other member
          rcases List.mem_cons.mp member with same | later
          · exact same ▸ before
          · exact trans _ _ _ before (least other later)
        constructor
        · rintro ⟨related, arranged⟩
          refine ⟨arranged, ?_⟩
          intro other member
          exact ⟨fun _ => related other member, fun never => absurd (all other member) never⟩
        · rintro ⟨arranged, agree⟩
          exact ⟨fun other member => (agree other member).1 (all other member), arranged⟩
      · rw [List.orderedInsert_of_not_le _ _ before, List.pairwise_cons, ih tail,
          List.pairwise_cons]
        constructor
        · rintro ⟨related, arranged, agree⟩
          have here : relation first item := related item ((List.mem_orderedInsert order).mpr (Or.inl rfl))
          refine ⟨⟨?_, arranged⟩, ?_⟩
          · intro other member
            exact related other ((List.mem_orderedInsert order).mpr (Or.inr member))
          · intro other member
            rcases List.mem_cons.mp member with same | later
            · rw [same]
              exact ⟨fun never => absurd never before, fun _ => here⟩
            · exact agree other later
        · rintro ⟨⟨related, arranged⟩, agree⟩
          refine ⟨?_, arranged, fun other member => agree other (List.mem_cons_of_mem _ member)⟩
          intro other member
          rcases (List.mem_orderedInsert order).mp member with same | later
          · rw [same]
            exact (agree first List.mem_cons_self).2 before
          · exact related other later

theorem pairwise_insertionSort_iff (trans : forall first second third, order first second ->
      order second third -> order first third)
    (total : forall first second, order first second ∨ order second first) (items : List Item) :
    (items.insertionSort order).Pairwise relation ↔ items.Pairwise (Agree order relation) := by
  have sorted : forall rest : List Item, (rest.insertionSort order).Pairwise order := by
    intro rest
    have totality : Std.Total order := ⟨total⟩
    have transitivity : IsTrans Item order := ⟨trans⟩
    exact List.pairwise_insertionSort order rest
  induction items with
  | nil => simp
  | cons first rest ih =>
      have agrees : (forall other, other ∈ rest.insertionSort order -> Agree order relation first other) ↔
          forall other, other ∈ rest -> Agree order relation first other := by
        constructor
        · intro agree other member
          exact agree other ((List.mem_insertionSort order).mpr member)
        · intro agree other member
          exact agree other ((List.mem_insertionSort order).mp member)
      rw [List.insertionSort_cons, pairwise_orderedInsert_iff trans first (sorted rest),
        List.pairwise_cons, agrees, and_comm]
      exact and_congr_right (fun _ => ih)

omit [DecidableRel order] in
/-- A relation that the order respects is never disturbed. -/
theorem agree_of_respects (total : forall first second, order first second ∨ order second first)
    (respects : forall first second, order first second -> relation first second)
    (first second : Item) : Agree order relation first second := by
  refine ⟨respects first second, ?_⟩
  intro never
  exact respects second first ((total first second).resolve_left never)

end Sorting
