import TealDrive.Accounts.UidRuns

namespace TealDrive

/-!
# Gaps between ranges

The identities that may be handed out are the gaps that other ranges leave in an
interval.  The gaps are in order, and between two of them is at least one number.
Together they are what no range covers.
-/

/-- Some range holds the number. -/
def Covered (ranges : List (Nat × Nat)) (number : Nat) : Prop :=
  ∃ range, range ∈ ranges ∧ range.1 ≤ number ∧ number ≤ range.2

/-- Ranges in order that neither overlap nor touch. -/
structure Tidy (ranges : List (Nat × Nat)) : Prop where
  filled : forall range, range ∈ ranges -> range.1 ≤ range.2
  apart : ranges.Pairwise (fun first second => first.2 + 1 < second.1)

theorem not_covered_nil (number : Nat) : ¬ Covered [] number := by
  rintro ⟨_, member, _⟩
  exact List.not_mem_nil member

theorem covered_cons {range : Nat × Nat} {rest : List (Nat × Nat)} {number : Nat} :
    Covered (range :: rest) number ↔ (range.1 ≤ number ∧ number ≤ range.2) ∨ Covered rest number := by
  constructor
  · rintro ⟨other, member, holds⟩
    rcases List.mem_cons.mp member with rfl | later
    · exact Or.inl holds
    · exact Or.inr ⟨other, later, holds⟩
  · rintro (holds | ⟨other, later, holds⟩)
    · exact ⟨range, List.mem_cons_self, holds⟩
    · exact ⟨other, List.mem_cons_of_mem range later, holds⟩

instance (ranges : List (Nat × Nat)) (number : Nat) : Decidable (Covered ranges number) :=
  decidable_of_iff (ranges.any (fun range => within range.1 range.2 number) = true) (by
    rw [List.any_eq_true]
    constructor
    · rintro ⟨range, member, holds⟩
      rw [within, Bool.and_eq_true, decide_eq_true_eq, decide_eq_true_eq] at holds
      exact ⟨range, member, holds⟩
    · rintro ⟨range, member, holds⟩
      refine ⟨range, member, ?_⟩
      rw [within, Bool.and_eq_true, decide_eq_true_eq, decide_eq_true_eq]
      exact holds)

/-! ## What the loop collects -/

section Gaps

variable {max next : Nat} {ranges : List (Nat × Nat)}

theorem le_of_mem_gapsFrom {segment : Nat × Nat} (member : segment ∈ gapsFrom max next ranges) :
    next ≤ segment.1 := by
  induction ranges generalizing next with
  | nil =>
      unfold gapsFrom at member
      split at member
      · cases List.mem_singleton.mp member
        exact Nat.le_refl _
      · exact absurd member List.not_mem_nil
  | cons range rest ih =>
      unfold gapsFrom at member
      split at member
      · rcases List.mem_cons.mp member with rfl | later
        · exact Nat.le_refl _
        · exact Nat.le_trans (Nat.le_max_left _ _) (ih later)
      · exact Nat.le_trans (Nat.le_max_left _ _) (ih member)

theorem gapsFrom_tidy (valid : forall range, range ∈ ranges -> range.1 ≤ range.2) :
    Tidy (gapsFrom max next ranges) := by
  induction ranges generalizing next with
  | nil =>
      unfold gapsFrom
      split
      · next left =>
          refine ⟨?_, List.pairwise_singleton _ _⟩
          intro segment member
          cases List.mem_singleton.mp member
          exact left
      · exact ⟨fun segment member => absurd member List.not_mem_nil, List.Pairwise.nil⟩
  | cons range rest ih =>
      have filled := valid range List.mem_cons_self
      have tidy : Tidy (gapsFrom max (Nat.max next (range.2 + 1)) rest) :=
        ih (fun other member => valid other (List.mem_cons_of_mem range member))
      unfold gapsFrom
      split
      · next gap =>
          constructor
          case filled =>
            intro segment member
            rcases List.mem_cons.mp member with rfl | later
            · dsimp only
              omega
            · exact tidy.filled segment later
          case apart =>
            refine List.pairwise_cons.mpr ⟨?_, tidy.apart⟩
            intro segment later
            have above := le_of_mem_gapsFrom later
            have beyond : range.2 + 1 ≤ Nat.max next (range.2 + 1) := Nat.le_max_right _ _
            dsimp only
            omega
      · exact tidy

/-- The gaps between ranges in order are what they leave. -/
theorem covered_gapsFrom
    (valid : forall range, range ∈ ranges -> range.1 ≤ range.2 ∧ range.1 ≤ max)
    (sorted : ranges.Pairwise (fun first second => first.1 ≤ second.1)) (number : Nat) :
    Covered (gapsFrom max next ranges) number ↔
      next ≤ number ∧ number ≤ max ∧ ¬ Covered ranges number := by
  induction ranges generalizing next with
  | nil =>
      unfold gapsFrom
      have empty := not_covered_nil number
      split
      · rw [covered_cons]
        simp [empty]
      · simp only [empty, not_false_iff, false_iff]
        omega
  | cons range rest ih =>
      have holds := valid range List.mem_cons_self
      rcases List.pairwise_cons.mp sorted with ⟨least, later⟩
      have remaining := @ih (Nat.max next (range.2 + 1))
        (fun other member => valid other (List.mem_cons_of_mem range member)) later
      have below : number < range.1 -> ¬ Covered rest number := by
        rintro small ⟨other, member, starts, _⟩
        have first := least other member
        omega
      have split_ : Nat.max next (range.2 + 1) ≤ number ↔ next ≤ number ∧ range.2 < number :=
        Nat.max_le
      unfold gapsFrom
      rw [covered_cons, not_or]
      split
      · rw [covered_cons, remaining, split_]
        constructor
        · rintro (⟨from_, to_⟩ | ⟨⟨from_, beyond⟩, small, free⟩)
          · dsimp only at from_ to_
            exact ⟨from_, by omega, by omega, below (by omega)⟩
          · exact ⟨from_, small, by omega, free⟩
        · rintro ⟨from_, small, outside, free⟩
          by_cases before : number < range.1
          · exact Or.inl ⟨from_, by dsimp only; omega⟩
          · exact Or.inr ⟨⟨from_, by omega⟩, small, free⟩
      · rw [remaining, split_]
        constructor
        · rintro ⟨⟨from_, beyond⟩, small, free⟩
          exact ⟨from_, small, by omega, free⟩
        · rintro ⟨from_, small, outside, free⟩
          exact ⟨⟨from_, by omega⟩, small, free⟩

end Gaps

/-! ## Gaps in an interval -/

/-- `sort_unstable` on pairs. -/
def pairOrder (first second : Nat × Nat) : Prop :=
  first.1 < second.1 ∨ (first.1 = second.1 ∧ first.2 ≤ second.2)

instance : DecidableRel pairOrder := fun first second =>
  inferInstanceAs (Decidable (first.1 < second.1 ∨ (first.1 = second.1 ∧ first.2 ≤ second.2)))

/-- The part of the ranges that lies in an interval, in order. -/
def occupied (min max : Nat) (ranges : List (Nat × Nat)) : List (Nat × Nat) :=
  ((ranges.filter (fun range => decide (range.2 ≥ min) && decide (range.1 ≤ max))).map
    (fun range => (Nat.max range.1 min, Nat.min range.2 max))).insertionSort pairOrder

theorem occupied_sorted (min max : Nat) (ranges : List (Nat × Nat)) :
    (occupied min max ranges).Pairwise (fun first second => first.1 ≤ second.1) := by
  have total : Std.Total pairOrder := ⟨by
    intro first second
    unfold pairOrder
    omega⟩
  have transitive : IsTrans (Nat × Nat) pairOrder := ⟨by
    intro first second third
    unfold pairOrder
    omega⟩
  refine (List.pairwise_insertionSort pairOrder _).imp ?_
  intro first second ordered
  unfold pairOrder at ordered
  omega

section Missing

variable {min max : Nat} {ranges : List (Nat × Nat)}

theorem mem_occupied {segment : Nat × Nat} :
    segment ∈ occupied min max ranges ↔ ∃ range, range ∈ ranges ∧ range.2 ≥ min ∧ range.1 ≤ max ∧
      segment = (Nat.max range.1 min, Nat.min range.2 max) := by
  unfold occupied
  rw [List.mem_insertionSort, List.mem_map]
  constructor
  · rintro ⟨range, kept, rfl⟩
    rcases List.mem_filter.mp kept with ⟨member, meets⟩
    rw [Bool.and_eq_true, decide_eq_true_eq, decide_eq_true_eq] at meets
    exact ⟨range, member, meets.1, meets.2, rfl⟩
  · rintro ⟨range, member, low, high, rfl⟩
    refine ⟨range, List.mem_filter.mpr ⟨member, ?_⟩, rfl⟩
    rw [Bool.and_eq_true, decide_eq_true_eq, decide_eq_true_eq]
    exact ⟨low, high⟩

theorem covered_occupied {number : Nat} (low : min ≤ number) (high : number ≤ max) :
    Covered (occupied min max ranges) number ↔ Covered ranges number := by
  constructor
  · rintro ⟨segment, member, starts, ends⟩
    rcases mem_occupied.mp member with ⟨range, inside, _, _, rfl⟩
    exact ⟨range, inside, Nat.le_trans (Nat.le_max_left _ _) starts,
      Nat.le_trans ends (Nat.min_le_left _ _)⟩
  · rintro ⟨range, inside, starts, ends⟩
    exact ⟨_, mem_occupied.mpr ⟨range, inside, Nat.le_trans low ends, Nat.le_trans starts high, rfl⟩,
      Nat.max_le.mpr ⟨starts, low⟩, Nat.le_min.mpr ⟨ends, high⟩⟩

theorem occupied_valid (ordered : min ≤ max)
    (valid : forall range, range ∈ ranges -> range.1 ≤ range.2) {segment : Nat × Nat}
    (member : segment ∈ occupied min max ranges) :
    segment.1 ≤ segment.2 ∧ segment.1 ≤ max ∧ segment.2 ≤ max := by
  rcases mem_occupied.mp member with ⟨range, inside, low, high, rfl⟩
  have filled := valid range inside
  refine ⟨?_, Nat.max_le.mpr ⟨high, ordered⟩, Nat.min_le_right _ _⟩
  exact Nat.le_min.mpr ⟨Nat.max_le.mpr ⟨filled, low⟩, Nat.max_le.mpr ⟨high, ordered⟩⟩

theorem gapsBetween_tidy (ordered : min ≤ max)
    (valid : forall range, range ∈ ranges -> range.1 ≤ range.2) : Tidy (gapsBetween min max ranges) :=
  gapsFrom_tidy (fun _ member => (occupied_valid ordered valid member).1)

theorem covered_gapsBetween (ordered : min ≤ max)
    (valid : forall range, range ∈ ranges -> range.1 ≤ range.2) (number : Nat) :
    Covered (gapsBetween min max ranges) number ↔
      min ≤ number ∧ number ≤ max ∧ ¬ Covered ranges number := by
  have gaps := @covered_gapsFrom max min (occupied min max ranges)
    (fun _ member =>
      ⟨(occupied_valid ordered valid member).1, (occupied_valid ordered valid member).2.1⟩)
    (occupied_sorted min max ranges) number
  refine gaps.trans ?_
  constructor
  · rintro ⟨low, high, free⟩
    exact ⟨low, high, fun covered => free ((covered_occupied low high).mpr covered)⟩
  · rintro ⟨low, high, free⟩
    exact ⟨low, high, fun covered => free ((covered_occupied low high).mp covered)⟩

end Missing

end TealDrive
