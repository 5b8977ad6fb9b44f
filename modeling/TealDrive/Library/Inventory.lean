import Mathlib.Algebra.BigOperators.Group.Finset.Basic
import Mathlib.Algebra.Order.BigOperators.Group.Finset

/-!
# What a collection of keyed things weighs

A relation says which keys there are and what the thing under each key weighs.
Many things may share a key, and then they are one and weigh the same.  There is
a total only when there are finitely many keys and each has one weight.
-/

open scoped BigOperators

namespace Inventory

universe u

variable {Key : Type u}

/-- The total of a relation between keys and weights. -/
def Weighs (holds : Key -> Nat -> Prop) (total : Nat) : Prop :=
  ∃ (keys : Finset Key) (weight : Key -> Nat),
    (forall key size, holds key size ↔ key ∈ keys ∧ size = weight key) ∧
      total = ∑ key ∈ keys, weight key

variable {holds narrower : Key -> Nat -> Prop} {total : Nat}

/-- A collection has one total. -/
theorem Weighs.unique {other : Nat} (first : Weighs holds total) (second : Weighs holds other) :
    total = other := by
  rcases first with ⟨keys, weight, listed, rfl⟩
  rcases second with ⟨others, weights, relisted, rfl⟩
  have weighed : forall key, key ∈ keys -> key ∈ others ∧ weight key = weights key :=
    fun key member => (relisted key _).mp ((listed key _).mpr ⟨member, rfl⟩)
  have same : keys = others := by
    apply Finset.ext
    intro key
    constructor
    · exact fun member => (weighed key member).1
    · exact fun member => ((listed key _).mp ((relisted key _).mpr ⟨member, rfl⟩)).1
  rw [← same]
  exact Finset.sum_congr rfl (fun key member => (weighed key member).2)

/-- A key has one weight. -/
theorem Weighs.functional {key : Key} {size other : Nat} (weighs : Weighs holds total)
    (first : holds key size) (second : holds key other) : size = other := by
  rcases weighs with ⟨keys, weight, listed, _⟩
  exact ((listed key size).mp first).2.trans ((listed key other).mp second).2.symm

/-- Fewer things weigh no more. -/
theorem Weighs.shrink (weighs : Weighs holds total)
    (only : forall key size, narrower key size -> holds key size) :
    ∃ less, Weighs narrower less ∧ less ≤ total := by
  classical
  rcases weighs with ⟨keys, weight, listed, rfl⟩
  refine ⟨_, ⟨keys.filter (fun key => narrower key (weight key)), weight, ?_, rfl⟩, ?_⟩
  · intro key size
    rw [Finset.mem_filter]
    constructor
    · intro there
      rcases (listed key size).mp (only key size there) with ⟨member, rfl⟩
      exact ⟨⟨member, there⟩, rfl⟩
    · rintro ⟨⟨_, there⟩, rfl⟩
      exact there
  · exact Finset.sum_le_sum_of_subset (Finset.filter_subset _ _)

/-- A new thing is added. -/
theorem Weighs.insert {new : Key} (weighs : Weighs holds total)
    (fresh : forall size, ¬ holds new size) (gain : Nat) :
    Weighs (fun key size => holds key size ∨ key = new ∧ size = gain) (total + gain) := by
  classical
  rcases weighs with ⟨keys, weight, listed, rfl⟩
  have outside : new ∉ keys := fun member => fresh _ ((listed new _).mpr ⟨member, rfl⟩)
  have kept : forall key, key ∈ keys -> key ≠ new := by
    rintro key member rfl
    exact outside member
  refine ⟨Insert.insert new keys, fun key => if key = new then gain else weight key, ?_, ?_⟩
  · intro key size
    rw [Finset.mem_insert]
    constructor
    · rintro (there | ⟨rfl, rfl⟩)
      · rcases (listed key size).mp there with ⟨member, rfl⟩
        exact ⟨Or.inr member, (if_neg (kept key member)).symm⟩
      · exact ⟨Or.inl rfl, (if_pos rfl).symm⟩
    · rintro ⟨rfl | member, rfl⟩
      · exact Or.inr ⟨rfl, if_pos rfl⟩
      · exact Or.inl ((listed key _).mpr ⟨member, if_neg (kept key member)⟩)
  · rw [Finset.sum_insert outside, if_pos rfl, Nat.add_comm]
    congr 1
    exact Finset.sum_congr rfl (fun key member => (if_neg (kept key member)).symm)

/-- A thing is taken away. -/
theorem Weighs.erase {old : Key} {lost : Nat} (weighs : Weighs holds total)
    (there : holds old lost) :
    ∃ less, Weighs (fun key size => holds key size ∧ key ≠ old) less ∧ less + lost = total := by
  classical
  rcases weighs with ⟨keys, weight, listed, rfl⟩
  rcases (listed old lost).mp there with ⟨member, rfl⟩
  refine ⟨_, ⟨keys.erase old, weight, ?_, rfl⟩, ?_⟩
  · intro key size
    rw [Finset.mem_erase]
    change holds key size ∧ key ≠ old ↔ _
    rw [listed key size]
    constructor
    · rintro ⟨⟨inside, same⟩, different⟩
      exact ⟨⟨different, inside⟩, same⟩
    · rintro ⟨⟨different, inside⟩, same⟩
      exact ⟨⟨inside, same⟩, different⟩
  · exact Finset.sum_erase_add keys weight member

end Inventory
