import Mathlib.Algebra.BigOperators.Group.Finset.Piecewise
import Mathlib.Algebra.Order.BigOperators.Group.Finset
import TealDrive.Library.Table

/-!
# Totals of tables as finite sums

The total of a table is the sum of the weights of its rows over any finite set
that contains every key of a row with weight.  Two tables can then be compared
key by key over one common set.
-/

open scoped BigOperators

namespace Table

variable {Key Value : Type} [DecidableEq Key]

/-- The keys that have a row. -/
def keys (table : Table Key Value) : Finset Key :=
  (table.rows.map Prod.fst).toFinset

theorem mem_keys {table : Table Key Value} {key : Key} {value : Value}
    (found : table.find key = some value) : key ∈ table.keys := by
  have member := find_eq_some_iff.mp found
  exact List.mem_toFinset.mpr (List.mem_map_of_mem member)

/-- The weight of the row of a key, zero where there is none. -/
def weigh (table : Table Key Value) (weight : Key -> Value -> Nat) (key : Key) : Nat :=
  ((table.find key).map (weight key)).getD 0

theorem total_eq_sum_keys (table : Table Key Value) (weight : Key -> Value -> Nat) :
    table.total weight = ∑ key ∈ table.keys, table.weigh weight key := by
  unfold keys
  rw [List.sum_toFinset _ table.unique, List.map_map]
  unfold total
  apply congrArg
  apply List.map_congr_left
  intro row member
  have found := find_eq_some_iff.mpr member
  simp [weigh, found]

/-- Rows without weight may be left out, and keys without a row added. -/
theorem total_eq_sum {table : Table Key Value} {weight : Key -> Value -> Nat}
    (cover : Finset Key) (covered : forall key, table.weigh weight key ≠ 0 -> key ∈ cover) :
    table.total weight = ∑ key ∈ cover, table.weigh weight key := by
  rw [total_eq_sum_keys]
  have wider : ∑ key ∈ table.keys, table.weigh weight key =
      ∑ key ∈ table.keys ∪ cover, table.weigh weight key := by
    apply Finset.sum_subset Finset.subset_union_left
    intro key _ outside
    cases found : table.find key with
    | none => simp [weigh, found]
    | some value => exact absurd (mem_keys found) outside
  have narrower : ∑ key ∈ cover, table.weigh weight key =
      ∑ key ∈ table.keys ∪ cover, table.weigh weight key := by
    apply Finset.sum_subset Finset.subset_union_right
    intro key _ outside
    by_contra heavy
    exact outside (covered key heavy)
  rw [wider, narrower]

/-- A sum in which one summand grows. -/
theorem sum_le_sum_add {before after : Key -> Nat} {amount : Nat} (key : Key) (cover : Finset Key)
    (grows : forall other, after other ≤ before other + if other = key then amount else 0) :
    ∑ other ∈ cover, after other ≤ ∑ other ∈ cover, before other + amount := by
  calc ∑ other ∈ cover, after other
      ≤ ∑ other ∈ cover, (before other + if other = key then amount else 0) :=
        Finset.sum_le_sum (fun other _ => grows other)
    _ = ∑ other ∈ cover, before other + if key ∈ cover then amount else 0 := by
        rw [Finset.sum_add_distrib, Finset.sum_ite_eq' cover key]
    _ ≤ ∑ other ∈ cover, before other + amount := by
        split <;> omega

end Table
