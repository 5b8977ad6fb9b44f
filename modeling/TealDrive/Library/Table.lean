import Mathlib.Algebra.GroupWithZero.Nat
import Mathlib.Data.List.Nodup

/-!
# Keyed tables

A table is a list of rows in which no key occurs twice.  The primary key
constraint is a field of the structure, so no operation can produce a table
that violates it.  The operations are those of a relational store: look a row
up, rewrite rows in place, delete the rows that satisfy a condition, insert or
replace one row, and add up a weight over all rows.

Two views of a table matter.  Lookups describe it as a partial function, and
every operation is specified by its effect on lookups.  Totals describe it as
a multiset, and the lemmas about them say how a total moves when one row
changes.
-/

@[ext]
structure Table (Key Value : Type) where
  rows : List (Key × Value)
  unique : (rows.map Prod.fst).Nodup

namespace Table

variable {Key Value : Type}

/-- The table without rows. -/
def empty : Table Key Value := ⟨[], List.nodup_nil⟩

/-- `UPDATE`: rewrite every row, keeping its key. -/
def map (table : Table Key Value) (change : Key -> Value -> Value) : Table Key Value where
  rows := table.rows.map (fun row => (row.1, change row.1 row.2))
  unique := by
    rw [List.map_map]
    exact table.unique

/-- `DELETE`: keep only the rows that satisfy the condition. -/
def filter (table : Table Key Value) (keep : Key -> Value -> Bool) : Table Key Value where
  rows := table.rows.filter (fun row => keep row.1 row.2)
  unique := (List.Sublist.map Prod.fst List.filter_sublist).nodup table.unique

/-- The sum of a weight over all rows. -/
def total (table : Table Key Value) (weight : Key -> Value -> Nat) : Nat :=
  (table.rows.map (fun row => weight row.1 row.2)).sum

/-- The number of rows that satisfy a condition. -/
def count (table : Table Key Value) (condition : Key -> Value -> Bool) : Nat :=
  table.rows.countP (fun row => condition row.1 row.2)

/-- The number of rows. -/
def size (table : Table Key Value) : Nat :=
  table.rows.length

/-- Whether some row satisfies a condition. -/
def exists_ (table : Table Key Value) (condition : Key -> Value -> Bool) : Bool :=
  table.rows.any (fun row => condition row.1 row.2)

/-- `SELECT … LIMIT`: the first rows that satisfy a condition, in the order of
the table. -/
def select (table : Table Key Value) (limit : Nat) (condition : Key -> Value -> Bool) :
    List (Key × Value) :=
  (table.rows.filter (fun row => condition row.1 row.2)).take limit

/-- The row that comes before all others. -/
def foremost (before : Key -> Key -> Bool) : List (Key × Value) -> Option (Key × Value)
  | [] => none
  | row :: rest =>
      match foremost before rest with
      | none => some row
      | some best => if before best.1 row.1 then some best else some row

theorem mem_of_foremost {before : Key -> Key -> Bool} {rows : List (Key × Value)}
    {best : Key × Value} (chosen : foremost before rows = some best) : best ∈ rows := by
  induction rows generalizing best with
  | nil => cases chosen
  | cons row rest ih =>
      unfold foremost at chosen
      cases later : foremost before rest with
      | none =>
          rw [later] at chosen
          cases chosen
          exact List.mem_cons_self
      | some other =>
          simp only [later] at chosen
          split at chosen
          · cases chosen
            exact List.mem_cons_of_mem row (ih later)
          · cases chosen
            exact List.mem_cons_self

theorem isSome_foremost (before : Key -> Key -> Bool) {rows : List (Key × Value)}
    {row : Key × Value} (member : row ∈ rows) : (foremost before rows).isSome = true := by
  cases rows with
  | nil => cases member
  | cons first rest =>
      unfold foremost
      cases foremost before rest with
      | none => rfl
      | some best =>
          dsimp only
          split <;> rfl

/-- `SELECT … ORDER BY … LIMIT 1`. -/
def selectFirst (table : Table Key Value) (before : Key -> Key -> Bool)
    (condition : Key -> Value -> Bool) : Option (Key × Value) :=
  foremost before (table.rows.filter (fun row => condition row.1 row.2))

section Keyed

variable [DecidableEq Key]

/-- The row with the given key. -/
def find (table : Table Key Value) (key : Key) : Option Value :=
  (table.rows.find? (fun row => row.1 == key)).map Prod.snd

/-- Rewrite the row with the given key, when there is one. -/
def modify (table : Table Key Value) (key : Key) (change : Value -> Value) : Table Key Value :=
  table.map (fun other value => if other = key then change value else value)

/-- Delete the row with the given key. -/
def erase (table : Table Key Value) (key : Key) : Table Key Value :=
  table.filter (fun other _ => other != key)

/-- `INSERT OR REPLACE`: the row of the given key becomes the given value. -/
def insert (table : Table Key Value) (key : Key) (value : Value) : Table Key Value where
  rows := (table.erase key).rows ++ [(key, value)]
  unique := by
    rw [List.map_append, List.nodup_append]
    refine ⟨(table.erase key).unique, List.nodup_singleton key, ?_⟩
    intro other member last final
    rcases List.mem_map.mp member with ⟨row, kept, same⟩
    have different := (List.mem_filter.mp kept).2
    rw [List.map_cons, List.map_nil, List.mem_singleton] at final
    subst same
    subst final
    simpa using different

/-! ## Lookups -/

theorem find_eq_some_iff {table : Table Key Value} {key : Key} {value : Value} :
    table.find key = some value ↔ (key, value) ∈ table.rows := by
  unfold find
  constructor
  · intro found
    rcases Option.map_eq_some_iff.mp found with ⟨row, located, same⟩
    have named : row.1 = key := by simpa using List.find?_some located
    have member := List.mem_of_find?_eq_some located
    rw [← named, ← same]
    exact member
  · intro member
    have unique := table.unique
    generalize table.rows = rows at member unique
    induction rows with
    | nil => cases member
    | cons first rest ih =>
        rw [List.map_cons, List.nodup_cons] at unique
        rcases List.mem_cons.mp member with here | there
        · subst here
          rw [List.find?_cons_of_pos (by simp)]
          rfl
        · have different : first.1 ≠ key := by
            intro same
            exact unique.1 (same ▸ List.mem_map_of_mem there)
          rw [List.find?_cons_of_neg (by simpa using different)]
          exact ih there unique.2

theorem find_eq_none_iff {table : Table Key Value} {key : Key} :
    table.find key = none ↔ forall value, (key, value) ∉ table.rows := by
  constructor
  · intro absent value member
    rw [find_eq_some_iff.mpr member] at absent
    cases absent
  · intro absent
    cases found : table.find key with
    | none => rfl
    | some value => exact absurd (find_eq_some_iff.mp found) (absent value)

theorem exists_of_find {table : Table Key Value} {key : Key} {value : Value}
    {condition : Key -> Value -> Bool} (found : table.find key = some value)
    (holds : condition key value = true) : table.exists_ condition = true :=
  List.any_eq_true.mpr ⟨(key, value), find_eq_some_iff.mp found, holds⟩

theorem selectFirst_spec {table : Table Key Value} {before : Key -> Key -> Bool}
    {condition : Key -> Value -> Bool} {row : Key × Value}
    (chosen : table.selectFirst before condition = some row) :
    table.find row.1 = some row.2 ∧ condition row.1 row.2 = true := by
  have member := List.mem_filter.mp (mem_of_foremost chosen)
  exact ⟨find_eq_some_iff.mpr member.1, member.2⟩

theorem isSome_selectFirst {table : Table Key Value} {key : Key} {value : Value}
    {condition : Key -> Value -> Bool} (before : Key -> Key -> Bool)
    (found : table.find key = some value) (holds : condition key value = true) :
    (table.selectFirst before condition).isSome = true :=
  isSome_foremost before (List.mem_filter.mpr ⟨find_eq_some_iff.mp found, holds⟩)

theorem select_spec {table : Table Key Value} {limit : Nat} {condition : Key -> Value -> Bool}
    {row : Key × Value} (member : row ∈ table.select limit condition) :
    table.find row.1 = some row.2 ∧ condition row.1 row.2 = true := by
  have kept := List.mem_filter.mp (List.mem_of_mem_take member)
  exact ⟨find_eq_some_iff.mpr kept.1, kept.2⟩

@[simp] theorem find_empty (key : Key) : (empty : Table Key Value).find key = none := rfl

@[simp] theorem find_map (table : Table Key Value) (change : Key -> Value -> Value) (key : Key) :
    (table.map change).find key = (table.find key).map (change key) := by
  apply Option.ext
  intro value
  rw [find_eq_some_iff, Option.map_eq_some_iff]
  constructor
  · intro member
    rcases List.mem_map.mp member with ⟨row, present, same⟩
    cases same
    exact ⟨row.2, find_eq_some_iff.mpr present, rfl⟩
  · rintro ⟨old, found, same⟩
    subst same
    exact List.mem_map.mpr ⟨(key, old), find_eq_some_iff.mp found, rfl⟩

@[simp] theorem find_filter (table : Table Key Value) (keep : Key -> Value -> Bool) (key : Key) :
    (table.filter keep).find key = (table.find key).filter (keep key) := by
  apply Option.ext
  intro value
  rw [find_eq_some_iff, Option.filter_eq_some_iff, find_eq_some_iff]
  exact List.mem_filter

theorem find_modify_self {table : Table Key Value} {key : Key} (change : Value -> Value) :
    (table.modify key change).find key = (table.find key).map change := by
  unfold modify
  rw [find_map]
  simp

theorem find_modify_of_ne {table : Table Key Value} {key other : Key} (change : Value -> Value)
    (different : other ≠ key) : (table.modify key change).find other = table.find other := by
  unfold modify
  rw [find_map]
  simp [different]

theorem find_erase_self (table : Table Key Value) (key : Key) :
    (table.erase key).find key = none := by
  unfold erase
  rw [find_filter]
  cases table.find key <;> simp

theorem find_erase_of_ne {table : Table Key Value} {key other : Key} (different : other ≠ key) :
    (table.erase key).find other = table.find other := by
  unfold erase
  rw [find_filter]
  cases table.find other <;> simp [different]

/-- What is left after a deletion. -/
theorem of_find_erase {table : Table Key Value} {key other : Key} {value : Value}
    (found : (table.erase key).find other = some value) :
    other ≠ key ∧ table.find other = some value := by
  have different : other ≠ key := by
    intro same
    rw [same, find_erase_self] at found
    cases found
  exact ⟨different, (find_erase_of_ne different).symm.trans found⟩

theorem find_insert_self (table : Table Key Value) (key : Key) (value : Value) :
    (table.insert key value).find key = some value :=
  find_eq_some_iff.mpr (List.mem_append_right _ List.mem_cons_self)

theorem find_insert_of_ne {table : Table Key Value} {key other : Key} (value : Value)
    (different : other ≠ key) : (table.insert key value).find other = table.find other := by
  have kept : (table.erase key).find other = table.find other := find_erase_of_ne different
  rw [← kept]
  apply Option.ext
  intro found
  rw [find_eq_some_iff, find_eq_some_iff]
  constructor
  · intro member
    rcases List.mem_append.mp member with before | last
    · exact before
    · exact absurd (congrArg Prod.fst (List.mem_singleton.mp last)) different
  · exact List.mem_append_left _

theorem erase_of_absent {table : Table Key Value} {key : Key} (absent : table.find key = none) :
    table.erase key = table := by
  apply Table.ext
  apply List.filter_eq_self.mpr
  intro row member
  have different : row.1 ≠ key := by
    intro same
    exact find_eq_none_iff.mp absent row.2 (same ▸ member)
  simpa using different

theorem modify_of_absent {table : Table Key Value} {key : Key} (change : Value -> Value)
    (absent : table.find key = none) : table.modify key change = table := by
  apply Table.ext
  have untouched : forall row, row ∈ table.rows ->
      (row.1, if row.1 = key then change row.2 else row.2) = row := by
    intro row member
    have different : row.1 ≠ key := by
      intro same
      exact find_eq_none_iff.mp absent row.2 (same ▸ member)
    rw [if_neg different]
  exact (List.map_congr_left untouched).trans (List.map_id _)

/-- Rewriting the row just inserted inserts the rewritten row. -/
theorem modify_insert (table : Table Key Value) (key : Key) (value : Value)
    (change : Value -> Value) :
    (table.insert key value).modify key change = table.insert key (change value) := by
  apply Table.ext
  change ((table.erase key).rows ++ [(key, value)]).map _ = (table.erase key).rows ++ [(key, _)]
  rw [List.map_append, List.map_cons, List.map_nil]
  simp only [if_true]
  congr 1
  exact congrArg Table.rows (modify_of_absent change (find_erase_self table key))

/-- All values have a property. -/
def Everywhere (holds : Value -> Prop) (table : Table Key Value) : Prop :=
  forall key value, table.find key = some value -> holds value

namespace Everywhere

variable {holds : Value -> Prop} {table : Table Key Value}

theorem mono {further : Value -> Prop} (each : table.Everywhere holds)
    (weaker : forall value, holds value -> further value) : table.Everywhere further :=
  fun key value found => weaker value (each key value found)

theorem filter (each : table.Everywhere holds) (keep : Key -> Value -> Bool) :
    (table.filter keep).Everywhere holds := by
  intro key value found
  rw [find_filter, Option.filter_eq_some_iff] at found
  exact each key value found.1

theorem erase (each : table.Everywhere holds) (key : Key) : (table.erase key).Everywhere holds :=
  each.filter _

theorem insert (each : table.Everywhere holds) (key : Key) {value : Value} (new : holds value) :
    (table.insert key value).Everywhere holds := by
  intro other found located
  by_cases same : other = key
  · subst same
    rw [find_insert_self] at located
    cases located
    exact new
  · rw [find_insert_of_ne value same] at located
    exact each other found located

theorem rewrite (each : table.Everywhere holds) (key : Key) {value : Value} (new : holds value) :
    (table.modify key (fun _ => value)).Everywhere holds := by
  intro other found located
  by_cases same : other = key
  · subst same
    rw [find_modify_self] at located
    rcases Option.map_eq_some_iff.mp located with ⟨_, _, rfl⟩
    exact new
  · rw [find_modify_of_ne _ same] at located
    exact each other found located

end Everywhere

/-! ## Totals -/

end Keyed

theorem total_map (table : Table Key Value) (change : Key -> Value -> Value)
    (weight : Key -> Value -> Nat) :
    (table.map change).total weight = table.total (fun key value => weight key (change key value)) := by
  unfold total map
  rw [List.map_map]
  rfl

theorem total_filter (table : Table Key Value) (keep : Key -> Value -> Bool)
    (weight : Key -> Value -> Nat) :
    (table.filter keep).total weight =
      table.total (fun key value => if keep key value then weight key value else 0) := by
  change ((table.rows.filter (fun row => keep row.1 row.2)).map _).sum = (table.rows.map _).sum
  generalize table.rows = rows
  induction rows with
  | nil => rfl
  | cons row rest ih =>
      cases kept : keep row.1 row.2 with
      | true => simp [kept, ih]
      | false => simp [kept, ih]

theorem total_le_total {table : Table Key Value} {small large : Key -> Value -> Nat}
    (below : forall row, row ∈ table.rows -> small row.1 row.2 ≤ large row.1 row.2) :
    table.total small ≤ table.total large := by
  unfold total
  generalize table.rows = rows at below
  induction rows with
  | nil => exact Nat.le_refl 0
  | cons row rest ih =>
      have here := below row List.mem_cons_self
      have later := ih (fun other member => below other (List.mem_cons_of_mem row member))
      simp only [List.map_cons, List.sum_cons]
      omega

section Keyed

variable [DecidableEq Key]

theorem total_congr {table : Table Key Value} {first second : Key -> Value -> Nat}
    (same : forall key value, table.find key = some value -> first key value = second key value) :
    table.total first = table.total second := by
  unfold total
  apply congrArg
  apply List.map_congr_left
  intro row member
  exact same row.1 row.2 (find_eq_some_iff.mpr member)

/-- Deleting one row takes its weight away. -/
theorem total_erase {table : Table Key Value} {key : Key} {value : Value}
    (weight : Key -> Value -> Nat) (found : table.find key = some value) :
    (table.erase key).total weight + weight key value = table.total weight := by
  have member := find_eq_some_iff.mp found
  have unique := table.unique
  change ((table.rows.filter (fun row => row.1 != key)).map _).sum + _ = (table.rows.map _).sum
  generalize table.rows = rows at member unique
  induction rows with
  | nil => cases member
  | cons first rest ih =>
      rw [List.map_cons, List.nodup_cons] at unique
      rcases List.mem_cons.mp member with here | there
      · subst here
        have untouched : rest.filter (fun row => row.1 != key) = rest := by
          apply List.filter_eq_self.mpr
          intro row present
          have different : row.1 ≠ key := by
            intro same
            have listed : row.1 ∈ rest.map Prod.fst := List.mem_map_of_mem present
            exact unique.1 (same ▸ listed)
          simpa using different
        rw [List.filter_cons_of_neg (by simp), untouched]
        simp only [List.map_cons, List.sum_cons]
        omega
      · have different : first.1 ≠ key := by
          intro same
          exact unique.1 (same ▸ List.mem_map_of_mem there)
        have rest := ih there unique.2
        rw [List.filter_cons_of_pos (by simpa using different)]
        simp only [List.map_cons, List.sum_cons]
        omega

theorem total_insert (table : Table Key Value) (key : Key) (value : Value)
    (weight : Key -> Value -> Nat) :
    (table.insert key value).total weight = (table.erase key).total weight + weight key value := by
  unfold total insert
  simp

theorem total_insert_of_absent {table : Table Key Value} {key : Key} (value : Value)
    (weight : Key -> Value -> Nat) (absent : table.find key = none) :
    (table.insert key value).total weight = table.total weight + weight key value := by
  rw [total_insert, erase_of_absent absent]

/-- Replacing one row exchanges its weight. -/
theorem total_insert_of_found {table : Table Key Value} {key : Key} {old : Value} (value : Value)
    (weight : Key -> Value -> Nat) (found : table.find key = some old) :
    (table.insert key value).total weight + weight key old =
      table.total weight + weight key value := by
  have removed := total_erase weight found
  have added := total_insert table key value weight
  omega

/-- Rewriting one row exchanges its weight. -/
theorem total_modify {table : Table Key Value} {key : Key} {old : Value}
    (change : Value -> Value) (weight : Key -> Value -> Nat) (found : table.find key = some old) :
    (table.modify key change).total weight + weight key old =
      table.total weight + weight key (change old) := by
  have after : (table.modify key change).find key = some (change old) := by
    rw [find_modify_self, found]
    rfl
  have removed := total_erase weight found
  have removedAfter := total_erase weight after
  have others : ((table.modify key change).erase key).total weight =
      (table.erase key).total weight := by
    unfold modify erase
    rw [total_filter, total_map, total_filter]
    apply total_congr
    intro other value _
    by_cases same : other = key
    · simp [same]
    · simp [same]
  omega

theorem le_total {table : Table Key Value} {key : Key} {value : Value}
    (weight : Key -> Value -> Nat) (found : table.find key = some value) :
    weight key value ≤ table.total weight := by
  have removed := total_erase weight found
  omega

end Keyed

/-! ## Counting rows -/

/-- A count is a total of ones. -/
theorem count_eq_total (table : Table Key Value) (condition : Key -> Value -> Bool) :
    table.count condition = table.total (fun key value => if condition key value then 1 else 0) := by
  unfold count total
  generalize table.rows = rows
  induction rows with
  | nil => rfl
  | cons first rest ih =>
      rw [List.countP_cons, List.map_cons, List.sum_cons, ih]
      exact Nat.add_comm _ _

theorem size_eq_count (table : Table Key Value) : table.size = table.count (fun _ _ => true) :=
  congrFun List.countP_true.symm table.rows

theorem count_filter_le (table : Table Key Value) (keep condition : Key -> Value -> Bool) :
    (table.filter keep).count condition ≤ table.count condition :=
  List.Sublist.countP_le List.filter_sublist

theorem count_map (table : Table Key Value) (change : Key -> Value -> Value)
    {condition : Key -> Value -> Bool}
    (same : forall key value, condition key (change key value) = condition key value) :
    (table.map change).count condition = table.count condition := by
  rw [count_eq_total, count_eq_total, total_map]
  simp only [same]

theorem count_insert_of_absent [DecidableEq Key] {table : Table Key Value} {key : Key}
    (value : Value) (condition : Key -> Value -> Bool) (absent : table.find key = none) :
    (table.insert key value).count condition =
      table.count condition + if condition key value then 1 else 0 := by
  rw [count_eq_total, count_eq_total, total_insert_of_absent value _ absent]

theorem size_insert_of_absent [DecidableEq Key] {table : Table Key Value} {key : Key}
    (value : Value) (absent : table.find key = none) :
    (table.insert key value).size = table.size + 1 := by
  rw [size_eq_count, size_eq_count, count_insert_of_absent value _ absent]
  rfl

theorem size_insert_of_found [DecidableEq Key] {table : Table Key Value} {key : Key} {old : Value}
    (value : Value) (found : table.find key = some old) :
    (table.insert key value).size = table.size := by
  rw [size_eq_count, size_eq_count, count_eq_total, count_eq_total]
  exact Nat.add_right_cancel (total_insert_of_found value _ found)

end Table
