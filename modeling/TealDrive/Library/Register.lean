import TealDrive.Library.Table

/-!
# Tables of values that know their key

A register is a table in which every value is stored under the key it names.
Rows are written by value only, so that a row cannot be moved to another key.
-/

structure Register (Key Value : Type) [DecidableEq Key] (keyOf : Value -> Key) where
  table : Table Key Value
  keyed : forall key value, table.find key = some value -> keyOf value = key

namespace Register

variable {Key Value : Type} [DecidableEq Key] {keyOf : Value -> Key}

def empty : Register Key Value keyOf where
  table := .empty
  keyed := by
    intro key value found
    cases found

def find (register : Register Key Value keyOf) (key : Key) : Option Value := register.table.find key

/-- `DELETE`: keep only the rows that satisfy the condition. -/
def filter (register : Register Key Value keyOf) (keep : Key -> Value -> Bool) :
    Register Key Value keyOf where
  table := register.table.filter keep
  keyed := by
    intro key value found
    rw [Table.find_filter, Option.filter_eq_some_iff] at found
    exact register.keyed key value found.1

/-- Delete the row with the given key. -/
def erase (register : Register Key Value keyOf) (key : Key) : Register Key Value keyOf :=
  register.filter (fun other _ => other != key)

/-- Store a value under its key. -/
def insert (register : Register Key Value keyOf) (value : Value) : Register Key Value keyOf where
  table := register.table.insert (keyOf value) value
  keyed := by
    intro key other found
    by_cases same : key = keyOf value
    · subst same
      rw [Table.find_insert_self] at found
      cases found
      rfl
    · rw [Table.find_insert_of_ne _ same] at found
      exact register.keyed key other found

/-- `UPDATE`: put a value in the place of the row with its key, if there is
one. -/
def replace (register : Register Key Value keyOf) (value : Value) : Register Key Value keyOf where
  table := register.table.modify (keyOf value) (fun _ => value)
  keyed := by
    intro key other found
    by_cases same : key = keyOf value
    · subst same
      rw [Table.find_modify_self] at found
      rcases Option.map_eq_some_iff.mp found with ⟨_, _, rfl⟩
      rfl
    · rw [Table.find_modify_of_ne _ same] at found
      exact register.keyed key other found

/-- `UPDATE` of all rows, by a change that keeps the keys. -/
def map (register : Register Key Value keyOf) (change : Value -> Value)
    (keeps : forall value, keyOf (change value) = keyOf value) : Register Key Value keyOf where
  table := register.table.map (fun _ value => change value)
  keyed := by
    intro key value found
    rw [Table.find_map] at found
    rcases Option.map_eq_some_iff.mp found with ⟨old, stored, rfl⟩
    exact (keeps old).trans (register.keyed key old stored)

variable {register : Register Key Value keyOf}

theorem find_map (change : Value -> Value) (keeps : forall value, keyOf (change value) = keyOf value)
    (key : Key) : (register.map change keeps).find key = (register.find key).map change :=
  Table.find_map register.table (fun _ => change) key

@[simp] theorem find_empty (key : Key) : (empty : Register Key Value keyOf).find key = none := rfl

@[simp] theorem find_filter (keep : Key -> Value -> Bool) (key : Key) :
    (register.filter keep).find key = (register.find key).filter (keep key) :=
  Table.find_filter register.table keep key

theorem find_erase_self (key : Key) : (register.erase key).find key = none :=
  Table.find_erase_self register.table key

theorem find_erase_of_ne {key other : Key} (different : other ≠ key) :
    (register.erase key).find other = register.find other :=
  Table.find_erase_of_ne different

theorem find_insert_self (value : Value) :
    (register.insert value).find (keyOf value) = some value :=
  Table.find_insert_self register.table (keyOf value) value

theorem find_insert_of_ne {value : Value} {other : Key} (different : other ≠ keyOf value) :
    (register.insert value).find other = register.find other :=
  Table.find_insert_of_ne value different

theorem find_replace_self (value : Value) :
    (register.replace value).find (keyOf value) =
      (register.find (keyOf value)).map (fun _ => value) :=
  Table.find_modify_self (fun _ => value)

theorem find_replace_of_ne {value : Value} {other : Key} (different : other ≠ keyOf value) :
    (register.replace value).find other = register.find other :=
  Table.find_modify_of_ne (fun _ => value) different

/-- An update removes no row. -/
theorem isSome_find_replace (value : Value) (key : Key) :
    ((register.replace value).find key).isSome = (register.find key).isSome := by
  by_cases same : key = keyOf value
  · subst same
    rw [find_replace_self, Option.isSome_map]
  · rw [find_replace_of_ne same]

end Register
