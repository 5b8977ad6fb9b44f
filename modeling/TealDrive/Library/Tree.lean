import Mathlib.Data.List.Basic

/-!
# Directory trees

A tree is a leaf or a labelled list of named subtrees.  Names are looked up
from the front, so a list of entries always describes a partial function from
names to subtrees, and every operation is specified by its effect on lookups.

Paths are lists of names.  `within` rewrites the entries of the directory at a
path and nothing else; adding, removing and moving an entry are all instances
of it.  A rewrite keeps the order of every other entry, so that an entry added
and removed again leaves the very tree there was.
-/

namespace Rows

variable {Name Value : Type} [DecidableEq Name]

def find (name : Name) : List (Name × Value) -> Option Value
  | [] => none
  | (other, value) :: rest => if other = name then some value else find name rest

def drop (name : Name) (rows : List (Name × Value)) : List (Name × Value) :=
  rows.filter (fun row => row.1 != name)

/-- The entry of the given name becomes the given value. -/
def put (name : Name) (value : Value) (rows : List (Name × Value)) : List (Name × Value) :=
  drop name rows ++ [(name, value)]

/-- Rewrite the entry of the given name in its place. -/
def update (name : Name) (change : Value -> Value) : List (Name × Value) -> List (Name × Value)
  | [] => []
  | (other, value) :: rest =>
      if other = name then (other, change value) :: rest
      else (other, value) :: update name change rest

theorem find_eq_none_iff {name : Name} {rows : List (Name × Value)} :
    find name rows = none ↔ name ∉ rows.map Prod.fst := by
  induction rows with
  | nil => simp [find]
  | cons row rest ih =>
      by_cases same : row.1 = name
      · simp [find, same]
      · simp only [find, if_neg same, List.map_cons, List.mem_cons, not_or, ih]
        exact (and_iff_right (Ne.symm same)).symm

theorem find_drop_self (name : Name) (rows : List (Name × Value)) :
    find name (drop name rows) = none := by
  induction rows with
  | nil => rfl
  | cons row rest ih =>
      by_cases same : row.1 = name
      · simpa [drop, same] using ih
      · simpa [drop, find, same] using ih

theorem find_drop_of_ne {name other : Name} (different : other ≠ name)
    (rows : List (Name × Value)) : find other (drop name rows) = find other rows := by
  induction rows with
  | nil => rfl
  | cons row rest ih =>
      by_cases same : row.1 = name
      · have skipped : row.1 ≠ other := fun equal => different (equal.symm.trans same)
        simpa [drop, find, same, skipped, different.symm] using ih
      · by_cases here : row.1 = other
        · simp [drop, find, here, different]
        · simpa [drop, find, same, here] using ih

theorem find_append (name : Name) (first second : List (Name × Value)) :
    find name (first ++ second) = (find name first).or (find name second) := by
  induction first with
  | nil => rfl
  | cons row rest ih =>
      by_cases same : row.1 = name
      · simp [find, same]
      · simpa [find, same] using ih

theorem find_put_self (name : Name) (value : Value) (rows : List (Name × Value)) :
    find name (put name value rows) = some value := by
  rw [put, find_append, find_drop_self]
  simp [find]

theorem find_put_of_ne {name other : Name} (different : other ≠ name) (value : Value)
    (rows : List (Name × Value)) : find other (put name value rows) = find other rows := by
  rw [put, find_append, find_drop_of_ne different]
  simp [find, different.symm]

theorem find_update_self (name : Name) (change : Value -> Value) (rows : List (Name × Value)) :
    find name (update name change rows) = (find name rows).map change := by
  induction rows with
  | nil => rfl
  | cons row rest ih =>
      by_cases same : row.1 = name
      · simp [update, find, same]
      · simpa [update, find, same] using ih

theorem find_update_of_ne {name other : Name} (different : other ≠ name)
    (change : Value -> Value) (rows : List (Name × Value)) :
    find other (update name change rows) = find other rows := by
  induction rows with
  | nil => rfl
  | cons row rest ih =>
      by_cases same : row.1 = name
      · have skipped : row.1 ≠ other := fun equal => different (equal.symm.trans same)
        simp [update, find, same, different.symm]
      · by_cases here : row.1 = other
        · simp [update, find, here, different]
        · simpa [update, find, same, here] using ih

end Rows

inductive NamedTree (Name Leaf Label : Type) where
  | leaf (content : Leaf)
  | branch (label : Label) (entries : List (Name × NamedTree Name Leaf Label))

namespace NamedTree

variable {Name Leaf Label : Type} [DecidableEq Name]

/-- The subtree at a path. -/
def lookup : NamedTree Name Leaf Label -> List Name -> Option (NamedTree Name Leaf Label)
  | tree, [] => some tree
  | .leaf _, _ :: _ => none
  | .branch _ entries, name :: rest =>
      match Rows.find name entries with
      | some child => child.lookup rest
      | none => none

/-- Rewrite the entries of the directory at a path. -/
def within (change : List (Name × NamedTree Name Leaf Label) -> List (Name × NamedTree Name Leaf Label)) :
    List Name -> NamedTree Name Leaf Label -> NamedTree Name Leaf Label
  | _, .leaf content => .leaf content
  | [], .branch label entries => .branch label (change entries)
  | name :: rest, .branch label entries =>
      .branch label (Rows.update name (within change rest) entries)

def isBranch : NamedTree Name Leaf Label -> Bool
  | .leaf _ => false
  | .branch _ _ => true

/-- Add or replace the entry of a directory. -/
def place (tree : NamedTree Name Leaf Label) (path : List Name) (name : Name)
    (item : NamedTree Name Leaf Label) : NamedTree Name Leaf Label :=
  tree.within (Rows.put name item) path

/-- Remove the entry of a directory. -/
def remove (tree : NamedTree Name Leaf Label) (path : List Name) (name : Name) :
    NamedTree Name Leaf Label :=
  tree.within (Rows.drop name) path

/-- There is a directory at the path. -/
def HasBranch (tree : NamedTree Name Leaf Label) (path : List Name) : Prop :=
  ∃ label entries, tree.lookup path = some (.branch label entries)

variable {change : List (Name × NamedTree Name Leaf Label) -> List (Name × NamedTree Name Leaf Label)}

@[simp] theorem lookup_nil (tree : NamedTree Name Leaf Label) : tree.lookup [] = some tree := by
  cases tree <;> rfl

theorem lookup_branch (label : Label) (entries : List (Name × NamedTree Name Leaf Label)) (name : Name)
    (rest : List Name) :
    (branch label entries).lookup (name :: rest) =
      (Rows.find name entries).bind (fun child => child.lookup rest) := by
  rw [lookup]
  cases Rows.find name entries <;> rfl

theorem lookup_append (tree : NamedTree Name Leaf Label) (path rest : List Name) :
    tree.lookup (path ++ rest) = (tree.lookup path).bind (fun item => item.lookup rest) := by
  induction path generalizing tree with
  | nil => simp
  | cons name path ih =>
      cases tree with
      | leaf content => rfl
      | branch label entries =>
          rw [List.cons_append, lookup_branch, lookup_branch]
          cases Rows.find name entries with
          | none => rfl
          | some child => exact ih child

/-- What lies at a path has the directory it lies in. -/
theorem lookup_concat_eq_some {tree item : NamedTree Name Leaf Label} {path : List Name} {name : Name} :
    tree.lookup (path ++ [name]) = some item ↔
      ∃ label entries, tree.lookup path = some (.branch label entries) ∧
        Rows.find name entries = some item := by
  rw [lookup_append]
  constructor
  · intro found
    cases parent : tree.lookup path with
    | none => rw [parent] at found; cases found
    | some directory =>
        rw [parent, Option.bind_some] at found
        cases directory with
        | leaf content => cases found
        | branch label entries =>
            rw [lookup_branch] at found
            rcases Option.bind_eq_some_iff.mp found with ⟨child, named, same⟩
            rw [lookup_nil] at same
            cases same
            exact ⟨label, entries, rfl, named⟩
  · rintro ⟨label, entries, parent, named⟩
    rw [parent, Option.bind_some, lookup_branch, named, Option.bind_some, lookup_nil]

/-! ## Lookups after a rewrite -/

/-- At the rewritten directory and below it. -/
theorem lookup_within {tree : NamedTree Name Leaf Label} {path : List Name} {label : Label}
    {entries : List (Name × NamedTree Name Leaf Label)}
    (found : tree.lookup path = some (.branch label entries)) :
    (tree.within change path).lookup path = some (.branch label (change entries)) := by
  induction path generalizing tree with
  | nil =>
      rw [lookup_nil] at found
      cases found
      rw [within, lookup_nil]
  | cons name path ih =>
      cases tree with
      | leaf content => cases found
      | branch outer others =>
          rw [lookup_branch] at found
          rcases Option.bind_eq_some_iff.mp found with ⟨child, named, below⟩
          rw [within, lookup_branch, Rows.find_update_self, named]
          exact ih below

/-- Beside the rewritten directory nothing changes. -/
theorem lookup_within_of_diverge {tree : NamedTree Name Leaf Label} {path other : List Name}
    (above : ¬ other <+: path) (below : ¬ path <+: other) :
    (tree.within change path).lookup other = tree.lookup other := by
  induction path generalizing tree other with
  | nil => exact absurd List.nil_prefix below
  | cons name path ih =>
      cases other with
      | nil => exact absurd List.nil_prefix above
      | cons first other =>
          cases tree with
          | leaf content => rfl
          | branch label entries =>
              rw [within, lookup_branch, lookup_branch]
              by_cases same : first = name
              · subst same
                rw [Rows.find_update_self]
                cases Rows.find first entries with
                | none => rfl
                | some child =>
                    refine ih (fun inside => above ?_) (fun inside => below ?_)
                    · exact (List.prefix_cons_inj first).mpr inside
                    · exact (List.prefix_cons_inj first).mpr inside
              · rw [Rows.find_update_of_ne same]

/-- Above the rewritten directory the tree is rewritten inside. -/
theorem lookup_within_above
    (change : List (Name × NamedTree Name Leaf Label) -> List (Name × NamedTree Name Leaf Label))
    (tree : NamedTree Name Leaf Label) (path rest : List Name) :
    (tree.within change (path ++ rest)).lookup path =
      (tree.lookup path).map (fun item => item.within change rest) := by
  induction path generalizing tree with
  | nil => simp
  | cons name path ih =>
      cases tree with
      | leaf content => rfl
      | branch label entries =>
          rw [List.cons_append, within, lookup_branch, lookup_branch, Rows.find_update_self]
          cases Rows.find name entries with
          | none => rfl
          | some child => exact ih child

/-! ## Rewrites of one directory -/

theorem lookup_place_self {tree : NamedTree Name Leaf Label} {path : List Name} {name : Name}
    (item : NamedTree Name Leaf Label) (parent : tree.HasBranch path) :
    (tree.place path name item).lookup (path ++ [name]) = some item := by
  rcases parent with ⟨label, entries, found⟩
  exact lookup_concat_eq_some.mpr
    ⟨label, _, lookup_within found, Rows.find_put_self name item entries⟩

theorem lookup_remove_self {tree : NamedTree Name Leaf Label} {path : List Name} {name : Name} :
    (tree.remove path name).lookup (path ++ [name]) = none := by
  cases found : (tree.remove path name).lookup (path ++ [name]) with
  | none => rfl
  | some item =>
      rcases lookup_concat_eq_some.mp found with ⟨label, entries, parent, named⟩
      have above := lookup_within_above (Rows.drop name) tree path []
      rw [List.append_nil] at above
      unfold remove at parent
      rw [parent] at above
      rcases Option.map_eq_some_iff.mp above.symm with ⟨old, _, same⟩
      cases old with
      | leaf content => cases same
      | branch inner rows =>
          cases same
          rw [Rows.find_drop_self] at named
          cases named

/-- A rewrite of one entry of a directory changes no path that leads elsewhere. -/
theorem lookup_within_entry {tree : NamedTree Name Leaf Label} {path other : List Name} {name : Name}
    (others : forall second entries, second ≠ name ->
      Rows.find second (change entries) = Rows.find second entries)
    (above : ¬ other <+: path) (below : ¬ path ++ [name] <+: other) :
    (tree.within change path).lookup other = tree.lookup other := by
  by_cases inside : path <+: other
  · rcases inside with ⟨rest, rfl⟩
    cases rest with
    | nil => exact absurd (by simp) above
    | cons second rest =>
        have different : second ≠ name := by
          intro same
          apply below
          subst same
          exact ⟨rest, by rw [List.append_assoc]; rfl⟩
        have parent := lookup_within_above change tree path []
        rw [List.append_nil] at parent
        rw [lookup_append, lookup_append, parent]
        cases tree.lookup path with
        | none => rfl
        | some directory =>
            cases directory with
            | leaf content => rfl
            | branch label entries =>
                simp only [Option.map_some, Option.bind_some, within, lookup_branch]
                rw [others second entries different]
  · exact lookup_within_of_diverge above inside

theorem lookup_place_of_ne {tree : NamedTree Name Leaf Label} {path other : List Name} {name : Name}
    (item : NamedTree Name Leaf Label) (above : ¬ other <+: path) (below : ¬ path ++ [name] <+: other) :
    (tree.place path name item).lookup other = tree.lookup other :=
  lookup_within_entry (fun _ entries different => Rows.find_put_of_ne different item entries)
    above below

theorem lookup_remove_of_ne {tree : NamedTree Name Leaf Label} {path other : List Name} {name : Name}
    (above : ¬ other <+: path) (below : ¬ path ++ [name] <+: other) :
    (tree.remove path name).lookup other = tree.lookup other :=
  lookup_within_entry (fun _ entries different => Rows.find_drop_of_ne different entries)
    above below

/-- Directories stay directories, wherever the rewrite happens. -/
theorem HasBranch.within {tree : NamedTree Name Leaf Label} {path other : List Name}
    (kept : forall label entries, tree.lookup path = some (.branch label entries) ->
      forall name rest, other = path ++ name :: rest ->
        Rows.find name (change entries) = Rows.find name entries)
    (here : tree.HasBranch other) : (tree.within change path).HasBranch other := by
  rcases here with ⟨label, entries, found⟩
  by_cases above : other <+: path
  · rcases above with ⟨rest, rfl⟩
    have inside := lookup_within_above change tree other rest
    rw [found, Option.map_some] at inside
    cases rest with
    | nil => exact ⟨label, _, inside⟩
    | cons name rest => exact ⟨label, _, inside⟩
  · by_cases below : path <+: other
    · rcases below with ⟨rest, rfl⟩
      cases rest with
      | nil => exact absurd (by simp) above
      | cons name rest =>
          have parent := lookup_within_above change tree path []
          rw [List.append_nil] at parent
          refine ⟨label, entries, ?_⟩
          rw [lookup_append] at found ⊢
          rw [parent]
          cases directory : tree.lookup path with
          | none => rw [directory] at found; cases found
          | some item =>
              rw [directory] at found
              cases item with
              | leaf content => cases found
              | branch inner rows =>
                  simp only [Option.map_some, Option.bind_some, NamedTree.within, lookup_branch] at found ⊢
                  rw [kept inner rows directory name rest rfl]
                  exact found
    · exact ⟨label, entries, (lookup_within_of_diverge above below).trans found⟩

end NamedTree
