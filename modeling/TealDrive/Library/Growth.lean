import TealDrive.Library.Tree

namespace NamedTree

/-!
# Growth below a directory

A tree grows below a directory when nothing there is lost, everything new lies
at certain paths, and nothing outside changes.  Growth composes, so that the
growth of a whole run follows from the growth of its steps.

`edit` rewrites the item at a path.  Adding an entry to a directory, and
rewriting an item without changing what lies below it, are growth.
-/

variable {Name Leaf Label : Type} [DecidableEq Name]

/-- Rewrite the item at a path. -/
def edit (change : NamedTree Name Leaf Label -> NamedTree Name Leaf Label) :
    List Name -> NamedTree Name Leaf Label -> NamedTree Name Leaf Label
  | [], tree => change tree
  | _ :: _, .leaf content => .leaf content
  | name :: rest, .branch label entries => .branch label (Rows.update name (edit change rest) entries)

variable {change : NamedTree Name Leaf Label -> NamedTree Name Leaf Label}

/-- At the edited item and below it. -/
theorem lookup_edit (tree : NamedTree Name Leaf Label) (path rest : List Name) :
    (tree.edit change path).lookup (path ++ rest) =
      (tree.lookup path).bind (fun item => (change item).lookup rest) := by
  induction path generalizing tree with
  | nil => rw [edit, List.nil_append, lookup_nil, Option.bind_some]
  | cons name path ih =>
      cases tree with
      | leaf content => rfl
      | branch label entries =>
          rw [edit, List.cons_append, lookup_branch, lookup_branch, Rows.find_update_self]
          cases Rows.find name entries with
          | none => rfl
          | some child => exact ih child

theorem lookup_edit_of_diverge {tree : NamedTree Name Leaf Label} {path other : List Name}
    (above : ¬ other <+: path) (below : ¬ path <+: other) :
    (tree.edit change path).lookup other = tree.lookup other := by
  induction path generalizing tree other with
  | nil => exact absurd List.nil_prefix below
  | cons name path ih =>
      cases other with
      | nil => exact absurd List.nil_prefix above
      | cons first other =>
          cases tree with
          | leaf content => rfl
          | branch label entries =>
              rw [edit, lookup_branch, lookup_branch]
              by_cases same : first = name
              · subst same
                rw [Rows.find_update_self]
                cases Rows.find first entries with
                | none => rfl
                | some child =>
                    refine ih (fun inside => above ?_) (fun inside => below ?_)
                    · exact (List.prefix_cons_inj first).mpr inside
                    · exact (List.prefix_cons_inj first).mpr inside
              · rw [Rows.find_update_of_ne same]

theorem lookup_edit_above (tree : NamedTree Name Leaf Label) (path rest : List Name) :
    (tree.edit change (path ++ rest)).lookup path =
      (tree.lookup path).map (fun item => item.edit change rest) := by
  induction path generalizing tree with
  | nil => simp
  | cons name path ih =>
      cases tree with
      | leaf content => rfl
      | branch label entries =>
          rw [List.cons_append, edit, lookup_branch, lookup_branch, Rows.find_update_self]
          cases Rows.find name entries with
          | none => rfl
          | some child => exact ih child

/-- What is below a path is reached through a directory there. -/
theorem hasBranch_of_lookup {tree item : NamedTree Name Leaf Label} {path rest : List Name} {name : Name}
    (found : tree.lookup (path ++ name :: rest) = some item) : tree.HasBranch path := by
  rw [lookup_append] at found
  rcases Option.bind_eq_some_iff.mp found with ⟨directory, here, below⟩
  cases directory with
  | leaf content => cases below
  | branch label entries => exact ⟨label, entries, here⟩

/-! ## Growth -/

/-- Below a directory nothing is lost, and what is new lies at the given paths;
beside the directory nothing changes. -/
structure Grows (base : List Name) (reach : List Name -> Prop)
    (before after : NamedTree Name Leaf Label) : Prop where
  beside : forall path, ¬ base <+: path -> ¬ path <+: base ->
    after.lookup path = before.lookup path
  above : forall path, path <+: base -> before.HasBranch path -> after.HasBranch path
  kept : forall rest, (before.lookup (base ++ rest)).isSome = true ->
    (after.lookup (base ++ rest)).isSome = true
  reached : forall rest, (after.lookup (base ++ rest)).isSome = true ->
    (before.lookup (base ++ rest)).isSome = true ∨ reach rest

/-- Everything below a directory is of some kind. -/
def Below (base : List Name) (kind : NamedTree Name Leaf Label -> Prop)
    (tree : NamedTree Name Leaf Label) : Prop :=
  forall rest item, tree.lookup (base ++ rest) = some item -> kind item

namespace Grows

variable {base : List Name} {reach wider : List Name -> Prop}
  {before middle after : NamedTree Name Leaf Label}

theorem refl (base : List Name) (reach : List Name -> Prop) (tree : NamedTree Name Leaf Label) :
    Grows base reach tree tree where
  beside := fun _ _ _ => rfl
  above := fun _ _ here => here
  kept := fun _ here => here
  reached := fun _ here => .inl here

theorem trans (first : Grows base reach before middle) (second : Grows base reach middle after) :
    Grows base reach before after where
  beside := by
    intro path outside other
    rw [second.beside path outside other, first.beside path outside other]
  above := fun path inside here => second.above path inside (first.above path inside here)
  kept := fun rest here => second.kept rest (first.kept rest here)
  reached := by
    intro rest here
    rcases second.reached rest here with earlier | new
    · exact first.reached rest earlier
    · exact .inr new

theorem mono (grows : Grows base reach before after) (wide : forall rest, reach rest -> wider rest) :
    Grows base wider before after where
  beside := grows.beside
  above := grows.above
  kept := grows.kept
  reached := fun rest here => (grows.reached rest here).imp id (wide rest)

end Grows

/-! ## Adding an entry -/

section Place

variable {base parent : List Name} {name : Name} {item tree : NamedTree Name Leaf Label}

theorem HasBranch.of_prefix {path front : List Name} (inside : front <+: path)
    (directory : tree.HasBranch path) : tree.HasBranch front := by
  rcases inside with ⟨rest, rfl⟩
  cases rest with
  | nil =>
      rw [List.append_nil] at directory
      exact directory
  | cons name rest =>
      rcases directory with ⟨label, entries, found⟩
      exact hasBranch_of_lookup found

/-- What a path leads to after an entry was added. -/
theorem lookup_place_cases (item : NamedTree Name Leaf Label) (directory : tree.HasBranch parent)
    (path : List Name) :
    (∃ rest, path = parent ++ [name] ++ rest ∧
      (tree.place parent name item).lookup path = item.lookup rest) ∨
    (∃ rest, parent = path ++ rest ∧ ∃ old, tree.lookup path = some old ∧
      (tree.place parent name item).lookup path = some (old.within (Rows.put name item) rest)) ∨
    (¬ path <+: parent ∧ ¬ parent ++ [name] <+: path ∧
      (tree.place parent name item).lookup path = tree.lookup path) := by
  by_cases below : parent ++ [name] <+: path
  · rcases below with ⟨rest, rfl⟩
    refine .inl ⟨rest, rfl, ?_⟩
    rw [lookup_append, lookup_place_self item directory, Option.bind_some]
  · by_cases above : path <+: parent
    · rcases above with ⟨rest, rfl⟩
      rcases directory.of_prefix (List.prefix_append path rest) with ⟨label, entries, found⟩
      refine .inr (.inl ⟨rest, rfl, _, found, ?_⟩)
      rw [place, lookup_within_above, found, Option.map_some]
    · exact .inr (.inr ⟨above, below, lookup_place_of_ne item above below⟩)

/-- An entry without anything below it is added, where nothing was below. -/
theorem grows_place (directory : tree.HasBranch (base ++ parent))
    (flat : forall rest, rest ≠ [] -> item.lookup rest = none)
    (free : forall rest, rest ≠ [] -> tree.lookup (base ++ parent ++ [name] ++ rest) = none) :
    Grows base (fun rest => rest = parent ++ [name]) tree (tree.place (base ++ parent) name item) where
  beside := by
    intro path outside other
    apply lookup_place_of_ne
    · intro inside
      rcases List.prefix_or_prefix_of_prefix inside (List.prefix_append base parent) with
        shorter | longer
      · exact other shorter
      · exact outside longer
    · intro inside
      apply outside
      rw [List.append_assoc] at inside
      exact (List.prefix_append base _).trans inside
  above := by
    intro path inside here
    apply HasBranch.within _ here
    intro label entries _ second rest same
    have longer := inside.length_le
    rw [same] at longer
    simp only [List.length_append, List.length_cons] at longer
    omega
  kept := by
    intro rest here
    rcases lookup_place_cases item directory (base ++ rest) with
      ⟨tail, below, found⟩ | ⟨tail, _, old, _, found⟩ | ⟨_, _, found⟩
    · rw [found]
      by_cases last : tail = []
      · rw [last, lookup_nil]
        rfl
      · rw [below, free tail last] at here
        cases here
    · rw [found]
      rfl
    · rw [found]
      exact here
  reached := by
    intro rest here
    rcases lookup_place_cases item directory (base ++ rest) with
      ⟨tail, below, found⟩ | ⟨tail, _, old, there, _⟩ | ⟨_, _, found⟩
    · by_cases last : tail = []
      · right
        rw [last, List.append_nil, List.append_assoc] at below
        exact List.append_cancel_left below
      · rw [found, flat tail last] at here
        cases here
    · rw [there]
      exact .inl rfl
    · rw [found] at here
      exact .inl here

theorem below_place {kind : NamedTree Name Leaf Label -> Prop}
    (stable : forall path old, kind old -> kind (old.within (Rows.put name item) path))
    (directory : tree.HasBranch (base ++ parent))
    (new : forall rest below, item.lookup rest = some below -> kind below)
    (all : Below base kind tree) : Below base kind (tree.place (base ++ parent) name item) := by
  intro rest found here
  rcases lookup_place_cases item directory (base ++ rest) with
    ⟨tail, _, same⟩ | ⟨tail, _, old, there, same⟩ | ⟨_, _, same⟩
  · rw [same] at here
    exact new tail found here
  · rw [same, Option.some.injEq] at here
    rw [← here]
    exact stable tail old (all rest old there)
  · rw [same] at here
    exact all rest found here

end Place

/-! ## Rewriting an item -/

/-- A rewrite after which the same paths lead somewhere. -/
structure Reshapes (change : NamedTree Name Leaf Label -> NamedTree Name Leaf Label) : Prop where
  lookups : forall item rest, ((change item).lookup rest).isSome = (item.lookup rest).isSome
  branch : forall label entries, ∃ other rows, change (.branch label entries) = .branch other rows

section Edit

variable {base path : List Name} {tree : NamedTree Name Leaf Label}

theorem lookup_edit_cases (change : NamedTree Name Leaf Label -> NamedTree Name Leaf Label)
    (tree : NamedTree Name Leaf Label) (path other : List Name) :
    (∃ rest, other = path ++ rest ∧ (tree.edit change path).lookup other =
      (tree.lookup path).bind (fun item => (change item).lookup rest)) ∨
    (∃ rest, path = other ++ rest ∧ (tree.edit change path).lookup other =
      (tree.lookup other).map (fun item => item.edit change rest)) ∨
    (¬ other <+: path ∧ ¬ path <+: other ∧
      (tree.edit change path).lookup other = tree.lookup other) := by
  by_cases below : path <+: other
  · rcases below with ⟨rest, rfl⟩
    exact .inl ⟨rest, rfl, lookup_edit tree path rest⟩
  · by_cases above : other <+: path
    · rcases above with ⟨rest, rfl⟩
      exact .inr (.inl ⟨rest, rfl, lookup_edit_above tree other rest⟩)
    · exact .inr (.inr ⟨above, below, lookup_edit_of_diverge above below⟩)

theorem isSome_lookup_edit (shape : Reshapes change) (other : List Name) :
    ((tree.edit change path).lookup other).isSome = (tree.lookup other).isSome := by
  rcases lookup_edit_cases change tree path other with
    ⟨rest, below, same⟩ | ⟨rest, _, same⟩ | ⟨_, _, same⟩
  · rw [same, below, lookup_append]
    cases tree.lookup path with
    | none => rfl
    | some item => exact shape.lookups item rest
  · rw [same, Option.isSome_map]
  · rw [same]

/-- Directories on the way to the rewritten item stay directories. -/
theorem HasBranch.edit (shape : Reshapes change) {other rest : List Name}
    (here : tree.HasBranch other) : (tree.edit change (other ++ rest)).HasBranch other := by
  rcases here with ⟨label, entries, found⟩
  have same := @lookup_edit_above _ _ _ _ change tree other rest
  rw [found, Option.map_some] at same
  cases rest with
  | nil =>
      rcases shape.branch label entries with ⟨inner, rows, changed⟩
      refine ⟨inner, rows, ?_⟩
      rw [same, NamedTree.edit, changed]
  | cons name rest => exact ⟨label, _, same⟩

/-- Rewriting an item loses nothing and adds nothing. -/
theorem grows_edit (shape : Reshapes change) (reach : List Name -> Prop) :
    Grows base reach tree (tree.edit change (base ++ path)) where
  beside := by
    intro other outside above
    apply lookup_edit_of_diverge
    · intro inside
      rcases List.prefix_or_prefix_of_prefix inside (List.prefix_append base path) with
        shorter | longer
      · exact above shorter
      · exact outside longer
    · intro inside
      exact outside ((List.prefix_append base path).trans inside)
  above := by
    rintro other ⟨rest, rfl⟩ here
    rw [List.append_assoc]
    exact here.edit shape
  kept := by
    intro rest here
    rw [isSome_lookup_edit shape]
    exact here
  reached := by
    intro rest here
    rw [isSome_lookup_edit shape] at here
    exact .inl here

theorem below_edit {kind : NamedTree Name Leaf Label -> Prop}
    (stable : forall rest old, kind old -> kind (old.edit change rest))
    (inside : forall item, (forall rest found, item.lookup rest = some found -> kind found) ->
      forall rest found, (change item).lookup rest = some found -> kind found)
    (all : Below base kind tree) : Below base kind (tree.edit change (base ++ path)) := by
  intro rest found here
  rcases lookup_edit_cases change tree (base ++ path) (base ++ rest) with
    ⟨tail, below, same⟩ | ⟨tail, _, same⟩ | ⟨_, _, same⟩
  · rw [same] at here
    rcases Option.bind_eq_some_iff.mp here with ⟨item, there, changed⟩
    refine inside item ?_ tail found changed
    intro rest found here
    apply all (path ++ rest) found
    rw [← List.append_assoc, lookup_append, there, Option.bind_some]
    exact here
  · rw [same] at here
    rcases Option.map_eq_some_iff.mp here with ⟨old, there, changed⟩
    rw [← changed]
    exact stable tail old (all rest old there)
  · rw [same] at here
    exact all rest found here

end Edit

end NamedTree
