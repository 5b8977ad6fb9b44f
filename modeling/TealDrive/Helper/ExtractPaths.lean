import TealDrive.Helper.Extract

namespace TealDrive

open Outcome

/-!
# Where an extraction writes

An extraction grows the private directory it is given and nothing else.  What
is new there lies at the path of an entry that is no link, or above it: a zip
entry creates the directories it needs, a tar entry does not.  Every such path
was checked, but not the directories above it.  The same goes for directories
above the destination, which are created with it.
-/

/-- Regular files and directories. -/
def Linkless : Node -> Prop
  | .leaf (.file _ _) => True
  | .leaf _ => False
  | .branch _ _ => True

theorem plain_within {change : List (Text × Node) -> List (Text × Node)} {node : Node}
    (path : List Text) (plain : Linkless node) : Linkless (node.within change path) := by
  cases node with
  | leaf content => cases path <;> exact plain
  | branch label entries => cases path <;> exact trivial

theorem plain_withMode {mode : Nat} {node : Node} (plain : Linkless node) :
    Linkless (withMode mode node) := by
  cases node with
  | leaf content => cases content <;> exact plain
  | branch label entries => exact trivial

theorem plain_edit {mode : Nat} {node : Node} (path : List Text) (plain : Linkless node) :
    Linkless (node.edit (withMode mode) path) := by
  cases path with
  | nil => exact plain_withMode plain
  | cons name rest =>
      cases node with
      | leaf content => exact plain
      | branch label entries => exact trivial

/-- Changing permissions changes no lookup below. -/
theorem lookup_withMode (mode : Nat) (node : Node) {rest : List Text} (below : rest ≠ []) :
    (withMode mode node).lookup rest = node.lookup rest := by
  cases rest with
  | nil => exact absurd rfl below
  | cons name rest =>
      cases node with
      | leaf content => cases content <;> rfl
      | branch label entries => rfl

theorem withMode_reshapes (mode : Nat) : NamedTree.Reshapes (withMode mode) where
  lookups := by
    intro node rest
    by_cases here : rest = []
    · rw [here, NamedTree.lookup_nil, NamedTree.lookup_nil]
      rfl
    · rw [lookup_withMode mode node here]
  branch := fun _ entries => ⟨mode % 512, entries, rfl⟩

/-! ## Growth by regular files and directories -/

/-- The tree grows below the directory, by regular files and directories. -/
structure Grown (base : List Text) (reach : List Text -> Prop) (before after : Node) : Prop where
  grows : NamedTree.Grows base reach before after
  plain : NamedTree.Below base Linkless before -> NamedTree.Below base Linkless after

namespace Grown

variable {base : List Text} {reach wider : List Text -> Prop} {before middle after : Node}

theorem refl (base : List Text) (reach : List Text -> Prop) (node : Node) :
    Grown base reach node node := ⟨.refl base reach node, id⟩

theorem trans (first : Grown base reach before middle) (second : Grown base reach middle after) :
    Grown base reach before after :=
  ⟨first.grows.trans second.grows, fun plain => second.plain (first.plain plain)⟩

theorem mono (grown : Grown base reach before after) (wide : forall rest, reach rest -> wider rest) :
    Grown base wider before after := ⟨grown.grows.mono wide, grown.plain⟩

/-- The directory stays. -/
theorem stands (grown : Grown base reach before after) (directory : before.HasBranch base) :
    after.HasBranch base := grown.grows.above base (List.prefix_refl base) directory

end Grown

section Steps

variable {base parent : List Text} {name : Text} {calls : Calls} {disk after : Node}

theorem grown_withMode (mode : Nat) (base path : List Text) (reach : List Text -> Prop)
    (disk : Node) : Grown base reach disk (disk.edit (withMode mode) (base ++ path)) where
  grows := NamedTree.grows_edit (withMode_reshapes mode) reach
  plain := by
    intro plain
    apply NamedTree.below_edit (fun rest _ old => plain_edit rest old) _ plain
    intro item inside rest found changed
    by_cases here : rest = []
    · subst here
      rw [NamedTree.lookup_nil, Option.some.injEq] at changed
      rw [← changed]
      exact plain_withMode (inside [] item (NamedTree.lookup_nil item))
    · rw [lookup_withMode mode item here] at changed
      exact inside rest found changed

/-- A file or an empty directory is added, or a file is replaced. -/
theorem grown_place {item : Node} (directory : disk.HasBranch (base ++ parent))
    (flat : forall rest, rest ≠ [] -> item.lookup rest = none) (plain : Linkless item)
    (free : forall rest, rest ≠ [] -> disk.lookup (base ++ parent ++ [name] ++ rest) = none) :
    Grown base (fun rest => rest = parent ++ [name]) disk (disk.place (base ++ parent) name item) where
  grows := NamedTree.grows_place directory flat free
  plain := by
    intro below
    apply NamedTree.below_place (fun path _ old => plain_within path old) directory _ below
    intro rest found here
    by_cases top : rest = []
    · subst top
      rw [NamedTree.lookup_nil, Option.some.injEq] at here
      rw [← here]
      exact plain
    · rw [flat rest top] at here
      cases here

theorem lookup_leaf_below {path rest : List Text} {content : Leaf}
    (found : disk.lookup path = some (.leaf content)) (below : rest ≠ []) :
    disk.lookup (path ++ rest) = none := by
  rw [NamedTree.lookup_append, found, Option.bind_some]
  cases rest with
  | nil => exact absurd rfl below
  | cons name rest => rfl

theorem lookup_none_below {path : List Text} (rest : List Text)
    (absent : disk.lookup path = none) : disk.lookup (path ++ rest) = none := by
  rw [NamedTree.lookup_append, absent]
  rfl

theorem isSome_of_below {path front : List Text} (inside : front <+: path)
    (found : (disk.lookup path).isSome = true) : (disk.lookup front).isSome = true := by
  rcases inside with ⟨rest, rfl⟩
  cases here : disk.lookup front with
  | some item => rfl
  | none =>
      rw [lookup_none_below rest here] at found
      cases found

theorem flat_leaf (content : Leaf) {rest : List Text} (below : rest ≠ []) :
    (NamedTree.leaf content : Node).lookup rest = none := by
  cases rest with
  | nil => exact absurd rfl below
  | cons name rest => rfl

theorem flat_directory (mode : Nat) {rest : List Text} (below : rest ≠ []) :
    (NamedTree.branch mode [] : Node).lookup rest = none := by
  cases rest with
  | nil => exact absurd rfl below
  | cons name rest => rfl

theorem grown_makeDirectory (directory : disk.HasBranch (base ++ parent)) :
    Grown base (fun rest => rest = parent ++ [name]) disk
      (makeDirectory calls disk (base ++ parent) name).1 := by
  unfold makeDirectory
  split
  · exact .refl _ _ _
  · exact .refl _ _ _
  · next absent =>
      split
      · exact .refl _ _ _
      · exact grown_place directory (fun _ below => flat_directory _ below) trivial
          (fun rest _ => lookup_none_below rest absent)

theorem makeDirectory_ok (directory : disk.HasBranch parent)
    (done : makeDirectory calls disk parent name = (after, .ok ())) :
    after.HasBranch (parent ++ [name]) := by
  unfold makeDirectory at done
  split at done
  · next label entries found =>
      cases done
      exact ⟨label, entries, found⟩
  · cases done
  · split at done
    · cases done
    · cases done
      exact ⟨_, [], NamedTree.lookup_place_self _ directory⟩

theorem grown_writeFile {bytes : List UInt8} (directory : disk.HasBranch (base ++ parent))
    (done : writeFile calls disk (base ++ parent) name bytes = .ok after) :
    Grown base (fun rest => rest = parent ++ [name]) disk after ∧
      (after.lookup (base ++ parent ++ [name])).isSome = true := by
  simp only [writeFile, bind_eq_ok] at done
  rcases done with ⟨_, _, done⟩
  split at done
  · cases done
  · next found =>
      cases done
      refine ⟨grown_place directory (fun _ below => flat_leaf _ below) trivial
        (fun rest below => lookup_leaf_below found below), ?_⟩
      rw [NamedTree.lookup_place_self _ directory]
      rfl
  · cases done
  · next absent =>
      cases done
      refine ⟨grown_place directory (fun _ below => flat_leaf _ below) trivial
        (fun rest _ => lookup_none_below rest absent), ?_⟩
      rw [NamedTree.lookup_place_self _ directory]
      rfl

/-! ## Directories on the way -/

/-- Directories that are there are not created again. -/
theorem createDirAll_through (first second : List Text) (front : List Text)
    (directory : disk.HasBranch (front ++ first)) :
    createDirAll calls disk front (first ++ second) =
      createDirAll calls disk (front ++ first) second := by
  induction first generalizing front with
  | nil => rw [List.nil_append, List.append_nil]
  | cons name first ih =>
      have whole : front ++ name :: first = front ++ [name] ++ first := by
        rw [List.append_assoc]
        rfl
      rw [whole] at directory
      have here : disk.HasBranch (front ++ [name]) :=
        directory.of_prefix (List.prefix_append _ _)
      rcases here with ⟨label, entries, found⟩
      have made : makeDirectory calls disk front name = (disk, .ok ()) := by
        rw [makeDirectory, found]
      rw [List.cons_append, createDirAll, made, whole]
      exact ih (front ++ [name]) directory

/-- The directories on the way to a path. -/
def OnTheWay (front rest path : List Text) : Prop :=
  front <+: path ∧ path <+: front ++ rest ∧ path ≠ front

theorem createDirAll_grown (front rest : List Text) (directory : disk.HasBranch (base ++ front)) :
    Grown base (OnTheWay front rest) disk (createDirAll calls disk (base ++ front) rest).1 ∧
      ((createDirAll calls disk (base ++ front) rest).2 = .ok () ->
        (createDirAll calls disk (base ++ front) rest).1.HasBranch (base ++ (front ++ rest))) := by
  induction rest generalizing front disk with
  | nil =>
      refine ⟨.refl _ _ _, fun _ => ?_⟩
      rw [List.append_nil]
      exact directory
  | cons name rest ih =>
      have grown : Grown base (OnTheWay front (name :: rest)) disk
          (makeDirectory calls disk (base ++ front) name).1 := by
        apply (grown_makeDirectory directory).mono
        rintro path rfl
        refine ⟨List.prefix_append _ _, ⟨rest, ?_⟩, ?_⟩
        · rw [List.append_assoc]
          rfl
        · intro same
          have sizes := congrArg List.length same
          simp at sizes
      unfold createDirAll
      split
      · next made outcome =>
          rw [outcome] at grown
          have there := makeDirectory_ok directory outcome
          rw [List.append_assoc] at there ⊢
          rcases ih (front ++ [name]) there with ⟨later, finished⟩
          rw [List.append_assoc] at finished
          refine ⟨grown.trans (later.mono ?_), finished⟩
          rintro path ⟨inside, below, _⟩
          refine ⟨(List.prefix_append _ _).trans inside, ?_, ?_⟩
          · rw [List.append_assoc] at below
            exact below
          · rintro rfl
            have longer := inside.length_le
            rw [List.length_append, List.length_singleton] at longer
            omega
      · next made error outcome =>
          rw [outcome] at grown
          refine ⟨grown, fun success => ?_⟩
          cases success

theorem createDirectories_fst (path : List Text) :
    (createDirectories calls disk path).1 = (createDirAll calls disk [] path).1 := by
  unfold createDirectories
  cases createDirAll calls disk [] path with
  | mk made outcome => cases outcome <;> rfl

theorem createDirectories_ok {path : List Text}
    (done : createDirectories calls disk path = (after, .ok ())) :
    createDirAll calls disk [] path = (after, .ok ()) := by
  unfold createDirectories at done
  cases result : createDirAll calls disk [] path with
  | mk made outcome =>
      rw [result] at done
      cases outcome with
      | error error => cases done
      | ok _ =>
          cases done
          rfl

theorem createDirectories_there {path : List Text} (directory : disk.HasBranch path) :
    createDirectories calls disk path = (disk, .ok ()) := by
  have through := @createDirAll_through calls disk path [] [] directory
  rw [List.append_nil] at through
  unfold createDirectories
  rw [through]
  rfl

/-- A directory cannot be written. -/
theorem writeFile_directory {bytes : List UInt8} (directory : disk.HasBranch (parent ++ [name])) :
    writeFile calls disk parent name bytes ≠ .ok after := by
  intro done
  rcases directory with ⟨label, entries, found⟩
  simp only [writeFile, bind_eq_ok] at done
  rcases done with ⟨_, _, done⟩
  rw [found] at done
  cases done

/-- Creating directories below one that is there. -/
theorem createDirectories_grown (names : List Text) (directory : disk.HasBranch base) :
    Grown base (OnTheWay [] names) disk (createDirectories calls disk (base ++ names)).1 ∧
      forall made, createDirectories calls disk (base ++ names) = (made, .ok ()) ->
        made.HasBranch (base ++ names) := by
  have here : disk.HasBranch (base ++ []) := by
    rw [List.append_nil]
    exact directory
  have through := @createDirAll_through calls disk base names [] directory
  rcases @createDirAll_grown base calls disk [] names here with ⟨grown, finished⟩
  rw [List.append_nil] at grown finished
  rw [List.nil_append] at through finished
  constructor
  · rw [createDirectories_fst, through]
    exact grown
  · intro made done
    have whole := createDirectories_ok done
    rw [through] at whole
    rw [whole] at finished
    exact finished rfl

end Steps

/-! ## Single entries -/

/-- A path that an entry may create. -/
def Above (names rest : List Text) : Prop := rest <+: names ∧ rest ≠ []

theorem above_of_onTheWay {front names rest : List Text} (inside : front <+: names)
    (way : OnTheWay [] front rest) : Above names rest := by
  rcases way with ⟨_, below, filled⟩
  exact ⟨below.trans inside, filled⟩

section Entry

variable {snapshot : AppConfig} {interrupt : Interruptions} {context : Context} {calls : Calls}
  {index : Nat} {base names : List Text} {state after : Extraction}
  {outcome : Except Refusal Unit}

/-- What one entry does below the directory: it grows towards its path, and a
success leaves something there. -/
structure Laid (base : List Text) (reach : List Text -> Prop) (names : List Text)
    (state after : Extraction) (outcome : Except Refusal Unit) : Prop where
  grown : Grown base reach state.disk after.disk
  there : outcome = .ok () -> (after.disk.lookup (base ++ names)).isSome = true

theorem zipFile_placed {entry : ZipEntry} (filled : base ≠ []) (directory : state.disk.HasBranch base)
    (done : Context.zipFile interrupt calls index entry (base ++ names) state = (after, outcome)) :
    Laid base (Above names) names state after outcome := by
  cases listed : names using List.reverseRecOn with
  | nil =>
      -- the directory itself cannot be written
      subst listed
      rw [List.append_nil] at done
      cases whole : base using List.reverseRecOn with
      | nil => exact absurd whole filled
      | append_singleton parent last =>
          subst whole
          unfold Context.zipFile at done
          rw [List.dropLast_concat, List.getLast?_concat,
            createDirectories_there (directory.of_prefix (List.prefix_append _ _))] at done
          dsimp only [Option.getD_some] at done
          split at done
          · cases done
            exact ⟨.refl _ _ _, fun success => by cases success⟩
          · next written => exact absurd written (writeFile_directory directory)
  | append_singleton front last =>
      subst listed
      rcases @createDirectories_grown base calls state.disk front directory with ⟨grown, finished⟩
      have way : forall rest, OnTheWay [] front rest -> Above (front ++ [last]) rest :=
        fun rest => above_of_onTheWay (List.prefix_append _ _)
      unfold Context.zipFile at done
      rw [← List.append_assoc, List.dropLast_concat, List.getLast?_concat] at done
      split at done
      · next made error created =>
          cases done
          rw [created] at grown
          exact ⟨grown.mono way, fun success => by cases success⟩
      · next made created =>
          have parent := finished made created
          rw [created] at grown
          dsimp only [Option.getD_some] at done
          split at done
          · cases done
            exact ⟨grown.mono way, fun success => by cases success⟩
          · next wrote =>
              rcases grown_writeFile parent wrote with ⟨file, there⟩
              have both := (grown.mono way).trans (file.mono (by
                rintro rest rfl
                exact ⟨List.prefix_refl _, List.concat_ne_nil _ _⟩))
              rw [List.append_assoc] at there
              split at done
              · cases done
                exact ⟨both, fun success => by cases success⟩
              · split at done
                · cases done
                  exact ⟨both, fun success => by cases success⟩
                · cases done
                  exact ⟨both, fun _ => there⟩

theorem zipDirectory_placed (directory : state.disk.HasBranch base)
    (done : Context.zipDirectory calls (base ++ names) state = (after, outcome)) :
    Laid base (Above names) names state after outcome := by
  rcases @createDirectories_grown base calls state.disk names directory with ⟨grown, finished⟩
  have way : forall rest, OnTheWay [] names rest -> Above names rest :=
    fun rest => above_of_onTheWay (List.prefix_refl _)
  unfold Context.zipDirectory at done
  split at done
  · next created =>
      cases done
      rw [created] at grown
      exact ⟨grown.mono way, fun success => by cases success⟩
  · next made created =>
      cases done
      rcases finished made created with ⟨label, entries, found⟩
      rw [created] at grown
      refine ⟨grown.mono way, fun _ => ?_⟩
      rw [found]
      rfl

end Entry

/-! ## Names of entries -/

/-- The names of a relative path. -/
def relativeNames (name : Text) : Option (List Text) :=
  if isAbsolute name then none else some (segmentNames name)

/-- What an entry that is no link names, if it names a path below the
destination. -/
def zipNames : Option ZipEntry -> Option (Option (List Text))
  | none => some none
  | some entry => if entry.isLink then none else some (entry.enclosedName.bind relativeNames)

def tarNames : Option TarEntry -> Option (Option (List Text))
  | none => some none
  | some entry =>
      if entry.kind.isLink then none else some (entry.path.toOption.bind relativeNames)

/-- What the entries that are no links name. -/
def Archive.named : Archive -> List (Option (List Text))
  | .zip entries => entries.filterMap zipNames
  | .tar entries => entries.filterMap tarNames

/-- The directories that are created for an entry that lies below them. -/
def Archive.Implicit : Archive -> List Text -> Prop
  | .zip entries, rest => ∃ names, some names ∈ entries.filterMap zipNames ∧
      rest <+: names ∧ rest ≠ names ∧ rest ≠ []
  | .tar _, _ => False

/-- What an extraction may create below the destination. -/
def Archive.Makes (opened : Archive) (rest : List Text) : Prop :=
  (some rest ∈ opened.named ∧ rest ≠ []) ∨ opened.Implicit rest

section Checked

variable {snapshot : AppConfig} {context : Context} {target : RelativePath} {slip : Refusal}
  {name : Text} {names : List Text}

theorem relativeNames_checked (checked : context.checkEntry snapshot target slip name = .ok names) :
    relativeNames name = some names := by
  simp only [Context.checkEntry, bind_eq_ok, pure_eq_ok, refuse_eq_ok] at checked
  rcases checked with ⟨_, _, _, relative, _, _, _, _, rfl⟩
  rw [relativeNames, relative]
  rfl

/-- An entry of these names was checked. -/
def Checked (snapshot : AppConfig) (context : Context) (target : RelativePath)
    (names : List Text) : Prop :=
  ∃ slip name, context.checkEntry snapshot target slip name = .ok names

end Checked

/-! ## Both loops -/

section Entries

variable {snapshot : AppConfig} {interrupt : Interruptions} {context : Context} {calls : Calls}
  {target : RelativePath} {index : Nat} {state after : Extraction}
  {outcome : Except Refusal Unit}

/-- What a successful step has checked, and what it leaves at the entry's path. -/
def ZipSettled (snapshot : AppConfig) (context : Context) (target : RelativePath)
    (entry : Option ZipEntry) (disk : Node) : Prop :=
  forall item, zipNames entry = some item -> ∃ names, item = some names ∧
    Checked snapshot context target names ∧
    (disk.lookup (segmentNames target.value ++ names)).isSome = true

def TarSettled (snapshot : AppConfig) (context : Context) (target : RelativePath)
    (entry : Option TarEntry) : Prop :=
  forall item, tarNames entry = some item -> ∃ names, item = some names ∧
    Checked snapshot context target names

def zipReach (entry : Option ZipEntry) (rest : List Text) : Prop :=
  ∃ names, zipNames entry = some (some names) ∧ Above names rest

def tarReach (entry : Option TarEntry) (rest : List Text) : Prop :=
  tarNames entry = some (some rest) ∧ rest ≠ []

theorem zipEntry_grown {entry : Option ZipEntry} (filled : segmentNames target.value ≠ [])
    (directory : state.disk.HasBranch (segmentNames target.value))
    (done : Context.zipEntry snapshot interrupt context calls target index entry state =
      (after, outcome)) :
    Grown (segmentNames target.value) (zipReach entry) state.disk after.disk ∧
      (outcome = .ok () -> ZipSettled snapshot context target entry after.disk) := by
  unfold Context.zipEntry at done
  cases entry with
  | none =>
      cases done
      exact ⟨.refl _ _ _, fun success => by cases success⟩
  | some entry =>
      dsimp only at done
      by_cases link : entry.isLink = true
      · rw [if_pos link] at done
        cases done
        refine ⟨.refl _ _ _, fun _ item named => ?_⟩
        rw [zipNames, if_pos link] at named
        cases named
      · rw [if_neg link] at done
        split at done
        · cases done
          exact ⟨.refl _ _ _, fun success => by cases success⟩
        · next path checked =>
            rcases zipChecked_ok checked with ⟨name, enclosed, entryChecked, rfl⟩
            have named : zipNames (some entry) = some (some (segmentNames name)) := by
              rw [zipNames, if_neg link, enclosed, Option.bind_some,
                relativeNames_checked entryChecked]
            have settled : forall final : Node, (final.lookup (segmentNames target.value ++
                segmentNames name)).isSome = true ->
                  ZipSettled snapshot context target (some entry) final := by
              intro final there item same
              rw [named, Option.some.injEq] at same
              exact ⟨_, same.symm, ⟨_, _, entryChecked⟩, there⟩
            have reached : forall rest, Above (segmentNames name) rest ->
                zipReach (some entry) rest := fun rest above => ⟨_, named, above⟩
            have placed : forall made result,
                (if entry.isDir then Context.zipDirectory calls
                    (segmentNames target.value ++ segmentNames name) state
                  else Context.zipFile interrupt calls index entry
                    (segmentNames target.value ++ segmentNames name) state) = (made, result) ->
                Laid (segmentNames target.value) (Above (segmentNames name)) (segmentNames name)
                  state made result := by
              intro made result extracted
              split at extracted
              · exact zipDirectory_placed directory extracted
              · exact zipFile_placed filled directory extracted
            split at done
            · next made refusal extracted =>
                cases done
                exact ⟨(placed _ _ extracted).grown.mono reached, fun success => by cases success⟩
            · next made extracted =>
                have filled := placed _ _ extracted
                split at done
                · next mode _ =>
                    cases done
                    have edited := grown_withMode mode (segmentNames target.value)
                      (segmentNames name) (Above (segmentNames name)) made.disk
                    exact ⟨(filled.grown.trans edited).mono reached,
                      fun _ => settled _ (edited.grows.kept _ (filled.there rfl))⟩
                · cases done
                  exact ⟨filled.grown.mono reached, fun _ => settled _ (filled.there rfl)⟩

theorem hasBranch_of_isDirectory {disk : Node} {path : List Text}
    (directory : isDirectory (disk.lookup path) = true) : disk.HasBranch path := by
  cases found : disk.lookup path with
  | none =>
      rw [found] at directory
      cases directory
  | some item =>
      rw [found] at directory
      cases item with
      | leaf content => cases directory
      | branch label entries => exact ⟨label, entries, found⟩

theorem isDirectory_of_hasBranch {disk : Node} {path : List Text} (directory : disk.HasBranch path) :
    isDirectory (disk.lookup path) = true := by
  rcases directory with ⟨label, entries, found⟩
  rw [found]
  rfl

theorem free_of_not_directory {disk : Node} {path : List Text}
    (file : isDirectory (disk.lookup path) = false) {rest : List Text} (below : rest ≠ []) :
    disk.lookup (path ++ rest) = none := by
  cases found : disk.lookup path with
  | none => exact lookup_none_below rest found
  | some item =>
      rw [found] at file
      cases item with
      | leaf content => exact lookup_leaf_below found below
      | branch label entries => cases file

theorem unpackFile_grown {entry : TarEntry} {base names : List Text}
    (directory : state.disk.HasBranch base)
    (done : Context.unpackFile interrupt calls index entry (base ++ names) state =
      (after, outcome)) :
    Grown base (fun rest => rest = names ∧ rest ≠ []) state.disk after.disk := by
  unfold Context.unpackFile at done
  split at done
  · next possible =>
      simp only [Bool.and_eq_true, Bool.not_eq_true'] at possible
      rcases possible with ⟨⟨parent, file⟩, _⟩
      cases listed : names using List.reverseRecOn with
      | nil =>
          -- the directory itself is none
          rw [listed, List.append_nil, isDirectory_of_hasBranch directory] at file
          cases file
      | append_singleton front last =>
          subst listed
          rw [← List.append_assoc, List.dropLast_concat] at parent
          rw [← List.append_assoc] at file
          have placed : forall bytes, Grown base (fun rest => rest = front ++ [last] ∧ rest ≠ [])
              state.disk (state.disk.place (base ++ front) last (.leaf (.file calls.created bytes))) := by
            intro bytes
            have plain : Linkless (.leaf (.file calls.created bytes)) := trivial
            apply (grown_place (hasBranch_of_isDirectory parent) (fun _ below => flat_leaf _ below)
              plain (fun rest below => free_of_not_directory file below)).mono
            rintro rest rfl
            exact ⟨rfl, List.concat_ne_nil _ _⟩
          rw [← List.append_assoc, List.dropLast_concat, List.getLast?_concat, Option.getD_some] at done
          dsimp only at done
          split at done
          · cases done
            exact placed _
          · cases done
            rw [List.append_assoc]
            exact (placed _).trans (grown_withMode _ _ _ _ _)
  · cases done
    exact .refl _ _ _

theorem unpackDirectory_grown {entry : TarEntry} {base names : List Text} (filled : base ≠ [])
    (directory : state.disk.HasBranch base)
    (done : Context.unpackDirectory calls entry (base ++ names) state = (after, outcome)) :
    Grown base (fun rest => rest = names ∧ rest ≠ []) state.disk after.disk := by
  have made : (isDirectory (state.disk.lookup (base ++ names).dropLast) = true) ->
      Grown base (fun rest => rest = names ∧ rest ≠ []) state.disk
        (makeDirectory calls state.disk (base ++ names).dropLast
          ((base ++ names).getLast?.getD [])).1 := by
    intro parent
    cases listed : names using List.reverseRecOn with
    | nil =>
        cases whole : base using List.reverseRecOn with
        | nil => exact absurd whole filled
        | append_singleton above last =>
            rcases whole ▸ directory with ⟨label, entries, found⟩
            rw [List.append_nil, List.dropLast_concat, List.getLast?_concat, makeDirectory,
              Option.getD_some, found]
            exact .refl _ _ _
    | append_singleton front last =>
        subst listed
        rw [← List.append_assoc, List.dropLast_concat] at parent
        rw [← List.append_assoc, List.dropLast_concat, List.getLast?_concat]
        apply (grown_makeDirectory (hasBranch_of_isDirectory parent)).mono
        rintro rest rfl
        exact ⟨rfl, List.concat_ne_nil _ _⟩
  unfold Context.unpackDirectory at done
  split at done
  · next parent =>
      have grown := made parent
      split at done
      · next error result =>
          cases done
          rw [result] at grown
          exact grown
      · next result =>
          cases done
          rw [result] at grown
          exact grown.trans (grown_withMode _ _ _ _ _)
  · cases done
    exact .refl _ _ _

theorem unpack_grown {entry : TarEntry} {base names : List Text} (filled : base ≠ [])
    (directory : state.disk.HasBranch base)
    (done : Context.unpack interrupt calls index entry (base ++ names) state = (after, outcome)) :
    Grown base (fun rest => rest = names ∧ rest ≠ []) state.disk after.disk := by
  unfold Context.unpack at done
  split at done
  · exact unpackDirectory_grown filled directory done
  · cases done
    exact .refl _ _ _
  · exact unpackFile_grown directory done

theorem tarEntry_grown {entry : Option TarEntry} (filled : segmentNames target.value ≠ [])
    (directory : state.disk.HasBranch (segmentNames target.value))
    (done : Context.tarEntry snapshot interrupt context calls target index entry state =
      (after, outcome)) :
    Grown (segmentNames target.value) (tarReach entry) state.disk after.disk ∧
      (outcome = .ok () -> TarSettled snapshot context target entry) := by
  unfold Context.tarEntry at done
  split at done
  · cases done
    exact ⟨.refl _ _ _, fun success => by cases success⟩
  · cases entry with
    | none =>
        cases done
        exact ⟨.refl _ _ _, fun success => by cases success⟩
    | some entry =>
        dsimp only at done
        split at done
        · cases done
          exact ⟨.refl _ _ _, fun success => by cases success⟩
        · next names checked =>
            rcases tarChecked_ok checked with ⟨name, named, entryChecked, rfl⟩
            split at done
            · next link =>
                cases done
                refine ⟨.refl _ _ _, fun _ item same => ?_⟩
                rw [tarNames, if_pos link] at same
                cases same
            · next link =>
                have reads : tarNames (some entry) = some (some (segmentNames name)) := by
                  rw [tarNames, if_neg link, named]
                  exact congrArg some (relativeNames_checked entryChecked)
                have settled : TarSettled snapshot context target (some entry) := by
                  intro item same
                  rw [reads, Option.some.injEq] at same
                  exact ⟨_, same.symm, _, _, entryChecked⟩
                have reached : forall rest, rest = segmentNames name ∧ rest ≠ [] ->
                    tarReach (some entry) rest := by
                  rintro rest ⟨rfl, below⟩
                  exact ⟨reads, below⟩
                refine ⟨?_, fun _ => settled⟩
                split at done
                · cases done
                  exact .refl _ _ _
                · split at done
                  · cases done
                    exact .refl _ _ _
                  · apply (unpack_grown filled _ done).mono reached
                    exact directory

/-- A loop over entries, every one of which grows the directory towards its own
paths and is settled when it succeeds. -/
theorem pass_grown {Entry : Type} {base : List Text}
    {step : Nat -> Entry -> Extraction -> Extraction × Except Refusal Unit}
    {reach : Entry -> List Text -> Prop} {settled : Entry -> Node -> Prop}
    (steps : forall index entry state after outcome, state.disk.HasBranch base ->
      step index entry state = (after, outcome) ->
      Grown base (reach entry) state.disk after.disk ∧
        (outcome = .ok () -> settled entry after.disk))
    (stable : forall entry wider before after, Grown base wider before after ->
      settled entry before -> settled entry after)
    (entries : List Entry) (directory : state.disk.HasBranch base) :
    Grown base (fun rest => ∃ entry, entry ∈ entries ∧ reach entry rest) state.disk
        (Passes.pass step 0 entries state).1.disk ∧
      ((Passes.pass step 0 entries state).2 = .ok () -> forall entry, entry ∈ entries ->
        settled entry (Passes.pass step 0 entries state).1.disk) := by
  let within := fun (front : List Entry) (now : Extraction) =>
    Grown base (fun rest => ∃ entry, entry ∈ front ∧ reach entry rest) state.disk now.disk
  have start : within [] state := .refl _ _ _
  have next : forall index front entry now later outcome, within front now ->
      step index entry now = (later, outcome) ->
      within (front ++ [entry]) later ∧ (outcome = .ok () -> settled entry later.disk) := by
    intro index front entry now later outcome grown done
    rcases steps index entry now later outcome (grown.stands directory) done with ⟨own, finished⟩
    refine ⟨(grown.mono ?_).trans (own.mono ?_), finished⟩
    · rintro rest ⟨other, member, reached⟩
      exact ⟨other, List.mem_append_left _ member, reached⟩
    · intro rest reached
      exact ⟨entry, List.mem_append_right _ List.mem_cons_self, reached⟩
  constructor
  · apply Passes.pass_ends within (within entries) _ (List.nil_append entries) (fun _ held => held)
      _ start
    · intro index front entry now later grown done
      exact (next index front entry now later _ grown done).1
    · intro index front entry now later error inside grown done
      apply (next index front entry now later _ grown done).1.mono
      rintro rest ⟨other, member, reached⟩
      exact ⟨other, inside.subset member, reached⟩
  · intro success
    have all := Passes.pass_ok (fun front now => within front now ∧
      forall entry, entry ∈ front -> settled entry now.disk) (by
        rintro index front entry now later ⟨grown, earlier⟩ done
        rcases next index front entry now later _ grown done with ⟨longer, finished⟩
        have own := (steps index entry now later _ (grown.stands directory) done).1
        refine ⟨longer, fun other member => ?_⟩
        rcases List.mem_append.mp member with old | new
        · exact stable other _ _ _ own (earlier other old)
        · rw [List.mem_singleton.mp new]
          exact finished rfl)
      ⟨start, fun entry member => absurd member List.not_mem_nil⟩
      (Prod.ext rfl success : Passes.pass step 0 entries state =
        ((Passes.pass step 0 entries state).1, .ok ()))
    exact all.2

/-- What both loops leave below the destination. -/
structure Extracted (snapshot : AppConfig) (context : Context) (target : RelativePath)
    (opened : Archive) (before after : Node) (outcome : Except Refusal Unit) : Prop where
  grown : Grown (segmentNames target.value) opened.Makes before after
  checked : outcome = .ok () -> forall item, item ∈ opened.named ->
    ∃ names, item = some names ∧ Checked snapshot context target names
  implicit : outcome = .ok () -> forall rest, opened.Implicit rest ->
    (after.lookup (segmentNames target.value ++ rest)).isSome = true

theorem extractEntries_extracted (opened : Archive) (filled : segmentNames target.value ≠ [])
    (directory : state.disk.HasBranch (segmentNames target.value)) :
    Extracted snapshot context target opened state.disk
      (Context.extractEntries snapshot interrupt context calls target opened state).1.disk
      (Context.extractEntries snapshot interrupt context calls target opened state).2 := by
  cases opened with
  | zip entries =>
      have stable : forall entry wider (before after : Node),
          Grown (segmentNames target.value) wider before after ->
          ZipSettled snapshot context target entry before ->
          ZipSettled snapshot context target entry after := by
        intro entry wider before after grown settled item named
        rcases settled item named with ⟨names, same, checked, there⟩
        exact ⟨names, same, checked, grown.grows.kept names there⟩
      rcases pass_grown (fun index entry state after outcome there done =>
        @zipEntry_grown snapshot interrupt context calls target index state after outcome entry filled
          there done) stable entries directory with ⟨grown, settled⟩
      refine ⟨grown.mono ?_, ?_, ?_⟩
      · rintro rest ⟨entry, member, names, named, inside, below⟩
        have listed : some names ∈ entries.filterMap zipNames :=
          List.mem_filterMap.mpr ⟨entry, member, named⟩
        by_cases own : rest = names
        · exact .inl ⟨own ▸ listed, below⟩
        · exact .inr ⟨names, listed, inside, own, below⟩
      · intro success item listed
        rcases List.mem_filterMap.mp listed with ⟨entry, member, named⟩
        rcases settled success entry member item named with ⟨names, same, checked, _⟩
        exact ⟨names, same, checked⟩
      · rintro success rest ⟨names, listed, ⟨tail, rfl⟩, _, _⟩
        rcases List.mem_filterMap.mp listed with ⟨entry, member, named⟩
        rcases settled success entry member _ named with ⟨found, same, _, there⟩
        rw [← Option.some.inj same, ← List.append_assoc] at there
        exact isSome_of_below (List.prefix_append _ _) there
  | tar entries =>
      let settles := fun (entry : Option TarEntry) (_ : Node) =>
        TarSettled snapshot context target entry
      have stable : forall entry wider (before after : Node),
          Grown (segmentNames target.value) wider before after ->
          settles entry before -> settles entry after := fun _ _ _ _ _ settled => settled
      rcases pass_grown (fun index entry state after outcome there done =>
        @tarEntry_grown snapshot interrupt context calls target index state after outcome entry filled
          there done) stable entries directory with ⟨grown, settled⟩
      refine ⟨grown.mono ?_, ?_, fun _ _ implicit => implicit.elim⟩
      · rintro rest ⟨entry, member, named, below⟩
        exact .inl ⟨List.mem_filterMap.mpr ⟨entry, member, named⟩, below⟩
      · intro success item listed
        rcases List.mem_filterMap.mp listed with ⟨entry, member, named⟩
        exact settled success entry member item named

end Entries

end TealDrive
