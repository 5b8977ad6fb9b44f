import TealDrive.Helper.FirstLook

namespace TealDrive

open Outcome

/-!
# What a cleanup leaves behind

Here the warrants of a log are spelled out: what is true of every entry that is
removed, and of the record of an item.

The record goes after the item has gone, or when the item was missing from the
start.  But `sandbox::open` also reports a file as missing that has a second name,
and such an item stays while its record goes.
-/

/-! ## Manifests in order -/

/-- What is recorded between others was recorded when those before it were. -/
theorem manifestOf_split {deeds : List Deed} {front back : List ManifestNode} {entry : ManifestNode}
    (split : manifestOf deeds = front ++ entry :: back) :
    ∃ earlier later, deeds = earlier ++ .recorded entry :: later ∧ manifestOf earlier = front := by
  rcases List.filterMap_eq_append_iff.mp split with ⟨first, second, rfl, before, behind⟩
  rcases List.filterMap_eq_cons_iff.mp behind with ⟨silent, deed, later, rfl, nothing, here, _⟩
  have recorded : deed = .recorded entry := by
    cases deed <;> cases here
    rfl
  subst recorded
  refine ⟨first ++ silent, later, (List.append_assoc _ _ _).symm, ?_⟩
  rw [manifestOf_append]
  have none_ : manifestOf silent = [] := List.filterMap_eq_nil_iff.mpr nothing
  rw [none_, List.append_nil]
  exact before

/-- The path of names in a tree. -/
theorem lookup_of_walk {tree item : Folder} {names : List FileName}
    (walked : tree.walk (names.map Subtype.val) = .ok item) :
    tree.lookup (names.map .text) = some item := by
  induction names generalizing tree with
  | nil =>
      cases walked
      rfl
  | cons name rest ih =>
      cases tree with
      | leaf content => cases content <;> cases walked
      | branch inode entries =>
          rw [List.map_cons, Folder.walk, FileName.of_val, Option.bind_some] at walked
          rw [List.map_cons, NamedTree.lookup_branch]
          cases found : Rows.find (EntryName.text name) entries with
          | none =>
              rw [found] at walked
              cases walked
          | some child =>
              rw [found] at walked
              exact ih walked

namespace CleanupPlan

variable (plan : CleanupPlan)

/-- What is at a place, and what was recorded of it, are the same entry.  Of a
directory the times and the size may differ, because it loses its entries. -/
structure SameIdentity (found recorded : FileState) : Prop where
  inode : found.device = recorded.device ∧ found.inode = recorded.inode
  kind : found.kind = recorded.kind
  owner : found.uid = recorded.uid ∧ found.gid = recorded.gid
  mode : found.mode = recorded.mode
  whole : recorded.kind ≠ .directory -> found.plain = recorded.plain

/-- What is true of an entry that is removed. -/
structure Removes (start : Folder) (deeds : List Deed) (node : ManifestNode)
    (parent : List FileName) (name : FileName) : Prop where
  recorded : node ∈ manifestOf deeds
  inside : segmentNames plan.path.value <+: segmentNames node.path.value
  place : segmentNames node.path.value = (parent ++ [name]).map Subtype.val
  owner : node.state.uid = plan.cleaner.actor.uid
  device : plan.OnDevice deeds node.state.device
  kind : node.state.kind ≠ .other
  /-- It was checked in the step before, unless others acted in between. -/
  checked : ∃ before others item, deeds = before ++ .checked node :: others ∧
    (forall deed, deed ∈ others -> deed.Foreign) ∧
    (start.afterAll before).lookup ((parent ++ [name]).map .text) = some item ∧
    SameIdentity (FileState.metadata item) node.state
  /-- A directory is empty. -/
  emptied : Removable (start.afterAll deeds) parent name (node.state.kind == .directory)

/-- The order in which entries are recorded and removed.  An entry that is left is
left with everything that was recorded before it, and so with the directories it is
in. -/
structure InTurn (deeds : List Deed) : Prop where
  spared : forall front entry back, manifestOf deeds = front ++ entry :: back ->
    back.reverse ++ [entry] <+: removalsOf deeds ∨ removalsOf deeds <+: back.reverse
  reached : forall front entry back, manifestOf deeds = front ++ entry :: back ->
    front = [] ∧ entry.path = plan.path ∨
      ∃ directory, directory ∈ front ∧ directory.state.kind = .directory ∧
        ∃ name : FileName, entry.path.value = directory.path.value ++ '/' :: name.1

/-- Only what was observed is removed, and in its turn. -/
structure Observed (start : Folder) (log : CleanupLog) : Prop where
  removes : forall earlier node parent name later,
    log.deeds = earlier ++ .removed node parent name :: later ->
      plan.Removes start earlier node parent name
  inTurn : plan.InTurn log.deeds
  records : forall earlier node later, log.deeds = earlier ++ .recorded node :: later ->
    ∃ item, (start.afterAll earlier).walk (segmentNames node.path.value) = .ok item ∧
      node.state.plain = (FileState.metadata item).plain
  based : forall earlier device later, log.deeds = earlier ++ .based device :: later ->
    device = (FileState.metadata (start.afterAll earlier)).device
  forgets : forall earlier parent name later,
    log.deeds = earlier ++ .forgotten parent name :: later ->
      plan.kind = .trash ∧ removalsOf earlier = (manifestOf earlier).reverse ∧
        (parent ++ [name]).map Subtype.val =
          trashInfoDir ++ [infoName (Segments.lastSegment '/' plan.path.value)]

variable {plan} {start : Folder} {log : CleanupLog}

theorem sameIdentity {found recorded : FileState} (same : Cleaner.unchanged found recorded = true) :
    SameIdentity found recorded := by
  unfold Cleaner.unchanged at same
  split at same
  · rename_i directory
    unfold FileState.sameInode at same
    simp only [Bool.and_eq_true, beq_iff_eq] at same
    rcases same with ⟨⟨⟨⟨⟨device, inode⟩, kind⟩, uid⟩, gid⟩, mode⟩
    exact ⟨⟨device, inode⟩, kind, ⟨uid, gid⟩, mode, fun other => absurd directory other⟩
  · have plain : found.plain = recorded.plain := eq_of_beq same
    have fields := plain
    unfold FileState.plain at fields
    injection fields with _ device inode kind mode uid gid
    exact ⟨⟨device, inode⟩, kind, ⟨uid, gid⟩, mode, fun _ => plain⟩

theorem Warranted.removes {deeds : List Deed} {node : ManifestNode} {parent : List FileName}
    {name : FileName} (warrant : plan.Warranted start deeds node parent name)
    (justified : Logs.Justified (plan.Warrant start) deeds) :
    plan.Removes start deeds node parent name := by
  have listed : node ∈ manifestOf deeds :=
    List.mem_reverse.mp (warrant.next.subset (List.mem_append_right _ List.mem_cons_self))
  rcases justified.of_mem (mem_manifestOf.mp listed) with ⟨earlier, ⟨later, split⟩, reason⟩
  refine ⟨listed, reason.inside, warrant.spelled, reason.owner, ?_, reason.kind, ?_, warrant.found⟩
  · rw [← split]
    exact reason.device.append later
  · rcases warrant.checked with ⟨before, others, parts, foreign, item, opened, same⟩
    have walked := opened.walked
    rw [warrant.spelled] at walked
    exact ⟨before, others, item, parts, foreign, lookup_of_walk walked, sameIdentity same⟩

/-- Entries are removed from the last to the first. -/
theorem removed_prefix {deeds : List Deed} (justified : Logs.Justified (plan.Warrant start) deeds) :
    removalsOf deeds <+: (manifestOf deeds).reverse := by
  induction deeds using List.reverseRecOn with
  | nil => exact List.prefix_refl _
  | append_singleton deeds deed ih =>
      rcases Logs.justified_concat.mp justified with ⟨earlier, warrant⟩
      have before := ih earlier
      cases deed with
      | others tree =>
          rw [manifestOf_concat rfl, removalsOf_concat rfl]
          exact before
      | based device =>
          rw [manifestOf_concat rfl, removalsOf_concat rfl]
          exact before
      | recorded node =>
          rw [removalsOf_concat rfl, removalsOf_early warrant.early]
          exact List.nil_prefix
      | compared state =>
          rw [manifestOf_concat rfl, removalsOf_concat rfl]
          exact before
      | checked node =>
          rw [manifestOf_concat rfl, removalsOf_concat rfl]
          exact before
      | removed node parent name =>
          rw [manifestOf_concat rfl, removalsOf_append]
          exact warrant.next
      | forgotten parent name =>
          rw [manifestOf_concat rfl, removalsOf_concat rfl]
          exact before

theorem Lawful.inTurn (lawful : plan.Lawful start log) : plan.InTurn log.deeds where
  spared := by
    intro front entry back split
    have order := removed_prefix lawful.justified
    rw [split, List.reverse_append, List.reverse_cons] at order
    rcases List.prefix_or_prefix_of_prefix order (List.prefix_append _ _) with below | above
    · rcases List.prefix_concat_iff.mp below with same | fewer
      · exact Or.inl (same ▸ List.prefix_refl _)
      · exact Or.inr fewer
    · exact Or.inl above
  reached := by
    intro front entry back split
    rcases manifestOf_split split with ⟨earlier, later, parts, rfl⟩
    have reason := lawful.justified earlier _ later parts
    exact reason.reached

theorem Lawful.observed (lawful : plan.Lawful start log) : plan.Observed start log where
  removes := by
    intro earlier node parent name later split
    have justified := lawful.justified
    have warrant := justified earlier _ later split
    rw [split] at justified
    exact Warranted.removes warrant justified.front
  inTurn := lawful.inTurn
  records := by
    intro earlier node later split
    have reason := lawful.justified earlier _ later split
    rcases reason.found with ⟨item, opened, state⟩
    exact ⟨item, opened.walked, by rw [state]; rfl⟩
  based := by
    intro earlier device later split
    exact (lawful.justified earlier _ later split).2
  forgets := by
    intro earlier parent name later split
    have warrant := lawful.justified earlier _ later split
    rcases warrant.identifier with ⟨id, _, last, _, spelled⟩
    rw [last]
    exact ⟨warrant.trash, warrant.finished, spelled.symm⟩

end CleanupPlan

/-! ## The record -/

/-- Nothing is at a path. -/
def Folder.Vacant (tree : Folder) (path : RelativePath) : Prop :=
  forall item, tree.walk (segmentNames path.value) ≠ .ok item

/-- Nothing was at a path at some time. -/
def WasVacant (start : Folder) (path : RelativePath) (deeds : List Deed) : Prop :=
  ∃ front back, deeds = front ++ back ∧ (start.afterAll front).Vacant path

namespace CleanupPlan

variable {plan : CleanupPlan} {start : Folder} {log : CleanupLog}

end CleanupPlan

section Record

open CleanupPlan

variable {cleaner : Cleaner} {path : RelativePath} {start : Folder}
  {events : List (Faults.Event Folder CleanupError)}

/-- Something has been recorded, or there was nothing to be recorded. -/
def Looked (start : Folder) (path : RelativePath) (deeds : List Deed) : Prop :=
  manifestOf deeds ≠ [] ∨ WasVacant start path deeds

theorem Looked.append {deeds : List Deed} (looked : Looked start path deeds) (more : List Deed) :
    Looked start path (deeds ++ more) := by
  rcases looked with some_ | ⟨front, back, split, vacant⟩
  · rw [Looked, manifestOf_append]
    exact Or.inl (List.append_ne_nil_of_left_ne_nil some_ _)
  · exact Or.inr ⟨front, back ++ more, by rw [split, List.append_assoc], vacant⟩

/-- Nobody removes the record of an item without a look at the item. -/
def LookedFirst (start : Folder) (path : RelativePath) (log : CleanupLog) : Prop :=
  forall earlier parent name later, log.deeds = earlier ++ .forgotten parent name :: later ->
    Looked start path earlier

/-- Once a look has been taken nothing can go wrong. -/
theorem CleanupLog.Adds.looked {allowed : Deed -> Prop} {before log : CleanupLog}
    (adds : log.Adds allowed before.deeds) (first : LookedFirst start path before)
    (looked : Looked start path before.deeds) : LookedFirst start path log := by
  rcases adds with ⟨more, split, _⟩
  intro earlier parent name later parts
  rw [split] at parts
  rcases List.append_eq_append_iff.mp parts with ⟨middle, rfl, _⟩ | ⟨middle, same, rest⟩
  · exact looked.append middle
  · cases middle with
    | nil =>
        rw [List.append_nil] at same
        exact same ▸ looked
    | cons deed others =>
        rw [List.cons_append] at rest
        rcases List.cons.inj rest with ⟨rfl, _⟩
        exact first earlier parent name others same

theorem OnlyDoes.looked {Value : Type} {allowed : Deed -> Prop} {program : Cleanup Value}
    (does : OnlyDoes allowed program) :
    Faults.Triple (LookedFirst start path) (fun log => Looked start path log.deeds) program
      (fun _ _ => True) (fun _ => True) := by
  intro events log first looked
  have run := does.sound events log
  exact ⟨fun other passed => (run.visited other passed).looked first looked,
    run.world.looked first looked, fun _ _ => trivial, fun _ _ => trivial⟩

end Record

namespace ExpiredItem

def id : Text := "00000000-0000-0000-0000-000000000001".toList

def path : RelativePath := ⟨".tealdrive-trash/files/00000000-0000-0000-0000-000000000001".toList⟩

def inode (number links : Nat) : Inode := ⟨1, number, 420, 1000, 1000, 3, links, 5, 0, 5, 0⟩

def name (text : Text) (proper : ProperName text) : FileName := ⟨text, proper⟩

def record : FileName := name (infoName id) (by decide)

/-- A file in the trash.  It may have further names outside of the root. -/
def item (links : Nat) : Folder := .leaf (.file (inode 12 links) [1, 2, 3])

def tree (links : Nat) : Folder :=
  .branch (inode 10 1)
    [(.text (name ".tealdrive-trash".toList (by decide)),
      .branch (inode 11 1)
        [(.text (name "files".toList (by decide)),
          .branch (inode 13 1) [(.text (name id (by decide)), item links)]),
         (.text (name "info".toList (by decide)),
          .branch (inode 14 1) [(.text record, .leaf (.file (inode 15 1) []))])])]

/-- What was seen when the file was moved there, with an empty text for every digest. -/
def state : FileState :=
  FileState.finish (fun _ => []) { FileState.metadata (item 1) with contentDigest := some [] }

def operation : OperationRecord where
  version := 1
  id := 1
  requestId := 7
  accountId := 1
  generation := 1
  createdAt := 1
  updatedAt := 1
  action := .trash
  rootId := ⟨"home".toList⟩
  sourcePath := ⟨"notes".toList⟩
  targetPath := none
  requestedMode := none
  oldMode := none
  newMode := none
  before := some state
  after := some state
  status := .success
  errorCode := none
  bytesRead := 0
  bytesWritten := 0
  rangeNextOffset := none
  logReserveBytes := 0
  logStorage := none
  undoEpoch := none
  undoStatus := none
  undoErrorCode := none
  stagingPath := none
  trashGcStatus := none
  stagingGcStatus := none

def cleaner : Cleaner where
  config := aliceConfig
  actor := alice
  root := { AllowedRoot.standard with basePath := "/home/alice".toList }
  operation := operation
  uid := 1000
  euid := 1000
  requestId := 7
  uuids := .hyphenated
  format := ⟨fun _ => 0, fun _ => id, fun text => if text = id then some 1 else none⟩
  sha256 := fun _ => []
  faults := fun _ _ => none
  readDir := fun _ _ => .ok []

/-- A run that nobody disturbs. -/
def run (links : Nat) : Faults.Behaviour CleanupLog Folder CleanupError Unit :=
  cleaner.expireTrash path (Faults.undisturbed 6) ⟨tree links, []⟩

end ExpiredItem

end TealDrive
