import TealDrive.Helper.Maintenance

namespace TealDrive

open Outcome

/-!
# What a cleanup may remove

Every deed of the worker has a warrant: what must have happened before it.  An
entry is removed when it was recorded, when all entries recorded after it are
gone, and when nobody but others did anything since it was found unchanged.

Others act between the steps of the worker.  That the deeds are confined to the
item rests on a removal being one step: an owner who moved the parent away after
it was opened would have the worker remove an entry elsewhere.
-/

theorem manifestOf_append (first second : List Deed) :
    manifestOf (first ++ second) = manifestOf first ++ manifestOf second :=
  List.filterMap_append

theorem removalsOf_append (first second : List Deed) :
    removalsOf (first ++ second) = removalsOf first ++ removalsOf second :=
  List.filterMap_append

theorem mem_manifestOf {deeds : List Deed} {node : ManifestNode} :
    node ∈ manifestOf deeds ↔ Deed.recorded node ∈ deeds := by
  constructor
  · intro member
    rcases List.mem_filterMap.mp member with ⟨deed, listed, recorded⟩
    cases deed <;> cases recorded
    exact listed
  · intro member
    exact List.mem_filterMap.mpr ⟨_, member, rfl⟩

/-- A deed that records nothing. -/
theorem manifestOf_concat {deeds : List Deed} {deed : Deed} (unrecorded : deed.node? = none) :
    manifestOf (deeds ++ [deed]) = manifestOf deeds := by
  rw [manifestOf_append]
  unfold manifestOf
  rw [List.filterMap_cons_none unrecorded, List.filterMap_nil, List.append_nil]

/-- A deed that removes no entry of the manifest. -/
theorem removalsOf_concat {deeds : List Deed} {deed : Deed} (nothing : deed.gone? = none) :
    removalsOf (deeds ++ [deed]) = removalsOf deeds := by
  rw [removalsOf_append]
  unfold removalsOf
  rw [List.filterMap_cons_none nothing, List.filterMap_nil, List.append_nil]

/-- The tree after some deeds. -/
def Folder.afterAll (tree : Folder) (deeds : List Deed) : Folder :=
  Runs.run Folder.after tree deeds

theorem CleanupLog.add_nil (log : CleanupLog) : log.add [] = log := by
  unfold CleanupLog.add
  rw [List.append_nil]

/-- A deed of somebody else. -/
def Deed.Foreign (deed : Deed) : Prop := ∃ tree, deed = .others tree

/-- A deed before the manifest is complete. -/
def Deed.Early (deed : Deed) : Prop :=
  deed.Foreign ∨ (∃ device, deed = .based device) ∨ ∃ node, deed = .recorded node

/-! ## Warrants -/

inductive CleanupKind where
  | trash
  | staging (cutoff : Nat)

/-- One cleanup: what it is allowed to do, and where. -/
structure CleanupPlan where
  cleaner : Cleaner
  kind : CleanupKind
  path : RelativePath
  destination : RelativePath

namespace CleanupPlan

variable (plan : CleanupPlan)

def context : Context := plan.cleaner.context plan.path plan.destination

/-- What is checked before anything else. -/
structure Admitted : Prop where
  identity : plan.cleaner.euid ≠ 0 ∧ plan.cleaner.uid = plan.cleaner.actor.uid
  deletion : HelperPolicy.authorize plan.cleaner.uuids [] (plan.cleaner.request plan.destination)
    plan.cleaner.config = .ok ()
  source : plan.kind = .trash -> forall access, access ∈ [Access.discover, .read, .delete] ->
    plan.cleaner.config.accessPolicy.check plan.cleaner.actor.username plan.cleaner.root.rootId
      plan.destination access = .ok ()

/-- The device that everything must be on. -/
def OnDevice (deeds : List Deed) (device : Text) : Prop :=
  match plan.kind with
  | .trash => ∃ expected, plan.cleaner.operation.after = some expected ∧ device = expected.device
  | .staging _ => .based device ∈ deeds

/-- What must be settled before anything is removed. -/
def Cleared (deeds : List Deed) : Prop :=
  match plan.kind with
  | .trash => ∃ expected, plan.cleaner.operation.after = some expected ∧ .compared expected ∈ deeds
  | .staging cutoff => forall node, node ∈ manifestOf deeds -> Cleaner.recent cutoff node = false

/-- A path that the manifest comes to: the path it starts from, or an entry of a
directory that it has. -/
def Reached (deeds : List Deed) (path : RelativePath) : Prop :=
  manifestOf deeds = [] ∧ path = plan.path ∨
    ∃ directory, directory ∈ manifestOf deeds ∧ directory.state.kind = .directory ∧
      ∃ name : FileName, path.value = directory.path.value ++ '/' :: name.1

/-- Why an entry is recorded. -/
structure Recordable (tree : Folder) (deeds : List Deed) (node : ManifestNode) : Prop where
  early : forall deed, deed ∈ deeds -> deed.Early
  few : (manifestOf deeds).length < Cleaner.maxManifestNodes
  reached : plan.Reached deeds node.path
  inside : segmentNames plan.path.value <+: segmentNames node.path.value
  found : ∃ item, OpenedInode (some plan.context) tree node.path .path item ∧
    node.state = (FileState.metadata item).finish plan.cleaner.sha256
  owner : node.state.uid = plan.cleaner.actor.uid
  device : plan.OnDevice deeds node.state.device
  kind : node.state.kind ≠ .other

/-- The item is what the operation left in the trash. -/
structure Comparable (tree : Folder) (deeds : List Deed) (state : FileState) : Prop where
  early : forall deed, deed ∈ deeds -> deed.Early
  expected : plan.cleaner.operation.after = some state
  captured : (plan.cleaner.observer plan.context tree).capture plan.path = .ok state
  observed : state.kind = .file ∨ state.fullyObserved = true

/-- An entry was found unchanged, and since then only others did anything. -/
def JustChecked (start : Folder) (deeds : List Deed) (node : ManifestNode) : Prop :=
  ∃ earlier later, deeds = earlier ++ .checked node :: later ∧
    (forall deed, deed ∈ later -> deed.Foreign) ∧
    ∃ item, OpenedInode (some plan.context) (start.afterAll earlier) node.path .path item ∧
      Cleaner.unchanged (FileState.metadata item) node.state = true

/-- What `unlinkat` finds: an empty directory, or no directory. -/
def Removable (tree : Folder) (parent : List FileName) (name : FileName) (directory : Bool) : Prop :=
  match directory with
  | true => ∃ inode, tree.lookup ((parent ++ [name]).map .text) = some (.branch inode [])
  | false => ∃ content, tree.lookup ((parent ++ [name]).map .text) = some (.leaf content)

/-- Why an entry is removed. -/
structure Warranted (start : Folder) (deeds : List Deed) (node : ManifestNode)
    (parent : List FileName) (name : FileName) : Prop where
  cleared : plan.Cleared deeds
  next : removalsOf deeds ++ [node] <+: (manifestOf deeds).reverse
  checked : plan.JustChecked start deeds node
  spelled : segmentNames node.path.value = (parent ++ [name]).map Subtype.val
  found : Removable (start.afterAll deeds) parent name (node.state.kind == .directory)

/-- Why the record of an item is removed. -/
structure Forgettable (tree : Folder) (deeds : List Deed) (parent : List FileName)
    (name : FileName) : Prop where
  trash : plan.kind = .trash
  finished : removalsOf deeds = (manifestOf deeds).reverse
  identifier : ∃ id uuid, Segments.lastSegment '/' plan.path.value = id ∧
    plan.cleaner.format.parseId id = some uuid ∧
    trashInfoDir ++ [infoName id] = (parent ++ [name]).map Subtype.val
  found : Removable tree parent name false

/-- Why a deed was done. -/
def Warrant (start : Folder) (deeds : List Deed) : Deed -> Prop
  | .others _ => True
  | .based device => (forall deed, deed ∈ deeds -> deed.Foreign) ∧
      device = (FileState.metadata (start.afterAll deeds)).device
  | .recorded node => plan.Recordable (start.afterAll deeds) deeds node
  | .compared state => plan.kind = .trash ∧ plan.Comparable (start.afterAll deeds) deeds state
  | .checked _ => True
  | .removed node parent name => plan.Warranted start deeds node parent name
  | .forgotten parent name => plan.Forgettable (start.afterAll deeds) deeds parent name

/-- Nothing was done without a warrant, and nothing at all unless it was
admitted. -/
structure Lawful (start : Folder) (log : CleanupLog) : Prop where
  begun : log.start = start
  admitted : log.deeds = [] ∨ plan.Admitted
  justified : Logs.Justified (plan.Warrant start) log.deeds

/-! ## Steps -/

variable {plan} {start : Folder}

/-- A deed that is warranted may be done. -/
theorem Lawful.add {log : CleanupLog} (lawful : plan.Lawful start log) (admitted : plan.Admitted)
    {deed : Deed} (warrant : plan.Warrant start log.deeds deed) :
    plan.Lawful start (log.add [deed]) :=
  ⟨lawful.begun, Or.inr admitted, Logs.justified_concat.mpr ⟨lawful.justified, warrant⟩⟩

theorem Lawful.add_nil {log : CleanupLog} (lawful : plan.Lawful start log) :
    plan.Lawful start (log.add []) := by
  rw [log.add_nil]
  exact lawful

theorem Lawful.tree {log : CleanupLog} (lawful : plan.Lawful start log) :
    log.tree = start.afterAll log.deeds := by
  unfold CleanupLog.tree Folder.afterAll
  rw [lawful.begun]

/-- An assertion about the deeds that others cannot change. -/
def Steady (assertion : List Deed -> Prop) : Prop :=
  forall deeds tree, assertion deeds -> assertion (deeds ++ [.others tree])

/-- A triple about the deeds of a cleanup. -/
def Does (plan : CleanupPlan) (start : Folder) (before : List Deed -> Prop) {Value : Type}
    (program : Cleanup Value) (after : Value -> List Deed -> Prop) (broken : List Deed -> Prop) :
    Prop :=
  Faults.Triple (plan.Lawful start) (fun log => before log.deeds) program
    (fun value log => after value log.deeds) (fun log => broken log.deeds)

/-- The rule for one call. -/
theorem Does.act {Value : Type} {before broken : List Deed -> Prop}
    {after : Value -> List Deed -> Prop}
    {action : CleanupLog -> Except CleanupError (Value × List Deed)} (admitted : plan.Admitted)
    (steady : Steady before)
    (acts : forall log value deeds, plan.Lawful start log -> before log.deeds ->
      action log = .ok (value, deeds) ->
        plan.Lawful start (log.add deeds) ∧ after value (log.deeds ++ deeds))
    (fails : forall deeds, before deeds -> broken deeds) :
    plan.Does start before (TealDrive.act action) after broken := by
  apply Faults.Triple.perform
  · intro log tree lawful holds
    exact ⟨lawful.add admitted trivial, steady log.deeds tree holds⟩
  · intro log value final lawful holds done
    cases outcome : action log with
    | ok result =>
        rcases result with ⟨answer, deeds⟩
        rw [outcome] at done
        cases done
        exact acts log value deeds lawful holds outcome
    | error problem =>
        rw [outcome] at done
        cases done
  · intro log lawful holds
    exact ⟨lawful, fails log.deeds holds⟩
  · intro log _ holds
    exact fails log.deeds holds

/-! ## The manifest -/

theorem foreign_others (tree : Folder) : (Deed.others tree).Foreign := ⟨tree, rfl⟩

/-- Nothing is removed while the manifest is taken. -/
theorem removalsOf_early {deeds : List Deed} (early : forall deed, deed ∈ deeds -> deed.Early) :
    removalsOf deeds = [] := by
  apply List.filterMap_eq_nil_iff.mpr
  intro deed listed
  rcases early deed listed with ⟨tree, rfl⟩ | ⟨device, rfl⟩ | ⟨node, rfl⟩ <;> rfl

/-- A device is the right one whatever is done later. -/
theorem OnDevice.append {deeds : List Deed} {device : Text} (right : plan.OnDevice deeds device)
    (more : List Deed) : plan.OnDevice (deeds ++ more) device := by
  unfold OnDevice at right ⊢
  cases kind : plan.kind with
  | trash =>
      rw [kind] at right
      exact right
  | staging cutoff =>
      rw [kind] at right
      exact List.mem_append_left _ right

variable (plan) in
/-- The manifest is being taken, and some directories are already in it. -/
structure Gathered (device : Text) (inside : List RelativePath) (deeds : List Deed) : Prop where
  early : forall deed, deed ∈ deeds -> deed.Early
  device : plan.OnDevice deeds device
  inside : forall path, path ∈ inside -> ∃ directory, directory ∈ manifestOf deeds ∧
    directory.path = path ∧ directory.state.kind = .directory

theorem Gathered.append {device : Text} {inside : List RelativePath} {deeds : List Deed} {deed : Deed}
    (gathered : plan.Gathered device inside deeds) (early : deed.Early) :
    plan.Gathered device inside (deeds ++ [deed]) := by
  refine ⟨?_, gathered.device.append _, ?_⟩
  · intro other listed
    rcases List.mem_append.mp listed with before | last
    · exact gathered.early other before
    · rw [List.mem_singleton.mp last]
      exact early
  · intro path open_
    rcases gathered.inside path open_ with ⟨directory, listed, named, kind⟩
    refine ⟨directory, ?_, named, kind⟩
    rw [manifestOf_append]
    exact List.mem_append_left _ listed

theorem Gathered.steady {device : Text} {inside : List RelativePath} :
    Steady (plan.Gathered device inside) :=
  fun _ tree gathered => gathered.append (Or.inl (foreign_others tree))

theorem Reached.steady {path : RelativePath} : Steady (plan.Reached · path) := by
  intro deeds tree reached
  unfold Reached
  rw [manifestOf_concat rfl]
  exact reached

/-- An entry of a directory in the manifest is reached. -/
theorem Gathered.reached {device : Text} {inside : List RelativePath} {deeds : List Deed}
    (gathered : plan.Gathered device inside deeds) {path : RelativePath} (open_ : path ∈ inside)
    (name : FileName) : plan.Reached deeds ⟨path.value ++ '/' :: name.1⟩ := by
  rcases gathered.inside path open_ with ⟨directory, listed, named, kind⟩
  exact Or.inr ⟨directory, listed, kind, name, by rw [named]⟩

/-- Everything that is reached lies inside of the item. -/
theorem Lawful.inside {log : CleanupLog} (lawful : plan.Lawful start log) {path : RelativePath}
    (reached : plan.Reached log.deeds path) :
    segmentNames plan.path.value <+: segmentNames path.value := by
  rcases reached with ⟨_, rfl⟩ | ⟨directory, listed, _, name, spelled⟩
  · exact List.prefix_refl _
  · rcases lawful.justified.of_mem (mem_manifestOf.mp listed) with ⟨earlier, _, recorded⟩
    rw [spelled, segmentNames_below]
    exact recorded.inside.trans (List.prefix_append _ _)

theorem stateAt_ok {cleaner : Cleaner} {context : Context} {tree : Folder} {path : RelativePath}
    {state : FileState} (done : cleaner.stateAt context tree path = .ok state) :
    ∃ item, OpenedInode (some context) tree path .path item ∧
      state = (FileState.metadata item).finish cleaner.sha256 := by
  unfold Cleaner.stateAt at done
  simp only [bind_eq_ok, mapError_eq_ok, pure_eq_ok] at done
  rcases done with ⟨item, opened, rfl⟩
  exact ⟨item, (openInode_ok opened).1, rfl⟩

/-- Recording one entry. -/
theorem does_record (admitted : plan.Admitted) {device : Text} {inside : List RelativePath}
    {path : RelativePath} :
    plan.Does start (fun deeds => plan.Gathered device inside deeds ∧ plan.Reached deeds path)
      (act (plan.cleaner.record plan.context device path))
      (fun directory deeds => plan.Gathered device
        (if directory then path :: inside else inside) deeds)
      (fun deeds => plan.Gathered device [] deeds) := by
  apply Does.act admitted
  · intro deeds tree holds
    exact ⟨Gathered.steady deeds tree holds.1, Reached.steady deeds tree holds.2⟩
  · intro log directory deeds lawful holds done
    rcases holds with ⟨gathered, reached⟩
    unfold Cleaner.record at done
    simp only [bind_eq_ok, refuse_eq_ok, pure_eq_ok, decide_eq_false_iff_not, Nat.not_le,
      Bool.or_eq_false_iff, bne_eq_false_iff_eq, beq_eq_false_iff_ne, Prod.mk.injEq] at done
    rcases done with ⟨_, few, state, stated, _, ⟨⟨owner, right⟩, kind⟩, rfl, rfl⟩
    rw [lawful.tree] at stated
    have early : Deed.Early (.recorded ⟨path, state⟩) := Or.inr (Or.inr ⟨_, rfl⟩)
    refine ⟨lawful.add admitted ?_, ?_⟩
    · exact {
        early := gathered.early
        few := few
        reached := reached
        inside := lawful.inside reached
        found := stateAt_ok stated
        owner := owner
        device := right ▸ gathered.device
        kind := kind }
    · have added := gathered.append early
      cases directoryKind : state.kind == .directory with
      | false => exact added
      | true =>
          refine ⟨added.early, added.device, ?_⟩
          intro other listed
          rcases List.mem_cons.mp listed with rfl | further
          · refine ⟨⟨other, state⟩, ?_, rfl, eq_of_beq directoryKind⟩
            exact mem_manifestOf.mpr (List.mem_append_right _ List.mem_cons_self)
          · exact added.inside other further
  · intro deeds holds
    exact ⟨holds.1.early, holds.1.device, fun _ listed => absurd listed List.not_mem_nil⟩

theorem Gathered.weaken {device : Text} {inside fewer : List RelativePath} {deeds : List Deed}
    (gathered : plan.Gathered device inside deeds) (less : fewer ⊆ inside) :
    plan.Gathered device fewer deeds :=
  ⟨gathered.early, gathered.device, fun path listed => gathered.inside path (less listed)⟩

theorem Gathered.none {device : Text} {inside : List RelativePath} {deeds : List Deed}
    (gathered : plan.Gathered device inside deeds) : plan.Gathered device [] deeds :=
  gathered.weaken (List.nil_subset _)

/-- A call that leaves nothing behind. -/
theorem does_nothing {Value : Type} (admitted : plan.Admitted) {device : Text}
    {inside : List RelativePath} {action : CleanupLog -> Except CleanupError (Value × List Deed)}
    (silent : forall log value deeds, action log = .ok (value, deeds) -> deeds = []) :
    plan.Does start (plan.Gathered device inside) (act action)
      (fun _ => plan.Gathered device inside) (plan.Gathered device []) := by
  apply Does.act admitted Gathered.steady
  · intro log value deeds lawful gathered done
    rw [silent log value deeds done, List.append_nil]
    exact ⟨lawful.add_nil, gathered⟩
  · exact fun _ gathered => gathered.none

theorem does_recordEntries (admitted : plan.Admitted) {device : Text}
    {inner : RelativePath -> Cleanup Unit}
    (below : forall inside path,
      plan.Does start (fun deeds => plan.Gathered device inside deeds ∧ plan.Reached deeds path)
        (inner path) (fun _ => plan.Gathered device inside) (plan.Gathered device []))
    (inside : List RelativePath) (path : RelativePath) (names : List EntryName) :
    plan.Does start (plan.Gathered device (path :: inside))
      (Cleaner.recordEntries inner path names)
      (fun _ => plan.Gathered device (path :: inside)) (plan.Gathered device []) := by
  induction names with
  | nil => exact Faults.Triple.pure (fun _ _ gathered => gathered)
  | cons entry rest ih =>
      unfold Cleaner.recordEntries
      apply Faults.Triple.bind
      · apply does_nothing admitted
        intro log value deeds done
        exact (Prod.mk.inj (Except.ok.inj done)).2.symm
      · intro _
        cases entry with
        | raw bytes =>
            apply Faults.Triple.ofExcept
            · intro value impossible
              cases impossible
            · exact fun _ _ gathered => gathered.none
        | text name =>
            apply Faults.Triple.bind
            · apply (below (path :: inside) ⟨path.value ++ '/' :: name.1⟩).starting
              exact fun _ _ gathered => ⟨gathered, gathered.reached List.mem_cons_self name⟩
            · exact fun _ => ih

/-- Taking the manifest below a path. -/
theorem does_manifest (admitted : plan.Admitted) {device : Text} (levels : Nat)
    (inside : List RelativePath) (path : RelativePath) :
    plan.Does start (fun deeds => plan.Gathered device inside deeds ∧ plan.Reached deeds path)
      (plan.cleaner.manifest plan.context device levels path)
      (fun _ => plan.Gathered device inside) (plan.Gathered device []) := by
  induction levels generalizing inside path with
  | zero =>
      apply Faults.Triple.ofExcept
      · intro value impossible
        cases impossible
      · exact fun _ _ holds => holds.1.none
  | succ levels ih =>
      unfold Cleaner.manifest
      apply Faults.Triple.bind (does_record admitted)
      intro directory
      apply Faults.Triple.provided
      · intro isDirectory
        subst isDirectory
        change plan.Does start (plan.Gathered device (path :: inside)) _ _ _
        apply Faults.Triple.bind
        · apply does_nothing admitted
          intro log value deeds done
          unfold Cleaner.entries at done
          simp only [bind_eq_ok, mapError_eq_ok, pure_eq_ok, Prod.mk.injEq] at done
          rcases done with ⟨_, _, _, rfl⟩
          rfl
        · intro names
          apply (does_recordEntries admitted ih inside path names).weaken
          · exact fun _ _ gathered => gathered
          · exact fun _ _ _ gathered => gathered.weaken (List.subset_cons_self _ _)
          · exact fun _ _ gathered => gathered
      · intro none log _ gathered
        rw [none, if_neg Bool.false_ne_true] at gathered
        exact gathered

/-- Taking the whole manifest. -/
theorem does_takeManifest (admitted : plan.Admitted) {device : Text} :
    plan.Does start (fun deeds => plan.Gathered device [] deeds ∧ manifestOf deeds = [])
      (plan.cleaner.takeManifest plan.context device plan.path)
      (fun present deeds => plan.Gathered device [] deeds ∧ (present = false -> manifestOf deeds = []))
      (fun _ => True) := by
  unfold Cleaner.takeManifest
  apply Faults.Triple.via (fun _ log => plan.Gathered device [] log.deeds)
  · apply Faults.Triple.attempt (fun log => plan.Gathered device [] log.deeds)
    · apply (does_manifest admitted _ [] plan.path).starting
      exact fun _ _ holds => ⟨holds.1, Or.inl ⟨holds.2, rfl⟩⟩
    · exact fun _ _ _ gathered => gathered
  · intro outcome
    apply Faults.Triple.bind Faults.Triple.look
    intro recorded
    cases outcome with
    | ok done =>
        apply Faults.Triple.pure
        intro log _ holds
        refine ⟨holds.1, ?_⟩
        intro impossible
        cases impossible
    | error error =>
        dsimp only
        split
        · rename_i empty
          apply Faults.Triple.pure
          intro log _ holds
          refine ⟨holds.1, fun _ => ?_⟩
          rw [← holds.2]
          exact List.isEmpty_iff.mp (Bool.and_eq_true_iff.mp empty).2
        · apply Faults.Triple.ofExcept
          · intro value impossible
            cases impossible
          · exact fun _ _ _ => trivial

/-! ## Removing -/

/-- What was settled stays settled, unless more is recorded. -/
theorem Cleared.append {deeds : List Deed} (cleared : plan.Cleared deeds) {deed : Deed}
    (unrecorded : deed.node? = none) : plan.Cleared (deeds ++ [deed]) := by
  unfold Cleared at cleared ⊢
  cases kind : plan.kind with
  | trash =>
      rw [kind] at cleared
      rcases cleared with ⟨expected, known, compared⟩
      exact ⟨expected, known, List.mem_append_left _ compared⟩
  | staging cutoff =>
      rw [kind] at cleared
      intro node listed
      apply cleared node
      rcases List.mem_append.mp (mem_manifestOf.mp listed) with before | last
      · exact mem_manifestOf.mpr before
      · rw [← List.mem_singleton.mp last] at unrecorded
        cases unrecorded

variable (plan) in
/-- Some nodes are left to be removed, in this order. -/
structure Ready (rest : List ManifestNode) (deeds : List Deed) : Prop where
  cleared : plan.Cleared deeds
  order : removalsOf deeds ++ rest = (manifestOf deeds).reverse

theorem Ready.steady {rest : List ManifestNode} : Steady (plan.Ready rest) := by
  intro deeds tree ready
  refine ⟨ready.cleared.append rfl, ?_⟩
  rw [manifestOf_concat rfl, removalsOf_concat rfl]
  exact ready.order

theorem JustChecked.steady {node : ManifestNode} : Steady (plan.JustChecked start · node) := by
  rintro deeds tree ⟨earlier, later, split, foreign, item, opened, same⟩
  refine ⟨earlier, later ++ [.others tree], ?_, ?_, item, opened, same⟩
  · rw [split, List.append_assoc]
    rfl
  · intro deed listed
    rcases List.mem_append.mp listed with before | last
    · exact foreign deed before
    · rw [List.mem_singleton.mp last]
      exact foreign_others tree

theorem unchanged_finish (sha256 : List UInt8 -> Text) (current recorded : FileState) :
    Cleaner.unchanged (current.finish sha256) recorded = Cleaner.unchanged current recorded := rfl

/-- Checking one entry. -/
theorem does_check (admitted : plan.Admitted) (node : ManifestNode) (rest : List ManifestNode) :
    plan.Does start (plan.Ready (node :: rest)) (act (plan.cleaner.check plan.context node))
      (fun _ deeds => plan.Ready (node :: rest) deeds ∧ plan.JustChecked start deeds node)
      (fun _ => True) := by
  apply Does.act admitted Ready.steady
  · intro log value deeds lawful ready done
    unfold Cleaner.check at done
    simp only [bind_eq_ok, refuse_eq_ok, pure_eq_ok, Bool.not_eq_false', Prod.mk.injEq,
      true_and] at done
    rcases done with ⟨state, stated, _, same, rfl⟩
    rw [lawful.tree] at stated
    rcases stateAt_ok stated with ⟨item, opened, rfl⟩
    rw [unchanged_finish] at same
    refine ⟨lawful.add admitted trivial, ⟨ready.cleared.append rfl, ?_⟩, ?_⟩
    · rw [manifestOf_concat rfl, removalsOf_concat rfl]
      exact ready.order
    · exact ⟨log.deeds, [], rfl, fun _ listed => absurd listed List.not_mem_nil, item, opened, same⟩
  · exact fun _ _ => trivial

/-- What `unlinkAt` answers is there to be removed. -/
theorem unlinkAt_ok {tree : Folder} {texts : List Text} {text : Text} {directory : Bool}
    {parent : List FileName} {name : FileName}
    (done : tree.unlinkAt texts text directory = .ok (parent, name)) :
    texts ++ [text] = (parent ++ [name]).map Subtype.val ∧
      Removable tree parent name directory := by
  unfold Folder.unlinkAt at done
  simp only [bind_eq_ok, okOr_eq_ok] at done
  rcases done with ⟨names, spelled, last, named, found⟩
  have texts_eq : texts = names.map Subtype.val := by
    clear found
    induction texts generalizing names with
    | nil =>
        cases spelled
        rfl
    | cons first others ih =>
        rw [List.mapM_cons] at spelled
        rcases Option.bind_eq_some_iff.mp spelled with ⟨one, here, more⟩
        rcases Option.bind_eq_some_iff.mp more with ⟨further, there, same⟩
        cases same
        rw [ih further there, FileName.of_eq_some.mp here]
        rfl
  have answer : parent = names ∧ name = last ∧
      Removable tree names last directory := by
    cases present : tree.lookup ((names ++ [last]).map EntryName.text) with
    | none =>
        rw [present] at found
        cases found
    | some item =>
        rw [present] at found
        cases item with
        | leaf content =>
            cases directory with
            | true => cases found
            | false =>
                cases found
                exact ⟨rfl, rfl, content, present⟩
        | branch inode entries =>
            cases directory with
            | false => cases entries <;> cases found
            | true =>
                cases entries with
                | cons first others => cases found
                | nil =>
                    cases found
                    exact ⟨rfl, rfl, inode, present⟩
  rcases answer with ⟨rfl, rfl, there⟩
  refine ⟨?_, there⟩
  rw [texts_eq, FileName.of_eq_some.mp named, List.map_append]
  rfl

/-- The parent and the name of a path lead to it. -/
theorem segmentNames_splitPath {path : RelativePath} {name : FileName}
    (named : (Cleaner.splitPath path).2 = name.1) :
    segmentNames path.value =
      segmentNames (Cleaner.splitPath path).1.value ++ [(Cleaner.splitPath path).2] := by
  rw [named]
  unfold Cleaner.splitPath at named ⊢
  cases split : Segments.rsplitOnce '/' path.value with
  | none =>
      rw [split] at named
      change path.value = name.1 at named
      rw [named]
      exact segmentNames_name name
  | some parts =>
      rw [split] at named
      change parts.2 = name.1 at named
      rw [(Segments.rsplitOnce_eq_some split).1, named]
      exact segmentNames_below parts.1 name

/-- Removing one entry. -/
theorem does_unlink (admitted : plan.Admitted) (node : ManifestNode) (rest : List ManifestNode)
    (logicalParent : RelativePath) :
    plan.Does start
      (fun deeds => plan.Ready (node :: rest) deeds ∧ plan.JustChecked start deeds node)
      (act (Cleaner.unlink plan.context logicalParent node)) (fun _ => plan.Ready rest)
      (fun _ => True) := by
  apply Does.act admitted
  · intro deeds tree holds
    exact ⟨Ready.steady deeds tree holds.1, JustChecked.steady deeds tree holds.2⟩
  · intro log value deeds lawful holds done
    rcases holds with ⟨ready, checked⟩
    unfold Cleaner.unlink at done
    simp only [bind_eq_ok, refuse_eq_ok, mapError_eq_ok, pure_eq_ok, Prod.exists, Prod.mk.injEq,
      true_and] at done
    rcases done with ⟨_, _, _, _, parent, name, removed, rfl⟩
    rw [lawful.tree] at removed
    rcases unlinkAt_ok removed with ⟨spelled, found⟩
    rw [List.map_append] at spelled
    rcases List.append_inj' spelled rfl with ⟨_, last⟩
    have path := segmentNames_splitPath (List.cons.inj last).1
    refine ⟨lawful.add admitted ?_, ready.cleared.append rfl, ?_⟩
    · exact {
        cleared := ready.cleared
        next := ⟨rest, by rw [List.append_assoc]; exact ready.order⟩
        checked := checked
        spelled := by rw [path, spelled, List.map_append]
        found := found }
    · rw [manifestOf_concat rfl, removalsOf_append, List.append_assoc]
      exact ready.order
  · exact fun _ _ => trivial

/-- Removing all that is left. -/
theorem does_removeNodes (admitted : plan.Admitted) (logicalParent : RelativePath)
    (rest : List ManifestNode) :
    plan.Does start (plan.Ready rest)
      (plan.cleaner.removeNodes plan.context logicalParent rest) (fun _ => plan.Ready [])
      (fun _ => True) := by
  induction rest with
  | nil => exact Faults.Triple.pure (fun _ _ ready => ready)
  | cons node rest ih =>
      apply Faults.Triple.bind (does_check admitted node rest)
      intro _
      apply Faults.Triple.bind (does_unlink admitted node rest logicalParent)
      exact fun _ => ih

/-! ## Confinement -/

/-- A path that neither leads to another one nor below it. -/
def Apart (names : List EntryName) (path : List Text) : Prop :=
  forall item : List FileName, item.map Subtype.val = path ->
    ¬ names <+: item.map .text ∧ ¬ item.map .text <+: names

variable (plan) in
/-- The worker itself changes nothing outside of the item and its record. -/
def Confined (start : Folder) (log : CleanupLog) : Prop :=
  forall earlier deed later, log.deeds = earlier ++ deed :: later -> ¬ deed.Foreign ->
    forall names, Apart names (segmentNames plan.path.value) ->
      (plan.kind = .trash ->
        Apart names (trashInfoDir ++ [infoName (Segments.lastSegment '/' plan.path.value)])) ->
      NamedTree.lookup (start.afterAll (earlier ++ [deed])) names =
        NamedTree.lookup (start.afterAll earlier) names

/-- Nothing changes apart from the entry that is removed. -/
theorem lookup_without {tree : Folder} {parent : List FileName} {name : FileName}
    {names : List EntryName} {path : List Text} (apart : Apart names path)
    (inside : path <+: (parent ++ [name]).map Subtype.val) :
    NamedTree.lookup (tree.without parent name) names = NamedTree.lookup tree names := by
  have item := List.prefix_iff_eq_take.mp inside
  rw [← List.map_take] at item
  rcases apart _ item.symm with ⟨notAbove, notBelow⟩
  have within : ((parent ++ [name]).take path.length).map EntryName.text <+:
      parent.map EntryName.text ++ [EntryName.text name] := by
    have whole := (List.take_prefix path.length (parent ++ [name])).map EntryName.text
    rw [List.map_append] at whole
    exact whole
  apply NamedTree.lookup_remove_of_ne
  · intro above
    rcases List.prefix_or_prefix_of_prefix (above.trans (List.prefix_append _ _)) within with
      up | down
    · exact notAbove up
    · exact notBelow down
  · intro below
    exact notBelow (within.trans below)

theorem Lawful.confined {log : CleanupLog} (lawful : plan.Lawful start log) :
    plan.Confined start log := by
  intro earlier deed later split own names apart record
  have warrant := lawful.justified earlier deed later split
  unfold Folder.afterAll
  rw [Runs.run_concat]
  cases deed with
  | others tree => exact absurd (foreign_others tree) own
  | based device => rfl
  | recorded node => rfl
  | compared state => rfl
  | checked node => rfl
  | removed node parent name =>
      have listed : node ∈ manifestOf earlier :=
        List.mem_reverse.mp (warrant.next.subset (List.mem_append_right _ List.mem_cons_self))
      have recorded : Deed.recorded node ∈ log.deeds := by
        rw [split]
        exact List.mem_append_left _ (mem_manifestOf.mp listed)
      rcases lawful.justified.of_mem recorded with ⟨_, _, reason⟩
      apply lookup_without apart
      rw [← warrant.spelled]
      exact reason.inside
  | forgotten parent name =>
      rcases warrant.identifier with ⟨id, _, last, _, spelled⟩
      apply lookup_without (record warrant.trash)
      rw [last, spelled]

/-! ## Whole cleanups -/

/-- Everything that was recorded is gone. -/
def Finished (deeds : List Deed) : Prop := removalsOf deeds = (manifestOf deeds).reverse

theorem Finished.steady : Steady Finished := by
  intro deeds tree finished
  unfold Finished
  rw [manifestOf_concat rfl, removalsOf_concat rfl]
  exact finished

theorem Ready.finished {deeds : List Deed} (ready : plan.Ready [] deeds) : Finished deeds :=
  (List.append_nil _).symm.trans ready.order

/-- Where there is nothing, nothing is left to be removed. -/
theorem Gathered.finished {device : Text} {inside : List RelativePath} {deeds : List Deed}
    (gathered : plan.Gathered device inside deeds) (nothing : manifestOf deeds = []) :
    Finished deeds := by
  unfold Finished
  rw [removalsOf_early gathered.early, nothing]
  rfl

/-- A check that leaves nothing behind. -/
theorem does_check_first {Value Result : Type} {outcome : Except CleanupError Value}
    {next : Value -> Cleanup Result} {before : List Deed -> Prop}
    {after : Result -> List Deed -> Prop}
    (rest : forall value, outcome = .ok value ->
      plan.Does start before (next value) after (fun _ => True)) :
    plan.Does start before (Faults.ofExcept outcome >>= next) after (fun _ => True) := by
  have checked : Faults.Triple (plan.Lawful start) (fun log => before log.deeds)
      (Faults.ofExcept outcome : Cleanup Value)
      (fun value log => before log.deeds ∧ outcome = .ok value)
      (fun _ => True) := by
    apply Faults.Triple.ofExcept
    · exact fun value passed _ _ holds => ⟨holds, passed⟩
    · exact fun _ _ _ => trivial
  exact checked.bindFact rest

theorem checkIdentity_ok {cleaner : Cleaner} {done : Unit} (passed : cleaner.checkIdentity = .ok done) :
    cleaner.euid ≠ 0 ∧ cleaner.uid = cleaner.actor.uid := by
  unfold Cleaner.checkIdentity at passed
  simpa only [refuse_eq_ok, Bool.or_eq_false_iff, beq_eq_false_iff_ne, bne_eq_false_iff_eq] using
    passed

theorem checkDeletion_ok {cleaner : Cleaner} {path : RelativePath} {done : Unit}
    (passed : cleaner.checkDeletion path = .ok done) :
    HelperPolicy.authorize cleaner.uuids [] (cleaner.request path) cleaner.config = .ok () :=
  mapError_eq_ok.mp passed

theorem checkSource_ok {cleaner : Cleaner} {done : Unit} (passed : cleaner.checkSource = .ok done)
    {access : Access} (listed : access ∈ [Access.discover, .read, .delete]) :
    cleaner.config.accessPolicy.check cleaner.actor.username cleaner.root.rootId
      cleaner.operation.sourcePath access = .ok () :=
  mapError_eq_ok.mp (forM_eq_ok.mp passed access listed)

end CleanupPlan

/-! ### `expire_trash` -/

/-- Removing an item from the trash. -/
def Cleaner.trashPlan (cleaner : Cleaner) (path : RelativePath) : CleanupPlan :=
  ⟨cleaner, .trash, path, cleaner.operation.sourcePath⟩

section Trash

open CleanupPlan

variable {cleaner : Cleaner} {path : RelativePath} {start : Folder}

theorem does_compare (admitted : (cleaner.trashPlan path).Admitted) {expected : FileState}
    (known : cleaner.operation.after = some expected) :
    (cleaner.trashPlan path).Does start ((cleaner.trashPlan path).Gathered expected.device [])
      (act (cleaner.compare (cleaner.trashPlan path).context path expected))
      (fun _ deeds => (cleaner.trashPlan path).Cleared deeds ∧ removalsOf deeds = [])
      (fun _ => True) := by
  apply Does.act admitted Gathered.steady
  · intro log value deeds lawful gathered done
    unfold Cleaner.compare at done
    simp only [bind_eq_ok, refuse_eq_ok, mapError_eq_ok, pure_eq_ok, Bool.or_eq_false_iff,
      bne_eq_false_iff_eq, Bool.and_eq_false_iff, Bool.not_eq_false', Prod.mk.injEq,
      true_and] at done
    rcases done with ⟨state, captured, _, ⟨rfl, observed⟩, rfl⟩
    rw [lawful.tree] at captured
    refine ⟨lawful.add admitted ⟨rfl, ?_⟩, ?_, ?_⟩
    · exact {
        early := gathered.early
        expected := known
        captured := captured
        observed := observed }
    · exact ⟨state, known, List.mem_append_right _ List.mem_cons_self⟩
    · rw [removalsOf_concat rfl]
      exact removalsOf_early gathered.early
  · exact fun _ _ => trivial

theorem does_removeItem (admitted : (cleaner.trashPlan path).Admitted) {expected : FileState}
    (known : cleaner.operation.after = some expected) :
    (cleaner.trashPlan path).Does start ((cleaner.trashPlan path).Gathered expected.device [])
      (cleaner.removeItem (cleaner.trashPlan path).context path expected)
      (fun _ => Finished) (fun _ => True) := by
  unfold Cleaner.removeItem
  apply Faults.Triple.bind (does_compare admitted known)
  intro _
  apply Faults.Triple.bind Faults.Triple.look
  intro recorded
  apply (does_removeNodes admitted _ recorded.reverse).weaken
  · rintro log _ ⟨⟨cleared, nothing⟩, rfl⟩
    exact ⟨cleared, by rw [nothing, List.nil_append]⟩
  · exact fun _ _ _ ready => ready.finished
  · exact fun _ _ _ => trivial

theorem does_forget (admitted : (cleaner.trashPlan path).Admitted) {uuid : Uuid}
    (parsed : cleaner.format.parseId (Segments.lastSegment '/' path.value) = some uuid)
    (context : Context) :
    (cleaner.trashPlan path).Does start Finished
      (act (Cleaner.forget context (Segments.lastSegment '/' path.value)))
      (fun _ => Finished) (fun _ => True) := by
  apply Does.act admitted Finished.steady
  · intro log value deeds lawful finished done
    unfold Cleaner.forget at done
    simp only [bind_eq_ok, mapError_eq_ok] at done
    rcases done with ⟨_, _, answered⟩
    cases outcome : log.tree.unlinkAt trashInfoDir (infoName (Segments.lastSegment '/' path.value))
        false with
    | ok names =>
        rcases names with ⟨parent, name⟩
        rw [outcome] at answered
        cases answered
        rw [lawful.tree] at outcome
        rcases unlinkAt_ok outcome with ⟨spelled, found⟩
        refine ⟨lawful.add admitted ?_, ?_⟩
        · exact ⟨rfl, finished, ⟨_, uuid, rfl, parsed, spelled⟩, found⟩
        · unfold Finished
          rw [manifestOf_concat rfl, removalsOf_concat rfl]
          exact finished
    | error error =>
        rw [outcome] at answered
        dsimp only at answered
        split at answered
        · cases answered
          rw [List.append_nil]
          exact ⟨lawful.add_nil, finished⟩
        · cases answered
  · exact fun _ _ => trivial

/-- A whole run of `expire_trash`. -/
theorem does_expireTrash :
    (cleaner.trashPlan path).Does start (fun deeds => deeds = []) (cleaner.expireTrash path)
      (fun _ => Finished) (fun _ => True) := by
  unfold Cleaner.expireTrash
  apply does_check_first
  intro _ identity
  apply does_check_first
  intro expected given
  have known := okOr_eq_ok.mp given
  apply does_check_first
  intro _ source
  apply does_check_first
  intro _ deletion
  have admitted : (cleaner.trashPlan path).Admitted :=
    { identity := checkIdentity_ok identity
      deletion := checkDeletion_ok deletion
      source := fun _ _ listed => checkSource_ok source listed }
  apply Faults.Triple.bind
  · apply (does_takeManifest admitted).starting
    rintro log _ empty
    rw [empty]
    refine ⟨⟨?_, ⟨expected, known, rfl⟩, ?_⟩, rfl⟩
    · exact fun _ listed => absurd listed List.not_mem_nil
    · exact fun _ listed => absurd listed List.not_mem_nil
  · intro present
    apply Faults.Triple.via (fun _ log => Finished log.deeds)
    · apply Faults.Triple.provided
      · intro _
        apply (does_removeItem admitted known).starting
        exact fun _ _ holds => holds.1
      · exact fun none _ _ holds => holds.1.finished (holds.2 none)
    · intro _
      apply does_check_first
      intro uuid parsed
      exact does_forget admitted (okOr_eq_ok.mp parsed) _

/-- Whatever others do between two steps, and however a run of `expire_trash` ends:
it removes only what it is allowed to, in order, and nothing outside of the item
and its record.  A run that returns has removed all it recorded. -/
theorem expired_trash_lawful (cleaner : Cleaner) (path : RelativePath) (tree : Folder)
    (events : List (Faults.Event Folder CleanupError)) :
    let run := cleaner.expireTrash path events ⟨tree, []⟩
    (forall log, log ∈ run.visited ∨ log = run.world ->
      (cleaner.trashPlan path).Lawful tree log ∧ (cleaner.trashPlan path).Confined tree log) ∧
    (run.ending = .returned () ->
      removalsOf run.world.deeds = (manifestOf run.world.deeds).reverse) := by
  intro run
  have sound : Faults.Sound ((cleaner.trashPlan path).Lawful tree) run
      (fun _ log => Finished log.deeds) (fun _ => True) :=
    does_expireTrash events ⟨tree, []⟩ ⟨rfl, Or.inl rfl, Logs.justified_nil⟩ rfl
  refine ⟨?_, sound.returned ()⟩
  intro log reached
  exact ⟨sound.reached reached, (sound.reached reached).confined⟩

end Trash

/-! ### `expire_staging` -/

/-- Removing what was staged. -/
def Cleaner.stagingPlan (cleaner : Cleaner) (path destination : RelativePath) (cutoff : Nat) :
    CleanupPlan :=
  ⟨cleaner, .staging cutoff, path, destination⟩

section Staging

open CleanupPlan

variable {cleaner : Cleaner} {path destination : RelativePath} {cutoff : Nat} {start : Folder}

theorem does_base (admitted : (cleaner.stagingPlan path destination cutoff).Admitted) :
    (cleaner.stagingPlan path destination cutoff).Does start
      (fun deeds => forall deed, deed ∈ deeds -> deed.Foreign) (act Cleaner.base)
      (fun device deeds => (cleaner.stagingPlan path destination cutoff).Gathered device [] deeds ∧
        manifestOf deeds = []) (fun _ => True) := by
  apply Does.act admitted
  · intro deeds tree foreign deed listed
    rcases List.mem_append.mp listed with before | last
    · exact foreign deed before
    · rw [List.mem_singleton.mp last]
      exact foreign_others tree
  · intro log device deeds lawful foreign done
    unfold Cleaner.base at done
    cases done
    rw [lawful.tree]
    refine ⟨lawful.add admitted ⟨foreign, rfl⟩, ⟨?_, ?_, ?_⟩, ?_⟩
    · intro deed listed
      rcases List.mem_append.mp listed with before | last
      · exact Or.inl (foreign deed before)
      · exact Or.inr (Or.inl ⟨_, List.mem_singleton.mp last⟩)
    · exact List.mem_append_right _ List.mem_cons_self
    · exact fun _ listed => absurd listed List.not_mem_nil
    · rw [manifestOf_concat rfl]
      apply List.filterMap_eq_nil_iff.mpr
      intro deed listed
      rcases foreign deed listed with ⟨tree, rfl⟩
      rfl
  · exact fun _ _ => trivial

/-- Removing a manifest without recent entries. -/
theorem does_removeOld (admitted : (cleaner.stagingPlan path destination cutoff).Admitted)
    {device : Text} (recorded : List ManifestNode) :
    (cleaner.stagingPlan path destination cutoff).Does start
      (fun deeds => (cleaner.stagingPlan path destination cutoff).Gathered device [] deeds ∧
        recorded = manifestOf deeds)
      (do
        Faults.ofExcept (refuse (recorded.any (Cleaner.recent cutoff)) (.store .conflict))
        cleaner.removeNodes (cleaner.context path destination) ⟨rawParent destination⟩
          recorded.reverse)
      (fun _ => Finished) (fun _ => True) := by
  apply does_check_first
  intro _ passed
  have old := List.any_eq_false.mp (refuse_eq_ok.mp passed)
  apply (does_removeNodes admitted _ recorded.reverse).weaken
  · rintro log _ ⟨gathered, rfl⟩
    refine ⟨?_, ?_⟩
    · intro node listed
      exact Bool.eq_false_iff.mpr (old node listed)
    · rw [removalsOf_early gathered.early, List.nil_append]
  · exact fun _ _ _ ready => ready.finished
  · exact fun _ _ _ => trivial

/-- A whole run of `expire_staging`. -/
theorem does_expireStaging :
    (cleaner.stagingPlan path destination cutoff).Does start (fun deeds => deeds = [])
      (cleaner.expireStaging path destination cutoff) (fun _ => Finished) (fun _ => True) := by
  unfold Cleaner.expireStaging
  apply does_check_first
  intro _ identity
  apply does_check_first
  intro _ deletion
  have admitted : (cleaner.stagingPlan path destination cutoff).Admitted :=
    { identity := checkIdentity_ok identity
      deletion := checkDeletion_ok deletion
      source := fun impossible => CleanupKind.noConfusion impossible }
  apply Faults.Triple.bind
  · apply (does_base admitted).starting
    rintro log _ empty deed listed
    rw [empty] at listed
    cases listed
  · intro device
    apply Faults.Triple.bind (does_takeManifest admitted)
    intro present
    apply Faults.Triple.provided
    · intro _
      apply Faults.Triple.bind Faults.Triple.look
      intro recorded
      apply (does_removeOld admitted recorded).starting
      exact fun _ _ holds => ⟨holds.1.1, holds.2⟩
    · exact fun none _ _ holds => holds.1.finished (holds.2 none)

/-- The same for `expire_staging`, which does nothing at all when anything staged
is recent. -/
theorem expired_staging_lawful (cleaner : Cleaner) (path destination : RelativePath) (cutoff : Nat)
    (tree : Folder) (events : List (Faults.Event Folder CleanupError)) :
    let run := cleaner.expireStaging path destination cutoff events ⟨tree, []⟩
    (forall log, log ∈ run.visited ∨ log = run.world ->
      (cleaner.stagingPlan path destination cutoff).Lawful tree log ∧
        (cleaner.stagingPlan path destination cutoff).Confined tree log) ∧
    (run.ending = .returned () ->
      removalsOf run.world.deeds = (manifestOf run.world.deeds).reverse) := by
  intro run
  have sound : Faults.Sound ((cleaner.stagingPlan path destination cutoff).Lawful tree) run
      (fun _ log => Finished log.deeds) (fun _ => True) :=
    does_expireStaging events ⟨tree, []⟩ ⟨rfl, Or.inl rfl, Logs.justified_nil⟩ rfl
  refine ⟨?_, sound.returned ()⟩
  intro log reached
  exact ⟨sound.reached reached, (sound.reached reached).confined⟩

end Staging

end TealDrive
