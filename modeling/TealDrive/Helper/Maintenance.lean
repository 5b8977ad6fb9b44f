import TealDrive.Accounts.Cleanup
import TealDrive.Helper.Observation
import TealDrive.Helper.Trash
import TealDrive.Library.Faults
import TealDrive.Library.Logs

namespace TealDrive

open Outcome

/-!
# Cleaning up on disk

What was staged and never finished, and what has been in the trash for too long,
is removed by a worker with the identity of its owner.  The worker first takes
down a manifest of everything it means to remove, compares it with what it
expects, and then removes the entries of the manifest one by one from the last
to the first.

The owner may work in the same tree all the while.  What happens is a log: the
trees that others leave behind, and what the worker does.  The tree is what the
log makes of the tree at the beginning.  `read_dir` is an argument, because the
directory it reads is found by its path and need not be the one that was opened.

The owner acts between the steps of the worker, not within one.  Four things are
one step here that the source does in several calls: opening an entry and reading
its metadata, opening a directory and removing an entry of it, the same for the
record of an item, and the whole observation of the item that `capture` makes.
In particular nobody moves a directory between its opening and the `unlinkat`.
-/

/-- One entry of a manifest. -/
structure ManifestNode where
  path : RelativePath
  state : FileState
deriving DecidableEq

/-- What others do, and what the worker does. -/
inductive Deed where
  | others (tree : Folder)
  | based (device : Text)
  | recorded (node : ManifestNode)
  | compared (state : FileState)
  | checked (node : ManifestNode)
  | removed (node : ManifestNode) (parent : List FileName) (name : FileName)
  | forgotten (parent : List FileName) (name : FileName)

inductive CleanupError where
  | io (error : IoError)
  | store (error : StoreError)
deriving DecidableEq

namespace Folder

/-- The tree without one entry. -/
def without (tree : Folder) (parent : List FileName) (name : FileName) : Folder :=
  tree.remove (parent.map .text) (.text name)

/-- What a deed makes of the tree. -/
def after (tree : Folder) : Deed -> Folder
  | .others other => other
  | .removed _ parent name => tree.without parent name
  | .forgotten parent name => tree.without parent name
  | _ => tree

/-- The entry that `unlinkat` removes below a directory at a path. -/
def unlinkAt (tree : Folder) (parent : List Text) (name : Text) (directory : Bool) :
    Except IoError (List FileName × FileName) := do
  let parent ← okOr (parent.mapM FileName.of) .ENOENT
  let name ← okOr (FileName.of name) .EINVAL
  match tree.lookup ((parent ++ [name]).map .text), directory with
  | none, _ => .error .ENOENT
  | some (.branch _ []), true => return (parent, name)
  | some (.branch _ (_ :: _)), true => .error (.os 39)
  | some (.leaf _), true => .error .ENOTDIR
  | some (.branch _ _), false => .error .EISDIR
  | some (.leaf _), false => return (parent, name)

end Folder

def Deed.node? : Deed -> Option ManifestNode
  | .recorded node => some node
  | _ => none

def Deed.gone? : Deed -> Option ManifestNode
  | .removed node _ _ => some node
  | _ => none

/-- The nodes recorded by some deeds, the oldest first. -/
def manifestOf (deeds : List Deed) : List ManifestNode := deeds.filterMap Deed.node?

/-- The nodes removed by some deeds. -/
def removalsOf (deeds : List Deed) : List ManifestNode := deeds.filterMap Deed.gone?

/-- The tree at the beginning, and what has happened. -/
structure CleanupLog where
  start : Folder
  deeds : List Deed

namespace CleanupLog

def tree (log : CleanupLog) : Folder := Runs.run Folder.after log.start log.deeds

def add (log : CleanupLog) (deeds : List Deed) : CleanupLog :=
  { log with deeds := log.deeds ++ deeds }

def disturb (log : CleanupLog) (tree : Folder) : CleanupLog := log.add [.others tree]

end CleanupLog

/-- A part of the work. -/
abbrev Cleanup (Value : Type) : Type := Faults.Program CleanupLog Folder CleanupError Value

/-- One call: what it answers, and the deeds it leaves behind. -/
def act {Value : Type} (action : CleanupLog -> Except CleanupError (Value × List Deed)) :
    Cleanup Value :=
  Faults.perform CleanupLog.disturb id (fun log =>
    match action log with
    | .ok (value, deeds) => .ok (value, log.add deeds)
    | .error error => .error error)

/-- Who cleans up, on whose behalf and what is known of the operation. -/
structure Cleaner where
  config : AppConfig
  actor : Account
  root : AllowedRoot
  operation : OperationRecord
  /-- The real and the effective user of the process. -/
  uid : Nat
  euid : Nat
  /-- The number drawn for the request. -/
  requestId : Nat
  uuids : UuidFormat
  format : JournalFormat
  sha256 : List UInt8 -> Text
  /-- The calls that fail while a tree is observed. -/
  faults : RelativePath -> Probe -> Option IoError
  /-- What `read_dir` finds. -/
  readDir : RelativePath -> Folder -> Except IoError (List EntryName)

namespace Cleaner

/-- The permanent deletion of a path. -/
def request (cleaner : Cleaner) (path : RelativePath) : HelperRequest where
  requestId := cleaner.requestId
  username := cleaner.actor.username
  uid := cleaner.actor.uid
  gid := cleaner.actor.gid
  command := .deletePermanently
  rootId := cleaner.root.rootId
  relativePath := path
  targetRelativePath := none
  limits :=
    { maxDirectoryPageSize := cleaner.config.limits.maxDirectoryPageSize
      maxTextEditSize := cleaner.config.limits.maxTextEditSize
      maxChunkSize := cleaner.config.limits.maxChunkSize
      maxDownloadHelperBytes := cleaner.config.limits.maxChunkSize }
  writeOptions := none
  chmodMode := none
  archiveSourcePaths := none

/-- The context of that deletion, with a private path in its place. -/
def context (cleaner : Cleaner) (path destination : RelativePath) : Context :=
  ⟨cleaner.config, cleaner.request destination, [(path, destination)]⟩

/-- The process is the account and nobody else. -/
def checkIdentity (cleaner : Cleaner) : Except CleanupError Unit :=
  refuse (cleaner.euid == 0 || cleaner.uid != cleaner.actor.uid) (.store .forbidden)

/-- The deletion of a path by its owner is allowed. -/
def checkDeletion (cleaner : Cleaner) (path : RelativePath) : Except CleanupError Unit :=
  mapError (fun _ => CleanupError.store .forbidden)
    (HelperPolicy.authorize cleaner.uuids [] (cleaner.request path) cleaner.config)

/-- `sandbox::open` and `fstat`, as one step. -/
def stateAt (cleaner : Cleaner) (context : Context) (tree : Folder) (path : RelativePath) :
    Except CleanupError FileState := do
  let item ← mapError CleanupError.io (openInode (some context) none tree path .path)
  return (FileState.metadata item).finish cleaner.sha256

/-! ## The manifest -/

/-- The nodes that a manifest may have. -/
def maxManifestNodes : Nat := 10000

/-- The depth up to which a manifest goes. -/
def maxManifestDepth : Nat := 64

/-- `manifest` of one path: whether there is a directory. -/
def record (cleaner : Cleaner) (context : Context) (device : Text) (path : RelativePath)
    (log : CleanupLog) : Except CleanupError (Bool × List Deed) := do
  refuse (decide (maxManifestNodes ≤ (manifestOf log.deeds).length)) (.io .other)
  let state ← cleaner.stateAt context log.tree path
  refuse (state.uid != cleaner.actor.uid || state.device != device || state.kind == .other)
    (.io .permissionDenied)
  return (state.kind == .directory, [.recorded ⟨path, state⟩])

/-- `read_dir`. -/
def entries (cleaner : Cleaner) (path : RelativePath) (log : CleanupLog) :
    Except CleanupError (List EntryName × List Deed) := do
  let names ← mapError CleanupError.io (cleaner.readDir path log.tree)
  return (names, [])

/-- The loop over `read_dir`. -/
def recordEntries (inner : RelativePath -> Cleanup Unit) (path : RelativePath) :
    List EntryName -> Cleanup Unit
  | [] => pure ()
  | entry :: rest => do
      act (fun _ => .ok ((), []))
      match entry with
      | .raw _ => Faults.ofExcept (.error (.io .other))
      | .text name => do
          inner ⟨path.value ++ '/' :: name.1⟩
          recordEntries inner path rest

/-- `manifest`.  The first argument is how many levels are left. -/
def manifest (cleaner : Cleaner) (context : Context) (device : Text) :
    Nat -> RelativePath -> Cleanup Unit
  | 0, _ => Faults.ofExcept (.error (.io .other))
  | levels + 1, path => do
      let directory ← act (cleaner.record context device path)
      Faults.provided directory (do
        let names ← act (cleaner.entries path)
        recordEntries (cleaner.manifest context device levels) path names)

/-! ## Removing -/

/-- What is at a path is still what was recorded. -/
def unchanged (current recorded : FileState) : Bool :=
  if recorded.kind = .directory then
    current.sameInode recorded && current.uid == recorded.uid && current.gid == recorded.gid &&
      current.mode == recorded.mode
  else current.sameMetadata recorded

def check (cleaner : Cleaner) (context : Context) (node : ManifestNode) (log : CleanupLog) :
    Except CleanupError (Unit × List Deed) := do
  let current ← cleaner.stateAt context log.tree node.path
  refuse (!unchanged current node.state) (.io .other)
  return ((), [.checked node])

/-- The parent and the name of a path as it is written. -/
def splitPath (path : RelativePath) : RelativePath × Text :=
  match Segments.rsplitOnce '/' path.value with
  | some (parent, name) => (⟨parent⟩, name)
  | none => (⟨[]⟩, path.value)

/-- Open the parent and remove an entry of it, as one step.  The items of the trash
share a parent that stands for the parent of the item. -/
def unlink (context : Context) (logicalParent : RelativePath) (node : ManifestNode)
    (log : CleanupLog) : Except CleanupError (Unit × List Deed) := do
  let (parent, name) := splitPath node.path
  refuse (name == []) (.io .other)
  let context := if parent = trashFilesPath then context.withAlias parent logicalParent else context
  let _ ← mapError CleanupError.io (openInode (some context) none log.tree parent .directory)
  let (parent, name) ← mapError CleanupError.io
    (log.tree.unlinkAt (segmentNames parent.value) name (node.state.kind == .directory))
  return ((), [.removed node parent name])

/-- `remove_nodes`, of nodes that are already in the order of removal. -/
def removeNodes (cleaner : Cleaner) (context : Context) (logicalParent : RelativePath) :
    List ManifestNode -> Cleanup Unit
  | [] => pure ()
  | node :: rest => do
      act (cleaner.check context node)
      act (unlink context logicalParent node)
      cleaner.removeNodes context logicalParent rest

/-- The nodes recorded so far. -/
def nodes : Cleanup (List ManifestNode) := Faults.look (fun log => manifestOf log.deeds)

/-- The error says that there is nothing. -/
def absent : CleanupError -> Bool
  | .io error => error.isNotFound
  | .store _ => false

/-- The manifest, unless nothing is there.  The answer is whether there is
anything. -/
def takeManifest (cleaner : Cleaner) (context : Context) (device : Text) (path : RelativePath) :
    Cleanup Bool := do
  let outcome ← Faults.attempt (cleaner.manifest context device (maxManifestDepth + 1) path)
  let recorded ← nodes
  match outcome with
  | .ok () => return true
  | .error error =>
      if absent error && recorded.isEmpty then return false
      else Faults.ofExcept (.error error)

/-! ## `expire_staging` -/

/-- A node that was written after the cutoff. -/
def recent (cutoff : Nat) (node : ManifestNode) : Bool :=
  decide (node.state.mtimeSeconds < 0) || decide (node.state.ctimeSeconds < 0) ||
    decide ((cutoff : Int) < node.state.mtimeSeconds) ||
    decide ((cutoff : Int) < node.state.ctimeSeconds)

/-- The device of the root. -/
def base (log : CleanupLog) : Except CleanupError (Text × List Deed) :=
  .ok ((FileState.metadata log.tree).device, [.based (FileState.metadata log.tree).device])

def expireStaging (cleaner : Cleaner) (path destination : RelativePath) (cutoff : Nat) :
    Cleanup Unit := do
  Faults.ofExcept cleaner.checkIdentity
  Faults.ofExcept (cleaner.checkDeletion destination)
  let device ← act base
  let context := cleaner.context path destination
  let present ← cleaner.takeManifest context device path
  Faults.provided present (do
    let recorded ← nodes
    Faults.ofExcept (refuse (recorded.any (recent cutoff)) (.store .conflict))
    cleaner.removeNodes context ⟨rawParent destination⟩ recorded.reverse)

/-! ## `expire_trash` -/

/-- The account may find, read and delete the path that the item had. -/
def checkSource (cleaner : Cleaner) : Except CleanupError Unit :=
  [Access.discover, .read, .delete].forM (fun access =>
    mapError (fun _ => CleanupError.store .forbidden)
      (cleaner.config.accessPolicy.check cleaner.actor.username cleaner.root.rootId
        cleaner.operation.sourcePath access))

/-- What `capture` sees in a tree. -/
def observer (cleaner : Cleaner) (context : Context) (tree : Folder) : Observer :=
  ⟨tree, some context, cleaner.sha256, cleaner.faults⟩

/-- The item is still what was moved to the trash.  `capture` is one step. -/
def compare (cleaner : Cleaner) (context : Context) (path : RelativePath) (expected : FileState)
    (log : CleanupLog) : Except CleanupError (Unit × List Deed) := do
  let current ← mapError CleanupError.io ((cleaner.observer context log.tree).capture path)
  refuse (current != expected || (current.kind != .file && !current.fullyObserved))
    (.store .conflict)
  return ((), [.compared current])

/-- `.tealdrive-trash/info`, as a path of requests. -/
def trashInfoPath : RelativePath := ⟨".tealdrive-trash/info".toList⟩

/-- Open the directory of the records and remove the record of an item, as one step.
The record may be gone already. -/
def forget (context : Context) (id : Text) (log : CleanupLog) :
    Except CleanupError (Unit × List Deed) := do
  let _ ← mapError CleanupError.io
    (openInode (some context) none log.tree trashInfoPath .directory)
  match log.tree.unlinkAt trashInfoDir (infoName id) false with
  | .ok (parent, name) => return ((), [.forgotten parent name])
  | .error error => if error.isNotFound then return ((), []) else .error (.io error)

/-- Remove what is in the trash and was compared with what is expected there. -/
def removeItem (cleaner : Cleaner) (context : Context) (path : RelativePath)
    (expected : FileState) : Cleanup Unit := do
  act (cleaner.compare context path expected)
  let recorded ← nodes
  cleaner.removeNodes context ⟨rawParent cleaner.operation.sourcePath⟩ recorded.reverse

def expireTrash (cleaner : Cleaner) (path : RelativePath) : Cleanup Unit := do
  Faults.ofExcept cleaner.checkIdentity
  let expected ← Faults.ofExcept (okOr cleaner.operation.after (.store .invalidInput))
  Faults.ofExcept cleaner.checkSource
  Faults.ofExcept (cleaner.checkDeletion cleaner.operation.sourcePath)
  let context := cleaner.context path cleaner.operation.sourcePath
  let present ← cleaner.takeManifest context expected.device path
  Faults.provided present (cleaner.removeItem context path expected)
  let id := Segments.lastSegment '/' path.value
  let _ ← Faults.ofExcept (okOr (cleaner.format.parseId id) (.store .invalidInput))
  act (forget (context.withAlias trashInfoPath ⟨rawParent cleaner.operation.sourcePath⟩) id)

end Cleaner

end TealDrive
