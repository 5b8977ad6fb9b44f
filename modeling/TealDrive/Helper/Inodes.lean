import TealDrive.Accounts.RecordJson
import TealDrive.Helper.Disk
import TealDrive.Library.Utf8

namespace TealDrive

open Outcome

/-!
# A tree of inodes

The code that observes a tree and the code that cleans it up know every entry by
its inode: by what `fstat` reports about it.  Here a directory carries its own
inode, and a name need not be a text.

`openInode` is `sandbox::open` on such a tree.  The access context may be absent,
and a refusal from outside the tree is an argument.
-/

/-- What `fstat` reports. -/
structure Inode where
  dev : Nat
  ino : Nat
  mode : Nat
  uid : Nat
  gid : Nat
  size : Nat
  nlink : Nat
  mtime : Int
  mtimeNsec : Int
  ctime : Int
  ctimeNsec : Int
deriving DecidableEq

/-- What the kernel asks of the name of an entry. -/
def ProperName (name : Text) : Prop :=
  dullSegment name = false ∧ '/' ∉ name ∧ '\x00' ∉ name ∧ name ≠ "..".toList

instance (name : Text) : Decidable (ProperName name) := inferInstanceAs (Decidable (_ ∧ _))

/-- The name of an entry that is a text. -/
abbrev FileName := { name : Text // ProperName name }

namespace FileName

def of (text : Text) : Option FileName :=
  if proper : ProperName text then some ⟨text, proper⟩ else none

theorem of_val (name : FileName) : of name.1 = some name := dif_pos name.2

theorem of_eq_some {text : Text} {name : FileName} : of text = some name ↔ text = name.1 := by
  constructor
  · intro made
    unfold of at made
    split at made
    · cases made
      rfl
    · cases made
  · intro same
    rw [same, of_val]

end FileName

/-- The name of an entry: a text, or bytes that are no text. -/
inductive EntryName where
  | text (name : FileName)
  | raw (bytes : List UInt8)
deriving DecidableEq

/-- An entry that is no directory. -/
inductive Content where
  | file (inode : Inode) (bytes : List UInt8)
  | symlink (inode : Inode)
  | special (inode : Inode)
deriving DecidableEq

/-- A directory tree whose directories are labelled with their inodes. -/
abbrev Folder := NamedTree EntryName Content Inode

namespace Folder

def inode : Folder -> Inode
  | .leaf (.file inode _) => inode
  | .leaf (.symlink inode) => inode
  | .leaf (.special inode) => inode
  | .branch inode _ => inode

def kind : Folder -> FileKind
  | .leaf (.file _ _) => .file
  | .leaf _ => .other
  | .branch _ _ => .directory

/-- The names that `readdir` returns. -/
def entryNames : Folder -> List EntryName
  | .leaf _ => []
  | .branch _ entries => (entries.map Prod.fst).dedup

/-- `openat2` beneath the root and without following any link. -/
def walk : Folder -> List Text -> Except IoError Folder
  | item, [] => .ok item
  | .leaf (.symlink _), _ :: _ => .error .ELOOP
  | .leaf _, _ :: _ => .error .ENOTDIR
  | .branch _ entries, name :: rest =>
      match (FileName.of name).bind (fun name => Rows.find (.text name) entries) with
      | some child => walk child rest
      | none => .error .ENOENT

theorem walk_append {item found : Folder} {first second : List Text}
    (walked : item.walk first = .ok found) : item.walk (first ++ second) = found.walk second := by
  induction first generalizing item with
  | nil => rw [← Except.ok.inj walked, List.nil_append]
  | cons name rest ih =>
      cases item with
      | leaf content => cases content <;> cases walked
      | branch inode entries =>
          unfold walk at walked
          rw [List.cons_append, walk]
          cases here : (FileName.of name).bind (fun name => Rows.find (.text name) entries) with
          | none =>
              rw [here] at walked
              cases walked
          | some child =>
              rw [here] at walked
              exact ih walked

/-- One step below a directory. -/
theorem walk_name {inode : Inode} {entries : List (EntryName × Folder)} {name : FileName}
    {child : Folder} (walked : walk (.branch inode entries) [name.1] = .ok child) :
    Rows.find (.text name) entries = some child := by
  rw [walk, FileName.of_val, Option.bind_some] at walked
  cases here : Rows.find (EntryName.text name) entries with
  | none =>
      rw [here] at walked
      cases walked
  | some found =>
      rw [here] at walked
      rw [Except.ok.inj walked]

/-- What the kernel refuses about the last component. -/
def checkKind (mode : OpenMode) : Folder -> Except IoError Unit
  | .leaf (.symlink _) =>
      match mode with
      | .path => .ok ()
      | .directory => .error .ENOTDIR
      | _ => .error .ELOOP
  | .leaf _ =>
      match mode with
      | .directory | .readDirectory => .error .ENOTDIR
      | _ => .ok ()
  | .branch _ _ =>
      match mode with
      | .write => .error .EISDIR
      | _ => .ok ()

/-- `access::check_metadata`. -/
def hiddenLink (context : Option Context) : Folder -> Bool
  | .leaf (.file inode _) =>
      decide (inode.nlink > 1) &&
        context.any (fun context => context.config.accessPolicy.rejectFileHardlinks)
  | _ => false

end Folder

/-- `access::check`: without a context everything is allowed. -/
def checkAccess (context : Option Context) (path : RelativePath) (access : Access) :
    Except TealDriveError Unit :=
  forSome context (fun context => context.check path access)

/-- `sandbox::open` of something that exists. -/
def openInode (context : Option Context) (refused : Option IoError) (tree : Folder)
    (path : RelativePath) (mode : OpenMode) : Except IoError Folder := do
  let path ← mapError (fun _ => IoError.other) (validateRelativePath path)
  mapError (fun error => if error = .notFound then IoError.notFound else .permissionDenied)
    (checkAccess context path mode.access)
  forSome refused .error
  let item ← tree.walk (segmentNames path.value)
  item.checkKind mode
  refuse (item.hiddenLink context) .notFound
  return item

/-- What an open that went well says about the tree. -/
structure OpenedInode (context : Option Context) (tree : Folder) (path : RelativePath)
    (mode : OpenMode) (item : Folder) : Prop where
  valid : ValidPath path
  allowed : checkAccess context (canonicalText path) mode.access = .ok ()
  walked : tree.walk (segmentNames path.value) = .ok item
  kind : item.checkKind mode = .ok ()
  linked : item.hiddenLink context = false

theorem openInode_ok {context : Option Context} {refused : Option IoError} {tree item : Folder}
    {path : RelativePath} {mode : OpenMode}
    (opened : openInode context refused tree path mode = .ok item) :
    OpenedInode context tree path mode item ∧ refused = none := by
  unfold openInode at opened
  simp only [bind_eq_ok, pure_eq_ok, mapError_eq_ok, forSome_eq_ok, refuse_eq_ok] at opened
  rcases opened with ⟨clean, validated, _, allowed, _, unrefused, found, walked, _, kind, _, linked,
    rfl⟩
  rcases validateRelativePath_eq_ok_iff.mp validated with ⟨valid, rfl⟩
  rw [segmentNames_canonicalText] at walked
  refine ⟨⟨valid, allowed, walked, kind, linked⟩, ?_⟩
  cases refused with
  | none => rfl
  | some error => cases unrefused error rfl

/-- The path of an entry of the directory at a path. -/
def childPath (path : RelativePath) (name : Text) : RelativePath :=
  if path.value = [] then ⟨name⟩ else ⟨path.value ++ '/' :: name⟩

theorem segmentNames_name (name : FileName) : segmentNames name.1 = [name.1] := by
  unfold segmentNames
  rw [Segments.names_of_separator_not_mem name.2.2.1, if_neg]
  rw [name.2.1]
  exact Bool.false_ne_true

theorem segmentNames_below (path : Text) (name : FileName) :
    segmentNames (path ++ '/' :: name.1) = segmentNames path ++ [name.1] := by
  have alone := segmentNames_name name
  unfold segmentNames at alone ⊢
  rw [Segments.names_append, alone]

theorem segmentNames_childPath (path : RelativePath) (name : FileName) :
    segmentNames (childPath path name.1).value = segmentNames path.value ++ [name.1] := by
  unfold childPath
  split
  · rename_i empty
    rw [empty]
    exact segmentNames_name name
  · exact segmentNames_below path.value name

/-! ## States -/

namespace FileState

/-- `FileState::metadata`.  Of the mode the lowest twelve bits are kept. -/
def metadata (item : Folder) : FileState where
  digest := []
  device := JsonText.natural item.inode.dev
  inode := JsonText.natural item.inode.ino
  kind := item.kind
  mode := item.inode.mode % 2 ^ 12
  uid := item.inode.uid
  gid := item.inode.gid
  size := item.inode.size
  links := item.inode.nlink
  mtimeSeconds := item.inode.mtime
  mtimeNanos := item.inode.mtimeNsec
  ctimeSeconds := item.inode.ctime
  ctimeNanos := item.inode.ctimeNsec
  contentDigest := none
  treeDigest := none

/-- What the digest of a state is taken of. -/
def signed (state : FileState) : List UInt8 := Utf8.encode { state with digest := [] }.json

/-- `FileState::finish`. -/
def finish (sha256 : List UInt8 -> Text) (state : FileState) : FileState :=
  { state with digest := sha256 state.signed }

/-- A state without its digests. -/
def plain (state : FileState) : FileState :=
  { state with digest := [], contentDigest := none, treeDigest := none }

def sameMetadata (state other : FileState) : Bool := state.plain == other.plain

end FileState

end TealDrive
