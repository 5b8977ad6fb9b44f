import TealDrive.Accounts.Schema
import TealDrive.Library.Tree
import TealDrive.Policy.Spelling

namespace TealDrive

open Outcome

/-!
# The tree below a root, and the calls the helper makes on it

A root is a directory tree.  Its leaves are regular files with what `stat`
reports about them, symbolic links and everything else; a directory carries
its permission bits.  `walk` is `openat2` as the sandbox calls it: beneath the
root and through no link.

Which calls fail for reasons outside the tree is an argument.  `Site` names
the calls of one request, and `Calls` says which of them fail and with what
error, together with the identifier, the time and the budget the request meets.
-/

/-- What `stat` reports about a regular file besides its length. -/
structure Stat where
  dev : Nat
  ino : Nat
  mode : Nat
  uid : Nat
  gid : Nat
  nlink : Nat
  mtime : Nat
  mtimeNsec : Nat
  ctime : Nat
  ctimeNsec : Nat
deriving DecidableEq

inductive Leaf where
  | file (stat : Stat) (bytes : List UInt8)
  | symlink (target : Text)
  | special
deriving DecidableEq

/-- A directory tree.  Directories are labelled with their permission bits. -/
abbrev Node := NamedTree Text Leaf Nat

/-- `io::Error`: an error number, or an error made of a kind alone. -/
inductive IoError where
  | os (code : Nat)
  | notFound
  | permissionDenied
  | other
deriving DecidableEq

namespace IoError

def ENOENT : IoError := .os 2
def EACCES : IoError := .os 13
def EEXIST : IoError := .os 17
def ENOTDIR : IoError := .os 20
def EISDIR : IoError := .os 21
def EINVAL : IoError := .os 22
def ENOSPC : IoError := .os 28
def ELOOP : IoError := .os 40

/-- `kind() == NotFound`. -/
def isNotFound (error : IoError) : Bool :=
  error == .notFound || error == .os 2

/-- `kind() == PermissionDenied`. -/
def isPermissionDenied (error : IoError) : Bool :=
  error == .permissionDenied || error == .os 1 || error == .os 13

/-- `ENOSPC` or `EDQUOT`. -/
def isFull (error : IoError) : Bool :=
  error == .os 28 || error == .os 122

end IoError

/-! ## Refusals -/

/-- A failed response: its kind, its message and the reason of the audit record. -/
structure Refusal where
  errorKind : ErrorKind
  safeMessage : String
  reason : String
deriving DecidableEq

namespace Refusal

/-- `HelperResponse::permission_denied`. -/
def permissionDenied (message : String) : Refusal :=
  ⟨.permissionDenied, message, "permission_denied"⟩

/-- `HelperResponse::feature_disabled`. -/
def featureDisabled : Refusal :=
  ⟨.featureDisabled, "Helper command is disabled in TealDrive V1.", "feature_disabled"⟩

/-- `HelperResponse::not_implemented`. -/
def notImplemented : Refusal :=
  ⟨.notImplemented, "Helper command is not implemented yet.", "not_implemented"⟩

def unknownRoot : Refusal :=
  ⟨.invalidPath, "Unknown root id.", "invalid_root_id"⟩

/-- `helper_error_from_tealdrive`. -/
def ofTealDrive : TealDriveError -> Refusal
  | .symlinkDenied | .symlinkEscape => ⟨.policyDenied, "Symlink access denied.", "symlink_denied"⟩
  | .invalidPath | .pathEscapesRoot => ⟨.invalidPath, "Invalid path.", "invalid_path"⟩
  | .invalidTarget => ⟨.invalidTarget, "Invalid target.", "invalid_target"⟩
  | .invalidFilename | .nullByteRejected | .reservedNameRejected =>
      ⟨.validationError, "Invalid filename.", "invalid_filename"⟩
  | .policyDenied => ⟨.policyDenied, "Operation denied by policy.", "policy_denied"⟩
  | .notFound => ⟨.notFound, "Path not found.", "not_found"⟩
  | .traversalRejected => ⟨.policyDenied, "Path traversal rejected.", "path_traversal"⟩
  | _ => ⟨.internalError, "Helper path validation failed.", "path_validation_failed"⟩

/-- `listing::helper_error_from_io`, which looks at error numbers only. -/
def ofIo (error : IoError) : Refusal :=
  if error = .os 13 ∨ error = .os 1 then
    ⟨.permissionDenied, "Permission denied.", "permission_denied"⟩
  else if error = .os 17 then ⟨.alreadyExists, "Target already exists.", "already_exists"⟩
  else if error.isFull then ⟨.diskFull, "Disk is full.", "disk_full"⟩
  else if error = .os 2 then ⟨.notFound, "Path not found.", "not_found"⟩
  else if error = .os 20 then ⟨.invalidPath, "Invalid path.", "not_directory"⟩
  else if error = .os 40 then ⟨.symlinkLoop, "Symlink loop.", "symlink_loop"⟩
  else if error = .os 36 then ⟨.nameTooLong, "Name too long.", "name_too_long"⟩
  else if error = .os 30 then
    ⟨.readOnlyFilesystem, "Read-only filesystem.", "read_only_filesystem"⟩
  else ⟨.internalError, "Filesystem error.", "filesystem_error"⟩

end Refusal

/-! ## Calls -/

/-- The part of a request that looks at a path. -/
inductive Step where
  | preflight
  | resolve
  | entry
  | item
  | source
  | target
deriving DecidableEq

/-- The calls of one request that may fail for reasons outside the tree.  A
write or a removal that fails does so before it changes anything. -/
inductive Site where
  | root
  | cancelled
  | stat (step : Step) (path : List Text)
  | openAt (step : Step) (path : List Text)
  | list (path : List Text)
  | makeDirectory (path : List Text)
  | write (path : List Text)
  | remove (path : List Text)
  | rename
deriving DecidableEq

/-- How the calls of one request turn out. -/
structure Calls where
  faults : Site -> Option IoError
  /-- The operation's identifier, or the UUID drawn in its place. -/
  artifact : Text
  now : Nat
  budget : Option Nat
  /-- What `stat` reports about a file that is created. -/
  created : Stat
  /-- The permission bits of a directory that is created. -/
  directoryMode : Nat
  /-- The length that `stat` reports of a directory. -/
  directorySize : Nat

namespace Calls

def attempt (calls : Calls) (site : Site) : Except IoError Unit :=
  match calls.faults site with
  | some error => .error error
  | none => .ok ()

end Calls

/-- `map_err`. -/
def mapError {Error Other Value : Type} (change : Error -> Other) :
    Except Error Value -> Except Other Value
  | .ok value => .ok value
  | .error error => .error (change error)

@[simp] theorem mapError_eq_ok {Error Other Value : Type} {change : Error -> Other}
    {outcome : Except Error Value} {value : Value} :
    mapError change outcome = .ok value ↔ outcome = .ok value := by
  cases outcome <;> simp [mapError]

/-- `openat2` beneath the root and without following any link. -/
def walk : Node -> List Text -> Except IoError Node
  | node, [] => .ok node
  | .leaf (.symlink _), _ :: _ => .error .ELOOP
  | .leaf _, _ :: _ => .error .ENOTDIR
  | .branch _ entries, name :: rest =>
      match Rows.find name entries with
      | some child => walk child rest
      | none => .error .ENOENT

theorem walk_eq_ok {node found : Node} {path : List Text} :
    walk node path = .ok found ↔ node.lookup path = some found := by
  induction path generalizing node with
  | nil => simp [walk]
  | cons name rest ih =>
      cases node with
      | leaf content =>
          cases content <;> simp [walk, NamedTree.lookup]
      | branch label entries =>
          rw [walk, NamedTree.lookup]
          cases Rows.find name entries with
          | none => simp
          | some child => exact ih

/-! ## The context of a request -/

/-- The thread's access context: the policy in force, the request it belongs to
and the aliases of private paths. -/
structure Context where
  config : AppConfig
  request : HelperRequest
  aliases : Aliases

/-- What a file is opened for. -/
inductive OpenMode where
  | path
  | directory
  | read
  | readDirectory
  | write
deriving DecidableEq

def OpenMode.access : OpenMode -> Access
  | .path | .directory => .discover
  | .read | .readDirectory => .read
  | .write => .write

namespace Context

/-- `access::check`. -/
def check (context : Context) (path : RelativePath) (access : Access) :
    Except TealDriveError Unit :=
  context.request.checkPath context.aliases context.config path access

/-- `access::with_alias`. -/
def withAlias (context : Context) (source target : RelativePath) : Context :=
  { context with aliases := context.aliases ++ [(source, target)] }

/-- `access::check_metadata`. -/
def checkMetadata (context : Context) : Node -> Except TealDriveError Unit
  | .leaf (.file stat _) =>
      refuse (decide (stat.nlink > 1) && context.config.accessPolicy.rejectFileHardlinks) .notFound
  | _ => .ok ()

/-- What the kernel refuses about the last component. -/
def checkKind (mode : OpenMode) : Node -> Except IoError Unit
  | .leaf (.symlink _) =>
      match mode with
      | .path => .ok ()
      | .directory => .error .ENOTDIR
      | _ => .error .ELOOP
  | .leaf _ =>
      match mode with
      | .directory | .readDirectory => .error .ENOTDIR
      | _ => .ok ()
  | .branch _ _ =>
      match mode with
      | .write => .error .EISDIR
      | _ => .ok ()

/-- `sandbox::open` of something that exists. -/
def sandboxOpen (context : Context) (calls : Calls) (disk : Node) (step : Step)
    (path : RelativePath) (mode : OpenMode) : Except IoError Node := do
  let path ← mapError (fun _ => IoError.other) (validateRelativePath path)
  mapError (fun error => if error = .notFound then IoError.notFound else .permissionDenied)
    (context.check path mode.access)
  calls.attempt (.openAt step (segmentNames path.value))
  let node ← walk disk (segmentNames path.value)
  checkKind mode node
  mapError (fun _ => IoError.notFound) (context.checkMetadata node)
  return node

/-- `map_path_io_error`. -/
def pathError (error : IoError) : TealDriveError :=
  if error.isNotFound then .notFound else .invalidPath

/-- `resolve_existing_path` without following links.  Its callers have opened
the path in their preflight, so no component on the way is a link. -/
def resolveExistingPath (context : Context) (calls : Calls) (disk : Node) (path : RelativePath) :
    Except TealDriveError (RelativePath × Node) := do
  mapError (fun _ => TealDriveError.invalidRootId) (calls.attempt .root)
  let validated ← validateRelativePath path
  context.check validated .discover
  mapError pathError (calls.attempt (.stat .resolve (segmentNames validated.value)))
  let node ← mapError pathError (walk disk (segmentNames validated.value))
  context.checkMetadata node
  match node with
  | .leaf (.symlink _) => .error .symlinkDenied
  | _ => return (validated, node)

/-- The children of a directory, each with its path. -/
def childPaths (path : RelativePath) : Node -> List RelativePath
  | .leaf _ => []
  | .branch _ entries =>
      entries.map (fun entry =>
        if path.value = [] then ⟨entry.1⟩ else ⟨path.value ++ '/' :: entry.1⟩)

/-- The checks of `preflight_tree_inner` on one path of the tree. -/
def preflightOne (context : Context) (calls : Calls) (disk : Node) (source : RelativePath)
    (action : Access) (target : Option RelativePath) (path : RelativePath) (depth : Nat) :
    Except TealDriveError (List RelativePath) := do
  refuse (decide (depth > 128)) .policyDenied
  context.check path action
  forSome target (fun target => do
    context.check path .read
    let suffix ← okOr (Text.stripPrefix source.value path.value) .invalidPath
    context.check ⟨target.value ++ suffix⟩ .write)
  let node ← mapError (fun error => if error.isNotFound then TealDriveError.notFound
    else .policyDenied) (context.sandboxOpen calls disk .preflight path .path)
  context.checkMetadata node
  whenever node.isBranch
    (mapError (fun _ => TealDriveError.policyDenied)
      (calls.attempt (.list (segmentNames path.value))))
  return childPaths path node

/-- The loop of `preflight_tree_inner`.  The first argument is how many more
paths it may visit. -/
def preflightLoop (context : Context) (calls : Calls) (disk : Node) (source : RelativePath)
    (action : Access) (target : Option RelativePath) :
    Nat -> List (RelativePath × Nat) -> Except TealDriveError Unit
  | _, [] => .ok ()
  | left, (path, depth) :: rest => do
      mapError (fun _ => TealDriveError.permissionDenied) (calls.attempt .cancelled)
      match left with
      | 0 => .error .policyDenied
      | left + 1 => do
          let children ← context.preflightOne calls disk source action target path depth
          context.preflightLoop calls disk source action target left
            (children.reverse.map (fun child => (child, depth + 1)) ++ rest)

def preflightTree (context : Context) (calls : Calls) (disk : Node) (source : RelativePath)
    (action : Access) (target : Option RelativePath) : Except TealDriveError Unit :=
  context.preflightLoop calls disk source action target 100000 [(source, 0)]

/-- `access::preflight`. -/
def preflight (context : Context) (calls : Calls) (disk : Node) : Except TealDriveError Unit :=
  let request := context.request
  let target := request.targetRelativePath.map request.destination
  match request.command with
  | .rename | .move =>
      context.preflightTree calls disk request.relativePath (operationAccess request.command) target
  | .moveToTrash | .deletePermanently =>
      context.preflightTree calls disk request.relativePath (operationAccess request.command) none
  | _ => .ok ()

/-! ## `transaction::rename` -/

/-- The parent and the name of a path. -/
def split (path : RelativePath) : Except IoError (RelativePath × Text) := do
  let clean ← mapError (fun _ => IoError.other) (validateRelativePath path)
  match Segments.rsplitOnce '/' clean.value with
  | some (parent, name) => return (⟨parent⟩, name)
  | none => if clean.value = [] then .error .other else return (⟨[]⟩, clean.value)

/-- What `renameat2` lets the moved entry replace. -/
def replaceable : Node -> Node -> Except IoError Unit
  | .leaf _, .leaf _ => .ok ()
  | .leaf _, .branch _ _ => .error .EISDIR
  | .branch _ _, .leaf _ => .error .ENOTDIR
  | .branch _ _, .branch _ entries => if entries.isEmpty then .ok () else .error .EEXIST

/-- `renameat2` between two directories of the tree. -/
def renameAt (disk : Node) (source : List Text) (name : Text) (target : List Text) (newName : Text)
    (replace : Bool) : Except IoError Node :=
  match disk.lookup (source ++ [name]) with
  | none => .error .ENOENT
  | some item =>
      if source ++ [name] <+: target then .error .EINVAL
      else
        match disk.lookup (target ++ [newName]) with
        | none => .ok ((disk.remove source name).place target newName item)
        | some existing =>
            if replace then
              match replaceable item existing with
              | .error error => .error error
              | .ok () => .ok ((disk.remove source name).place target newName item)
            else .error .EEXIST

def rename (context : Context) (calls : Calls) (disk : Node) (source target : RelativePath)
    (replace : Bool) : Except IoError Node := do
  let (sourceParent, sourceName) ← split source
  let (targetParent, targetName) ← split target
  let _ ← context.sandboxOpen calls disk .source sourceParent .directory
  let _ ← context.sandboxOpen calls disk .target targetParent .directory
  calls.attempt .rename
  renameAt disk (segmentNames sourceParent.value) sourceName (segmentNames targetParent.value)
    targetName replace

end Context

end TealDrive
