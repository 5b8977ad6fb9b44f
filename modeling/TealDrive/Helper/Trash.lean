import TealDrive.Helper.Disk

namespace TealDrive

open Outcome

/-!
# The trash of a root

What is moved to the trash is renamed to `.tealdrive-trash/files/<id>`, and a
file `.tealdrive-trash/info/<id>.msgpack` says where it came from and whose it
is.  Both live in the tree of the root.  The general file commands never see
them, because the path policy refuses every path with that component; restoring
and deleting reach an item through an alias to its original path.

Metadata is written and read by `rmp_serde`, of which all that is used is that
what was written reads back.  A link in place of one of the trash directories
is taken for a failure, since a root that starts without trash never has one.
-/

/-! ## Metadata -/

structure TrashEntry where
  trashId : Text
  originalRootId : RootId
  originalRelativePath : RelativePath
  trashRelativePath : RelativePath
  displayName : Text
  deletedAt : Nat
  username : Text
  uid : Nat
deriving DecidableEq

/-- `rmp_serde` on entries. -/
structure TrashCodec where
  encode : TrashEntry -> Option (List UInt8)
  decode : List UInt8 -> Option TrashEntry
  reads_back : forall entry bytes, encode entry = some bytes -> decode bytes = some entry

structure HelperTrashEntry where
  trashId : Text
  displayName : Text
  deletedAt : Nat
  originalRelativePath : RelativePath
  originalRootId : RootId

structure TrashItemEntry where
  trashId : Text
  displayName : Text
  originalPath : RelativePath
  originalRootId : RootId
  deletedAt : Nat
  size : Nat

/-- What a successful response carries. -/
inductive TrashPayload where
  | trashEntry (entry : HelperTrashEntry)
  | operationDone (message : String)
  | trashList (rootId : RootId) (items : List TrashItemEntry)

/-! ## Names -/

/-- `TRASH_DIR_NAME`. -/
def trashDirName : Text := ".tealdrive-trash".toList

def trashFilesDir : List Text := [trashDirName, "files".toList]

def trashInfoDir : List Text := [trashDirName, "info".toList]

def infoName (id : Text) : Text := id ++ ".msgpack".toList

/-- `.tealdrive-trash/files`, as a path of requests. -/
def trashFilesPath : RelativePath := ⟨".tealdrive-trash/files".toList⟩

def trashItemPath (id : Text) : RelativePath := ⟨trashFiles ++ id⟩

/-- `helper_error_from_trash_io`. -/
def Refusal.ofTrashIo (error : IoError) : Refusal :=
  if error.isNotFound then ⟨.notFound, "Source not found.", "not_found"⟩
  else if error.isPermissionDenied then
    ⟨.permissionDenied, "Permission denied.", "permission_denied"⟩
  else if error = .EEXIST then ⟨.alreadyExists, "Target already exists.", "already_exists"⟩
  else if error.isFull then ⟨.diskFull, "Disk is full.", "disk_full"⟩
  else ⟨.internalError, "Filesystem error.", "filesystem_error"⟩

/-! ## Changing the tree -/

/-- `mkdir` of one directory, unless it is there. -/
def makeDirectory (calls : Calls) (disk : Node) (parent : List Text) (name : Text) :
    Node × Except IoError Unit :=
  match disk.lookup (parent ++ [name]) with
  | some (.branch _ _) => (disk, .ok ())
  | some (.leaf _) => (disk, .error .EEXIST)
  | none =>
      match calls.attempt (.makeDirectory (parent ++ [name])) with
      | .error error => (disk, .error error)
      | .ok () => (disk.place parent name (.branch calls.directoryMode []), .ok ())

/-- `fs::create_dir_all` below a directory. -/
def createDirAll (calls : Calls) (disk : Node) (parent : List Text) :
    List Text -> Node × Except IoError Unit
  | [] => (disk, .ok ())
  | name :: rest =>
      match makeDirectory calls disk parent name with
      | (made, .ok ()) => createDirAll calls made (parent ++ [name]) rest
      | (made, .error error) => (made, .error error)

/-- `fs::write` of a name that is new or a regular file. -/
def writeFile (calls : Calls) (disk : Node) (parent : List Text) (name : Text)
    (bytes : List UInt8) : Except IoError Node := do
  calls.attempt (.write (parent ++ [name]))
  match disk.lookup (parent ++ [name]) with
  | some (.branch _ _) => .error .EISDIR
  | some (.leaf (.file stat _)) => .ok (disk.place parent name (.leaf (.file stat bytes)))
  | some (.leaf _) => .error .ELOOP
  | none => .ok (disk.place parent name (.leaf (.file calls.created bytes)))

namespace Context

variable (uuids : UuidFormat) (codec : TrashCodec)

def root? (context : Context) : Option AllowedRoot :=
  context.config.roots.find? (fun root => root.rootId == context.request.rootId)

/-! ## Reading metadata -/

/-- The size up to which metadata is read. -/
def maxEntryBytes : Nat := 65536

def readEntry (context : Context) (calls : Calls) (disk : Node) (id : Text) :
    Except TealDriveError TrashEntry := do
  refuse (!uuids.canonical id) .notFound
  let _ ← mapError (fun _ => TealDriveError.notFound)
    (context.sandboxOpen calls disk .entry ⟨[]⟩ .directory)
  mapError (fun _ => TealDriveError.notFound)
    (calls.attempt (.openAt .entry (trashInfoDir ++ [infoName id])))
  let node ← mapError (fun _ => TealDriveError.notFound) (walk disk (trashInfoDir ++ [infoName id]))
  match node with
  | .leaf (.file _ bytes) => do
      refuse (decide (maxEntryBytes < bytes.length)) .notFound
      okOr (codec.decode bytes) .notFound
  | _ => .error .notFound

def policyOriginalPath (context : Context) (calls : Calls) (disk : Node) :
    Except TealDriveError RelativePath := do
  let id ← okOr (internalTrashId uuids context.request.relativePath) .notFound
  let entry ← context.readEntry uuids codec calls disk id
  refuse (entry.uid != context.request.uid || entry.trashId != id ||
    entry.originalRootId != context.request.rootId) .notFound
  let original ← validateRelativePath entry.originalRelativePath
  refuse (original.value == []) .notFound
  return original

/-! ## `MoveToTrash` -/

/-- The metadata of an item that is moved. -/
def newEntry (context : Context) (calls : Calls) (root : AllowedRoot) (path : RelativePath) :
    TrashEntry where
  trashId := calls.artifact
  originalRootId := root.rootId
  originalRelativePath := path
  trashRelativePath := ⟨"files/".toList ++ calls.artifact⟩
  displayName := (fileName path.value).getD path.value
  deletedAt := calls.now
  username := context.request.username
  uid := context.request.uid

/-- Write the metadata, then move the item. -/
def storeItem (context : Context) (calls : Calls) (disk : Node) (root : AllowedRoot)
    (path : RelativePath) : Node × Except Refusal TrashPayload :=
  let entry := context.newEntry calls root path
  match codec.encode entry with
  | none => (disk, .error ⟨.internalError, "Failed to serialize trash metadata.",
      "serialize_failed"⟩)
  | some bytes =>
      if calls.budget.any (fun remaining => decide (remaining < bytes.length)) then
        (disk, .error ⟨.diskFull, "Quota cannot accommodate trash metadata.", "quota_exceeded"⟩)
      else
        match writeFile calls disk trashInfoDir (infoName calls.artifact) bytes with
        | .error _ => (disk, .error ⟨.internalError, "Failed to write trash metadata.",
            "write_info_failed"⟩)
        | .ok written =>
            match (context.withAlias trashFilesPath ⟨rawParent path⟩).rename calls written path
                (trashItemPath calls.artifact) false with
            | .error error => (written.remove trashInfoDir (infoName calls.artifact),
                .error (.ofTrashIo error))
            | .ok moved => (moved, .ok (.trashEntry ⟨entry.trashId, entry.displayName,
                entry.deletedAt, entry.originalRelativePath, entry.originalRootId⟩))

def moveFileToTrash (context : Context) (calls : Calls) (disk : Node) :
    Node × Except Refusal TrashPayload :=
  if context.request.command ≠ .moveToTrash then (disk, .error .notImplemented)
  else if context.request.uid = 0 then
    (disk, .error (.permissionDenied "Helper refuses uid 0."))
  else
    match context.root? with
    | none => (disk, .error .unknownRoot)
    | some root =>
        match context.resolveExistingPath calls disk context.request.relativePath with
        | .error error => (disk, .error (.ofTealDrive error))
        | .ok (path, _) =>
            if [trashDirName].isPrefixOf (segmentNames path.value) then
              (disk, .error ⟨.invalidTarget, "Cannot move trash directory contents.",
                "trash_path_denied"⟩)
            else
              match createDirAll calls disk [] trashFilesDir with
              | (made, .error _) => (made, .error ⟨.internalError,
                  "Failed to create trash directory.", "create_trash_dir_failed"⟩)
              | (made, .ok ()) =>
                  match createDirAll calls made [] trashInfoDir with
                  | (made, .error _) => (made, .error ⟨.internalError,
                      "Failed to create trash info directory.", "create_info_dir_failed"⟩)
                  | (made, .ok ()) => context.storeItem codec calls made root path

/-! ## `RestoreFromTrash` -/

/-- The checks up to the rename: the item's identifier and its original path. -/
def restorable (context : Context) (calls : Calls) (disk : Node) :
    Except Refusal (Text × RelativePath) := do
  let id ← mapError (fun _ => Refusal.mk .validationError "Invalid trash id." "invalid_trash_id")
    (parseSafeFileName context.request.relativePath.value)
  mapError (fun _ => Refusal.mk .invalidPath "Cannot access root." "root_canonicalize_failed")
    (calls.attempt .root)
  let entry ← mapError Refusal.ofTealDrive (context.readEntry uuids codec calls disk id)
  refuse (entry.trashId != id) ⟨.notFound, "Trash entry not found.", "not_found"⟩
  refuse (entry.uid != context.request.uid && context.request.uid != 0)
    ⟨.permissionDenied, "Cannot restore trash belonging to another user.", "permission_denied"⟩
  refuse (!(calls.attempt (.stat .item (trashFilesDir ++ [id]))).isOk ||
    (disk.lookup (trashFilesDir ++ [id])).isNone)
    ⟨.notFound, "Trash file not found.", "trash_file_missing"⟩
  let _ ← okOr (context.config.roots.find? (fun root => root.rootId == entry.originalRootId))
    ⟨.invalidPath, "Original root not found.", "original_root_missing"⟩
  let original ← mapError (fun _ => Refusal.mk .notFound "Trash entry not found." "not_found")
    (validateRelativePath entry.originalRelativePath)
  refuse (original.value == []) ⟨.notFound, "Trash entry not found.", "not_found"⟩
  refuse (entry.originalRootId != context.request.rootId)
    ⟨.notFound, "Trash entry not found.", "not_found"⟩
  mapError Refusal.ofTealDrive (context.check original .write)
  refuse ((calls.attempt (.stat .target (segmentNames original.value))).isOk &&
    (disk.lookup (segmentNames original.value)).isSome)
    ⟨.alreadyExists, "Original location already exists.", "already_exists"⟩
  mapError Refusal.ofTealDrive ((context.withAlias (trashItemPath id) original).preflightTree calls
    disk (trashItemPath id) .write none)
  return (id, original)

def restoreFileFromTrash (context : Context) (calls : Calls) (disk : Node) :
    Node × Except Refusal TrashPayload :=
  if context.request.command ≠ .restoreFromTrash then (disk, .error .notImplemented)
  else if context.request.uid = 0 then
    (disk, .error (.permissionDenied "Helper refuses uid 0."))
  else
    match context.root? with
    | none => (disk, .error .unknownRoot)
    | some _ =>
        match context.restorable uuids codec calls disk with
        | .error refusal => (disk, .error refusal)
        | .ok (id, original) =>
            match (context.withAlias trashFilesPath ⟨rawParent original⟩).rename calls disk
                (trashItemPath id) original false with
            | .error error => (disk, .error (.ofTrashIo error))
            | .ok restored => (restored.remove trashInfoDir (infoName id),
                .ok (.operationDone "Restored."))

/-! ## `DeletePermanently` -/

/-- The entry in the readable metadata file of the given name. -/
def storedEntry (calls : Calls) (disk : Node) (id : Text) : Option TrashEntry :=
  match calls.attempt (.openAt .item (trashInfoDir ++ [infoName id])) with
  | .error _ => none
  | .ok () =>
      match disk.lookup (trashInfoDir ++ [infoName id]) with
      | some (.leaf (.file _ bytes)) => codec.decode bytes
      | _ => none

/-- The name of an item at a path below the trash's items. -/
def itemName (path : RelativePath) : Option Text :=
  if trashFilesDir.isPrefixOf (segmentNames path.value) then (segmentNames path.value).getLast?
  else none

/-- The checks up to the removal. -/
def deletable (context : Context) (calls : Calls) (disk : Node) (root : AllowedRoot) :
    Except Refusal RelativePath := do
  refuse root.readOnly ⟨.policyDenied, "Root is read-only.", "read_only_root"⟩
  refuse (context.request.relativePath.value == [])
    ⟨.invalidTarget, "Cannot delete root directory.", "invalid_target"⟩
  refuse (detectSensitive context.request.relativePath context.config.sensitivePolicy)
    ⟨.policyDenied, "Target path is sensitive.", "sensitive_path"⟩
  let (path, _) ← mapError Refusal.ofTealDrive
    (context.resolveExistingPath calls disk context.request.relativePath)
  refuse (segmentNames path.value == [trashDirName])
    ⟨.invalidTarget, "Cannot delete trash directory root.", "invalid_target"⟩
  mapError Refusal.ofTrashIo (calls.attempt (.stat .item (segmentNames path.value)))
  refuse ((itemName path).any (fun name => (storedEntry codec calls disk name).any (fun entry =>
    entry.uid != context.request.uid && context.request.uid != 0)))
    ⟨.permissionDenied, "Cannot delete trash belonging to another user.", "permission_denied"⟩
  return path

/-- Remove what a path names.  The root itself cannot be removed. -/
def removePath (disk : Node) (path : RelativePath) : Except IoError Node :=
  match (segmentNames path.value).getLast? with
  | none => .error .EINVAL
  | some name => .ok (disk.remove (segmentNames path.value).dropLast name)

def deletePermanently (context : Context) (calls : Calls) (disk : Node) :
    Node × Except Refusal TrashPayload :=
  if context.request.command ≠ .deletePermanently then (disk, .error .notImplemented)
  else if context.request.uid = 0 then
    (disk, .error (.permissionDenied "Helper refuses uid 0."))
  else
    match context.root? with
    | none => (disk, .error .unknownRoot)
    | some root =>
        match context.deletable codec calls disk root with
        | .error refusal => (disk, .error refusal)
        | .ok path =>
            match calls.attempt (.remove (segmentNames path.value)) with
            | .error error => (disk, .error (.ofTrashIo error))
            | .ok () =>
                match removePath disk path with
                | .error error => (disk, .error (.ofTrashIo error))
                | .ok removed =>
                    match itemName path with
                    | some name => (removed.remove trashInfoDir (infoName name),
                        .ok (.operationDone "Deleted permanently."))
                    | none => (removed, .ok (.operationDone "Deleted permanently."))

/-! ## `ListTrash` -/

/-- `Metadata::len`. -/
def statLength (calls : Calls) : Node -> Nat
  | .leaf (.file _ bytes) => bytes.length
  | .leaf (.symlink target) => target.len
  | .leaf .special => 0
  | .branch _ _ => calls.directorySize

/-- One turn of the loop over the metadata files. -/
def listedItem (context : Context) (calls : Calls) (disk : Node) (name : Text) :
    Option TrashItemEntry :=
  match Text.stripSuffix ".msgpack".toList name with
  | none => none
  | some id =>
      if id = [] then none
      else
        match context.readEntry uuids codec calls disk id with
        | .error _ => none
        | .ok entry =>
            if entry.trashId != id then none
            else if entry.uid != context.request.uid && context.request.uid != 0 then none
            else if entry.originalRootId != context.request.rootId ||
                !(validateRelativePath entry.originalRelativePath).isOk ||
                !(context.check entry.originalRelativePath .discover).isOk ||
                !(parseSafeFileName entry.trashId).isOk then none
            else
              some
                { trashId := entry.trashId
                  displayName := entry.displayName
                  originalPath := entry.originalRelativePath
                  originalRootId := entry.originalRootId
                  deletedAt := entry.deletedAt
                  size := match calls.attempt (.stat .item (trashFilesDir ++ [entry.trashId])) with
                    | .error _ => 0
                    | .ok () =>
                        ((disk.lookup (trashFilesDir ++ [entry.trashId])).map
                          (statLength calls)).getD 0 }

/-- The names in the directory of metadata. -/
def infoNames (calls : Calls) (disk : Node) : List Text :=
  match calls.attempt (.list trashInfoDir) with
  | .error _ => []
  | .ok () =>
      match disk.lookup trashInfoDir with
      | some (.branch _ entries) => entries.map Prod.fst
      | _ => []

/-- Latest first. -/
def laterItem (left right : TrashItemEntry) : Bool := decide (right.deletedAt ≤ left.deletedAt)

def listTrash (context : Context) (calls : Calls) (disk : Node) : Except Refusal TrashPayload :=
  if context.request.uid = 0 then .error (.permissionDenied "Helper refuses uid 0.")
  else
    match context.root? with
    | none => .error .unknownRoot
    | some _ =>
        match calls.attempt .root with
        | .error _ => .ok (.trashList context.request.rootId [])
        | .ok () => .ok (.trashList context.request.rootId
            (((infoNames calls disk).filterMap (context.listedItem uuids codec calls disk)).mergeSort
              laterItem))

/-! ## The request -/

/-- The checks of `handle_helper_operation` before it looks at the command. -/
def admitted (context : Context) (calls : Calls) (disk : Node) : Except Refusal Unit := do
  let request := context.request
  refuse (request.uid == 0) (.permissionDenied "Helper refuses uid 0.")
  mapError Refusal.ofTealDrive
    (HelperAccess.authorize uuids context.aliases request context.config)
  mapError Refusal.ofTealDrive
    (whenever (request.command == .rename || request.command == .move ||
      request.command == .moveToTrash || request.command == .deletePermanently) (do
        let _ ← okOr context.root? .invalidRootId
        context.preflight calls disk))
  mapError (fun _ => Refusal.permissionDenied "Operation denied by helper policy.")
    (HelperPolicy.authorize uuids context.aliases request context.config)
  refuse ((request.command == .writeFile && !context.config.features.saveTextFile) ||
    (request.command == .chmod && !context.config.features.chmodFile) ||
    (request.command == .extractArchive && !context.config.features.extractArchive) ||
    (request.command == .deletePermanently && !context.config.features.deletePermanently))
    .featureDisabled

/-- `handle_helper_operation`.  The commands that are not about the trash are
an argument. -/
def handleHelperOperation (others : Context -> Calls -> Node -> Node × Except Refusal TrashPayload)
    (context : Context) (calls : Calls) (disk : Node) : Node × Except Refusal TrashPayload :=
  match context.admitted uuids calls disk with
  | .error refusal => (disk, .error refusal)
  | .ok () =>
      match context.request.command with
      | .moveToTrash => context.moveFileToTrash codec calls disk
      | .restoreFromTrash => context.restoreFileFromTrash uuids codec calls disk
      | .deletePermanently => context.deletePermanently codec calls disk
      | .listTrash => (disk, context.listTrash uuids codec calls disk)
      | _ => others context calls disk

/-- `handle_helper_request_with_config`: an item of the trash is deleted under
the alias of its original path. -/
def handleHelperRequest (others : Context -> Calls -> Node -> Node × Except Refusal TrashPayload)
    (context : Context) (calls : Calls) (disk : Node) : Node × Except Refusal TrashPayload :=
  if context.request.command = .deletePermanently ∧
      (internalTrashId uuids context.request.relativePath).isSome = true then
    match context.root? with
    | none => (disk, .error (.permissionDenied "Unknown root."))
    | some _ =>
        match context.policyOriginalPath uuids codec calls disk with
        | .error error => (disk, .error (.ofTealDrive error))
        | .ok original => handleHelperOperation uuids codec others
            (context.withAlias context.request.relativePath original) calls disk
  else handleHelperOperation uuids codec others context calls disk

end Context

end TealDrive
