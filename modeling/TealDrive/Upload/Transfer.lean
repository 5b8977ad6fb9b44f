import TealDrive.Accounts.Journal
import TealDrive.Library.Splice

namespace TealDrive

open Outcome

/-!
# Chunked uploads

A client announces an upload, sends its bytes in order and ends it.  The bytes
wait in a staging file, named after the transfer, until the end request hands
them to the helper.  The functions here are those of `upload::transfer`.  Each
takes the content of the staging file and returns what becomes of it; which
system calls fail, and what the helper answers, are arguments.  The disk
reservation a transfer holds is the subject of the staging budget and left out.

`SHA-256` is a parameter: it maps bytes to the lower-case hexadecimal text the
source prints.
-/

/-- The content of a file. -/
abbrev Bytes := List UInt8

structure UploadBeginRequest where
  retainOnDisconnect : Bool
  rootId : RootId
  relativePath : RelativePath
  filename : Text
  totalSize : Nat
  chunkSize : Nat
  sha256 : Option Text
deriving DecidableEq

def UploadBeginRequest.validate (request : UploadBeginRequest) (limits : Limits) :
    Except TealDriveError Unit :=
  refuse (limits.maxChunkSize < request.chunkSize) .validation

/-- The path of a name inside a directory. -/
def joinName (parent : RelativePath) (filename : Text) : RelativePath :=
  if parent.value.isEmpty then ⟨filename⟩ else ⟨parent.value ++ '/' :: filename⟩

/-- `PolicyEngine::check_operation` for `UploadFile`.  The feature gate knows no
flag for uploads.  After the web root rule the function returns, so the target
is not looked at again. -/
def checkUploadOperation (config : AppConfig) (username : Text) (rootId : RootId)
    (parent target : RelativePath) (filename : Text) (includeHidden : Bool) :
    Except TealDriveError Bool := do
  config.accessPolicy.check username rootId parent .discover
  config.accessPolicy.check username rootId target .discover
  let root ← okOr (config.roots.find? (fun root => root.rootId == rootId)) .invalidRootId
  if root.readOnly then return false
  else if isHiddenRelative parent && !includeHidden then return false
  else return !(root.isWebRoot && deniesWebrootUpload filename config.webrootPolicy)

/-- The checks of `validate_upload` once the root is known. -/
def checkUploadRoot (username : Text) (request : UploadBeginRequest) (config : AppConfig)
    (parent : RelativePath) (filename : Text) (root : AllowedRoot) :
    Except TealDriveError Unit := do
  let target := joinName parent filename
  refuse (root.readOnly || !root.uploadsAllowed) .policyDenied
  refuse (detectSensitive target config.sensitivePolicy) .policyDenied
  refuse (root.isWebRoot && deniesWebrootUpload filename config.webrootPolicy)
    .webrootExecutableDenied
  let _ ← validateRelativePath parent
  let _ ← parseSafeFileName filename
  let allowed ← checkUploadOperation config username request.rootId parent target filename
    root.hiddenFilesAllowed
  refuse (!allowed) .policyDenied
  refuse (root.quotaBytes.any (fun limit => limit < request.totalSize)) .diskFull

/-- `validate_upload`, which touches no file. -/
def validateUpload (username : Text) (request : UploadBeginRequest) (config : AppConfig) :
    Except TealDriveError (RelativePath × Text) := do
  request.validate config.limits
  refuse (config.limits.maxInFlightUpload < request.totalSize) .validation
  let parent ← validateRelativePath request.relativePath
  let filename ← parseSafeFileName request.filename
  let root ← okOr (config.roots.find? (fun root => root.rootId == request.rootId)) .invalidRootId
  checkUploadRoot username request config parent filename root
  return (parent, filename)

/-! ## Begin -/

structure ActiveUpload where
  retainOnDisconnect : Bool
  transferId : Uuid
  rootId : RootId
  parentRelativePath : RelativePath
  filename : Text
  totalSize : Nat
  chunkSize : Nat
  sha256 : Option Text
  bytesReceived : Nat
deriving DecidableEq

/-- How the calls of `upload_begin_request` end: both reservations, the
`create_new` of the staging file, the look at the free space, and the removal
of a file that is not wanted. -/
structure BeginCalls where
  reserve : Except TealDriveError Unit
  creates : Bool
  capacity : Except TealDriveError Unit
  unlinks : Bool

/-- The upload as `upload_begin_request` sets it up. -/
def ActiveUpload.start (request : UploadBeginRequest) (config : AppConfig) (parent : RelativePath)
    (filename : Text) (transferId : Uuid) : ActiveUpload where
  retainOnDisconnect := request.retainOnDisconnect
  transferId := transferId
  rootId := request.rootId
  parentRelativePath := parent
  filename := filename
  totalSize := request.totalSize
  chunkSize := max (min request.chunkSize config.limits.maxChunkSize) 1
  sha256 := request.sha256
  bytesReceived := 0

/-- `remove_file`, whose failure is ignored. -/
def unlink (unlinks : Bool) (file : Option Bytes) : Option Bytes :=
  if unlinks then none else file

def uploadBeginRequest (username : Text) (request : UploadBeginRequest) (config : AppConfig)
    (transferId : Uuid) (calls : BeginCalls) (file : Option Bytes) :
    Except TealDriveError ActiveUpload × Option Bytes :=
  match validateUpload username request config with
  | .error error => (.error error, file)
  | .ok (parent, filename) =>
      match calls.reserve with
      | .error error => (.error error, file)
      | .ok () =>
          if calls.creates && file.isNone then
            match calls.capacity with
            | .error error => (.error error, unlink calls.unlinks (some []))
            | .ok () => (.ok (.start request config parent filename transferId), some [])
          else (.error .internal, file)

/-! ## Chunks -/

structure RawChunk where
  transferId : Uuid
  offset : Nat
  chunkBytes : Bytes
deriving DecidableEq

/-- How the file operations of a chunk end.  One that fails may have stored some
of the bytes. -/
inductive Written where
  | all
  | failed (error : TealDriveError) (stored : Nat)
deriving DecidableEq

/-- `upload_chunk_request`: the number of bytes received so far, the upload and
the staging file afterwards. -/
def uploadChunkRequest (upload : ActiveUpload) (chunk : RawChunk) (config : AppConfig)
    (written : Written) (file : Option Bytes) :
    Except TealDriveError Nat × ActiveUpload × Option Bytes :=
  let next := upload.bytesReceived + chunk.chunkBytes.length
  if chunk.transferId ≠ upload.transferId then (.error .validation, upload, file)
  else if chunk.chunkBytes.length > config.limits.maxChunkSize then
    (.error .payloadTooLarge, upload, file)
  else if chunk.offset ≠ upload.bytesReceived then (.error .validation, upload, file)
  else if next > upload.totalSize then (.error .payloadTooLarge, upload, file)
  else
    match file, written with
    | none, _ => (.error .internal, upload, none)
    | some content, .failed error stored =>
        (.error error, upload,
          some (Splice.overwrite 0 content chunk.offset (chunk.chunkBytes.take stored)))
    | some content, .all =>
        (.ok next, { upload with bytesReceived := next },
          some (Splice.overwrite 0 content chunk.offset chunk.chunkBytes))

/-! ## End -/

structure UploadEndRequest where
  transferId : Uuid
  totalSize : Nat
  sha256 : Option Text
deriving DecidableEq

structure UploadEndResponse where
  transferId : Uuid
  bytesWritten : Nat
  sha256Verified : Option Bool
deriving DecidableEq

/-- `eq_ignore_ascii_case`. -/
def eqIgnoreAsciiCase (left right : Text) : Bool :=
  Text.toAsciiLowercase left == Text.toAsciiLowercase right

/-- How the calls of `upload_end_request` end: opening the staging file and
reading it for the hash, the helper, and the removal of the file. -/
structure EndCalls where
  opens : Bool
  reads : Bool
  helper : Except TealDriveError HelperResponse
  unlinks : Bool

/-- `MAX_DOWNLOAD_HELPER_BYTES`. -/
def maxDownloadHelperBytes : Nat := 768 * 1024

/-- The request for the helper.  The content travels beside it, as an open file
of the given size. -/
def ActiveUpload.commit (upload : ActiveUpload) (username : Text) (uid gid requestId : Nat)
    (config : AppConfig) : HelperRequest where
  requestId := requestId
  username := username
  uid := uid
  gid := gid
  command := .uploadCommit
  rootId := upload.rootId
  relativePath := joinName upload.parentRelativePath upload.filename
  targetRelativePath := none
  limits :=
    { maxDirectoryPageSize := config.limits.maxDirectoryPageSize
      maxTextEditSize := config.limits.maxTextEditSize
      maxChunkSize := config.limits.maxChunkSize
      maxDownloadHelperBytes := maxDownloadHelperBytes }
  writeOptions := some
    { streamSize := some upload.totalSize
      expectedRevision := none
      data := []
      offset := 0
      truncate := true }
  chmodMode := none
  archiveSourcePaths := none

def helperResponseToError (response : HelperResponse) : TealDriveError :=
  match response.errorKind with
  | some .permissionDenied => .permissionDenied
  | some .policyDenied => .policyDenied
  | some .notFound => .notFound
  | some .invalidPath => .invalidPath
  | some .invalidTarget => .invalidTarget
  | some .alreadyExists => .alreadyExists
  | some .diskFull => .diskFull
  | some .validationError => .invalidFilename
  | _ => .helperCommandNotImplemented

section Digest

variable (digest : Bytes -> Text)

/-- The hash the end request has to meet: the one declared at the begin, or
else its own. -/
def expectedHash (upload : ActiveUpload) (request : UploadEndRequest) : Option Text :=
  upload.sha256.or request.sha256

/-- The part of `upload_end_request` before the helper is called: the content to
hand over and whether a hash was verified. -/
def checkStaged (upload : ActiveUpload) (request : UploadEndRequest) (calls : EndCalls)
    (file : Option Bytes) : Except TealDriveError (Bytes × Option Bool) := do
  refuse (request.transferId != upload.transferId) .validation
  refuse (upload.bytesReceived != upload.totalSize || request.totalSize != upload.totalSize)
    .validation
  let content ← okOr (if calls.opens then file else none) .internal
  refuse (content.length != upload.totalSize) .validation
  refuse (upload.sha256.any (fun declared =>
    request.sha256.any (fun given => !eqIgnoreAsciiCase declared given))) .validation
  refuse ((expectedHash upload request).isSome && !calls.reads) .internal
  refuse ((expectedHash upload request).any (fun expected =>
    !eqIgnoreAsciiCase (digest content) expected)) .validation
  return (content, (expectedHash upload request).map (fun _ => true))

/-- What `upload_end_request` makes of the answer of the helper. -/
def concludeUpload (upload : ActiveUpload) (verified : Option Bool)
    (answer : Except TealDriveError HelperResponse) : Except TealDriveError UploadEndResponse := do
  let response ← answer
  refuse (!response.success) (helperResponseToError response)
  refuse (response.bytesWritten != upload.totalSize) .helperMalformedResponse
  return { transferId := upload.transferId
           bytesWritten := upload.bytesReceived
           sha256Verified := verified }

/-- `upload_end_request`: its result and what the helper was given.  The staging
file goes on every path. -/
def uploadEndRequest (username : Text) (uid gid requestId : Nat) (upload : ActiveUpload)
    (request : UploadEndRequest) (config : AppConfig) (calls : EndCalls) (file : Option Bytes) :
    Except TealDriveError UploadEndResponse × Option (HelperRequest × Bytes) :=
  match checkStaged digest upload request calls file with
  | .error error => (.error error, none)
  | .ok (content, verified) =>
      if config.roots.any (fun root => root.rootId == upload.rootId) then
        (concludeUpload upload verified calls.helper,
          some (upload.commit username uid gid requestId config, content))
      else (.error .invalidRootId, none)

/-- What a staged content was checked for. -/
theorem checkStaged_ok {upload : ActiveUpload} {request : UploadEndRequest} {calls : EndCalls}
    {file : Option Bytes} {content : Bytes} {verified : Option Bool}
    (checked : checkStaged digest upload request calls file = .ok (content, verified)) :
    file = some content ∧ content.length = upload.totalSize ∧
      upload.bytesReceived = upload.totalSize ∧
      forall declared, upload.sha256 = some declared ->
        eqIgnoreAsciiCase (digest content) declared = true := by
  unfold checkStaged at checked
  simp only [bind_eq_ok, refuse_eq_ok, okOr_eq_ok, pure_eq_ok] at checked
  rcases checked with ⟨_, _, _, whole, found, read, _, length, _, _, _, _, _, hash, same⟩
  cases same
  refine ⟨?_, ?_, ?_, ?_⟩
  · split at read
    · exact read
    · cases read
  · simpa using length
  · simp at whole
    exact whole.1
  · intro declared set
    simpa [expectedHash, set] using hash

end Digest

end TealDrive
