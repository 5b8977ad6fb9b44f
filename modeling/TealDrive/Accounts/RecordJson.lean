import TealDrive.Library.JsonText
import TealDrive.Accounts.History

namespace TealDrive

open JsonText

/-!
# Records as JSON

A record is stored as one JSON object.  Its identifiers, paths and times never
change, so its length changes with the outcome alone: two states of a file,
four counters, some modes, error codes and statuses.  `started` is the record
without its outcome; a record whose outcome has bounded numbers is at most
1300 bytes longer.
-/

/-! ## The texts -/

def FileKind.text : FileKind -> Text
  | .file => "file".toList
  | .directory => "directory".toList
  | .other => "other".toList

def ErrorKind.text : ErrorKind -> Text
  | .revisionConflict => "RevisionConflict".toList
  | .validationError => "ValidationError".toList
  | .permissionDenied => "PermissionDenied".toList
  | .policyDenied => "PolicyDenied".toList
  | .featureDisabled => "FeatureDisabled".toList
  | .notFound => "NotFound".toList
  | .invalidPath => "InvalidPath".toList
  | .alreadyExists => "AlreadyExists".toList
  | .invalidTarget => "InvalidTarget".toList
  | .crossDeviceMove => "CrossDeviceMove".toList
  | .fileTooLarge => "FileTooLarge".toList
  | .diskFull => "DiskFull".toList
  | .unsupportedBinaryFile => "UnsupportedBinaryFile".toList
  | .invalidTextEncoding => "InvalidTextEncoding".toList
  | .symlinkLoop => "SymlinkLoop".toList
  | .nameTooLong => "NameTooLong".toList
  | .readOnlyFilesystem => "ReadOnlyFilesystem".toList
  | .rateLimited => "RateLimited".toList
  | .protocolError => "ProtocolError".toList
  | .notImplemented => "NotImplemented".toList
  | .internalError => "InternalError".toList

namespace FileState

def members (state : FileState) : List (Text × Text) :=
  [("digest".toList, quoted state.digest),
    ("device".toList, quoted state.device),
    ("inode".toList, quoted state.inode),
    ("kind".toList, quoted state.kind.text),
    ("mode".toList, natural state.mode),
    ("uid".toList, natural state.uid),
    ("gid".toList, natural state.gid),
    ("size".toList, natural state.size),
    ("links".toList, natural state.links),
    ("mtimeSeconds".toList, integer state.mtimeSeconds),
    ("mtimeNanos".toList, integer state.mtimeNanos),
    ("ctimeSeconds".toList, integer state.ctimeSeconds),
    ("ctimeNanos".toList, integer state.ctimeNanos),
    ("contentDigest".toList, optional quoted state.contentDigest),
    ("treeDigest".toList, optional quoted state.treeDigest)]

def json (state : FileState) : Text := object state.members

/-- The names of the members, in their order. -/
def memberNames : List Text :=
  ["digest".toList, "device".toList, "inode".toList, "kind".toList, "mode".toList, "uid".toList,
    "gid".toList, "size".toList, "links".toList, "mtimeSeconds".toList, "mtimeNanos".toList,
    "ctimeSeconds".toList, "ctimeNanos".toList, "contentDigest".toList, "treeDigest".toList]

theorem members_names (state : FileState) : state.members.map Prod.fst = memberNames := rfl

theorem bytes_memberNames :
    (memberNames.map (fun name => bytes (quoted name) + 2)).sum = 167 := by decide

theorem bytes_json_eq (state : FileState) :
    bytes state.json = 168 + ((state.members.map Prod.snd).map bytes).sum := by
  have whole : bytes state.json = 1 + (state.members.map weight).sum := by
    unfold json members
    exact bytes_object _ _
  rw [whole, sum_weight, members_names, bytes_memberNames, ← Nat.add_assoc]

end FileState

section Records

variable (idText : Uuid -> Text)

def OperationRecord.members (record : OperationRecord) : List (Text × Text) :=
  [("version".toList, natural record.version),
    ("id".toList, quoted (idText record.id)),
    ("requestId".toList, quoted (idText record.requestId)),
    ("accountId".toList, quoted (idText record.accountId)),
    ("generation".toList, natural record.generation),
    ("createdAt".toList, natural record.createdAt),
    ("updatedAt".toList, natural record.updatedAt),
    ("action".toList, quoted record.action.text),
    ("rootId".toList, quoted record.rootId.value),
    ("sourcePath".toList, quoted record.sourcePath.value),
    ("targetPath".toList, optional (fun path => quoted path.value) record.targetPath),
    ("requestedMode".toList, optional natural record.requestedMode),
    ("oldMode".toList, optional natural record.oldMode),
    ("newMode".toList, optional natural record.newMode),
    ("before".toList, optional FileState.json record.before),
    ("after".toList, optional FileState.json record.after),
    ("status".toList, quoted record.status.text),
    ("errorCode".toList, optional (fun kind => quoted kind.text) record.errorCode),
    ("bytesRead".toList, natural record.bytesRead),
    ("bytesWritten".toList, natural record.bytesWritten),
    ("rangeNextOffset".toList, optional natural record.rangeNextOffset),
    ("logReserveBytes".toList, natural record.logReserveBytes),
    ("logStorage".toList, optional quoted record.logStorage),
    ("undoEpoch".toList, optional (fun epoch => quoted (idText epoch)) record.undoEpoch),
    ("undoStatus".toList, optional (fun status => quoted status.text) record.undoStatus),
    ("undoErrorCode".toList, optional (fun kind => quoted kind.text) record.undoErrorCode),
    ("stagingPath".toList, optional (fun path => quoted path.value) record.stagingPath),
    ("trashGcStatus".toList, optional quoted record.trashGcStatus),
    ("stagingGcStatus".toList, optional quoted record.stagingGcStatus)]

def OperationRecord.json (record : OperationRecord) : Text := object (record.members idText)

/-- The format of `serde_json`. -/
def jsonFormat (parseId : Text -> Option Uuid) : JournalFormat where
  size := fun record => Text.len (record.json idText)
  idText := idText
  parseId := parseId

end Records

/-! ## States as they are observed -/

/-- The texts a digest may be: 64 hexadecimal digits. -/
structure HexDigest (text : Text) : Prop where
  length : text.length = 64
  digits : forall symbol, symbol ∈ text -> symbol.isDigit = true ∨ symbol ∈ "abcdef".toList

theorem HexDigest.plain {text : Text} (hex : HexDigest text) :
    forall symbol, symbol ∈ text -> Plain symbol := by
  intro symbol member
  rcases hex.digits symbol member with digit | letter
  · exact plain_of_isDigit digit
  · have letters : forall other, other ∈ "abcdef".toList -> other ≠ '"' ∧ other ≠ '\\' ∧
        32 ≤ other.toNat ∧ other.toNat < 128 := Text.forall_mem (by decide)
    exact letters symbol letter

/-- What `stat` and a digest can give: the numbers have their widths. -/
structure FileState.Observed (state : FileState) : Prop where
  digest : HexDigest state.digest
  device : ∃ number, number ≤ u64Max ∧ state.device = natural number
  inode : ∃ number, number ≤ u64Max ∧ state.inode = natural number
  mode : state.mode < 2 ^ 12
  uid : state.uid < 2 ^ 32
  gid : state.gid < 2 ^ 32
  size : state.size ≤ u64Max
  links : state.links ≤ u64Max
  mtimeSeconds : state.mtimeSeconds.natAbs ≤ 2 ^ 63
  mtimeNanos : state.mtimeNanos.natAbs ≤ 2 ^ 63
  ctimeSeconds : state.ctimeSeconds.natAbs ≤ 2 ^ 63
  ctimeNanos : state.ctimeNanos.natAbs ≤ 2 ^ 63
  contentDigest : forall digest, state.contentDigest = some digest -> HexDigest digest
  treeDigest : forall digest, state.treeDigest = some digest -> HexDigest digest

theorem bytes_natural_u64 {value : Nat} (small : value ≤ u64Max) : bytes (natural value) ≤ 20 := by
  apply bytes_natural_le (by decide)
  unfold u64Max at small
  omega

theorem bytes_integer_i64 {value : Int} (small : value.natAbs ≤ 2 ^ 63) :
    bytes (integer value) ≤ 20 :=
  bytes_integer_le (by decide) (by omega)

theorem bytes_hexDigest {text : Text} (hex : HexDigest text) : bytes (quoted text) = 66 := by
  rw [bytes_quoted_plain hex.plain, hex.length]

theorem bytes_optional_le {Value : Type} {write : Value -> Text} {limit : Nat}
    {value : Option Value} (room : 4 ≤ limit)
    (small : forall inner, value = some inner -> bytes (write inner) ≤ limit) :
    bytes (optional write value) ≤ limit := by
  cases value with
  | none => exact room
  | some inner => exact small inner rfl

theorem bytes_missing {Value : Type} (write : Value -> Text) (value : Option Value) :
    bytes (optional write none) ≤ bytes (optional write value) + 4 := Nat.le_add_left 4 _

theorem bytes_zero (value : Nat) : bytes (natural 0) ≤ bytes (natural value) + 1 :=
  Nat.le_add_left 1 _

theorem bytes_quotedNumber {text : Text} (number : ∃ value, value ≤ u64Max ∧ text = natural value) :
    bytes (quoted text) ≤ 22 := by
  rcases number with ⟨value, small, rfl⟩
  rw [bytes_quoted_plain (plain_natural value), ← bytes_plain (plain_natural value)]
  have digits := bytes_natural_u64 small
  omega

theorem bytes_kind (kind : FileKind) : bytes (quoted kind.text) ≤ 11 := by
  cases kind <;> decide

theorem bytes_status (status : OperationStatus) : bytes (quoted status.text) ≤ 9 := by
  cases status <;> decide

theorem bytes_errorKind (kind : ErrorKind) : bytes (quoted kind.text) ≤ 23 := by
  cases kind <;> decide

theorem bytes_digest {digest : Option Text}
    (hex : forall text, digest = some text -> HexDigest text) : bytes (optional quoted digest) ≤ 66 :=
  bytes_optional_le (by decide) (fun text given => (bytes_hexDigest (hex text given)).le)

theorem FileState.Observed.bytes_json {state : FileState} (observed : state.Observed) :
    bytes state.json ≤ 565 := by
  have mode : bytes (natural state.mode) ≤ 4 :=
    bytes_natural_le (by decide) (lt_of_lt_of_le observed.mode (by decide))
  have uid : bytes (natural state.uid) ≤ 10 :=
    bytes_natural_le (by decide) (lt_of_lt_of_le observed.uid (by decide))
  have gid : bytes (natural state.gid) ≤ 10 :=
    bytes_natural_le (by decide) (lt_of_lt_of_le observed.gid (by decide))
  have values : ((state.members.map Prod.snd).map bytes).sum ≤
      [66, 22, 22, 11, 4, 10, 10, 20, 20, 20, 20, 20, 20, 66, 66].sum :=
    sum_bytes_le (.cons (bytes_hexDigest observed.digest).le
      (.cons (bytes_quotedNumber observed.device) (.cons (bytes_quotedNumber observed.inode)
      (.cons (bytes_kind state.kind) (.cons mode (.cons uid (.cons gid
      (.cons (bytes_natural_u64 observed.size) (.cons (bytes_natural_u64 observed.links)
      (.cons (bytes_integer_i64 observed.mtimeSeconds)
      (.cons (bytes_integer_i64 observed.mtimeNanos)
      (.cons (bytes_integer_i64 observed.ctimeSeconds)
      (.cons (bytes_integer_i64 observed.ctimeNanos)
      (.cons (bytes_digest observed.contentDigest)
      (.cons (bytes_digest observed.treeDigest) .nil)))))))))))))))
  rw [state.bytes_json_eq]
  exact Nat.add_le_add_left values 168

/-! ## Records before and after -/

namespace OperationRecord

/-- The record without its outcome.  A ranged read goes back to offset zero. -/
def started (record : OperationRecord) : OperationRecord :=
  { record with
    updatedAt := record.createdAt
    oldMode := none
    newMode := none
    before := none
    after := none
    status := .pending
    errorCode := none
    bytesRead := 0
    bytesWritten := 0
    rangeNextOffset := record.rangeNextOffset.map (fun _ => 0)
    logReserveBytes := 0
    logStorage := some "systemBudget".toList
    undoStatus := none
    undoErrorCode := none
    trashGcStatus := none
    stagingGcStatus := none }

/-- Where the bytes of a log may be charged. -/
def logStorages : List Text :=
  ["systemBudget".toList, "userQuota".toList, "systemReserve".toList]

/-- The outcome has values of the types it is made of. -/
structure Sized (record : OperationRecord) : Prop where
  updatedAt : record.updatedAt ≤ u64Max
  oldMode : forall mode, record.oldMode = some mode -> mode < 2 ^ 32
  newMode : forall mode, record.newMode = some mode -> mode < 2 ^ 32
  before : forall state, record.before = some state -> state.Observed
  after : forall state, record.after = some state -> state.Observed
  bytesRead : record.bytesRead ≤ u64Max
  bytesWritten : record.bytesWritten ≤ u64Max
  rangeNextOffset : forall offset, record.rangeNextOffset = some offset -> offset ≤ u64Max
  logReserveBytes : record.logReserveBytes ≤ u64Max
  logStorage : forall storage, record.logStorage = some storage -> storage ∈ logStorages
  trashGcStatus : forall status, record.trashGcStatus = some status ->
    status = "needsReview".toList
  stagingGcStatus : forall status, record.stagingGcStatus = some status ->
    status = "needsReview".toList

section Growth

variable {record : OperationRecord}

theorem bytes_mode {mode : Option Nat} (small : forall value, mode = some value -> value < 2 ^ 32) :
    bytes (optional natural mode) ≤ bytes (optional natural (none : Option Nat)) + 6 := by
  apply bytes_optional_le (by decide)
  intro value given
  exact bytes_natural_le (by decide) (lt_of_lt_of_le (small value given) (by decide))

theorem bytes_observed {state : Option FileState}
    (observed : forall inner, state = some inner -> inner.Observed) :
    bytes (optional FileState.json state) ≤
      bytes (optional FileState.json (none : Option FileState)) + 561 :=
  bytes_optional_le (by decide) (fun inner given => (observed inner given).bytes_json)

theorem bytes_error (kind : Option ErrorKind) :
    bytes (optional (fun kind : ErrorKind => quoted kind.text) kind) ≤
      bytes (optional (fun kind : ErrorKind => quoted kind.text) none) + 19 :=
  bytes_optional_le (by decide) (fun inner _ => bytes_errorKind inner)

theorem bytes_counter {value : Nat} (small : value ≤ u64Max) :
    bytes (natural value) ≤ bytes (natural 0) + 19 := bytes_natural_u64 small

theorem bytes_offset {offset : Option Nat}
    (small : forall value, offset = some value -> value ≤ u64Max) :
    bytes (optional natural offset) ≤ bytes (optional natural (offset.map (fun _ => 0))) + 19 := by
  cases offset with
  | none => exact Nat.le_add_right _ _
  | some value => exact bytes_counter (small value rfl)

theorem bytes_storage {storage : Option Text}
    (known : forall text, storage = some text -> text ∈ logStorages) :
    bytes (optional quoted storage) ≤ bytes (optional quoted (some "systemBudget".toList)) + 1 := by
  have each : forall text, text ∈ logStorages -> bytes (quoted text) ≤ 15 := by decide
  exact bytes_optional_le (by decide) (fun text given => each text (known text given))

theorem bytes_review {status : Option Text}
    (known : forall text, status = some text -> text = "needsReview".toList) :
    bytes (optional quoted status) ≤ bytes (optional quoted (none : Option Text)) + 9 := by
  apply bytes_optional_le (by decide)
  intro text given
  rw [known text given]
  decide

theorem bytes_undo (status : Option OperationStatus) :
    bytes (optional (fun status : OperationStatus => quoted status.text) status) ≤
      bytes (optional (fun status : OperationStatus => quoted status.text) none) + 5 :=
  bytes_optional_le (by decide) (fun inner _ => bytes_status inner)

/-- An outcome adds at most 1292 bytes to a record. -/
theorem Sized.bytes_json_le (sized : record.Sized) (idText : Uuid -> Text) :
    bytes (record.json idText) ≤ bytes (record.started.json idText) + 1292 := by
  have updated : bytes (natural record.updatedAt) ≤ bytes (natural record.createdAt) + 20 :=
    Nat.le_add_left_of_le (bytes_natural_u64 sized.updatedAt)
  have status : bytes (quoted record.status.text) ≤ bytes (quoted OperationStatus.pending.text) + 0 :=
    bytes_status record.status
  have longer := Longer.nil
    |>.cons (bytes_review sized.stagingGcStatus)
    |>.cons (bytes_review sized.trashGcStatus)
    |>.same (optional (fun path => quoted path.value) record.stagingPath)
    |>.cons (bytes_error record.undoErrorCode)
    |>.cons (bytes_undo record.undoStatus)
    |>.same (optional (fun epoch => quoted (idText epoch)) record.undoEpoch)
    |>.cons (bytes_storage sized.logStorage)
    |>.cons (bytes_counter sized.logReserveBytes)
    |>.cons (bytes_offset sized.rangeNextOffset)
    |>.cons (bytes_counter sized.bytesWritten)
    |>.cons (bytes_counter sized.bytesRead)
    |>.cons (bytes_error record.errorCode)
    |>.cons status
    |>.cons (bytes_observed sized.after)
    |>.cons (bytes_observed sized.before)
    |>.cons (bytes_mode sized.newMode)
    |>.cons (bytes_mode sized.oldMode)
    |>.same (optional natural record.requestedMode)
    |>.same (optional (fun path => quoted path.value) record.targetPath)
    |>.same (quoted record.sourcePath.value)
    |>.same (quoted record.rootId.value)
    |>.same (quoted record.action.text)
    |>.cons updated
    |>.same (natural record.createdAt)
    |>.same (natural record.generation)
    |>.same (quoted (idText record.accountId))
    |>.same (quoted (idText record.requestId))
    |>.same (quoted (idText record.id))
    |>.same (natural record.version)
  have values : Longer ((record.members idText).map Prod.snd)
      ((record.started.members idText).map Prod.snd) 1292 := by
    simp only [OperationRecord.members, OperationRecord.started, List.map_cons, List.map_nil]
    exact longer
  exact values.object_le rfl

/-- Without its outcome a record is hardly longer than with it. -/
theorem bytes_started_le (idText : Uuid -> Text) (small : record.createdAt ≤ u64Max) :
    bytes (record.started.json idText) ≤ bytes (record.json idText) + 83 := by
  have created : bytes (natural record.createdAt) ≤ bytes (natural record.updatedAt) + 20 :=
    Nat.le_add_left_of_le (bytes_natural_u64 small)
  have offset : bytes (optional natural (record.rangeNextOffset.map (fun _ => 0))) ≤
      bytes (optional natural record.rangeNextOffset) + 1 := by
    cases record.rangeNextOffset with
    | none => exact Nat.le_add_right _ _
    | some value => exact bytes_zero value
  have storage : bytes (optional quoted (some "systemBudget".toList)) ≤
      bytes (optional quoted record.logStorage) + 14 := Nat.le_add_left 14 _
  have status : bytes (quoted OperationStatus.pending.text) ≤
      bytes (quoted record.status.text) + 9 := Nat.le_add_left 9 _
  have longer := Longer.nil
    |>.cons (bytes_missing quoted record.stagingGcStatus)
    |>.cons (bytes_missing quoted record.trashGcStatus)
    |>.same (optional (fun path => quoted path.value) record.stagingPath)
    |>.cons (bytes_missing (fun kind => quoted kind.text) record.undoErrorCode)
    |>.cons (bytes_missing (fun status => quoted status.text) record.undoStatus)
    |>.same (optional (fun epoch => quoted (idText epoch)) record.undoEpoch)
    |>.cons storage
    |>.cons (bytes_zero record.logReserveBytes)
    |>.cons offset
    |>.cons (bytes_zero record.bytesWritten)
    |>.cons (bytes_zero record.bytesRead)
    |>.cons (bytes_missing (fun kind => quoted kind.text) record.errorCode)
    |>.cons status
    |>.cons (bytes_missing FileState.json record.after)
    |>.cons (bytes_missing FileState.json record.before)
    |>.cons (bytes_missing natural record.newMode)
    |>.cons (bytes_missing natural record.oldMode)
    |>.same (optional natural record.requestedMode)
    |>.same (optional (fun path => quoted path.value) record.targetPath)
    |>.same (quoted record.sourcePath.value)
    |>.same (quoted record.rootId.value)
    |>.same (quoted record.action.text)
    |>.cons created
    |>.same (natural record.createdAt)
    |>.same (natural record.generation)
    |>.same (quoted (idText record.accountId))
    |>.same (quoted (idText record.requestId))
    |>.same (quoted (idText record.id))
    |>.same (natural record.version)
  have values : Longer ((record.started.members idText).map Prod.snd)
      ((record.members idText).map Prod.snd) 83 := by
    simp only [OperationRecord.members, OperationRecord.started, List.map_cons, List.map_nil]
    exact longer
  exact values.object_le rfl

/-- The reserve of a record is enough for every outcome. -/
theorem Sized.fits {later : OperationRecord} (sized : later.Sized) (idText : Uuid -> Text)
    (small : record.createdAt ≤ u64Max) (same : later.started = record.started) {limit : Nat}
    (reserve : bytes (record.json idText) + 2048 ≤ limit) : bytes (later.json idText) ≤ limit := by
  have outcome := sized.bytes_json_le idText
  have start := bytes_started_le idText small
  rw [same] at outcome
  omega

end Growth

end OperationRecord

end TealDrive
