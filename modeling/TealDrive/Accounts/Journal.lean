import TealDrive.Accounts.Policies

namespace TealDrive

open Outcome

/-!
# The operation journal

Before the helper touches a file it stores what it is about to do, and
afterwards how that went.  `begin_operation` is not one transaction: it reads
the caller and an earlier record, writes a continued record with a statement of
its own, and only a new record is stored in a transaction together with the
rotation of old ones.  The pieces are definitions of their own, since between
two of them other processes may act.

The serialized length of a record, the spelling of identifiers, and the fate of
a ledger file come from outside.
-/

/-! ## Requests and responses -/

def HelperCommand.action : HelperCommand -> Action
  | .writeFile => .write
  | .uploadCommit => .upload
  | .createFolder => .createFolder
  | .rename => .rename
  | .move => .move
  | .copy => .copy
  | .moveToTrash => .trash
  | .restoreFromTrash => .restore
  | .deletePermanently => .delete
  | .chmod => .chmod
  | .compressZip => .archive
  | .compressTarGz => .archive
  | .extractArchive => .extract
  | .readTextFile => .readText
  | .downloadFile => .download
  | .readFileRange => .download
  | _ => .read

def HelperCommand.tracked : HelperCommand -> Bool
  | .writeFile | .uploadCommit | .createFolder | .rename | .move | .copy | .moveToTrash
  | .restoreFromTrash | .deletePermanently | .chmod | .compressZip | .compressTarGz
  | .extractArchive | .readTextFile | .downloadFile | .readFileRange => true
  | _ => false

/-- The actions that can be undone. -/
def Action.undoable : Action -> Bool
  | .move | .rename | .trash | .chmod => true
  | _ => false

/-- The commands that prepare their result under another name. -/
def HelperCommand.staged : HelperCommand -> Bool
  | .writeFile | .uploadCommit | .copy | .compressZip | .compressTarGz | .extractArchive => true
  | _ => false

structure HelperAuditMetadata where
  oldMode : Option Nat
  newMode : Option Nat
  before : Option FileState
  after : Option FileState
deriving DecidableEq

/-- The payloads the journal looks into. -/
inductive HelperResponsePayload where
  | fileRange (totalSize offset : Nat) (data : List UInt8)
  | trashEntry (trashId : Text)
  | other
deriving DecidableEq

structure HelperResponse where
  success : Bool
  errorKind : Option ErrorKind
  bytesRead : Nat
  bytesWritten : Nat
  auditMetadata : Option HelperAuditMetadata
  payload : HelperResponsePayload
deriving DecidableEq

/-! ## Records -/

/-- How records and identifiers are written down. -/
structure JournalFormat where
  /-- The length of the serialized record. -/
  size : OperationRecord -> Nat
  idText : Uuid -> Text
  parseId : Text -> Option Uuid

/-- The order of the key texts: the time is padded to twenty digits. -/
def OperationKey.before (first second : OperationKey) : Bool :=
  decide (first.accountId < second.accountId) ||
    first.accountId == second.accountId &&
      (decide (first.createdAt < second.createdAt) ||
        first.createdAt == second.createdAt && decide (first.id < second.id))

/-- `key GLOB 'operation_v1:{id}:*'`. -/
def OperationKey.ofAccount (key : OperationKey) (id : Uuid) : Bool := key.accountId == id

section Records

variable (format : JournalFormat)

def encode (config : JournalConfig) (record : OperationRecord) : Except StoreError Unit :=
  refuse (decide (format.size record > config.maxRecordBytes)) .invalidInput

/-- `{parent}/` of a path, or nothing at the top. -/
def parentText (path : RelativePath) : Text :=
  if rawParent path = [] then [] else rawParent path ++ "/".toList

def stagingSuffix : HelperCommand -> Text
  | .compressZip => ".zip".toList
  | .compressTarGz => ".tar.gz".toList
  | _ => []

def stagingPath (request : HelperRequest) (id : Uuid) : Option RelativePath :=
  let destination := match request.command with
    | .writeFile | .uploadCommit => some request.relativePath
    | _ => request.targetRelativePath
  if request.command.staged then
    destination.map (fun path => ⟨parentText path ++ ".tdrv-transaction-".toList ++
      format.idText id ++ stagingSuffix request.command⟩)
  else none

def recordTarget (request : HelperRequest) (id : Uuid) : Option RelativePath :=
  match request.command with
  | .moveToTrash => some ⟨trashFiles ++ format.idText id⟩
  | .rename => request.targetRelativePath.map (fun target =>
      ⟨parentText request.relativePath ++ target.value⟩)
  | _ => request.targetRelativePath

/-- The record of an operation that is about to start. -/
def newRecord (actor : Account) (request : HelperRequest) (id epoch : Uuid) (at_ : Nat) :
    OperationRecord where
  version := 1
  id := id
  requestId := request.requestId
  accountId := actor.id
  generation := actor.generation
  createdAt := at_
  updatedAt := at_
  action := request.command.action
  rootId := request.rootId
  sourcePath := request.relativePath
  targetPath := recordTarget format request id
  requestedMode := request.chmodMode
  oldMode := none
  newMode := none
  before := none
  after := none
  status := .pending
  errorCode := none
  bytesRead := 0
  bytesWritten := 0
  rangeNextOffset := match request.command with
    | .readFileRange => request.writeOptions.map (fun options => options.offset)
    | _ => none
  logReserveBytes := 0
  logStorage := some "systemBudget".toList
  undoEpoch := some epoch
  undoStatus := none
  undoErrorCode := none
  stagingPath := stagingPath format request id
  trashGcStatus := none
  stagingGcStatus := none

end Records

namespace Store

/-! ## Beginning an operation -/

def checkBegin (account : Account) (request : HelperRequest) (config : JournalConfig) :
    Except StoreError Unit := do
  validateJournal config
  refuse (!config.enabled || !request.command.tracked || request.uid != account.uid ||
    request.gid != account.gid || request.username != account.username ||
    decide (request.relativePath.value.len > 4096) ||
    request.targetRelativePath.any (fun path => decide (path.value.len > 4096))) .invalidInput

/-- The caller as the database knows it now. -/
def operationActor (account : Account) (store : Store) : Except StoreError Account := do
  let actor ← store.authorized (.account account.id account.generation)
  okOr actor .forbidden

/-- The offset a ranged read asks for. -/
def rangeOffset (request : HelperRequest) : Except StoreError Nat := do
  let options ← okOr request.writeOptions .invalidInput
  refuse (request.limits.maxChunkSize == 0) .invalidInput
  return options.offset

/-- The latest record of a request. -/
def previousRecord (store : Store) (actor : Uuid) (requestId : Nat) : Option OperationRecord :=
  (store.operations.table.selectFirst (fun first second => second.before first)
    (fun key record => key.ofAccount actor && record.requestId == requestId)).map Prod.snd

section Begin

variable (format : JournalFormat) (config : JournalConfig)

/-- A record that goes on, or a conflict. -/
def continuedRecord (actor : Account) (request : HelperRequest) (offset at_ : Nat)
    (record : OperationRecord) : Except StoreError OperationRecord := do
  refuse (record.generation != actor.generation || record.rootId != request.rootId ||
    record.sourcePath != request.relativePath || record.action != .download ||
    record.status != .success || record.rangeNextOffset != some offset ||
    decide (at_ - record.updatedAt > 300)) .conflict
  let continued := { record with status := OperationStatus.pending, updatedAt := at_ }
  encode format config continued
  return continued

/-- `UPDATE security_state SET value=? WHERE key=?`. -/
def writeRecord (record : OperationRecord) (store : Store) : Store :=
  { store with operations := store.operations.replace record }

/-- `INSERT OR IGNORE` of the undo epoch. -/
def ensureEpoch (drawn : Uuid) (store : Store) : Store :=
  { store with undoEpoch := some (store.undoEpoch.getD drawn) }

/-- A new record, when its serialized form leaves room for the outcome. -/
def preparedRecord (actor : Account) (request : HelperRequest) (id epoch : Uuid) (at_ : Nat) :
    Except StoreError OperationRecord := do
  let record := newRecord format actor request id epoch at_
  encode format config record
  refuse (decide (format.size record + 2048 > config.maxRecordBytes)) .invalidInput
  return record

/-- The fate of a record's file in the user's ledger. -/
abbrev Ledger := Account -> OperationRecord -> Except StoreError Unit

/-- Delete a record together with its ledger file. -/
def removeRecord (ledger : Ledger) (actor : Account) (row : OperationKey × OperationRecord)
    (store : Store) : Except StoreError Store := do
  ledger actor row.2
  return { store with operations := store.operations.erase row.1 }

def removeEach (ledger : Ledger) (actor : Account) :
    List (OperationKey × OperationRecord) -> Store -> Except StoreError Store
  | [], store => .ok store
  | row :: rest, store => do
      let removed ← store.removeRecord ledger actor row
      removed.removeEach ledger actor rest

/-- The records that retention lets go. -/
def dropExpired (ledger : Ledger) (actor : Account) (at_ : Nat) (store : Store) :
    Except StoreError Store := do
  let cutoff := at_ - config.retentionHours * 3600
  let _ ← number cutoff
  store.removeEach ledger actor (store.operations.table.select 2000 (fun key record =>
    key.ofAccount actor.id && decide (record.createdAt < cutoff)))

/-- The record that makes room when the journal is full. -/
def oldestRecord (actor : Account) (cutoff : Nat) (store : Store) :
    Option (OperationKey × OperationRecord) :=
  store.operations.table.selectFirst OperationKey.before (fun key record =>
    key.ofAccount actor.id && (record.status == .success || record.status == .failed) &&
      (!record.action.undoable || decide (record.createdAt < cutoff)))

def rotate (ledger : Ledger) (actor : Account) (at_ : Nat) (store : Store) :
    Except StoreError Store :=
  if store.operations.table.count (fun key _ => key.ofAccount actor.id) ≥ config.maxEntriesPerAccount ∨
      store.operations.table.size ≥ config.maxTotalEntries then do
    let cutoff := at_ - config.undoMaxHours * 3600
    let _ ← number cutoff
    let oldest ← okOr (store.oldestRecord actor cutoff) .quotaExceeded
    store.removeRecord ledger actor oldest
  else .ok store

/-- `INSERT INTO security_state`, whose key is the primary key. -/
def insertToken {Key Value : Type} [DecidableEq Key] (table : Table Key Value) (key : Key)
    (value : Value) : Except StoreError (Table Key Value) := do
  refuse (table.find key).isSome .database
  return table.insert key value

/-- A maintenance token, when neither the account nor everybody has too many. -/
def addToken (table : Table (Uuid × Uuid) OperationRecord) (record : OperationRecord) :
    Except StoreError (Table (Uuid × Uuid) OperationRecord) := do
  refuse (decide (table.count (fun key _ => key.1 == record.accountId) ≥
      config.maxEntriesPerAccount) ||
    decide (table.size ≥ config.maxTotalEntries)) .quotaExceeded
  insertToken table (record.accountId, record.id) record

/-- The maintenance tokens of a new record. -/
def addTokens (record : OperationRecord) (store : Store) : Except StoreError Store :=
  if record.action = .trash then do
    let tokens ← addToken config store.trashExpiry record
    return { store with trashExpiry := tokens }
  else if record.stagingPath.isSome then do
    let tokens ← addToken config store.stagingExpiry record
    return { store with stagingExpiry := tokens }
  else .ok store

/-- The transaction that stores a new record. -/
def insertRecord (ledger : Ledger) (actor : Account) (record : OperationRecord) (at_ : Nat)
    (store : Store) : Except StoreError Store := do
  let kept ← store.dropExpired config ledger actor at_
  let rotated ← kept.rotate config ledger actor at_
  refuse (rotated.operations.find record.key).isSome .database
  Store.addTokens config record { rotated with operations := rotated.operations.insert record }

/-- What `begin_operation` draws at random. -/
structure Draws where
  id : Uuid
  epoch : Uuid

/-- A begun operation that has no earlier record.  The epoch is stored before
the transaction, whatever becomes of it. -/
def beginNew (draws : Draws) (ledger : Ledger) (actor : Account) (request : HelperRequest)
    (at_ : Nat) (store : Store) : Except StoreError OperationRecord × Store :=
  let fenced := store.ensureEpoch draws.epoch
  let outcome := do
    let record ← preparedRecord format config actor request draws.id
      (store.undoEpoch.getD draws.epoch) at_
    let stored ← fenced.insertRecord config ledger actor record at_
    return (record, stored)
  match outcome with
  | .ok (record, stored) => (.ok record, stored)
  | .error problem => (.error problem, fenced)

/-- The record a request continues, if it continues one. -/
def earlierRecord (actor : Account) (request : HelperRequest) (store : Store) :
    Except StoreError (Option (Nat × OperationRecord)) :=
  match request.command with
  | .readFileRange => do
      let offset ← rangeOffset request
      return (store.previousRecord actor.id request.requestId).map (fun record => (offset, record))
  | _ => .ok none

def beginOperation (draws : Draws) (ledger : Ledger) (account : Account) (request : HelperRequest)
    (at_ : Nat) (store : Store) : Except StoreError OperationRecord × Store :=
  let earlier := do
    checkBegin account request config
    let actor ← store.operationActor account
    let earlier ← store.earlierRecord actor request
    return (actor, earlier)
  match earlier with
  | .error problem => (.error problem, store)
  | .ok (actor, none) => store.beginNew format config draws ledger actor request at_
  | .ok (actor, some (offset, record)) =>
      match continuedRecord format config actor request offset at_ record with
      | .error problem => (.error problem, store)
      | .ok continued => (.ok continued, store.writeRecord continued)

end Begin

/-! ## Finishing an operation -/

section Finish

variable (format : JournalFormat) (config : JournalConfig)

def outcomeStatus : Option HelperResponse -> OperationStatus
  | some response => if response.success then .success else .failed
  | none => .unknown

/-- `u64::checked_add`. -/
def checkedAddU64 (left right : Nat) : Except StoreError Nat :=
  if left + right ≤ u64Max then .ok (left + right) else .error .invalidInput

/-- The bytes a ranged read delivered at the offset it had to. -/
def delivered (response : HelperResponse) (offset : Nat) : Except StoreError Nat :=
  match response.payload with
  | .fileRange _ actual data =>
      if response.success ∧ actual = offset then .ok data.length
      else if response.success then .error .invalidInput
      else .ok 0
  | _ => if response.success then .error .invalidInput else .ok 0

/-- The target of a finished trash operation. -/
def finishedTarget (current : OperationRecord) (response : HelperResponse) :
    Except StoreError (Option RelativePath) :=
  match response.payload with
  | .trashEntry trashId =>
      if current.action = .trash ∧ response.success then
        if trashId = format.idText current.id then .ok (some ⟨trashFiles ++ trashId⟩)
        else .error .invalidInput
      else .ok current.targetPath
  | _ => .ok current.targetPath

/-- The bytes read so far, and where the next range starts. -/
def finishedRange (current : OperationRecord) (response : HelperResponse) :
    Except StoreError (Nat × Option Nat) :=
  match current.rangeNextOffset with
  | none => .ok (response.bytesRead, none)
  | some offset => do
      let count ← delivered response offset
      let next ← checkedAddU64 offset count
      let read ← checkedAddU64 current.bytesRead count
      return (read, some next)

/-- What a response adds to a record. -/
def withResponse (current : OperationRecord) (response : HelperResponse) :
    Except StoreError OperationRecord := do
  let target ← finishedTarget format current response
  let (read, next) ← finishedRange current response
  let counted := { current with
    targetPath := target
    errorCode := response.errorKind
    rangeNextOffset := next
    bytesRead := read
    bytesWritten := response.bytesWritten }
  return match response.auditMetadata with
    | none => counted
    | some metadata => { counted with
        oldMode := metadata.oldMode
        newMode := metadata.newMode
        before := metadata.before
        after := metadata.after }

/-- The record with its outcome. -/
def finishedRecord (current record : OperationRecord) (response : Option HelperResponse)
    (at_ : Nat) : Except StoreError OperationRecord := do
  refuse (current.version != 1 || current.id != record.id ||
    current.accountId != record.accountId || current.status != .pending) .conflict
  let closed := { current with
    updatedAt := at_
    logReserveBytes := record.logReserveBytes
    logStorage := record.logStorage
    status := outcomeStatus response }
  match response with
  | none => return closed
  | some response => withResponse format closed response

/-- `DELETE` a token, or rewrite it with the record. -/
def settleToken (tokens : Table (Uuid × Uuid) OperationRecord) (gone : Bool)
    (record : OperationRecord) : Table (Uuid × Uuid) OperationRecord :=
  if gone then tokens.erase (record.accountId, record.id)
  else tokens.modify (record.accountId, record.id) (fun _ => record)

def settleTrash (finished : OperationRecord) (store : Store) : Store :=
  if finished.action = .trash then
    { store with
      trashExpiry := settleToken store.trashExpiry (decide (finished.status = .failed)) finished }
  else store

def settleStaging (finished : OperationRecord) (store : Store) : Store :=
  if finished.stagingPath.isSome then
    { store with
      stagingExpiry :=
        settleToken store.stagingExpiry (decide (finished.status = .success)) finished }
  else store

/-- The trash item that an operation named as its source. -/
def namedTrash (record : OperationRecord) : Option Uuid :=
  format.parseId ((Text.stripPrefix trashFiles record.sourcePath.value).getD
    record.sourcePath.value)

/-- A successful restore or delete retires the token of its item. -/
def retireTrash (finished record : OperationRecord) (store : Store) : Store :=
  if finished.status = .success ∧ (finished.action = .delete ∨ finished.action = .restore) then
    match namedTrash format record with
    | none => store
    | some id => { store with trashExpiry := store.trashExpiry.erase (finished.accountId, id) }
  else store

def finishOperation (record : OperationRecord) (response : Option HelperResponse) (at_ : Nat)
    (store : Store) : Except StoreError (OperationRecord × Store) := do
  let current ← okOr (store.operations.find record.key) .notFound
  let finished ← finishedRecord format current record response at_
  encode format config finished
  let written := { store with operations := store.operations.replace finished }
  return (finished, Store.retireTrash format finished record
    ((written.settleTrash finished).settleStaging finished))

end Finish

/-! ## Retention -/

section Retention

variable (config : JournalConfig)

/-- The records `gc_operations` found. -/
def expiredOperations (at_ : Nat) (store : Store) :
    Except StoreError (List (OperationKey × OperationRecord)) := do
  validateJournal config
  let cutoff := at_ - config.retentionHours * 3600
  let _ ← number cutoff
  return store.operations.table.select 500 (fun _ record => decide (record.createdAt < cutoff))

/-- `DELETE FROM security_state WHERE key=? AND value=?`. -/
def deleteExact (row : OperationKey × OperationRecord) (store : Store) : Store :=
  { store with
    operations := store.operations.filter (fun key record =>
      !(key == row.1 && record == row.2)) }

end Retention

end Store

end TealDrive
