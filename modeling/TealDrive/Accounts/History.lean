import TealDrive.Accounts.Sessions
import TealDrive.Accounts.Undo
import TealDrive.Policy.Home

namespace TealDrive

open Outcome

/-!
# The history of an account

A client reads the operations of its account page by page, newest key first.
The database applies the filter and the limit; what the caller may see is
decided afterwards, record by record.  So the gateway reads batches of 200 and
goes on until a page is full, until nothing is left, or until it has looked at
a thousand records, in which case the page may be short or empty although more
follow.  The cursor is the text of a key.
-/

/-! ## Failures of the gateway -/

inductive GatewayFailure where
  | rateLimited
  | disabled
  | forbidden
  | invalidCredentials
  | conflict
  | unavailable
  | quotaExceeded
deriving DecidableEq

/-- `From<StoreError>`. -/
def GatewayFailure.ofStore : StoreError -> GatewayFailure
  | .rateLimited => .rateLimited
  | .invalidCredentials | .notFound => .invalidCredentials
  | .forbidden | .invalidInput => .forbidden
  | .conflict => .conflict
  | .quotaExceeded => .quotaExceeded
  | _ => .unavailable

/-- `map_err(GatewayFailure::from)`. -/
def gateway {Value : Type} : Except StoreError Value -> Except GatewayFailure Value
  | .ok value => .ok value
  | .error problem => .error (.ofStore problem)

@[simp] theorem gateway_eq_ok {Value : Type} {outcome : Except StoreError Value} {value : Value} :
    gateway outcome = .ok value ↔ outcome = .ok value := by
  cases outcome <;> simp [gateway]

/-! ## Texts of records -/

def Action.text : Action -> Text
  | .write => "write".toList
  | .upload => "upload".toList
  | .createFolder => "createFolder".toList
  | .rename => "rename".toList
  | .move => "move".toList
  | .copy => "copy".toList
  | .trash => "trash".toList
  | .restore => "restore".toList
  | .delete => "delete".toList
  | .chmod => "chmod".toList
  | .archive => "archive".toList
  | .extract => "extract".toList
  | .readText => "readText".toList
  | .download => "download".toList
  | .read => "read".toList

def OperationStatus.text : OperationStatus -> Text
  | .pending => "pending".toList
  | .success => "success".toList
  | .failed => "failed".toList
  | .unknown => "unknown".toList

/-- `{:020}`. -/
def paddedTime (time : Nat) : Text :=
  List.replicate (20 - (Nat.toDigits 10 time).length) '0' ++ Nat.toDigits 10 time

/-! ## Queries -/

structure HistoryQuery where
  limit : Nat
  cursor : Option Text
  action : Option Text
  requestId : Option Text
  status : Option Text
  rootId : Option Text
  path : Option Text
  from_ : Option Nat
  to_ : Option Nat

structure HistoryPage where
  items : List OperationRecord
  nextCursor : Option Text
  hasMore : Bool

section Journal

variable (format : JournalFormat)

/-- `key`, which is also `operation_cursor`. -/
def OperationKey.text (key : OperationKey) : Text :=
  "operation_v1:".toList ++ format.idText key.accountId ++ ":".toList ++
    paddedTime key.createdAt ++ ":".toList ++ format.idText key.id

namespace HistoryQuery

def refusesCursor (cursor : Text) : Bool :=
  decide (cursor.len > 160) || cursor.hasControl

/-- The conditions of `validate` that do not speak of the cursor. -/
def refuses (query : HistoryQuery) : Bool :=
  !(decide (1 ≤ query.limit) && decide (query.limit ≤ 200)) ||
    query.action.any (fun action => decide (action.len > 32) ||
      !action.all (fun symbol => symbol.isAlphanum)) ||
    query.requestId.any (fun id => (format.parseId id).isNone) ||
    query.status.any (fun status => !(["pending".toList, "success".toList, "failed".toList,
      "unknown".toList].contains status)) ||
    query.rootId.any (fun root => decide (root.len > 128) || root.hasControl) ||
    query.path.any (fun path => decide (path.len > 256) || path.hasControl) ||
    query.from_.any (fun time => decide (time > i64Max)) ||
    query.to_.any (fun time => decide (time > i64Max)) ||
    query.from_.any (fun start => query.to_.any (fun finish => decide (start > finish)))

/-- `HistoryQuery::validate`. -/
def validate (query : HistoryQuery) : Except StoreError Unit :=
  refuse (query.refuses format || query.cursor.any refusesCursor) .invalidInput

/-- The conditions that the database checks besides the cursor. -/
def selects (query : HistoryQuery) (record : OperationRecord) : Bool :=
  query.action.all (fun action => record.action.text == action) &&
    query.status.all (fun status => record.status.text == status) &&
    query.rootId.all (fun root => record.rootId.value == root) &&
    query.path.all (fun path => Text.containsStr record.sourcePath.value path ||
      record.targetPath.any (fun target => Text.containsStr target.value path)) &&
    query.from_.all (fun time => decide (time ≤ record.createdAt)) &&
    query.to_.all (fun time => decide (record.createdAt ≤ time)) &&
    query.requestId.all (fun id => format.idText record.requestId == id)

end HistoryQuery

namespace Store

/-- The rows of an account that a query selects behind its cursor, newest key
first. -/
def historyRows (store : Store) (actor : Uuid) (query : HistoryQuery) :
    List (OperationKey × OperationRecord) :=
  (store.operations.table.rows.filter (fun row => row.1.ofAccount actor &&
    query.cursor.all (fun cursor => decide (row.1.text format < cursor)) &&
    query.selects format row.2)).insertionSort
      (fun first second => second.1.text format ≤ first.1.text format)

/-- A row as it is read back. -/
def readRecord (actor : Uuid) (row : OperationKey × OperationRecord) :
    Except StoreError OperationRecord := do
  refuse (row.2.version != 1 || row.2.accountId != actor) .forbidden
  return row.2

def operationRecordsFiltered (store : Store) (authority : Authority) (query : HistoryQuery) :
    Except StoreError (List OperationRecord) := do
  query.validate format
  let actor ← store.authorized authority
  let actor ← okOr actor .forbidden
  ((store.historyRows format actor.id query).take query.limit).mapM (readRecord actor.id)

end Store

/-! ## The gateway's page -/

/-- What the loop over the batches carries. -/
structure HistoryScan where
  cursor : Option Text
  items : List OperationRecord
  scanned : Nat

/-- What the caller may see of its journal, under the configuration that is in
force for it. -/
def historyVisible (view : AppConfig) (actor : Account) (record : OperationRecord) : Bool :=
  let discoverable := fun path : RelativePath =>
    match view.accessPolicy.check actor.username record.rootId path .discover with
    | .ok _ => true
    | .error _ => false
  view.roots.any (fun root => root.rootId == record.rootId && samePath root.basePath actor.home) &&
    discoverable record.sourcePath &&
    (record.action == .trash || record.targetPath.all discoverable)

/-- A record that belongs on the page. -/
def historyWants (view : AppConfig) (actor : Account) (undoOnly : Bool)
    (record : OperationRecord) : Bool :=
  historyVisible view actor record && (!undoOnly || record.action.undoable)

/-- The scan after one more record. -/
def HistoryScan.look (wants : OperationRecord -> Bool) (scan : HistoryScan)
    (record : OperationRecord) : HistoryScan where
  cursor := some (record.key.text format)
  items := if wants record then scan.items ++ [record] else scan.items
  scanned := scan.scanned + 1

/-- The loop over one batch.  The result tells whether the page ran over. -/
def scanBatch (wants : OperationRecord -> Bool) (limit : Nat) :
    List OperationRecord -> HistoryScan -> HistoryScan × Bool
  | [], scan => (scan, false)
  | record :: rest, scan =>
      let next := scan.look format wants record
      if next.items.length > limit then (next, true) else scanBatch wants limit rest next

/-- The loop over the batches.  The first argument is how many more it may
read: a thousand records are five batches. -/
def scanBatches (store : Store) (authority : Authority) (wants : OperationRecord -> Bool)
    (query : HistoryQuery) : Nat -> HistoryScan -> Except StoreError (HistoryScan × Bool)
  | 0, _ => .error .database
  | left + 1, scan => do
      let batch ← store.operationRecordsFiltered format authority
        { query with limit := 200, cursor := scan.cursor }
      if batch.isEmpty then return (scan, false)
      else
        match scanBatch format wants query.limit batch scan with
        | (next, true) => return (next, true)
        | (next, false) =>
            if batch.length < 200 then return (next, false)
            else if next.scanned ≥ 1000 then return (next, true)
            else scanBatches store authority wants query left next

/-- The page that was scanned. -/
def pageOfScan (limit : Nat) (scan : HistoryScan) (hasMore : Bool) : HistoryPage :=
  let surplus := decide (scan.items.length > limit)
  let items := if surplus then scan.items.dropLast else scan.items
  let cursor := if surplus then items.getLast?.map (fun record => record.key.text format)
    else scan.cursor
  ⟨items, if hasMore then cursor else none, hasMore⟩

def historyPage (store : Store) (authority : Authority) (wants : OperationRecord -> Bool)
    (query : HistoryQuery) : Except StoreError HistoryPage := do
  let (scan, hasMore) ← scanBatches format store authority wants query 5 ⟨query.cursor, [], 0⟩
  return pageOfScan format query.limit scan hasMore

/-! ## The command -/

inductive HistoryReply where
  | history (page : HistoryPage)
  | undoPage (items : List UndoCandidate) (nextCursor : Option Text) (hasMore : Bool)

namespace HistoryReply

def records : HistoryReply -> List OperationRecord
  | .history page => page.items
  | .undoPage items _ _ => items.map (fun candidate => candidate.operation)

def nextCursor : HistoryReply -> Option Text
  | .history page => page.nextCursor
  | .undoPage _ cursor _ => cursor

end HistoryReply

/-- A session that asks for its history.  `view` is what the configuration, the
account's home and its stored rules come to; it fails when the account does
not match the system's. -/
structure HistorySession where
  config : AppConfig
  view : Account -> Except GatewayFailure AppConfig
  grant : SessionGrant
  caller : CallerBinding
  undoOnly : Bool

/-- `AccountCommand::History`.  The epoch is the stored one or, if there is none
yet, the one that is drawn and stored. -/
def handleHistory (session : HistorySession) (drawn : Uuid) (at_ : Nat) (query : HistoryQuery)
    (store : Store) : Except GatewayFailure HistoryReply := do
  refuse (!session.config.journal.enabled) .disabled
  gateway (query.validate format)
  let actor ← gateway (store.verifyGrant session.grant session.caller at_)
  let view ← session.view actor
  let authority := Authority.account actor.id actor.generation
  let page ← gateway (historyPage format store authority
    (historyWants view actor session.undoOnly) query)
  if session.undoOnly then do
    let items ← gateway (page.items.mapM (fun record =>
      store.undoCandidate session.config.journal authority record.id (store.undoEpoch.getD drawn)
        at_))
    return .undoPage items page.nextCursor page.hasMore
  else return .history page

end Journal

end TealDrive
