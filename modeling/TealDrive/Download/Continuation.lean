import TealDrive.Accounts.Completed
import TealDrive.Download.Stream

namespace TealDrive

open Outcome JsonText

/-!
# The record of a download

The requests of a download are told from all others by the identifier of its HTTP
request.  While nothing else is begun under this identifier, the journal has at
most one record of the download, which only its own requests write and which may
be removed at any time.  A request continues it when it is still there and begins
a new one when it is not.
-/

/-! ## Rows of one request -/

/-- A record of the account that was begun under the identifier. -/
def OperationRecord.OfRequest (account : Uuid) (requestId : Nat) (record : OperationRecord) :
    Prop :=
  record.accountId = account ∧ record.requestId = requestId

/-- A step that looks for a record of the request or begins one. -/
def JournalStep.asks (account : Uuid) (requestId : Nat) : JournalStep -> Bool
  | .read _ actor request _ _ => actor.id == account && request.requestId == requestId
  | .insert _ _ actor request _ _ => actor.id == account && request.requestId == requestId
  | _ => false

/-- A record of another request, with another identifier than those that are drawn
for the request. -/
structure Foreign (account : Uuid) (requestId : Nat) (drawn : Uuid -> Prop)
    (record : OperationRecord) : Prop where
  other : ¬ record.OfRequest account requestId
  apart : ¬ drawn record.id

/-- A journal whose rows of the request are all of the given kind.  Whatever other
processes hold and may still write is foreign. -/
structure Standing (account : Uuid) (requestId : Nat) (drawn : Uuid -> Prop)
    (allowed : OperationRecord -> Prop) (state : JournalState) : Prop where
  rows : forall key row, state.store.operations.find key = some row ->
    (row.OfRequest account requestId ∧ allowed row) ∨ Foreign account requestId drawn row
  returned : forall row, row ∈ state.returned -> Foreign account requestId drawn row
  continued : forall row, row ∈ state.continued -> Foreign account requestId drawn row

section Rows

variable {account : Uuid} {requestId : Nat} {drawn : Uuid -> Prop}
  {allowed : OperationRecord -> Prop} {state later : JournalState}

theorem Foreign.congr {record other : OperationRecord}
    (foreign : Foreign account requestId drawn record) (owner : other.accountId = record.accountId)
    (request : other.requestId = record.requestId) (id : other.id = record.id) :
    Foreign account requestId drawn other where
  other := by
    unfold OperationRecord.OfRequest
    rw [owner, request]
    exact foreign.other
  apart := by
    rw [id]
    exact foreign.apart

namespace Standing

/-- The rows may be rewritten as long as they stay what they are. -/
theorem withRows (standing : Standing account requestId drawn allowed state)
    (rows : forall key row, later.store.operations.find key = some row ->
      (row.OfRequest account requestId ∧ allowed row) ∨ Foreign account requestId drawn row)
    (returned : later.returned = state.returned) (continued : later.continued = state.continued) :
    Standing account requestId drawn allowed later where
  rows := rows
  returned := by
    rw [returned]
    exact standing.returned
  continued := by
    rw [continued]
    exact standing.continued

/-- Rows that are left out or left alone. -/
theorem fewer {operations : Operations} (standing : Standing account requestId drawn allowed state)
    (origin : forall key row, operations.find key = some row ->
      state.store.operations.find key = some row) (key : OperationKey) (row : OperationRecord)
    (found : operations.find key = some row) :
    (row.OfRequest account requestId ∧ allowed row) ∨ Foreign account requestId drawn row :=
  standing.rows key row (origin key row found)

/-- A row is replaced by a foreign one. -/
theorem replace {record : OperationRecord}
    (standing : Standing account requestId drawn allowed state)
    (foreign : Foreign account requestId drawn record) (key : OperationKey) (row : OperationRecord)
    (found : (state.store.operations.replace record).find key = some row) :
    (row.OfRequest account requestId ∧ allowed row) ∨ Foreign account requestId drawn row := by
  by_cases same : key = record.key
  · subst same
    rw [Register.find_replace_self] at found
    rcases Option.map_eq_some_iff.mp found with ⟨_, _, rfl⟩
    exact Or.inr foreign
  · rw [Register.find_replace_of_ne same] at found
    exact standing.rows key row found

/-- What other processes do leaves the rows of the request alone or removes them. -/
theorem moves {format : JournalFormat} {ids : Nat -> Uuid} {step : JournalStep}
    (standing : Standing account requestId drawn allowed state)
    (apart : forall index, ¬ drawn (ids index))
    (settled : forall row, allowed row -> drawn row.id ∧ row.undoStatus = none ∧
      row.action.undoable = false)
    (elsewhere : step.asks account requestId = false)
    (moves : JournalState.Moves format ids state step later) :
    Standing account requestId drawn allowed later := by
  cases moves with
  | idle | drew | drawEpoch | readEpoch | sweep | cleanTrash | cleanStaging | reviewTrash
  | reviewStaging => exact ⟨standing.rows, standing.returned, standing.continued⟩
  | account op store tables =>
      refine standing.withRows ?_ rfl rfl
      rw [tables.operations]
      exact standing.rows
  | restore now actor store tables =>
      refine standing.withRows ?_ rfl rfl
      change forall key row, store.operations.find key = some row -> _
      rw [tables.operations]
      exact standing.rows
  | read config actor request offset at_ previous record found accepted =>
      rcases Store.continuedRecord_ok accepted with ⟨_, _, _, _, _, _, rfl⟩
      rcases Store.previousRecord_spec found with ⟨stored, owner, asked⟩
      refine ⟨standing.rows, standing.returned, ?_⟩
      intro row member
      rcases List.mem_cons.mp member with rfl | member
      · rcases standing.rows _ _ stored with ⟨own, _⟩ | foreign
        · simp only [JournalStep.asks, Bool.and_eq_false_iff, beq_eq_false_iff_ne] at elsewhere
          rcases elsewhere with different | different
          · exact absurd (owner ▸ own.1) different
          · exact absurd (asked ▸ own.2) different
        · exact foreign.congr rfl rfl rfl
      · exact standing.continued row member
  | write record checked =>
      have foreign := standing.continued record checked
      refine ⟨standing.replace foreign, ?_, standing.continued⟩
      intro row member
      rcases List.mem_cons.mp member with rfl | member
      · exact foreign
      · exact standing.returned row member
  | insert config ledger actor request epoch at_ record store known made inserted =>
      have foreign : Foreign account requestId drawn record := by
        subst made
        refine ⟨?_, apart state.drawn⟩
        intro own
        simp only [JournalStep.asks, Bool.and_eq_false_iff, beq_eq_false_iff_ne] at elsewhere
        rcases elsewhere with different | different
        · exact different own.1
        · exact different own.2
      rcases Store.insertRecord_ok inserted with ⟨kept, trash, staging, insertion⟩
      refine ⟨?_, ?_, standing.continued⟩
      · intro key row found
        change store.operations.find key = some row at found
        rw [insertion.stored] at found
        by_cases same : key = record.key
        · subst same
          change (kept.insert record).find record.key = some row at found
          rw [Register.find_insert_self, Option.some.injEq] at found
          exact Or.inr (found ▸ foreign)
        · change (kept.insert record).find key = some row at found
          rw [Register.find_insert_of_ne same] at found
          exact standing.rows key row (insertion.rotates.origin found)
      · intro row member
        rcases List.mem_cons.mp member with rfl | member
        · exact foreign
        · exact standing.returned row member
  | finish config record logReserveBytes logStorage response at_ finished store known done =>
      rcases Store.finishOperation_ok done with ⟨current, found, _, same, _, _, rfl⟩
      have named : record.key = current.key := (state.store.operations.keyed _ _ found).symm
      refine standing.withRows (standing.replace ?_) rfl rfl
      rcases standing.rows _ _ found with ⟨_, fine⟩ | foreign
      · have id : record.id = current.id := congrArg OperationKey.id named
        exact absurd (id ▸ (settled current fine).1) (standing.returned record known).apart
      · exact foreign.congr same.accountId same.requestId same.id
  | delete row listed =>
      refine standing.withRows (standing.fewer ?_) rfl rfl
      intro key record found
      change (state.store.operations.filter _).find key = some record at found
      rw [Register.find_filter, Option.filter_eq_some_iff] at found
      exact found.1
  | claim config authority operationId expectedState at_ caller row record claims =>
      refine standing.withRows (standing.replace ?_) rfl rfl
      rcases standing.rows _ _ claims.found with ⟨_, fine⟩ | foreign
      · have undoable := claims.undoable
        rw [(settled record fine).2.2] at undoable
        cases undoable
      · exact foreign.congr rfl rfl rfl
  | finishUndo config now record response current found pending =>
      refine standing.withRows (standing.replace ?_) rfl rfl
      rcases standing.rows _ _ found with ⟨_, fine⟩ | foreign
      · rw [(settled current fine).2.1] at pending
        cases pending
      · exact foreign.congr rfl rfl rfl

/-- So does whatever they do one after the other. -/
theorem run {env : Environment} {format : JournalFormat} {ids : Nat -> Uuid}
    {steps : List JournalStep} (standing : Standing account requestId drawn allowed state)
    (apart : forall index, ¬ drawn (ids index))
    (settled : forall row, allowed row -> drawn row.id ∧ row.undoStatus = none ∧
      row.action.undoable = false)
    (elsewhere : forall visit, visit ∈ Runs.visits (JournalState.step env format ids) state steps ->
      visit.2.asks account requestId = false) :
    Standing account requestId drawn allowed
      (Runs.run (JournalState.step env format ids) state steps) := by
  refine Runs.invariant_of_visits (Standing account requestId drawn allowed) ?_ standing
  intro visit visited here
  exact here.moves apart settled (elsewhere visit visited)
    (visit.1.step_moves env format ids visit.2)

/-- The rows of the request are all that a lookup can find. -/
theorem previous (standing : Standing account requestId drawn allowed state)
    {record : OperationRecord}
    (found : state.store.previousRecord account requestId = some record) : allowed record := by
  rcases Store.previousRecord_spec found with ⟨stored, owner, asked⟩
  rcases standing.rows _ _ stored with ⟨_, fine⟩ | foreign
  · exact fine
  · exact absurd ⟨owner, asked⟩ foreign.other

end Standing

end Rows

/-! ## The record of a download -/

/-- The identifiers that the helper draws for the records of its requests. -/
def HelperSide.Draws (side : HelperSide) (id : Uuid) : Prop :=
  ∃ index, (side.turns index).draws.id = id

/-- A request for bytes of the target. -/
structure ForTarget (target : DownloadTarget) (offset : Nat) (request : HelperRequest) : Prop where
  command : request.command = .readFileRange
  requestId : request.requestId = target.requestId
  user : request.username = target.username ∧ request.uid = target.uid ∧ request.gid = target.gid
  place : request.rootId = target.rootId ∧ request.relativePath = target.path
  noTarget : request.targetRelativePath = none
  options : request.writeOptions = some ⟨none, none, [], offset, false⟩

/-- A record of the download, when its next range starts at the offset. -/
structure Ranged (side : HelperSide) (idText : Uuid -> Text) (target : DownloadTarget)
    (account : Account) (status : OperationStatus) (offset at_ : Nat) (record : OperationRecord) :
    Prop where
  own : record.OfRequest account.id target.requestId
  drawn : side.Draws record.id
  generation : record.generation = account.generation
  place : record.rootId = target.rootId ∧ record.sourcePath = target.path
  action : record.action = .download
  unclaimed : record.undoStatus = none
  status : record.status = status
  next : record.rangeNextOffset = some offset
  read : record.bytesRead ≤ offset
  updated : record.updatedAt = at_
  checked : Store.checkBegin account (rangeRequest target 0 0) side.config = .ok ()
  /-- The reserve of the record that was begun. -/
  room : ∃ born, Held idText [.begun born] record ∧
    bytes (born.json idText) + 2048 ≤ side.config.maxRecordBytes

section Records

variable {side : HelperSide} {idText : Uuid -> Text} {parseId : Text -> Option Uuid}
  {target : DownloadTarget} {account actor : Account} {offset at_ before : Nat}
  {record : OperationRecord} {request : HelperRequest} {status : OperationStatus}

theorem ForTarget.checkBegin (asked : ForTarget target offset request) (config : JournalConfig) :
    Store.checkBegin account request config =
      Store.checkBegin account (rangeRequest target 0 0) config := by
  unfold Store.checkBegin
  rw [asked.command, asked.user.1, asked.user.2.1, asked.user.2.2, asked.place.2, asked.noTarget]
  rfl

theorem ForTarget.earlierRecord (asked : ForTarget target offset request)
    (some_ : 0 < request.limits.maxChunkSize) (store : Store) :
    store.earlierRecord actor request =
      .ok ((store.previousRecord actor.id target.requestId).map
        (fun record => (offset, record))) := by
  have whole : (request.limits.maxChunkSize == 0) = false := by
    rw [beq_eq_false_iff_ne]
    omega
  unfold Store.earlierRecord Store.rangeOffset
  rw [asked.command, asked.options, asked.requestId, whole]
  rfl

/-- An outcome is dated by its finish. -/
theorem Store.finishedRecord_time {format : JournalFormat}
    {current opened finished : OperationRecord} {response : Option HelperResponse}
    (done : Store.finishedRecord format current opened response at_ = .ok finished) :
    finished.updatedAt = at_ := by
  simp only [Store.finishedRecord, bind_eq_ok, refuse_eq_ok] at done
  rcases done with ⟨_, _, closed⟩
  cases response with
  | none =>
      cases closed
      rfl
  | some answer =>
      simp only [Store.withResponse, bind_eq_ok, pure_eq_ok, Prod.exists] at closed
      rcases closed with ⟨_, _, _, _, _, made⟩
      cases metadata : answer.auditMetadata with
      | none =>
          simp only [metadata] at made
          exact (congrArg OperationRecord.updatedAt made).symm
      | some details =>
          simp only [metadata] at made
          exact (congrArg OperationRecord.updatedAt made).symm

/-- What a new record of the download says. -/
structure Downloads (offset : Nat) (record : OperationRecord) : Prop where
  action : record.action = .download
  next : record.rangeNextOffset = some offset
  unstaged : record.stagingPath = none

theorem ForTarget.made (asked : ForTarget target offset request) {format : JournalFormat}
    {config : JournalConfig} {id epoch : Uuid}
    (prepared : Store.preparedRecord format config actor request id epoch at_ = .ok record) :
    Downloads offset record := by
  rw [Store.preparedRecord_ok prepared]
  unfold newRecord stagingPath
  rw [asked.command, asked.options]
  exact ⟨rfl, rfl, rfl⟩

namespace Ranged

/-- The record of an outcome is never too long. -/
theorem encoded {later : OperationRecord} {born : OperationRecord}
    (held : Held idText [.begun born] later)
    (reserve : bytes (born.json idText) + 2048 ≤ side.config.maxRecordBytes) :
    encode (jsonFormat idText parseId) side.config later = .ok () := by
  rcases held.born with ⟨first, listed, same⟩
  have only : first = born := JournalEvent.begun.inj (List.mem_singleton.mp listed)
  subst only
  have created : first.createdAt = later.createdAt :=
    show first.started.createdAt = later.started.createdAt from
      congrArg OperationRecord.createdAt same.symm
  exact encode_ok (held.sized.fits idText (created ▸ held.created) same reserve)

/-- A record that is left over is one that no other process may write to. -/
theorem settled (ranged : Ranged side idText target account status offset at_ record) :
    side.Draws record.id ∧ record.undoStatus = none ∧ record.action.undoable = false := by
  refine ⟨ranged.drawn, ranged.unclaimed, ?_⟩
  rw [ranged.action]
  rfl

/-- A request at the next offset continues the record. -/
theorem continues (ranged : Ranged side idText target account .success offset before record)
    (asked : ForTarget target offset request) (same : actor.generation = account.generation)
    (timely : at_ ≤ before + 300) (small : at_ ≤ u64Max) :
    Store.continuedRecord (jsonFormat idText parseId) side.config actor request offset at_ record =
        .ok { record with status := .pending, updatedAt := at_ } ∧
      Ranged side idText target account .pending offset at_
        { record with status := .pending, updatedAt := at_ } := by
  rcases ranged.room with ⟨born, held, reserve⟩
  have later : Held idText [.begun born] { record with status := .pending, updatedAt := at_ } :=
    held.congr { held.sized with updatedAt := small } rfl
  constructor
  · have passes : (record.generation != actor.generation || record.rootId != request.rootId ||
        record.sourcePath != request.relativePath || record.action != .download ||
        record.status != .success || record.rangeNextOffset != some offset ||
        decide (at_ - record.updatedAt > 300)) = false := by
      rw [ranged.generation, same, ranged.place.1, asked.place.1, ranged.place.2, asked.place.2,
        ranged.action, ranged.status, ranged.next, ranged.updated]
      have early : ¬ at_ - before > 300 := by omega
      simp [early]
    unfold Store.continuedRecord
    rw [passes]
    simp only [bind_eq_ok, pure_eq_ok]
    exact ⟨(), rfl, (), encoded later reserve, trivial⟩
  · exact { ranged with status := rfl, updated := rfl, room := ⟨born, later, reserve⟩ }

/-- A new record is one of the download. -/
theorem fresh {index : Nat} {epoch : Uuid} (asked : ForTarget target offset request)
    (same : actor.id = account.id ∧ actor.generation = account.generation) (small : at_ ≤ u64Max)
    (inside : offset ≤ u64Max)
    (checked : Store.checkBegin account request side.config = .ok ())
    (prepared : Store.preparedRecord (jsonFormat idText parseId) side.config actor request
      (side.turns index).draws.id epoch at_ = .ok record) :
    Ranged side idText target account .pending offset at_ record := by
  have made := Store.preparedRecord_ok prepared
  have downloads := asked.made prepared
  simp only [Store.preparedRecord, bind_eq_ok, refuse_eq_ok, pure_eq_ok, decide_eq_false_iff_not,
    Nat.not_lt] at prepared
  rcases prepared with ⟨_, _, _, reserve, stored⟩
  rw [stored] at reserve
  have held : Held idText [.begun record] record := by
    refine .fresh small ?_ made List.mem_cons_self
    intro options given
    rw [asked.options] at given
    cases given
    exact inside
  refine ⟨?_, ?_, ?_, ?_, downloads.action, ?_, ?_, downloads.next, ?_, ?_, ?_, record, held,
    reserve⟩
  · rw [made]
    exact ⟨same.1, asked.requestId⟩
  · rw [made]
    exact ⟨index, rfl⟩
  · rw [made]
    exact same.2
  · rw [made]
    exact asked.place
  · rw [made]
    rfl
  · rw [made]
    rfl
  · rw [made]
    exact Nat.zero_le _
  · rw [made]
    rfl
  · rw [← asked.checkBegin]
    exact checked

/-- The outcome of a request that was answered is written to its record. -/
theorem finishes (ranged : Ranged side idText target account .pending offset before record)
    (parseId : Text -> Option Uuid) (storage : LogStorage) {answer : HelperResponse}
    {total logReserveBytes : Nat} {data : List UInt8} (succeeded : answer.success = true)
    (producible : answer.Producible) (payload : answer.payload = .fileRange total offset data)
    (small : at_ ≤ u64Max) (reserved : logReserveBytes ≤ u64Max)
    (inside : offset + data.length ≤ u64Max) :
    ∃ finished, Store.finishedRecord (jsonFormat idText parseId) record
        (JournalState.charged record logReserveBytes (some storage.text)) (some answer) at_ =
          .ok finished ∧
      encode (jsonFormat idText parseId) side.config finished = .ok () ∧
      finished.key = record.key ∧
      Ranged side idText target account .success (offset + data.length) at_ finished := by
  rcases ranged.room with ⟨born, held, reserve⟩
  have ending : Ending logReserveBytes (some storage.text) (some answer) at_ := by
    refine ⟨small, reserved, ?_, ?_⟩
    · intro text given
      cases given
      cases storage <;> decide
    · intro other given
      cases given
      exact producible
  have fits : forall other, some answer = some other -> Fits idText record other := by
    intro other given
    cases given
    constructor
    · intro trashId _ _ trashed
      rw [payload] at trashed
      cases trashed
    · intro start _ found
      rw [ranged.next] at found
      cases found
      exact ⟨total, data, payload, inside, by have read := ranged.read; omega⟩
  have closes : ∃ finished, Store.finishedRecord (jsonFormat idText parseId) record
      (JournalState.charged record logReserveBytes (some storage.text)) (some answer) at_ =
        .ok finished :=
    finishedRecord_of_fits held ending ranged.status rfl fits
  rcases closes with ⟨finished, done⟩
  have later : Held idText [.begun born] finished := held.finished ending done
  rcases Store.finishedRecord_ok done with ⟨_, same, status, advance⟩
  have succeeds : finished.status = .success := status.trans (if_pos succeeded)
  have reached : finished.rangeNextOffset = some (offset + data.length) ∧
      finished.bytesRead = record.bytesRead + data.length := by
    cases advance with
    | unranged start =>
        rw [ranged.next] at start
        cases start
    | silent absent => cases absent
    | failed _ unsuccessful => exact absurd succeeds unsuccessful
    | delivered start _ _ _ began given _ carried next read =>
        cases given
        rw [ranged.next] at began
        cases began
        rw [payload] at carried
        cases carried
        exact ⟨next, read⟩
  have updated : finished.updatedAt = at_ := Store.finishedRecord_time done
  refine ⟨finished, done, encoded later reserve, same.key, ?_⟩
  have read := ranged.read
  refine ⟨⟨?_, ?_⟩, ?_, ?_, ⟨?_, ?_⟩, ?_, ?_, succeeds, reached.1, ?_, updated, ranged.checked,
    born, later, reserve⟩
  · exact same.accountId.trans ranged.own.1
  · exact same.requestId.trans ranged.own.2
  · rw [same.id]
    exact ranged.drawn
  · exact same.generation.trans ranged.generation
  · exact same.rootId.trans ranged.place.1
  · exact same.sourcePath.trans ranged.place.2
  · exact same.action.trans ranged.action
  · exact same.undoStatus.trans ranged.unclaimed
  · rw [reached.2]
    omega

end Ranged

end Records

/-! ## Beginning a request -/

namespace Store

variable {store : Store} {format : JournalFormat} {config : JournalConfig} {account actor : Account}
  {request : HelperRequest} {ledger : Ledger} {at_ : Nat}

/-- The caller keeps its name and its generation. -/
theorem operationActor_same (found : store.operationActor account = .ok actor) :
    actor.id = account.id ∧ actor.generation = account.generation := by
  rcases operationActor_ok found with ⟨row, caller, rfl⟩
  exact ⟨rfl, (Authority.account.inj caller.actor).2.symm⟩

/-- A row of the request is found. -/
theorem isSome_previousRecord {key : OperationKey} {row : OperationRecord} {requestId : Nat}
    (found : store.operations.find key = some row) (own : row.OfRequest account.id requestId) :
    (store.previousRecord account.id requestId).isSome = true := by
  unfold previousRecord
  rw [Option.isSome_map]
  refine Table.isSome_selectFirst _ found ?_
  rw [← store.operations.keyed key row found, own.2]
  simp [OperationKey.ofAccount, OperationRecord.key, own.1]

theorem beginOperation_fresh {draws : Draws}
    (checked : checkBegin account request config = .ok ())
    (acting : store.operationActor account = .ok actor)
    (none_ : store.earlierRecord actor request = .ok none) :
    store.beginOperation format config draws ledger account request at_ =
      store.beginNew format config draws ledger actor request at_ := by
  simp only [beginOperation, checked, acting, none_, bind, Except.bind, pure, Except.pure]

theorem beginOperation_continued {draws : Draws} {offset : Nat}
    {record continued : OperationRecord}
    (checked : checkBegin account request config = .ok ())
    (acting : store.operationActor account = .ok actor)
    (earlier : store.earlierRecord actor request = .ok (some (offset, record)))
    (accepted : continuedRecord format config actor request offset at_ record = .ok continued) :
    store.beginOperation format config draws ledger account request at_ =
      (.ok continued, store.writeRecord continued) := by
  simp only [beginOperation, checked, acting, earlier, accepted, bind, Except.bind, pure,
    Except.pure]

theorem beginOperation_refused {draws : Draws} {problem : StoreError}
    (refused : checkBegin account request config = .error problem) :
    store.beginOperation format config draws ledger account request at_ =
      (.error problem, store) := by
  simp only [beginOperation, refused, bind, Except.bind]

theorem checkBegin_ne_conflict : checkBegin account request config ≠ .error .conflict :=
  bind_ne_error (refuse_ne_error (by decide)) (fun _ _ => refuse_ne_error (by decide))

theorem preparedRecord_ne_conflict {id epoch : Uuid} :
    preparedRecord format config actor request id epoch at_ ≠ .error .conflict := by
  refine bind_ne_error (refuse_ne_error (by decide)) ?_
  intro _ _
  refine bind_ne_error (refuse_ne_error (by decide)) ?_
  intro _ _ same
  cases same

theorem number_ne_conflict (value : Nat) : number value ≠ .error .conflict := by
  unfold number
  split <;> exact fun same => by cases same

/-- The outcome of a record that is gone is not written. -/
theorem finishOperation_lost {record : OperationRecord} {logReserveBytes : Nat}
    {logStorage : Option Text} {response : Option HelperResponse}
    (missing : store.operations.find record.key = none) :
    store.finishOperation format config (JournalState.charged record logReserveBytes logStorage)
      response at_ = .error .notFound := by
  have absent : store.operations.find
      (JournalState.charged record logReserveBytes logStorage).key = none := missing
  unfold finishOperation
  rw [absent]
  rfl

theorem finishOperation_done {record current finished : OperationRecord} {logReserveBytes : Nat}
    {logStorage : Option Text} {response : Option HelperResponse}
    (found : store.operations.find record.key = some current)
    (done : finishedRecord format current (JournalState.charged record logReserveBytes logStorage)
      response at_ = .ok finished)
    (fits : encode format config finished = .ok ()) :
    ∃ after, store.finishOperation format config
        (JournalState.charged record logReserveBytes logStorage) response at_ =
          .ok (finished, after) ∧
      after.operations = store.operations.replace finished := by
  have there : store.operations.find
      (JournalState.charged record logReserveBytes logStorage).key = some current := found
  have outcome : ∃ after, store.finishOperation format config
      (JournalState.charged record logReserveBytes logStorage) response at_ =
        .ok (finished, after) := by
    unfold finishOperation
    simp only [there, bind_eq_ok, okOr_eq_ok, pure_eq_ok]
    exact ⟨_, current, rfl, finished, done, (), fits, rfl⟩
  rcases outcome with ⟨after, outcome⟩
  rcases finishOperation_ok outcome with ⟨_, _, _, _, _, _, same⟩
  refine ⟨after, outcome, ?_⟩
  rw [same]

theorem removeRecord_ne_conflict
    (spared : forall account record, ledger account record ≠ .error .conflict)
    (row : OperationKey × OperationRecord) :
    store.removeRecord ledger actor row ≠ .error .conflict :=
  bind_ne_error (spared actor row.2) (fun _ _ same => by cases same)

theorem removeEach_ne_conflict
    (spared : forall account record, ledger account record ≠ .error .conflict)
    (rows : List (OperationKey × OperationRecord)) :
    store.removeEach ledger actor rows ≠ .error .conflict := by
  induction rows generalizing store with
  | nil => exact fun same => by cases same
  | cons row rest ih =>
      exact bind_ne_error (removeRecord_ne_conflict spared row) (fun _ _ => ih)

theorem rotate_ne_conflict
    (spared : forall account record, ledger account record ≠ .error .conflict) :
    store.rotate config ledger actor at_ ≠ .error .conflict := by
  unfold rotate
  split
  · refine bind_ne_error (number_ne_conflict _) ?_
    intro _ _
    refine bind_ne_error (okOr_ne_error (by decide)) ?_
    intro oldest _
    exact removeRecord_ne_conflict spared oldest
  · exact fun same => by cases same

theorem insertRecord_ne_conflict {record : OperationRecord}
    (spared : forall account record, ledger account record ≠ .error .conflict)
    (kept : record.action ≠ .trash) (unstaged : record.stagingPath = none) :
    store.insertRecord config ledger actor record at_ ≠ .error .conflict := by
  refine bind_ne_error ?_ ?_
  · exact bind_ne_error (number_ne_conflict _) (fun _ _ => removeEach_ne_conflict spared _)
  · intro _ _
    refine bind_ne_error (rotate_ne_conflict spared) ?_
    intro _ _
    refine bind_ne_error (refuse_ne_error (by decide)) ?_
    intro _ _
    unfold addTokens
    rw [if_neg kept, unstaged]
    exact fun same => by cases same

end Store

/-- A record that a request at the offset continues: the one with the key, when
there is one. -/
def Resumable (side : HelperSide) (idText : Uuid -> Text) (target : DownloadTarget)
    (account : Account) (prior : Option OperationKey) (offset at_ : Nat)
    (record : OperationRecord) : Prop :=
  some record.key = prior ∧ Ranged side idText target account .success offset at_ record

/-- How a request begins.  It is refused only when the journal has no record of the
download, and it goes on with the record that the download has. -/
inductive RangeBegins (side : HelperSide) (idText : Uuid -> Text) (target : DownloadTarget)
    (account : Account) (prior : Option OperationKey) (offset at_ : Nat) (found : JournalState) :
    Except StoreError OperationRecord -> JournalState -> Prop where
  | refused (problem : StoreError) (after : JournalState) (sound : problem ≠ .conflict)
      (fresh : found.store.previousRecord account.id target.requestId = none) :
      RangeBegins side idText target account prior offset at_ found (.error problem) after
  | record (record : OperationRecord) (after : JournalState)
      (ranged : Ranged side idText target account .pending offset at_ record)
      (standing : Standing account.id target.requestId side.Draws (fun row => row = record) after)
      (same : forall key, prior = some key -> (found.store.operations.find key).isSome = true ->
        record.key = key) :
      RangeBegins side idText target account prior offset at_ found (.ok record) after

section Beginning

variable {side : HelperSide} {idText : Uuid -> Text} {parseId : Text -> Option Uuid}
  {target : DownloadTarget} {account : Account} {prior : Option OperationKey}
  {offset before at_ index : Nat} {found : JournalState} {request : HelperRequest}

/-- Of the rows of a download only the one it continues is left. -/
theorem Standing.resumed
    (standing : Standing account.id target.requestId side.Draws
      (Resumable side idText target account prior offset before) found)
    {key : OperationKey}
    (there : (found.store.operations.find key).isSome = true) (drawn : side.Draws key.id) :
    (found.store.previousRecord account.id target.requestId).isSome = true := by
  rcases Option.isSome_iff_exists.mp there with ⟨row, stored⟩
  rcases standing.rows key row stored with ⟨own, _⟩ | foreign
  · exact Store.isSome_previousRecord stored own
  · have id : row.id = key.id :=
      congrArg OperationKey.id (found.store.operations.keyed key row stored)
    exact absurd (id ▸ drawn) foreign.apart

/-- A new record takes the place of the old ones. -/
theorem Standing.begun {record : OperationRecord} {config : JournalConfig} {ledger : Store.Ledger}
    {actor : Account} {epoch : Uuid} {store : Store}
    (standing : Standing account.id target.requestId side.Draws
      (Resumable side idText target account prior offset before) found)
    (ranged : Ranged side idText target account .pending offset at_ record)
    (absent : forall key row, found.store.operations.find key = some row ->
      ¬ row.OfRequest account.id target.requestId)
    (done : (found.store.ensureEpoch epoch).insertRecord config ledger actor record at_ =
      .ok store) :
    Standing account.id target.requestId side.Draws (fun row => row = record)
      (found.withStore store) := by
  rcases Store.insertRecord_ok done with ⟨kept, trash, staging, insertion⟩
  refine ⟨?_, standing.returned, standing.continued⟩
  intro key row stored
  change store.operations.find key = some row at stored
  rw [insertion.stored] at stored
  change (kept.insert record).find key = some row at stored
  by_cases same : key = record.key
  · subst same
    rw [Register.find_insert_self, Option.some.injEq] at stored
    exact Or.inl ⟨stored ▸ ranged.own, stored.symm⟩
  · rw [Register.find_insert_of_ne same] at stored
    have old := insertion.rotates.origin stored
    rcases standing.rows key row old with ⟨own, _⟩ | foreign
    · exact absurd own (absent key row old)
    · exact Or.inr foreign

/-- A record that goes on takes its own place. -/
theorem Standing.resume {continued : OperationRecord}
    (standing : Standing account.id target.requestId side.Draws
      (Resumable side idText target account prior offset before) found)
    (named : some continued.key = prior)
    (pending : Ranged side idText target account .pending offset at_ continued) :
    Standing account.id target.requestId side.Draws (fun row => row = continued)
      (found.withStore (found.store.writeRecord continued)) := by
  refine ⟨?_, standing.returned, standing.continued⟩
  intro key row stored
  change (found.store.operations.replace continued).find key = some row at stored
  by_cases same : key = continued.key
  · subst same
    rw [Register.find_replace_self] at stored
    rcases Option.map_eq_some_iff.mp stored with ⟨_, _, rfl⟩
    exact Or.inl ⟨pending.own, rfl⟩
  · rw [Register.find_replace_of_ne same] at stored
    rcases standing.rows key row stored with ⟨_, resumed, _⟩ | foreign
    · have keyed := found.store.operations.keyed key row stored
      exact absurd (keyed.symm.trans (Option.some.inj (resumed.trans named.symm))) same
    · exact Or.inr foreign

theorem Standing.begins
    (standing : Standing account.id target.requestId side.Draws
      (Resumable side idText target account prior offset before) found)
    (drawn : forall key, prior = some key -> side.Draws key.id)
    (asked : ForTarget target offset request) (some_ : 0 < request.limits.maxChunkSize)
    (acting : ∃ actor, found.store.operationActor account = .ok actor)
    (timely : prior.isSome = true -> at_ ≤ before + 300) (small : at_ ≤ u64Max)
    (inside : offset ≤ u64Max) {ledger : Store.Ledger}
    (spared : forall account record, ledger account record ≠ .error .conflict)
    {outcome : Except StoreError OperationRecord} {store : Store}
    (done : found.store.beginOperation (jsonFormat idText parseId) side.config
      (side.turns index).draws ledger account request at_ = (outcome, store)) :
    RangeBegins side idText target account prior offset at_ found outcome
      (found.withStore store) := by
  rcases acting with ⟨actor, acting⟩
  have same := Store.operationActor_same acting
  cases checked : Store.checkBegin account request side.config with
  | error problem =>
      rw [Store.beginOperation_refused checked] at done
      cases done
      refine .refused problem _ ?_ ?_
      · rintro rfl
        exact Store.checkBegin_ne_conflict checked
      · cases previous : found.store.previousRecord account.id target.requestId with
        | none => rfl
        | some record =>
            have begun := (standing.previous previous).2.checked
            rw [← asked.checkBegin, checked] at begun
            cases begun
  | ok =>
      have earlier : found.store.earlierRecord actor request = _ :=
        asked.earlierRecord some_ found.store
      rw [same.1] at earlier
      cases previous : found.store.previousRecord account.id target.requestId with
      | none =>
          rw [previous] at earlier
          rw [Store.beginOperation_fresh checked acting earlier] at done
          have absent : forall key row, found.store.operations.find key = some row ->
              ¬ row.OfRequest account.id target.requestId := by
            intro key row stored own
            have found := Store.isSome_previousRecord stored own
            rw [previous] at found
            cases found
          unfold Store.beginNew at done
          dsimp only at done
          split at done
          · next record stored outcome =>
              cases done
              simp only [bind_eq_ok, pure_eq_ok, Prod.mk.injEq] at outcome
              rcases outcome with ⟨_, prepared, _, insertion, rfl, rfl⟩
              have ranged := Ranged.fresh asked same small inside checked prepared
              refine .record _ _ ranged (standing.begun ranged absent insertion) ?_
              intro key named there
              have still := standing.resumed there (drawn key named)
              rw [previous] at still
              cases still
          · next problem outcome =>
              cases done
              refine .refused problem _ ?_ previous
              rintro rfl
              refine bind_ne_error Store.preparedRecord_ne_conflict ?_ outcome
              intro record prepared
              refine bind_ne_error ?_ (fun _ _ same => by cases same)
              have made := asked.made prepared
              apply Store.insertRecord_ne_conflict spared
              · rw [made.action]
                decide
              · exact made.unstaged
      | some record =>
          rw [previous] at earlier
          rcases standing.previous previous with ⟨named, ranged⟩
          have late := timely (by rw [← named]; rfl)
          rcases ranged.continues asked same.2 late small with ⟨accepted, pending⟩
          rw [Store.beginOperation_continued checked acting earlier accepted] at done
          cases done
          refine .record _ _ pending (standing.resume named pending) ?_
          intro key same _
          exact Option.some.inj (named.trans same)

end Beginning

end TealDrive
