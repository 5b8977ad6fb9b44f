import TealDrive.Accounts.Processes
import TealDrive.Accounts.RecordJson

namespace TealDrive

open Outcome JsonText

/-!
# Room for the outcome

A record is refused at the beginning when its JSON leaves no reserve for the
outcome.  A ranged read that goes on has no such check: it is only asked whether
its record is not too long now.  Here the record of every operation that was
begun with the reserve is followed through all later steps, those of the
cleanups included, which write back a copy they read before.
-/

/-! ## What is written to a record -/

/-- The numbers of a response have their widths, and its states were
observed. -/
structure HelperResponse.Producible (response : HelperResponse) : Prop where
  bytesRead : response.bytesRead ≤ u64Max
  bytesWritten : response.bytesWritten ≤ u64Max
  oldMode : forall metadata mode, response.auditMetadata = some metadata ->
    metadata.oldMode = some mode -> mode < 2 ^ 32
  newMode : forall metadata mode, response.auditMetadata = some metadata ->
    metadata.newMode = some mode -> mode < 2 ^ 32
  before : forall metadata state, response.auditMetadata = some metadata ->
    metadata.before = some state -> state.Observed
  after : forall metadata state, response.auditMetadata = some metadata ->
    metadata.after = some state -> state.Observed

/-- What the helper hands over with a record when it is finished. -/
structure Ending (logReserveBytes : Nat) (logStorage : Option Text)
    (response : Option HelperResponse) (at_ : Nat) : Prop where
  time : at_ ≤ u64Max
  reserved : logReserveBytes ≤ u64Max
  storage : forall storage, logStorage = some storage -> storage ∈ OperationRecord.logStorages
  answer : forall answer, response = some answer -> answer.Producible

/-- The numbers of a step have their widths. -/
def JournalStep.Typed : JournalStep -> Prop
  | .read _ _ _ _ at_ => at_ ≤ u64Max
  | .insert _ _ _ request _ at_ =>
      at_ ≤ u64Max ∧ forall options, request.writeOptions = some options -> options.offset ≤ u64Max
  | .finish _ _ logReserveBytes logStorage response at_ =>
      Ending logReserveBytes logStorage response at_
  | .finishUndo _ now _ _ => now ≤ u64Max
  | _ => True

/-! ## Cleanups and their copies -/

namespace Store

/-- A token as `staging_record` reads it. -/
def stagingToken (store : Store) (accountId id : Uuid) : Except StoreError OperationRecord := do
  let token ← okOr (store.stagingExpiry.find (accountId, id)) .database
  refuse (token.version != 1 || token.accountId != accountId || token.id != id) .invalidInput
  return token

theorem stagingToken_ok {store : Store} {accountId id : Uuid} {token : OperationRecord}
    (found : store.stagingToken accountId id = .ok token) :
    store.stagingExpiry.find (accountId, id) = some token := by
  simp only [stagingToken, bind_eq_ok, okOr_eq_ok, refuse_eq_ok, pure_eq_ok] at found
  rcases found with ⟨_, stored, _, _, rfl⟩
  exact stored

end Store

/-- The copy that a cleanup of staged results writes back. -/
def stagingNeedsReview (copy : OperationRecord) : OperationRecord :=
  { copy with stagingGcStatus := some "needsReview".toList }

/-- The journal, and the copies of tokens that cleanups have read. -/
structure Upkeep where
  journal : JournalState
  copies : List OperationRecord

inductive UpkeepStep where
  | journal (step : JournalStep)
  | readTrash (accountId id : Uuid)
  | readStaging (accountId id : Uuid)
  | reviewTrash (config : JournalConfig) (copy : OperationRecord)
  | reviewStaging (config : JournalConfig) (copy : OperationRecord)

/-- Copies are written back by the cleanups that read them. -/
def JournalStep.reviews : JournalStep -> Bool
  | .reviewTrash _ | .reviewStaging _ => true
  | _ => false

def UpkeepStep.Typed : UpkeepStep -> Prop
  | .journal step => step.Typed
  | _ => True

namespace Upkeep

def initial (store : Store) : Upkeep := ⟨.initial store, []⟩

def readTrash (accountId id : Uuid) (upkeep : Upkeep) : Upkeep :=
  match upkeep.journal.store.trashToken accountId id with
  | .error _ => upkeep
  | .ok copy => { upkeep with copies := copy :: upkeep.copies }

def readStaging (accountId id : Uuid) (upkeep : Upkeep) : Upkeep :=
  match upkeep.journal.store.stagingToken accountId id with
  | .error _ => upkeep
  | .ok copy => { upkeep with copies := copy :: upkeep.copies }

section Steps

variable (env : Environment) (format : JournalFormat) (ids : Nat -> Uuid)

def reviewTrash (config : JournalConfig) (copy : OperationRecord) (upkeep : Upkeep) : Upkeep :=
  if copy ∈ upkeep.copies ∧ format.size (System.needsReview copy) ≤ config.maxRecordBytes then
    { upkeep with journal := upkeep.journal.reviewTrash (System.needsReview copy) }
  else upkeep

def reviewStaging (config : JournalConfig) (copy : OperationRecord) (upkeep : Upkeep) : Upkeep :=
  if copy ∈ upkeep.copies ∧ format.size (stagingNeedsReview copy) ≤ config.maxRecordBytes then
    { upkeep with journal := upkeep.journal.reviewStaging (stagingNeedsReview copy) }
  else upkeep

def step (upkeep : Upkeep) : UpkeepStep -> Upkeep
  | .journal step =>
      if step.reviews then upkeep
      else { upkeep with journal := upkeep.journal.step env format ids step }
  | .readTrash accountId id => upkeep.readTrash accountId id
  | .readStaging accountId id => upkeep.readStaging accountId id
  | .reviewTrash config copy => upkeep.reviewTrash format config copy
  | .reviewStaging config copy => upkeep.reviewStaging format config copy

end Steps

end Upkeep

/-! ## Records that are held -/

/-- A copy of a record, wherever it is: it goes back to a record that was
begun, and its outcome has values of the right types. -/
structure Held (idText : Uuid -> Text) (log : List JournalEvent) (record : OperationRecord) :
    Prop where
  version : record.version = 1
  created : record.createdAt ≤ u64Max
  target : record.action = .trash -> record.targetPath = some ⟨trashFiles ++ idText record.id⟩
  sized : record.Sized
  born : ∃ born, .begun born ∈ log ∧ record.started = born.started

namespace Held

variable {idText : Uuid -> Text} {parseId : Text -> Option Uuid} {log : List JournalEvent}
  {record : OperationRecord}

theorem mono (held : Held idText log record) {longer : List JournalEvent}
    (grows : forall born, .begun born ∈ log -> .begun born ∈ longer) : Held idText longer record := by
  rcases held.born with ⟨born, listed, same⟩
  exact { held with born := ⟨born, grows born listed, same⟩ }

/-- Only the outcome changed. -/
theorem congr (held : Held idText log record) {later : OperationRecord} (sized : later.Sized)
    (same : later.started = record.started) : Held idText log later := by
  have version : later.version = record.version :=
    show later.started.version = record.started.version from congrArg OperationRecord.version same
  have created : later.createdAt = record.createdAt :=
    show later.started.createdAt = record.started.createdAt from congrArg OperationRecord.createdAt same
  have action : later.action = record.action :=
    show later.started.action = record.started.action from congrArg OperationRecord.action same
  have target : later.targetPath = record.targetPath :=
    show later.started.targetPath = record.started.targetPath from congrArg OperationRecord.targetPath same
  have id : later.id = record.id :=
    show later.started.id = record.started.id from congrArg OperationRecord.id same
  rcases held.born with ⟨born, listed, first⟩
  refine ⟨version.trans held.version, created.trans_le held.created, ?_, sized,
    born, listed, same.trans first⟩
  intro trashed
  rw [target, id]
  exact held.target (action.symm.trans trashed)

theorem trash_of_action {request : HelperRequest} (trashed : request.command.action = .trash) :
    request.command = .moveToTrash := by
  cases command : request.command <;> rw [command] at trashed <;> cases trashed

theorem fresh {actor : Account} {request : HelperRequest} {id epoch : Uuid} {at_ : Nat}
    (time : at_ ≤ u64Max)
    (offset : forall options, request.writeOptions = some options -> options.offset ≤ u64Max)
    (made : record = newRecord (jsonFormat idText parseId) actor request id epoch at_)
    (listed : .begun record ∈ log) : Held idText log record := by
  subst made
  refine ⟨rfl, time, ?_, ?_, _, listed, rfl⟩
  · intro trashed
    have command := trash_of_action trashed
    change recordTarget (jsonFormat idText parseId) request id = _
    unfold recordTarget
    rw [command]
    rfl
  · refine ⟨time, ?_, ?_, ?_, ?_, Nat.zero_le _, Nat.zero_le _, ?_, Nat.zero_le _, ?_, ?_, ?_⟩
    · intro mode given
      cases given
    · intro mode given
      cases given
    · intro state given
      cases given
    · intro state given
      cases given
    · intro next given
      have ranged : (newRecord (jsonFormat idText parseId) actor request id epoch at_).rangeNextOffset =
          if request.command = .readFileRange then
            request.writeOptions.map (fun options => options.offset)
          else none := by
        unfold newRecord
        dsimp only
        cases request.command <;> rfl
      rw [ranged] at given
      split at given
      · rcases Option.map_eq_some_iff.mp given with ⟨options, supplied, rfl⟩
        exact offset options supplied
      · cases given
    · intro storage given
      cases given
      exact List.mem_cons_self
    · intro status given
      cases given
    · intro status given
      cases given

theorem continued (held : Held idText log record) {config : JournalConfig} {actor : Account}
    {request : HelperRequest} {offset at_ : Nat} {later : OperationRecord} (time : at_ ≤ u64Max)
    (accepted : Store.continuedRecord (jsonFormat idText parseId) config actor request offset at_
      record = .ok later) : Held idText log later := by
  rcases Store.continuedRecord_ok accepted with ⟨_, _, _, _, _, _, rfl⟩
  exact held.congr { held.sized with updatedAt := time } rfl

theorem claimed (held : Held idText log record) : Held idText log (Store.claimedRecord record) :=
  held.congr { held.sized with } rfl

theorem settled (held : Held idText log record) {now : Nat} (time : now ≤ u64Max)
    (response : Option HelperResponse) :
    Held idText log (Store.settledRecord now response record) :=
  held.congr { held.sized with updatedAt := time } rfl

theorem reviewed (held : Held idText log record) : Held idText log (System.needsReview record) :=
  held.congr { held.sized with trashGcStatus := fun _ given => (Option.some.inj given).symm } rfl

theorem stagingReviewed (held : Held idText log record) :
    Held idText log (stagingNeedsReview record) :=
  held.congr { held.sized with stagingGcStatus := fun _ given => (Option.some.inj given).symm } rfl

/-! ## The outcome of an operation -/

theorem checkedAddU64_le {left right sum : Nat} (added : Store.checkedAddU64 left right = .ok sum) :
    sum ≤ u64Max := by
  unfold Store.checkedAddU64 at added
  split at added
  · next small =>
      cases added
      exact small
  · cases added

/-- A ranged read stays one, and its numbers stay numbers of 64 bits. -/
theorem finishedRange_typed {current : OperationRecord} {answer : HelperResponse} {read : Nat}
    {next : Option Nat} (small : answer.bytesRead ≤ u64Max)
    (done : Store.finishedRange current answer = .ok (read, next)) :
    read ≤ u64Max ∧ (forall offset, next = some offset -> offset ≤ u64Max) ∧
      next.map (fun _ => 0) = current.rangeNextOffset.map (fun _ => 0) := by
  unfold Store.finishedRange at done
  cases start : current.rangeNextOffset with
  | none =>
      rw [start] at done
      cases done
      exact ⟨small, fun _ given => (by cases given), rfl⟩
  | some offset =>
      simp only [start, bind_eq_ok, pure_eq_ok, Prod.mk.injEq] at done
      rcases done with ⟨count, _, following, first, total, second, rfl, rfl⟩
      refine ⟨checkedAddU64_le second, ?_, rfl⟩
      intro other given
      cases given
      exact checkedAddU64_le first

/-- The item in the trash has the name that was recorded for it. -/
theorem target_same (held : Held idText log record) {answer : HelperResponse}
    {target : Option RelativePath}
    (done : Store.finishedTarget (jsonFormat idText parseId) record answer = .ok target) :
    target = record.targetPath := by
  unfold Store.finishedTarget at done
  split at done
  · split at done
    · next condition =>
        split at done
        · next same =>
            rw [held.target condition.1, ← Except.ok.inj done, same]
            rfl
        · cases done
    · exact (Except.ok.inj done).symm
  · exact (Except.ok.inj done).symm

theorem answered (held : Held idText log record) {answer : HelperResponse}
    (producible : answer.Producible) {finished : OperationRecord}
    (done : Store.withResponse (jsonFormat idText parseId) record answer = .ok finished) :
    Held idText log finished := by
  simp only [Store.withResponse, bind_eq_ok, pure_eq_ok, Prod.exists] at done
  rcases done with ⟨target, targeted, read, next, ranged, made⟩
  have same := held.target_same targeted
  rcases finishedRange_typed producible.bytesRead ranged with ⟨small, offsets, kind⟩
  cases metadata : answer.auditMetadata with
  | none =>
      simp only [metadata] at made
      subst made
      refine held.congr { held.sized with
        bytesRead := small
        bytesWritten := producible.bytesWritten
        rangeNextOffset := offsets } ?_
      simp only [OperationRecord.started, same, kind]
  | some details =>
      simp only [metadata] at made
      subst made
      refine held.congr { held.sized with
        bytesRead := small
        bytesWritten := producible.bytesWritten
        rangeNextOffset := offsets
        oldMode := fun mode => producible.oldMode details mode metadata
        newMode := fun mode => producible.newMode details mode metadata
        before := fun state => producible.before details state metadata
        after := fun state => producible.after details state metadata } ?_
      simp only [OperationRecord.started, same, kind]

theorem finished (held : Held idText log record) {opened later : OperationRecord}
    {response : Option HelperResponse} {at_ : Nat}
    (ending : Ending opened.logReserveBytes opened.logStorage response at_)
    (done : Store.finishedRecord (jsonFormat idText parseId) record opened response at_ =
      .ok later) : Held idText log later := by
  simp only [Store.finishedRecord, bind_eq_ok] at done
  rcases done with ⟨_, _, closed⟩
  have charged : Held idText log { record with
      updatedAt := at_
      logReserveBytes := opened.logReserveBytes
      logStorage := opened.logStorage
      status := Store.outcomeStatus response } :=
    held.congr { held.sized with
      updatedAt := ending.time
      logReserveBytes := ending.reserved
      logStorage := ending.storage } rfl
  cases response with
  | none =>
      cases closed
      exact charged
  | some answer => exact charged.answered (ending.answer answer rfl) closed

end Held

/-- The response belongs to the record. -/
structure Fits (idText : Uuid -> Text) (current : OperationRecord) (answer : HelperResponse) :
    Prop where
  trash : forall trashId, answer.success = true -> current.action = .trash ->
    answer.payload = .trashEntry trashId -> trashId = idText current.id
  range : forall offset, answer.success = true -> current.rangeNextOffset = some offset ->
    ∃ total data, answer.payload = .fileRange total offset data ∧
      offset + data.length ≤ u64Max ∧ current.bytesRead + data.length ≤ u64Max

namespace Fits

variable {idText : Uuid -> Text} {current : OperationRecord} {answer : HelperResponse}

theorem targeted (fits : Fits idText current answer) (parseId : Text -> Option Uuid) :
    ∃ target, Store.finishedTarget (jsonFormat idText parseId) current answer = .ok target := by
  unfold Store.finishedTarget
  split
  · next trashId payload =>
      split
      · next condition =>
          exact ⟨_, if_pos (fits.trash trashId condition.2 condition.1 payload)⟩
      · exact ⟨_, rfl⟩
  · exact ⟨_, rfl⟩

theorem counted (fits : Fits idText current answer) (sized : current.Sized) {offset : Nat}
    (start : current.rangeNextOffset = some offset) :
    ∃ count, Store.delivered answer offset = .ok count ∧ offset + count ≤ u64Max ∧
      current.bytesRead + count ≤ u64Max := by
  by_cases success : answer.success = true
  · rcases fits.range offset success start with ⟨total, data, payload, next, read⟩
    refine ⟨data.length, ?_, next, read⟩
    unfold Store.delivered
    simp only [payload, success, and_self, if_true]
  · refine ⟨0, ?_, sized.rangeNextOffset offset start, sized.bytesRead⟩
    unfold Store.delivered
    split
    · rw [if_neg (fun both => success both.1), if_neg success]
    · rw [if_neg success]

theorem ranged (fits : Fits idText current answer) (sized : current.Sized) :
    ∃ result, Store.finishedRange current answer = .ok result := by
  unfold Store.finishedRange
  cases start : current.rangeNextOffset with
  | none => exact ⟨_, rfl⟩
  | some offset =>
      rcases fits.counted sized start with ⟨count, delivered, next, read⟩
      refine ⟨(current.bytesRead + count, some (offset + count)), ?_⟩
      simp only [delivered, Store.checkedAddU64, bind_eq_ok, pure_eq_ok]
      exact ⟨count, rfl, _, if_pos next, _, if_pos read, rfl⟩

theorem answered (fits : Fits idText current answer) (sized : current.Sized)
    (parseId : Text -> Option Uuid) :
    ∃ finished, Store.withResponse (jsonFormat idText parseId) current answer = .ok finished := by
  rcases fits.targeted parseId with ⟨target, targeted⟩
  rcases fits.ranged sized with ⟨⟨read, next⟩, ranged⟩
  simp only [Store.withResponse, bind_eq_ok, targeted, ranged]
  exact ⟨_, target, rfl, (read, next), rfl, rfl⟩

end Fits

/-! ## Steps of the journal -/

/-- Every record and every token of the journal is held. -/
structure RecordsHeld (idText : Uuid -> Text) (log : List JournalEvent)
    (continued : List OperationRecord) (store : Store) : Prop where
  rows : store.operations.table.Everywhere (Held idText log)
  continued : forall record, record ∈ continued -> Held idText log record
  trash : store.trashExpiry.Everywhere (Held idText log)
  staging : store.stagingExpiry.Everywhere (Held idText log)

section Tokens

variable {holds : OperationRecord -> Prop} {tokens later : Table (Uuid × Uuid) OperationRecord}
  {record : OperationRecord}

theorem everywhere_tokensOf {wanted : Bool} (each : tokens.Everywhere holds) (new : holds record)
    (added : Store.TokensOf wanted record tokens later) : later.Everywhere holds := by
  rw [added]
  cases wanted with
  | true => exact each.insert _ new
  | false => exact each

theorem everywhere_settleToken (each : tokens.Everywhere holds) (new : holds record)
    (gone : Bool) : (Store.settleToken tokens gone record).Everywhere holds := by
  cases gone with
  | true => exact each.erase _
  | false => exact each.rewrite _ new

theorem everywhere_trashAfter (each : tokens.Everywhere holds) (new : holds record)
    (format : JournalFormat) (opened : OperationRecord) :
    (Store.trashAfter format record opened tokens).Everywhere holds := by
  unfold Store.trashAfter
  split
  · exact everywhere_settleToken each new _
  · split
    · split
      · exact each
      · exact each.erase _
    · exact each

theorem everywhere_stagingAfter (each : tokens.Everywhere holds) (new : holds record) :
    (Store.stagingAfter record tokens).Everywhere holds := by
  unfold Store.stagingAfter
  split
  · exact everywhere_settleToken each new _
  · exact each

end Tokens

namespace RecordsHeld

variable {idText : Uuid -> Text} {parseId : Text -> Option Uuid} {ids : Nat -> Uuid}
  {log : List JournalEvent} {continued : List OperationRecord} {store after : Store}

theorem initial (idText : Uuid -> Text) (store : Store) :
    RecordsHeld idText [] [] (JournalState.initial store).store where
  rows := by
    intro key record found
    cases found
  continued := fun _ member => absurd member List.not_mem_nil
  trash := by
    intro key record found
    cases found
  staging := by
    intro key record found
    cases found

/-- Only the log grew. -/
theorem logged (held : RecordsHeld idText log continued store) (event : JournalEvent) :
    RecordsHeld idText (event :: log) continued store where
  rows := held.rows.mono (fun _ each => each.mono (fun _ => List.mem_cons_of_mem event))
  continued := fun record member =>
    (held.continued record member).mono (fun _ => List.mem_cons_of_mem event)
  trash := held.trash.mono (fun _ each => each.mono (fun _ => List.mem_cons_of_mem event))
  staging := held.staging.mono (fun _ each => each.mono (fun _ => List.mem_cons_of_mem event))

/-- Other tables changed. -/
theorem stored (held : RecordsHeld idText log continued store) (tables : SameJournal store after) :
    RecordsHeld idText log continued after where
  rows := tables.operations ▸ held.rows
  continued := held.continued
  trash := tables.trashExpiry ▸ held.trash
  staging := tables.stagingExpiry ▸ held.staging

theorem insert (held : RecordsHeld idText log continued store) {account : Uuid}
    {record : OperationRecord} {kept : Operations}
    {trash staging : Table (Uuid × Uuid) OperationRecord} (new : Held idText log record)
    (inserted : Store.Inserted account record store after kept trash staging) :
    RecordsHeld idText log continued after := by
  have left : kept.table.Everywhere (Held idText log) :=
    fun key found located => held.rows key found (inserted.rotates.origin located)
  rw [inserted.stored]
  exact {
    rows := left.insert record.key new
    continued := held.continued
    trash := everywhere_tokensOf held.trash new inserted.trashTokens
    staging := everywhere_tokensOf held.staging new inserted.stagingTokens }

theorem finish (held : RecordsHeld idText log continued store) {config : JournalConfig}
    {record finished : OperationRecord} {response : Option HelperResponse} {at_ : Nat}
    (ending : Ending record.logReserveBytes record.logStorage response at_)
    (done : store.finishOperation (jsonFormat idText parseId) config record response at_ =
      .ok (finished, after)) : RecordsHeld idText log continued after := by
  simp only [Store.finishOperation, bind_eq_ok, okOr_eq_ok, pure_eq_ok, Prod.mk.injEq] at done
  rcases done with ⟨current, found, _, closed, _, _, rfl, made⟩
  have new := (held.rows _ _ found).finished ending closed
  rw [← made, Store.settled_eq]
  exact {
    rows := held.rows.rewrite _ new
    continued := held.continued
    trash := everywhere_trashAfter held.trash new _ record
    staging := everywhere_stagingAfter held.staging new }

/-- One row is rewritten, and the tokens of the trash may be fewer. -/
theorem rewrite (held : RecordsHeld idText log continued store) {record : OperationRecord}
    (new : Held idText log record)
    (rows : after.operations = store.operations.replace record)
    (trash : after.trashExpiry.Everywhere (Held idText log))
    (staging : after.stagingExpiry = store.stagingExpiry) :
    RecordsHeld idText log continued after where
  rows := rows ▸ held.rows.rewrite _ new
  continued := held.continued
  trash := trash
  staging := staging ▸ held.staging

theorem settled (held : RecordsHeld idText log continued store) (record : OperationRecord) :
    (Store.settledTokens store record).Everywhere (Held idText log) := by
  unfold Store.settledTokens
  split
  · exact held.trash.erase _
  · exact held.trash

theorem moves {state later : JournalState} {step : JournalStep}
    (held : RecordsHeld idText state.log state.continued state.store) (typed : step.Typed)
    (plain : step.reviews = false)
    (moves : JournalState.Moves (jsonFormat idText parseId) ids state step later) :
    RecordsHeld idText later.log later.continued later.store := by
  cases moves with
  | idle => exact held
  | drew => exact held
  | account op store tables => exact held.stored tables
  | restore now actor store tables => exact (held.stored tables).logged _
  | drawEpoch => exact held.stored ⟨rfl, rfl, rfl⟩
  | readEpoch => exact held
  | read config actor request offset at_ previous record found accepted =>
      have new := (held.rows _ _ (Store.previousRecord_spec found).1).continued typed accepted
      refine { held with continued := ?_ }
      intro other member
      rcases List.mem_cons.mp member with here | before
      · exact here ▸ new
      · exact held.continued other before
  | write record checked => exact held.rewrite (held.continued record checked) rfl held.trash rfl
  | insert config ledger actor request epoch at_ record store known made inserted =>
      rcases Store.insertRecord_ok inserted with ⟨_, _, _, effect⟩
      exact (held.logged _).insert (.fresh typed.1 typed.2 made List.mem_cons_self) effect
  | finish config record logReserveBytes logStorage response at_ finished store known done =>
      have ending : Ending (JournalState.charged record logReserveBytes logStorage).logReserveBytes
          (JournalState.charged record logReserveBytes logStorage).logStorage response at_ := typed
      exact (held.finish ending done).logged _
  | sweep => exact held
  | delete row => exact { held with rows := held.rows.filter _ }
  | claim config authority operationId expectedState at_ caller row record claims =>
      have new := (held.rows _ _ claims.found).claimed
      apply RecordsHeld.logged
      exact held.rewrite new rfl held.trash rfl
  | finishUndo config now record response current found pending =>
      have new := (held.rows _ _ found).settled typed response
      apply RecordsHeld.logged
      exact held.rewrite new rfl (held.settled _) rfl
  | cleanTrash accountId id =>
      apply RecordsHeld.logged
      exact { held with trash := held.trash.erase (accountId, id) }
  | cleanStaging accountId id =>
      apply RecordsHeld.logged
      exact { held with staging := held.staging.erase (accountId, id) }
  | reviewTrash => cases plain
  | reviewStaging => cases plain

end RecordsHeld

/-! ## Runs -/

/-- Where the records of a run come from, and that they are held. -/
structure UpkeepKept (idText : Uuid -> Text) (ids : Nat -> Uuid) (upkeep : Upkeep) : Prop where
  claims : ClaimsKept ids upkeep.journal
  records : RecordsHeld idText upkeep.journal.log upkeep.journal.continued upkeep.journal.store
  copies : forall copy, copy ∈ upkeep.copies -> Held idText upkeep.journal.log copy

namespace UpkeepKept

variable {idText : Uuid -> Text} {ids : Nat -> Uuid} {upkeep : Upkeep}

theorem initial (idText : Uuid -> Text) (ids : Nat -> Uuid) (store : Store) :
    UpkeepKept idText ids (.initial store) where
  claims := .initial ids store
  records := .initial idText store
  copies := fun _ member => absurd member List.not_mem_nil

/-- A copy of a token is read. -/
theorem copied (kept : UpkeepKept idText ids upkeep) {copy : OperationRecord}
    (held : Held idText upkeep.journal.log copy) :
    UpkeepKept idText ids { upkeep with copies := copy :: upkeep.copies } := by
  refine { kept with copies := ?_ }
  intro other member
  rcases List.mem_cons.mp member with here | before
  · exact here ▸ held
  · exact kept.copies other before

variable (env : Environment) (parseId : Text -> Option Uuid)

theorem journal (distinct : Function.Injective ids) (kept : UpkeepKept idText ids upkeep)
    {step : JournalStep} (typed : step.Typed) (plain : step.reviews = false) :
    UpkeepKept idText ids { upkeep with
      journal := upkeep.journal.step env (jsonFormat idText parseId) ids step } := by
  have moves := upkeep.journal.step_moves env (jsonFormat idText parseId) ids step
  exact {
    claims := kept.claims.moves distinct moves
    records := kept.records.moves typed plain moves
    copies := fun copy member => (kept.copies copy member).mono moves.begun }

theorem step (distinct : Function.Injective ids) {step : UpkeepStep} (typed : step.Typed)
    (kept : UpkeepKept idText ids upkeep) :
    UpkeepKept idText ids (upkeep.step env (jsonFormat idText parseId) ids step) := by
  cases step with
  | journal step =>
      change UpkeepKept idText ids (if step.reviews then upkeep else _)
      cases reviews : step.reviews with
      | true => exact kept
      | false => exact kept.journal env parseId distinct typed reviews
  | readTrash accountId id =>
      change UpkeepKept idText ids (upkeep.readTrash accountId id)
      unfold Upkeep.readTrash
      split
      · exact kept
      · next copy found =>
          exact kept.copied (kept.records.trash _ _ (Store.trashToken_ok found).1)
  | readStaging accountId id =>
      change UpkeepKept idText ids (upkeep.readStaging accountId id)
      unfold Upkeep.readStaging
      split
      · exact kept
      · next copy found =>
          exact kept.copied (kept.records.staging _ _ (Store.stagingToken_ok found))
  | reviewTrash config copy =>
      change UpkeepKept idText ids (upkeep.reviewTrash (jsonFormat idText parseId) config copy)
      unfold Upkeep.reviewTrash
      split
      · next known =>
          have new := (kept.copies copy known.1).reviewed
          exact { kept with
            claims := kept.claims.unchanged .same le_rfl rfl rfl
            records := { kept.records with trash := kept.records.trash.rewrite _ new } }
      · exact kept
  | reviewStaging config copy =>
      change UpkeepKept idText ids (upkeep.reviewStaging (jsonFormat idText parseId) config copy)
      unfold Upkeep.reviewStaging
      split
      · next known =>
          have new := (kept.copies copy known.1).stagingReviewed
          exact { kept with
            claims := kept.claims.unchanged .same le_rfl rfl rfl
            records := { kept.records with staging := kept.records.staging.rewrite _ new } }
      · exact kept

/-- What was begun stays in the log. -/
theorem begun (step : UpkeepStep) (born : OperationRecord)
    (listed : .begun born ∈ upkeep.journal.log) :
    .begun born ∈ (upkeep.step env (jsonFormat idText parseId) ids step).journal.log := by
  cases step with
  | journal step =>
      change .begun born ∈ (if step.reviews then upkeep else
        { upkeep with
          journal := upkeep.journal.step env (jsonFormat idText parseId) ids step }).journal.log
      split
      · exact listed
      · exact (upkeep.journal.step_moves env (jsonFormat idText parseId) ids step).begun born listed
  | readTrash accountId id =>
      change .begun born ∈ (upkeep.readTrash accountId id).journal.log
      unfold Upkeep.readTrash
      split <;> exact listed
  | readStaging accountId id =>
      change .begun born ∈ (upkeep.readStaging accountId id).journal.log
      unfold Upkeep.readStaging
      split <;> exact listed
  | reviewTrash config copy =>
      change .begun born ∈ (upkeep.reviewTrash _ config copy).journal.log
      unfold Upkeep.reviewTrash
      split <;> exact listed
  | reviewStaging config copy =>
      change .begun born ∈ (upkeep.reviewStaging _ config copy).journal.log
      unfold Upkeep.reviewStaging
      split <;> exact listed

theorem run (distinct : Function.Injective ids) {steps : List UpkeepStep}
    (typed : forall step, step ∈ steps -> step.Typed) (kept : UpkeepKept idText ids upkeep) :
    UpkeepKept idText ids
      (Runs.run (Upkeep.step env (jsonFormat idText parseId) ids) upkeep steps) :=
  Runs.invariant_each (UpkeepKept idText ids)
    (fun _ _ typed kept => kept.step env parseId distinct typed) kept
    (Runs.each_of_forall typed upkeep)

/-- A record that is held stays so. -/
theorem held_run {record : OperationRecord} (held : Held idText upkeep.journal.log record)
    (steps : List UpkeepStep) :
    Held idText
      (Runs.run (Upkeep.step env (jsonFormat idText parseId) ids) upkeep steps).journal.log
      record :=
  Runs.invariant (fun upkeep : Upkeep => Held idText upkeep.journal.log record)
    (fun _ step held => held.mono (begun env parseId step)) held steps

end UpkeepKept

/-! ## Operations that began -/

/-- `begin_operation` returns a record: a new one is stored, or an earlier one
goes on. -/
inductive Begins (format : JournalFormat) (ids : Nat -> Uuid) (state : JournalState)
    (config : JournalConfig) : JournalStep -> OperationRecord -> Prop where
  | fresh (ledger : Store.Ledger) (actor : Account) (request : HelperRequest) (epoch : Uuid)
      (at_ : Nat) (record : OperationRecord) (store : Store) (known : epoch ∈ state.epochs)
      (done : state.inserted format ids config ledger actor request epoch at_ =
        .ok (record, store)) :
      Begins format ids state config (.insert config ledger actor request epoch at_) record
  | continued (actor : Account) (request : HelperRequest) (offset at_ : Nat)
      (record : OperationRecord)
      (accepted : state.continues format config actor request offset at_ = some record) :
      Begins format ids state config (.read config actor request offset at_) record

/-- Whatever is written to the records of the operation is short enough, and a
pending one is finished by every response that belongs to it. -/
structure Completes (format : JournalFormat) (config : JournalConfig) (id : Uuid)
    (upkeep : Upkeep) : Prop where
  finish : forall key current opened response at_ finished,
    upkeep.journal.store.operations.find key = some current -> current.id = id ->
    Ending opened.logReserveBytes opened.logStorage response at_ ->
    Store.finishedRecord format current opened response at_ = .ok finished ->
    encode format config finished = .ok ()
  concluded : forall current opened response at_,
    upkeep.journal.store.operations.find opened.key = some current -> current.id = id ->
    current.status = .pending -> Ending opened.logReserveBytes opened.logStorage response at_ ->
    (forall answer, response = some answer -> Fits format.idText current answer) ->
    ∃ result, upkeep.journal.store.finishOperation format config opened response at_ = .ok result
  claim : forall key current, upkeep.journal.store.operations.find key = some current ->
    current.id = id -> encode format config (Store.claimedRecord current) = .ok ()
  settle : forall key current response now,
    upkeep.journal.store.operations.find key = some current -> current.id = id -> now ≤ u64Max ->
    encode format config (Store.settledRecord now response current) = .ok ()
  trash : forall copy, copy ∈ upkeep.copies -> copy.id = id ->
    encode format config (System.needsReview copy) = .ok ()
  staging : forall copy, copy ∈ upkeep.copies -> copy.id = id ->
    encode format config (stagingNeedsReview copy) = .ok ()

section Completion

variable {idText : Uuid -> Text} {parseId : Text -> Option Uuid} {ids : Nat -> Uuid}
  {upkeep : Upkeep} {config : JournalConfig} {record : OperationRecord}

theorem encode_ok {format : JournalFormat} (short : format.size record ≤ config.maxRecordBytes) :
    encode format config record = .ok () :=
  refuse_eq_ok.mpr (decide_eq_false (Nat.not_lt.mpr short))

/-- All that is held of an operation is as long as its reserve allows. -/
theorem encode_held (kept : UpkeepKept idText ids upkeep)
    (begun : Held idText upkeep.journal.log record)
    (reserve : (jsonFormat idText parseId).size record + 2048 ≤ config.maxRecordBytes)
    {later : OperationRecord} (held : Held idText upkeep.journal.log later)
    (named : later.id = record.id) : encode (jsonFormat idText parseId) config later = .ok () := by
  rcases begun.born with ⟨first, listed, start⟩
  rcases held.born with ⟨second, known, same⟩
  have firstId : record.id = first.id :=
    show record.started.id = first.started.id from congrArg OperationRecord.id start
  have secondId : later.id = second.id :=
    show later.started.id = second.started.id from congrArg OperationRecord.id same
  have equal := kept.claims.unique second first known listed
    (secondId.symm.trans (named.trans firstId))
  have started : later.started = record.started := by
    rw [same, start, equal]
  exact encode_ok (held.sized.fits idText begun.created started reserve)

/-- A pending record has an outcome for every response that belongs to it. -/
theorem finishedRecord_of_fits {current opened : OperationRecord} {log : List JournalEvent}
    (held : Held idText log current) {response : Option HelperResponse} {at_ : Nat}
    (ending : Ending opened.logReserveBytes opened.logStorage response at_)
    (pending : current.status = .pending) (same : current.key = opened.key)
    (fits : forall answer, response = some answer -> Fits idText current answer) :
    ∃ finished, Store.finishedRecord (jsonFormat idText parseId) current opened response at_ =
      .ok finished := by
  have id : current.id = opened.id := congrArg OperationKey.id same
  have account : current.accountId = opened.accountId := congrArg OperationKey.accountId same
  have checks : (current.version != 1 || current.id != opened.id ||
      current.accountId != opened.accountId || current.status != .pending) = false := by
    rw [held.version, id, account, pending]
    simp
  unfold Store.finishedRecord
  rw [checks]
  cases response with
  | none => exact ⟨_, rfl⟩
  | some answer =>
      have own := fits answer rfl
      refine Fits.answered ?_ ?_ parseId
      · exact ⟨own.trash, own.range⟩
      · exact { held.sized with
          updatedAt := ending.time
          logReserveBytes := ending.reserved
          logStorage := ending.storage }

theorem UpkeepKept.completes (kept : UpkeepKept idText ids upkeep)
    (begun : Held idText upkeep.journal.log record)
    (reserve : (jsonFormat idText parseId).size record + 2048 ≤ config.maxRecordBytes) :
    Completes (jsonFormat idText parseId) config record.id upkeep where
  finish := by
    intro key current opened response at_ finished found named ending done
    have held := kept.records.rows key current found
    have id : finished.id = current.id := (Store.finishedRecord_ok done).2.1.id
    exact encode_held kept begun reserve (held.finished ending done) (id.trans named)
  concluded := by
    intro current opened response at_ found named pending ending fits
    have held := kept.records.rows _ _ found
    have same := upkeep.journal.store.operations.keyed _ _ found
    rcases finishedRecord_of_fits held ending pending same fits with ⟨finished, done⟩
    have id : finished.id = current.id := (Store.finishedRecord_ok done).2.1.id
    have short := encode_held kept begun reserve (held.finished ending done) (id.trans named)
    unfold Store.finishOperation
    rw [found]
    simp only [bind_eq_ok, okOr_eq_ok, pure_eq_ok]
    exact ⟨_, current, rfl, finished, done, (), short, rfl⟩
  claim := by
    intro key current found named
    exact encode_held kept begun reserve (kept.records.rows key current found).claimed named
  settle := by
    intro key current response now found named time
    have held := (kept.records.rows key current found).settled time response
    exact encode_held kept begun reserve held named
  trash := by
    intro copy member named
    exact encode_held kept begun reserve (kept.copies copy member).reviewed named
  staging := by
    intro copy member named
    exact encode_held kept begun reserve (kept.copies copy member).stagingReviewed named

/-- A new record has the reserve. -/
theorem reserve_fresh {format : JournalFormat} {state : JournalState} {begin_ : JournalStep}
    (begins : Begins format ids state config begin_ record)
    (again : forall actor request offset at_, begin_ = .read config actor request offset at_ ->
      format.size record + 2048 ≤ config.maxRecordBytes) :
    format.size record + 2048 ≤ config.maxRecordBytes := by
  cases begins with
  | fresh ledger actor request epoch at_ record store known done =>
      simp only [JournalState.inserted, Store.preparedRecord, bind_eq_ok, pure_eq_ok, refuse_eq_ok,
        Prod.mk.injEq] at done
      rcases done with ⟨_, ⟨_, _, _, room, rfl⟩, _, _, rfl, _⟩
      exact Nat.le_of_not_lt (of_decide_eq_false room)
  | continued actor request offset at_ record accepted => exact again actor request offset at_ rfl

theorem continues_eq_some {format : JournalFormat} {state : JournalState} {actor : Account}
    {request : HelperRequest} {offset at_ : Nat} :
    state.continues format config actor request offset at_ = some record ↔
      ∃ previous, state.store.previousRecord actor.id request.requestId = some previous ∧
        Store.continuedRecord format config actor request offset at_ previous = .ok record := by
  have kept : forall outcome : Except StoreError OperationRecord,
      outcome.toOption = some record ↔ outcome = .ok record := by
    intro outcome
    cases outcome with
    | error problem => simp [Except.toOption]
    | ok continued => simp [Except.toOption]
  refine Option.bind_eq_some_iff.trans (exists_congr ?_)
  intro previous
  exact and_congr_right (fun _ => kept _)

/-- The record is held once it has begun. -/
theorem held_begun (env : Environment) (kept : UpkeepKept idText ids upkeep)
    {begin_ : JournalStep} (typed : begin_.Typed)
    (begins : Begins (jsonFormat idText parseId) ids upkeep.journal config begin_ record) :
    Held idText (upkeep.journal.step env (jsonFormat idText parseId) ids begin_).log record := by
  cases begins with
  | fresh ledger actor request epoch at_ record store known done =>
      change Held idText (upkeep.journal.insert (jsonFormat idText parseId) ids config ledger actor
        request epoch at_).log record
      unfold JournalState.insert
      rw [if_pos known, done]
      simp only [JournalState.inserted, bind_eq_ok, pure_eq_ok, Prod.mk.injEq] at done
      rcases done with ⟨_, prepared, _, _, rfl, _⟩
      exact .fresh typed.1 typed.2 (Store.preparedRecord_ok prepared) List.mem_cons_self
  | continued actor request offset at_ record accepted =>
      have moves := upkeep.journal.step_moves env (jsonFormat idText parseId) ids
        (.read config actor request offset at_)
      rcases continues_eq_some.mp accepted with ⟨previous, found, done⟩
      have earlier := kept.records.rows _ _ (Store.previousRecord_spec found).1
      exact (earlier.continued typed done).mono moves.begun

end Completion

/-- A new operation, and a ranged read that goes on with its reserve, can be
completed however the run goes on. -/
theorem begun_operation_completes (env : Environment) (idText : Uuid -> Text)
    (parseId : Text -> Option Uuid) (ids : Nat -> Uuid) (distinct : Function.Injective ids)
    (store : Store) (early later : List UpkeepStep) (begin_ : JournalStep) (config : JournalConfig)
    (record : OperationRecord)
    (typed : forall step, step ∈ early ++ .journal begin_ :: later -> step.Typed)
    (begins : Begins (jsonFormat idText parseId) ids
      (Runs.run (Upkeep.step env (jsonFormat idText parseId) ids) (.initial store) early).journal
      config begin_ record)
    (reserve : forall actor request offset at_, begin_ = .read config actor request offset at_ ->
      (jsonFormat idText parseId).size record + 2048 ≤ config.maxRecordBytes) :
    Completes (jsonFormat idText parseId) config record.id
      (Runs.run (Upkeep.step env (jsonFormat idText parseId) ids) (.initial store)
        (early ++ .journal begin_ :: later)) := by
  have before : UpkeepKept idText ids
      (Runs.run (Upkeep.step env (jsonFormat idText parseId) ids) (.initial store) early) :=
    UpkeepKept.run env parseId distinct
      (fun each member => typed each (List.mem_append_left _ member)) (.initial idText ids store)
  have here : begin_.Typed := typed _ (List.mem_append_right early List.mem_cons_self)
  have plain : begin_.reviews = false := by
    cases begins <;> rfl
  have begun := before.journal env parseId distinct here plain
  have held := held_begun env before here begins
  have first : forall upkeep : Upkeep,
      upkeep.step env (jsonFormat idText parseId) ids (.journal begin_) = { upkeep with
        journal := upkeep.journal.step env (jsonFormat idText parseId) ids begin_ } := by
    intro upkeep
    change (if begin_.reviews then upkeep else _) = _
    rw [plain]
    rfl
  rw [Runs.run_append]
  change Completes _ config record.id (Runs.run _ (Upkeep.step env _ ids _ (.journal begin_)) later)
  rw [first]
  apply UpkeepKept.completes
  · exact begun.run env parseId distinct
      (fun each member => typed each (List.mem_append_right early (List.mem_cons_of_mem _ member)))
  · exact UpkeepKept.held_run env parseId held later
  · exact reserve_fresh begins reserve

/-! ## A read that outgrows its record -/

namespace LongRead

open OneTrash

def format : JournalFormat := jsonFormat hyphenated parse

/-- A path of 3452 bytes. -/
def path : Text :=
  (List.replicate 16 (List.replicate 200 'a' ++ ['/'])).flatten ++ List.replicate 236 'a'

def config (maxRecordBytes : Nat) : JournalConfig :=
  { OneTrash.config with maxRecordBytes := maxRecordBytes }

def range (offset : Nat) : HelperRequest :=
  { request .readFileRange 7 path with writeOptions := some ⟨none, none, [], offset, false⟩ }

def read (offset length : Nat) : HelperResponse :=
  ⟨true, none, length, 0, none, .fileRange 1000 offset (List.replicate length 7)⟩

def fresh : OperationRecord := newRecord format actor (range 0) (ids 1) (ids 0) 1000

/-- The record after so many bytes. -/
def reached (count at_ : Nat) (status : OperationStatus) : OperationRecord :=
  { fresh with updatedAt := at_, status := status, bytesRead := count, rangeNextOffset := some count }

/-- Nine bytes are read. -/
def first : List UpkeepStep :=
  [.journal .drawEpoch, .journal .readEpoch,
    .journal (.insert (config 8192) ledger actor (range 0) (ids 0) 1000),
    .journal (.finish (config 8192) fresh 0 (some "systemBudget".toList) (some (read 0 9)) 1001)]

/-- The read goes on under another configuration. -/
def again (maxRecordBytes : Nat) : JournalStep :=
  .read (config maxRecordBytes) actor (range 9) 9 1002

def system (steps : List UpkeepStep) : Upkeep :=
  Runs.run (Upkeep.step environment format ids) (.initial store) steps

def rest : List UpkeepStep := [.journal (.write (reached 9 1002 .pending))]

theorem producible (offset : Nat) {length : Nat} (small : length ≤ u64Max) :
    (read offset length).Producible := by
  refine ⟨small, Nat.zero_le _, ?_, ?_, ?_, ?_⟩ <;> intro metadata _ given <;> cases given

theorem first_typed : forall step, step ∈ first -> step.Typed := by
  intro step member
  simp only [first, List.mem_cons, List.not_mem_nil, or_false] at member
  rcases member with rfl | rfl | rfl | rfl
  · trivial
  · trivial
  · refine ⟨by decide, ?_⟩
    intro options given
    cases given
    decide
  · refine ⟨by decide, by decide, ?_, ?_⟩
    · intro storage given
      cases given
      exact List.mem_cons_self
    · intro answer given
      cases given
      exact producible 0 (by decide)

theorem typed (maxRecordBytes : Nat) :
    forall step, step ∈ first ++ .journal (again maxRecordBytes) :: rest -> step.Typed := by
  intro step member
  rcases List.mem_append.mp member with early | late
  · exact first_typed step early
  · simp only [rest, List.mem_cons, List.not_mem_nil, or_false] at late
    rcases late with rfl | rfl
    · change 1002 ≤ u64Max
      decide
    · trivial

theorem previous : (system first).journal.store.previousRecord actor.id (range 9).requestId =
    some (reached 9 1001 .success) := by decide +kernel

theorem size_reached : format.size (reached 9 1002 .pending) = 4096 := by decide +kernel

theorem continues {maxRecordBytes : Nat} (room : 4096 ≤ maxRecordBytes) :
    (system first).journal.continues format (config maxRecordBytes) actor (range 9) 9 1002 =
      some (reached 9 1002 .pending) := by
  have short : encode format (config maxRecordBytes) (reached 9 1002 .pending) = .ok () :=
    encode_ok (size_reached.trans_le room)
  have accepted : Store.continuedRecord format (config maxRecordBytes) actor (range 9) 9 1002
      (reached 9 1001 .success) = .ok (reached 9 1002 .pending) := by
    simp only [Store.continuedRecord, bind_eq_ok, refuse_eq_ok, pure_eq_ok]
    exact ⟨(), by decide +kernel, (), short, rfl⟩
  exact continues_eq_some.mpr ⟨_, previous, accepted⟩

theorem begins {maxRecordBytes : Nat} (room : 4096 ≤ maxRecordBytes) :
    Begins format ids (system first).journal (config maxRecordBytes) (again maxRecordBytes)
      (reached 9 1002 .pending) :=
  .continued actor (range 9) 9 1002 _ (continues room)

/-- The record goes on, and is pending. -/
theorem goes_on {upkeep : Upkeep} {maxRecordBytes : Nat} {record old : OperationRecord}
    (accepted : upkeep.journal.continues format (config maxRecordBytes) actor (range 9) 9 1002 =
      some record)
    (found : upkeep.journal.store.operations.find record.key = some old) :
    (Runs.run (Upkeep.step environment format ids) upkeep
      [.journal (again maxRecordBytes), .journal (.write record)]).journal.store.operations.find
        record.key = some record := by
  change ((upkeep.journal.read format (config maxRecordBytes) actor (range 9) 9 1002).write
    record).store.operations.find record.key = _
  unfold JournalState.read
  rw [accepted]
  unfold JournalState.write
  rw [if_pos List.mem_cons_self]
  exact (Register.find_replace_self record).trans (congrArg _ found)

theorem pending {maxRecordBytes : Nat} (room : 4096 ≤ maxRecordBytes) :
    (system (first ++ .journal (again maxRecordBytes) :: rest)).journal.store.operations.find
      (reached 9 1002 .pending).key = some (reached 9 1002 .pending) := by
  have found : (system first).journal.store.operations.find (reached 9 1002 .pending).key =
      some (reached 9 1001 .success) := (Store.previousRecord_spec previous).1
  have final := goes_on (continues room) found
  have whole : system (first ++ .journal (again maxRecordBytes) :: rest) =
      Runs.run (Upkeep.step environment format ids) (system first)
        (.journal (again maxRecordBytes) :: rest) := Runs.run_append _ _ _
  rw [whole]
  unfold rest
  exact final

end LongRead

open LongRead OneTrash in
theorem begun_operation_completes_long :
    Completes LongRead.format (LongRead.config 8192) (ids 1)
      (system (first ++ .journal (again 8192) :: rest)) := by
  refine begun_operation_completes environment hyphenated parse ids ids_injective store first rest
    (again 8192) (LongRead.config 8192) (reached 9 1002 .pending) (typed 8192)
    (begins (by decide)) ?_
  intro _ _ _ _ _
  change LongRead.format.size (reached 9 1002 .pending) + 2048 ≤ 8192
  rw [size_reached]
  decide

open LongRead OneTrash in
/-- With less room in the configuration the same read cannot be finished. -/
theorem continued_read_outgrows :
    (forall step, step ∈ first ++ .journal (again 4096) :: rest -> step.Typed) ∧
      Begins LongRead.format ids (system first).journal (LongRead.config 4096) (again 4096)
        (reached 9 1002 .pending) ∧
      ¬ Completes LongRead.format (LongRead.config 4096) (ids 1)
        (system (first ++ .journal (again 4096) :: rest)) := by
  refine ⟨typed 4096, begins le_rfl, ?_⟩
  intro completes
  have ending : Ending 0 (some "systemBudget".toList) (some (read 9 1)) 1003 :=
    ⟨by decide, by decide, fun _ given => Option.some.inj given ▸ List.mem_cons_self,
      fun _ given => Option.some.inj given ▸ producible 9 (by decide)⟩
  have done : Store.finishedRecord LongRead.format (reached 9 1002 .pending)
      (JournalState.charged (reached 9 1002 .pending) 0 (some "systemBudget".toList))
      (some (read 9 1)) 1003 = .ok (reached 10 1003 .success) := rfl
  have short := completes.finish _ _ _ _ _ _ (pending le_rfl) rfl ending done
  have long : encode LongRead.format (LongRead.config 4096) (reached 10 1003 .success) =
      .error .invalidInput := by decide +kernel
  rw [long] at short
  cases short

end TealDrive
