import TealDrive.Accounts.Effects
import TealDrive.Accounts.Undo

namespace TealDrive

open Outcome

/-!
# What the journal operations do

One lemma for each piece of the journal.  Deleting is described once:
`Rotates` says that a register lost rows of one account and nothing else.
-/

/-- The records of the journal. -/
abbrev Operations := Register OperationKey OperationRecord OperationRecord.key

/-- Every row is as it was, or it was the account's and is gone. -/
def Rotates (account : Uuid) (before after : Operations) : Prop :=
  forall key, after.find key = before.find key ∨ (key.accountId = account ∧ after.find key = none)

namespace Rotates

variable {account : Uuid} {before middle after : Operations}

theorem refl (account : Uuid) (operations : Operations) : Rotates account operations operations :=
  fun _ => Or.inl rfl

theorem trans (first : Rotates account before middle) (second : Rotates account middle after) :
    Rotates account before after := by
  intro key
  rcases second key with same | gone
  · rcases first key with earlier | dropped
    · exact Or.inl (same.trans earlier)
    · exact Or.inr ⟨dropped.1, same.trans dropped.2⟩
  · exact Or.inr gone

theorem erase {key : OperationKey} (own : key.accountId = account) :
    Rotates account before (before.erase key) := by
  intro other
  by_cases same : other = key
  · subst same
    exact Or.inr ⟨own, Register.find_erase_self other⟩
  · exact Or.inl (Register.find_erase_of_ne same)

/-- What a rotation left was there before. -/
theorem origin (rotates : Rotates account before after) {key : OperationKey}
    {record : OperationRecord} (found : after.find key = some record) :
    before.find key = some record := by
  rcases rotates key with same | ⟨_, gone⟩
  · rw [← same]
    exact found
  · rw [gone] at found
    cases found

end Rotates

namespace Store

variable {store after : Store} {format : JournalFormat} {config : JournalConfig}

/-! ## Beginning an operation -/

theorem operationActor_ok {account actor : Account} (found : store.operationActor account = .ok actor) :
    ∃ row, Caller store (.account account.id account.generation) account.id row ∧
      actor = store.view account.id row := by
  simp only [operationActor, bind_eq_ok, okOr_eq_ok] at found
  rcases found with ⟨caller, authorized, given⟩
  rcases authorized_ok authorized with ⟨root, _⟩ | ⟨id, row, valid, viewed⟩
  · cases root
  · have same : account.id = id := (Authority.account.inj valid.actor).1
    rw [viewed] at given
    cases given
    subst same
    exact ⟨row, valid, rfl⟩

theorem previousRecord_spec {actor : Uuid} {requestId : Nat} {record : OperationRecord}
    (found : store.previousRecord actor requestId = some record) :
    store.operations.find record.key = some record ∧ record.accountId = actor ∧
      record.requestId = requestId := by
  rcases Option.map_eq_some_iff.mp found with ⟨row, chosen, rfl⟩
  rcases Table.selectFirst_spec chosen with ⟨stored, condition⟩
  simp only [OperationKey.ofAccount, Bool.and_eq_true, beq_iff_eq] at condition
  have keyed := store.operations.keyed row.1 row.2 stored
  refine ⟨?_, ?_, condition.2⟩
  · rw [keyed]
    exact stored
  · rw [← condition.1, ← keyed]
    rfl

theorem continuedRecord_ok {actor : Account} {request : HelperRequest} {offset at_ : Nat}
    {record continued : OperationRecord}
    (accepted : continuedRecord format config actor request offset at_ record = .ok continued) :
    record.generation = actor.generation ∧ record.rootId = request.rootId ∧
      record.sourcePath = request.relativePath ∧ record.action = .download ∧
      record.status = .success ∧ record.rangeNextOffset = some offset ∧
      continued = { record with status := OperationStatus.pending, updatedAt := at_ } := by
  simp only [continuedRecord, bind_eq_ok, refuse_eq_ok, pure_eq_ok, Bool.or_eq_false_iff,
    bne_eq_false_iff_eq] at accepted
  rcases accepted with ⟨_, ⟨⟨⟨⟨⟨⟨generation, root⟩, source⟩, action⟩, status⟩, next⟩, _⟩, _, _,
    same⟩
  exact ⟨generation, root, source, action, status, next, same.symm⟩

theorem removeRecord_ok {ledger : Ledger} {actor : Account} {row : OperationKey × OperationRecord}
    (done : store.removeRecord ledger actor row = .ok after) :
    after = { store with operations := store.operations.erase row.1 } := by
  simp only [removeRecord, bind_eq_ok, pure_eq_ok] at done
  rcases done with ⟨_, _, same⟩
  exact same.symm

theorem removeEach_ok {ledger : Ledger} {actor : Account} {account : Uuid}
    {rows : List (OperationKey × OperationRecord)}
    (own : forall row, row ∈ rows -> row.1.accountId = account)
    (done : store.removeEach ledger actor rows = .ok after) :
    ∃ operations, Rotates account store.operations operations ∧
      after = { store with operations := operations } := by
  induction rows generalizing store with
  | nil =>
      cases done
      exact ⟨after.operations, .refl _ _, rfl⟩
  | cons row rest ih =>
      simp only [removeEach, bind_eq_ok] at done
      rcases done with ⟨removed, one, others⟩
      have erased := removeRecord_ok one
      subst erased
      rcases ih (fun other member => own other (List.mem_cons_of_mem row member)) others with
        ⟨operations, rotates, same⟩
      exact ⟨operations, (Rotates.erase (own row List.mem_cons_self)).trans rotates, same⟩

theorem dropExpired_ok {ledger : Ledger} {actor : Account} {at_ : Nat}
    (done : store.dropExpired config ledger actor at_ = .ok after) :
    ∃ operations, Rotates actor.id store.operations operations ∧
      after = { store with operations := operations } := by
  simp only [dropExpired, bind_eq_ok] at done
  rcases done with ⟨_, _, removed⟩
  apply removeEach_ok ?_ removed
  intro row member
  have condition := (Table.select_spec member).2
  simp only [OperationKey.ofAccount, Bool.and_eq_true, beq_iff_eq] at condition
  exact condition.1

theorem rotate_ok {ledger : Ledger} {actor : Account} {at_ : Nat}
    (done : store.rotate config ledger actor at_ = .ok after) :
    ∃ operations, Rotates actor.id store.operations operations ∧
      after = { store with operations := operations } := by
  unfold rotate at done
  split at done
  · simp only [bind_eq_ok, okOr_eq_ok] at done
    rcases done with ⟨_, _, oldest, chosen, removed⟩
    have condition := (Table.selectFirst_spec chosen).2
    simp only [OperationKey.ofAccount, Bool.and_eq_true, beq_iff_eq] at condition
    exact ⟨_, .erase condition.1.1, removeRecord_ok removed⟩
  · cases done
    exact ⟨store.operations, .refl _ _, rfl⟩

/-- A token is added under the key of its record. -/
theorem addToken_ok {table tokens : Table (Uuid × Uuid) OperationRecord} {record : OperationRecord}
    (done : addToken config table record = .ok tokens) :
    tokens = table.insert (record.accountId, record.id) record := by
  simp only [addToken, insertToken, bind_eq_ok, pure_eq_ok] at done
  rcases done with ⟨_, _, _, _, same⟩
  exact same.symm

/-- The token of a record is added when it is wanted, and no other. -/
def TokensOf (wanted : Bool) (record : OperationRecord)
    (before after : Table (Uuid × Uuid) OperationRecord) : Prop :=
  after = if wanted then before.insert (record.accountId, record.id) record else before

theorem TokensOf.other {wanted : Bool} {record : OperationRecord}
    {before after : Table (Uuid × Uuid) OperationRecord} (tokens : TokensOf wanted record before after)
    {key : Uuid × Uuid} (different : key ≠ (record.accountId, record.id)) :
    after.find key = before.find key := by
  rw [tokens]
  cases wanted with
  | true => exact Table.find_insert_of_ne _ different
  | false => rfl

theorem TokensOf.own {record : OperationRecord}
    {before after : Table (Uuid × Uuid) OperationRecord} (tokens : TokensOf true record before after) :
    after.find (record.accountId, record.id) = some record := by
  rw [tokens]
  exact Table.find_insert_self _ _ _

theorem addTokens_ok {record : OperationRecord} (done : store.addTokens config record = .ok after) :
    ∃ trash staging, TokensOf (record.action == .trash) record store.trashExpiry trash ∧
      TokensOf (record.action != .trash && record.stagingPath.isSome) record store.stagingExpiry
        staging ∧
      after = { store with trashExpiry := trash, stagingExpiry := staging } := by
  unfold addTokens at done
  split at done
  · next trashed =>
      simp only [bind_eq_ok, pure_eq_ok] at done
      rcases done with ⟨tokens, added, same⟩
      rw [addToken_ok added] at same
      exact ⟨_, store.stagingExpiry, by simp [TokensOf, trashed], by simp [TokensOf, trashed],
        same.symm⟩
  · next kept =>
      split at done
      · next staged =>
          simp only [bind_eq_ok, pure_eq_ok] at done
          rcases done with ⟨tokens, added, same⟩
          rw [addToken_ok added] at same
          exact ⟨store.trashExpiry, _, by simp [TokensOf, kept], by simp [TokensOf, kept, staged],
            same.symm⟩
      · next plain =>
          cases done
          exact ⟨store.trashExpiry, store.stagingExpiry, by simp [TokensOf, kept],
            by simp [TokensOf, plain], rfl⟩

/-- What the transaction of a new record leaves behind. -/
structure Inserted (account : Uuid) (record : OperationRecord) (store after : Store)
    (kept : Operations) (trash staging : Table (Uuid × Uuid) OperationRecord) : Prop where
  rotates : Rotates account store.operations kept
  absent : kept.find record.key = none
  trashTokens : TokensOf (record.action == .trash) record store.trashExpiry trash
  stagingTokens : TokensOf (record.action != .trash && record.stagingPath.isSome) record
    store.stagingExpiry staging
  stored : after = { store with
    operations := kept.insert record
    trashExpiry := trash
    stagingExpiry := staging }

theorem insertRecord_ok {ledger : Ledger} {actor : Account} {record : OperationRecord} {at_ : Nat}
    (done : store.insertRecord config ledger actor record at_ = .ok after) :
    ∃ kept trash staging, Inserted actor.id record store after kept trash staging := by
  simp only [insertRecord, bind_eq_ok, refuse_eq_ok] at done
  rcases done with ⟨_, dropped, _, turned, _, absent, tokens⟩
  rcases dropExpired_ok dropped with ⟨fewer, first, rfl⟩
  rcases rotate_ok turned with ⟨kept, second, rfl⟩
  rcases addTokens_ok tokens with ⟨trash, staging, trashOf, stagingOf, same⟩
  exact ⟨kept, trash, staging, first.trans second, by simpa using absent, trashOf, stagingOf, same⟩

theorem preparedRecord_ok {actor : Account} {request : HelperRequest} {id epoch : Uuid} {at_ : Nat}
    {record : OperationRecord}
    (done : preparedRecord format config actor request id epoch at_ = .ok record) :
    record = newRecord format actor request id epoch at_ := by
  simp only [preparedRecord, bind_eq_ok, pure_eq_ok] at done
  rcases done with ⟨_, _, _, _, same⟩
  exact same.symm

/-- What a successful `begin_operation` did: it went on with a record, or it
stored a new one. -/
inductive Begun (format : JournalFormat) (config : JournalConfig) (draws : Draws) (account : Account)
    (request : HelperRequest) (at_ : Nat) (store : Store) (record : OperationRecord) (after : Store) :
    Prop where
  | continued (actor : Account) (offset : Nat) (previous : OperationRecord)
      (found : store.previousRecord account.id request.requestId = some previous)
      (accepted : continuedRecord format config actor request offset at_ previous = .ok record)
      (stored : after = store.writeRecord record)
  | fresh (row : AccountRow) (kept : Operations)
      (trash staging : Table (Uuid × Uuid) OperationRecord)
      (made : record = newRecord format (store.view account.id row) request draws.id
        (store.undoEpoch.getD draws.epoch) at_)
      (inserted : Inserted account.id record (store.ensureEpoch draws.epoch) after kept trash staging)

theorem beginNew_ok {draws : Draws} {ledger : Ledger} {actor : Account} {request : HelperRequest}
    {at_ : Nat} {record : OperationRecord}
    (done : store.beginNew format config draws ledger actor request at_ = (.ok record, after)) :
    record = newRecord format actor request draws.id (store.undoEpoch.getD draws.epoch) at_ ∧
      ∃ kept trash staging,
        Inserted actor.id record (store.ensureEpoch draws.epoch) after kept trash staging := by
  unfold beginNew at done
  dsimp only at done
  split at done
  · next stored outcome =>
      cases done
      simp only [bind_eq_ok, pure_eq_ok, Prod.mk.injEq] at outcome
      rcases outcome with ⟨_, prepared, _, insertion, rfl, rfl⟩
      exact ⟨preparedRecord_ok prepared, insertRecord_ok insertion⟩
  · cases done

theorem earlierRecord_ok {actor : Account} {request : HelperRequest} {offset : Nat}
    {record : OperationRecord}
    (found : store.earlierRecord actor request = .ok (some (offset, record))) :
    store.previousRecord actor.id request.requestId = some record := by
  unfold earlierRecord at found
  split at found
  · simp only [bind_eq_ok, pure_eq_ok] at found
    rcases found with ⟨_, _, same⟩
    rcases Option.map_eq_some_iff.mp same with ⟨previous, located, pair⟩
    cases pair
    exact located
  · cases found

theorem beginOperation_ok {draws : Draws} {ledger : Ledger} {account : Account}
    {request : HelperRequest} {at_ : Nat} {record : OperationRecord}
    (done : store.beginOperation format config draws ledger account request at_ =
      (.ok record, after)) :
    (∃ row, Caller store (.account account.id account.generation) account.id row) ∧
      Begun format config draws account request at_ store record after := by
  unfold beginOperation at done
  dsimp only at done
  split at done
  · cases done
  · next actor outcome =>
      simp only [bind_eq_ok, pure_eq_ok, Prod.mk.injEq] at outcome
      rcases outcome with ⟨_, _, _, acting, _, _, rfl, _⟩
      rcases operationActor_ok acting with ⟨row, caller, rfl⟩
      rcases beginNew_ok done with ⟨made, kept, trash, staging, inserted⟩
      exact ⟨⟨row, caller⟩, .fresh row kept trash staging made inserted⟩
  · next actor offset previous outcome =>
      simp only [bind_eq_ok, pure_eq_ok, Prod.mk.injEq] at outcome
      rcases outcome with ⟨_, _, _, acting, _, earlier, rfl, rfl⟩
      rcases operationActor_ok acting with ⟨row, caller, rfl⟩
      split at done
      · cases done
      · next accepted =>
          cases done
          exact ⟨⟨row, caller⟩, .continued _ offset previous (earlierRecord_ok earlier) accepted rfl⟩

/-! ## Undo claims -/

theorem ownOperation_spec {actor operationId : Uuid} {record : OperationRecord}
    (found : store.ownOperation actor operationId = some record) :
    store.operations.find record.key = some record ∧ record.accountId = actor := by
  rcases Option.map_eq_some_iff.mp found with ⟨row, chosen, rfl⟩
  rcases Table.select_spec (List.mem_of_mem_head? chosen) with ⟨stored, condition⟩
  simp only [OperationKey.ofAccount, Bool.and_eq_true, beq_iff_eq] at condition
  have keyed := store.operations.keyed row.1 row.2 stored
  refine ⟨?_, ?_⟩
  · rw [keyed]
    exact stored
  · rw [← condition.1, ← keyed]
    rfl

/-- A claimed record. -/
def claimedRecord (record : OperationRecord) : OperationRecord :=
  { record with undoStatus := some .pending }

/-- What makes a candidate available. -/
theorem candidate_available {record : OperationRecord} {prefs : UndoPreferences} {epoch : Uuid}
    {at_ : Nat} (available : (candidate record prefs epoch at_).available = true) :
    record.status = .success ∧ record.action.undoable = true ∧ record.undoStatus = none ∧
      record.undoEpoch = some epoch ∧ at_ < record.createdAt + prefs.effectiveHours * 3600 := by
  unfold UndoCandidate.available candidate at available
  dsimp only at available
  rw [Option.isNone_iff_eq_none] at available
  split at available
  · cases available
  · next succeeded =>
      split at available
      · cases available
      · next undoable =>
          split at available
          · cases available
          · next unclaimed =>
              split at available
              · cases available
              · next fenced =>
                  split at available
                  · cases available
                  · next early =>
                      have bound : saturateU64 (record.createdAt +
                          saturateU64 (prefs.effectiveHours * 3600)) ≤
                            record.createdAt + prefs.effectiveHours * 3600 := by
                        unfold saturateU64
                        omega
                      refine ⟨Decidable.not_not.mp succeeded, by simpa using undoable,
                        by simpa using unclaimed, Decidable.not_not.mp fenced, ?_⟩
                      omega

/-- What a successful claim found and wrote. -/
structure Claims (config : JournalConfig) (drawn : Uuid) (authority : Authority)
    (operationId : Uuid) (expectedState : Text) (at_ : Nat) (store : Store) (caller : Uuid)
    (row : AccountRow) (record : OperationRecord) : Prop where
  calling : Caller store authority caller row
  found : store.operations.find record.key = some record
  own : record.accountId = caller
  named : record.id = operationId
  expected : record.after.map (fun state => state.digest) = some expectedState
  succeeded : record.status = .success
  undoable : record.action.undoable = true
  unclaimed : record.undoStatus = none
  fenced : record.undoEpoch = some (store.undoEpoch.getD drawn)
  early : at_ < record.createdAt +
    min (row.undoHours.getD config.undoMaxHours) config.undoMaxHours * 3600

theorem claimUndo_ok {drawn : Uuid} {authority : Authority} {operationId : Uuid}
    {expectedState : Text} {at_ : Nat} {claimed : OperationRecord}
    (done : store.claimUndo format config drawn authority operationId expectedState at_ =
      .ok (claimed, after)) :
    ∃ caller row record, Claims config drawn authority operationId expectedState at_ store caller
        row record ∧ claimed = claimedRecord record ∧
      after = { store.ensureEpoch drawn with operations := store.operations.replace claimed } := by
  simp only [claimUndo, bind_eq_ok, refuse_eq_ok, okOr_eq_ok, pure_eq_ok, Prod.mk.injEq,
    Bool.or_eq_false_iff, bne_eq_false_iff_eq, Bool.not_eq_false'] at done
  rcases done with ⟨_, _, _, _, caller, authorized, actor, given, record, own, _,
    ⟨⟨⟨⟨_, _⟩, named⟩, available⟩, expected⟩, _, _, made, stored⟩
  rcases authorized_ok authorized with ⟨_, none⟩ | ⟨id, row, valid, viewed⟩
  · rw [none] at given
    cases given
  · rw [viewed] at given
    cases given
    rcases ownOperation_spec own with ⟨found, mine⟩
    rcases candidate_available available with ⟨succeeded, undoable, unclaimed, fenced, early⟩
    refine ⟨id, row, record, ⟨valid, found, mine, named, expected, succeeded, undoable, unclaimed,
      fenced, early⟩, made.symm, ?_⟩
    rw [← stored, ← made]
    rfl

/-- The record with the outcome of its undo. -/
def settledRecord (now : Nat) (response : Option HelperResponse) (current : OperationRecord) :
    OperationRecord :=
  { current with
    undoStatus := some (outcomeStatus response)
    updatedAt := now
    undoErrorCode := response.bind (fun response => response.errorKind) }

/-- The tokens after an undo. -/
def settledTokens (store : Store) (settled : OperationRecord) :
    Table (Uuid × Uuid) OperationRecord :=
  if settled.action = .trash ∧ settled.undoStatus = some .success then
    store.trashExpiry.erase (settled.accountId, settled.id)
  else store.trashExpiry

theorem finishUndo_ok {now : Nat} {record settled : OperationRecord}
    {response : Option HelperResponse}
    (done : store.finishUndo format config now record response = .ok (settled, after)) :
    ∃ current, store.operations.find record.key = some current ∧
      current.undoStatus = some .pending ∧ settled = settledRecord now response current ∧
      after = { store with
        trashExpiry := settledTokens store settled
        operations := store.operations.replace settled } := by
  simp only [finishUndo, bind_eq_ok, refuse_eq_ok, okOr_eq_ok, pure_eq_ok, Prod.mk.injEq,
    Bool.or_eq_false_iff, bne_eq_false_iff_eq] at done
  rcases done with ⟨current, found, _, ⟨_, pending⟩, _, _, made, stored⟩
  refine ⟨current, found, pending, made.symm, ?_⟩
  rw [← stored, ← made]
  rfl

/-! ## Finishing an operation -/

/-- What finishing an operation never changes in its record. -/
structure SameOperation (current finished : OperationRecord) : Prop where
  id : finished.id = current.id
  accountId : finished.accountId = current.accountId
  createdAt : finished.createdAt = current.createdAt
  requestId : finished.requestId = current.requestId
  generation : finished.generation = current.generation
  action : finished.action = current.action
  rootId : finished.rootId = current.rootId
  sourcePath : finished.sourcePath = current.sourcePath
  stagingPath : finished.stagingPath = current.stagingPath
  undoEpoch : finished.undoEpoch = current.undoEpoch
  undoStatus : finished.undoStatus = current.undoStatus

theorem SameOperation.key {current finished : OperationRecord}
    (same : SameOperation current finished) : finished.key = current.key := by
  unfold OperationRecord.key
  rw [same.accountId, same.createdAt, same.id]

/-- How far a ranged read got. -/
inductive RangeAdvance (current : OperationRecord) (response : Option HelperResponse)
    (finished : OperationRecord) : Prop where
  | unranged (start : current.rangeNextOffset = none) (still : finished.rangeNextOffset = none)
  | silent (absent : response = none) (same : finished.rangeNextOffset = current.rangeNextOffset)
      (read : finished.bytesRead = current.bytesRead)
  | failed (offset : Nat) (unsuccessful : finished.status ≠ .success)
      (start : current.rangeNextOffset = some offset)
      (same : finished.rangeNextOffset = some offset) (read : finished.bytesRead = current.bytesRead)
  | delivered (offset total : Nat) (data : List UInt8) (reply : HelperResponse)
      (start : current.rangeNextOffset = some offset) (answer : response = some reply)
      (succeeded : reply.success = true) (payload : reply.payload = .fileRange total offset data)
      (next : finished.rangeNextOffset = some (offset + data.length))
      (read : finished.bytesRead = current.bytesRead + data.length)

theorem delivered_ok {response : HelperResponse} {offset count : Nat}
    (done : delivered response offset = .ok count) :
    (response.success = false ∧ count = 0) ∨
      ∃ total data, response.success = true ∧ response.payload = .fileRange total offset data ∧
        count = data.length := by
  unfold delivered at done
  cases payload : response.payload with
  | fileRange total actual data =>
      simp only [payload] at done
      split at done
      · next condition =>
          rcases condition with ⟨success, same⟩
          subst same
          exact Or.inr ⟨total, data, success, rfl, (Except.ok.inj done).symm⟩
      · split at done
        · cases done
        · next failure =>
            exact Or.inl ⟨by simpa using failure, (Except.ok.inj done).symm⟩
  | trashEntry trashId =>
      simp only [payload] at done
      split at done
      · cases done
      · next failure => exact Or.inl ⟨by simpa using failure, (Except.ok.inj done).symm⟩
  | other =>
      simp only [payload] at done
      split at done
      · cases done
      · next failure => exact Or.inl ⟨by simpa using failure, (Except.ok.inj done).symm⟩

theorem checkedAddU64_ok {left right sum : Nat} (added : checkedAddU64 left right = .ok sum) :
    sum = left + right := by
  unfold checkedAddU64 at added
  split at added
  · exact (Except.ok.inj added).symm
  · cases added

theorem finishedRange_ok {current : OperationRecord} {response : HelperResponse} {read : Nat}
    {next : Option Nat} (done : finishedRange current response = .ok (read, next)) :
    (current.rangeNextOffset = none ∧ next = none) ∨
      ∃ offset count, current.rangeNextOffset = some offset ∧ next = some (offset + count) ∧
        read = current.bytesRead + count ∧ delivered response offset = .ok count := by
  unfold finishedRange at done
  cases start : current.rangeNextOffset with
  | none =>
      rw [start] at done
      cases done
      exact Or.inl ⟨rfl, rfl⟩
  | some offset =>
      simp only [start, bind_eq_ok, pure_eq_ok, Prod.mk.injEq] at done
      rcases done with ⟨count, counted, following, first, total, second, rfl, rfl⟩
      rw [checkedAddU64_ok first, checkedAddU64_ok second]
      exact Or.inr ⟨offset, count, rfl, rfl, rfl, counted⟩

/-- What a response leaves alone, and how far it took a ranged read. -/
theorem withResponse_ok {current finished : OperationRecord} {response : HelperResponse}
    (done : withResponse format current response = .ok finished) :
    SameOperation current finished ∧ finished.status = current.status ∧
      ∃ read, finishedRange current response = .ok (read, finished.rangeNextOffset) ∧
        finished.bytesRead = read := by
  simp only [withResponse, bind_eq_ok, pure_eq_ok, Prod.exists] at done
  rcases done with ⟨target, _, read, next, ranged, same⟩
  cases metadata : response.auditMetadata with
  | none =>
      simp only [metadata] at same
      subst same
      exact ⟨⟨rfl, rfl, rfl, rfl, rfl, rfl, rfl, rfl, rfl, rfl, rfl⟩, rfl, read, ranged, rfl⟩
  | some details =>
      simp only [metadata] at same
      subst same
      exact ⟨⟨rfl, rfl, rfl, rfl, rfl, rfl, rfl, rfl, rfl, rfl, rfl⟩, rfl, read, ranged, rfl⟩

theorem finishedRecord_ok {current record finished : OperationRecord}
    {response : Option HelperResponse} {at_ : Nat}
    (done : finishedRecord format current record response at_ = .ok finished) :
    current.status = .pending ∧ SameOperation current finished ∧
      finished.status = outcomeStatus response ∧ RangeAdvance current response finished := by
  simp only [finishedRecord, bind_eq_ok, refuse_eq_ok, Bool.or_eq_false_iff,
    bne_eq_false_iff_eq] at done
  rcases done with ⟨_, ⟨_, pending⟩, closed⟩
  refine ⟨pending, ?_⟩
  cases response with
  | none =>
      cases closed
      exact ⟨⟨rfl, rfl, rfl, rfl, rfl, rfl, rfl, rfl, rfl, rfl, rfl⟩, rfl, .silent rfl rfl rfl⟩
  | some reply =>
      rcases withResponse_ok closed with ⟨same, status, read, ranged, counted⟩
      refine ⟨⟨same.id, same.accountId, same.createdAt, same.requestId, same.generation,
        same.action, same.rootId, same.sourcePath, same.stagingPath, same.undoEpoch,
        same.undoStatus⟩, status, ?_⟩
      rcases finishedRange_ok ranged with ⟨unranged, still⟩ | ⟨offset, count, start, next, sum, answer⟩
      · exact .unranged unranged still
      · rcases delivered_ok answer with ⟨failure, rfl⟩ | ⟨total, data, success, payload, rfl⟩
        · refine .failed offset ?_ start next (counted.trans sum)
          rw [status]
          change outcomeStatus (some reply) ≠ .success
          simp [outcomeStatus, failure]
        · exact .delivered offset total data reply start rfl success payload next
            (counted.trans sum)

/-- The trash tokens after an operation. -/
def trashAfter (format : JournalFormat) (finished record : OperationRecord)
    (tokens : Table (Uuid × Uuid) OperationRecord) : Table (Uuid × Uuid) OperationRecord :=
  if finished.action = .trash then
    settleToken tokens (decide (finished.status = .failed)) finished
  else if finished.status = .success ∧ (finished.action = .delete ∨ finished.action = .restore) then
    match namedTrash format record with
    | none => tokens
    | some id => tokens.erase (finished.accountId, id)
  else tokens

/-- The staging tokens after an operation. -/
def stagingAfter (finished : OperationRecord) (tokens : Table (Uuid × Uuid) OperationRecord) :
    Table (Uuid × Uuid) OperationRecord :=
  if finished.stagingPath.isSome then
    settleToken tokens (decide (finished.status = .success)) finished
  else tokens

/-- Settling an operation touches its tokens only. -/
theorem settled_eq (store : Store) (finished record : OperationRecord) :
    Store.retireTrash format finished record
        ((store.settleTrash finished).settleStaging finished) =
      { store with
        trashExpiry := trashAfter format finished record store.trashExpiry
        stagingExpiry := stagingAfter finished store.stagingExpiry } := by
  have staged : forall other : Store, other.settleStaging finished =
      { other with stagingExpiry := stagingAfter finished other.stagingExpiry } := by
    intro other
    unfold settleStaging stagingAfter
    split <;> rfl
  rw [staged]
  unfold settleTrash trashAfter retireTrash
  by_cases trashed : finished.action = .trash
  · have neither : ¬ (finished.status = .success ∧
        (finished.action = .delete ∨ finished.action = .restore)) := by
      rw [trashed]
      simp
    rw [if_pos trashed, if_pos trashed, if_neg neither]
  · rw [if_neg trashed, if_neg trashed]
    split
    · cases namedTrash format record with
      | none => rfl
      | some id => rfl
    · rfl

/-- What a successful `finish_operation` found and wrote. -/
theorem finishOperation_ok {record finished : OperationRecord} {response : Option HelperResponse}
    {at_ : Nat}
    (done : store.finishOperation format config record response at_ = .ok (finished, after)) :
    ∃ current, store.operations.find record.key = some current ∧ current.status = .pending ∧
      SameOperation current finished ∧ finished.status = outcomeStatus response ∧
      RangeAdvance current response finished ∧
      after = { store with
        operations := store.operations.replace finished
        trashExpiry := trashAfter format finished record store.trashExpiry
        stagingExpiry := stagingAfter finished store.stagingExpiry } := by
  simp only [finishOperation, bind_eq_ok, okOr_eq_ok, pure_eq_ok, Prod.mk.injEq] at done
  rcases done with ⟨current, found, _, closed, _, _, rfl, stored⟩
  rcases finishedRecord_ok closed with ⟨pending, same, status, advance⟩
  refine ⟨current, found, pending, same, status, advance, ?_⟩
  rw [← stored, settled_eq]

end Store

end TealDrive
