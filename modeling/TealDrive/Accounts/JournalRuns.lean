import TealDrive.Library.Runs
import TealDrive.Accounts.GrantChanges
import TealDrive.Accounts.JournalEffects

namespace TealDrive

open Outcome

/-!
# Runs of the journal

Many processes use one journal.  What they do to it is a sequence of database
statements and transactions, one of which is one step here; what a process has
read and will act on later is kept in the state, so that anything may happen in
between.  A step that the database or a check refuses changes nothing but the
identifiers that were drawn.

The log is not in the database.  It records what was begun, finished, claimed
and cleaned, so that theorems can speak about whole runs.
-/

/-- What a claim asked for, and the store it found. -/
structure ClaimCall where
  store : Store
  config : JournalConfig
  drawn : Uuid
  authority : Authority
  operationId : Uuid
  expectedState : Text
  at_ : Nat

inductive JournalEvent where
  | begun (record : OperationRecord)
  | finished (record : OperationRecord)
  | claimed (call : ClaimCall)
  | settled (record : OperationRecord)
  | restored
  | trashCleaned (accountId id : Uuid)
  | stagingCleaned (accountId id : Uuid)

structure JournalState where
  store : Store
  /-- How many identifiers were drawn. -/
  drawn : Nat
  /-- The undo epochs that were read. -/
  epochs : List Uuid
  /-- The continued records that were checked but not written yet. -/
  continued : List OperationRecord
  /-- The records `begin_operation` returned. -/
  returned : List OperationRecord
  /-- What `gc_operations` found but did not delete yet. -/
  expired : List (OperationKey × OperationRecord)
  log : List JournalEvent

inductive JournalStep where
  /-- Any other operation of the store. -/
  | account (op : StoreOp)
  | restore (now : Nat) (actor : Authority)
  /-- `INSERT OR IGNORE` of an undo epoch. -/
  | drawEpoch
  | readEpoch
  /-- `begin_operation` finds the record it continues. -/
  | read (config : JournalConfig) (actor : Account) (request : HelperRequest) (offset at_ : Nat)
  /-- `begin_operation` writes a continued record. -/
  | write (record : OperationRecord)
  /-- The transaction of `begin_operation`. -/
  | insert (config : JournalConfig) (ledger : Store.Ledger) (actor : Account)
      (request : HelperRequest) (epoch : Uuid) (at_ : Nat)
  | finish (config : JournalConfig) (record : OperationRecord) (logReserveBytes : Nat)
      (logStorage : Option Text) (response : Option HelperResponse) (at_ : Nat)
  /-- `gc_operations` looks for old records. -/
  | sweep (config : JournalConfig) (at_ : Nat)
  | delete (row : OperationKey × OperationRecord)
  | claim (config : JournalConfig) (authority : Authority) (operationId : Uuid)
      (expectedState : Text) (at_ : Nat)
  | finishUndo (config : JournalConfig) (now : Nat) (record : OperationRecord)
      (response : Option HelperResponse)
  /-- A cleanup deletes a token. -/
  | cleanTrash (accountId id : Uuid)
  | cleanStaging (accountId id : Uuid)
  /-- A cleanup writes back its copy of a token. -/
  | reviewTrash (copy : OperationRecord)
  | reviewStaging (copy : OperationRecord)

namespace JournalState

def initial (store : Store) : JournalState where
  store := { store with operations := .empty, trashExpiry := .empty, stagingExpiry := .empty,
                        undoEpoch := none }
  drawn := 0
  epochs := []
  continued := []
  returned := []
  expired := []
  log := []

section Steps

variable (env : Environment) (format : JournalFormat) (ids : Nat -> Uuid)

/-- The operations of the store that are not steps of the journal. -/
def ordinary : StoreOp -> Bool
  | .keepBooks _ | .invalidateRestoredSessions _ _ _ => false
  | _ => true

def account (op : StoreOp) (state : JournalState) : JournalState :=
  if ordinary op then { state with store := StoreOp.step env state.store op } else state

def restore (now : Nat) (actor : Authority) (state : JournalState) : JournalState :=
  match StoreOp.apply env (.invalidateRestoredSessions now (ids state.drawn) actor) state.store with
  | .error _ => { state with drawn := state.drawn + 1 }
  | .ok store =>
      { state with store := store, drawn := state.drawn + 1, log := .restored :: state.log }

def drawEpoch (state : JournalState) : JournalState :=
  { state with
    store := state.store.ensureEpoch (ids state.drawn)
    drawn := state.drawn + 1 }

def readEpoch (state : JournalState) : JournalState :=
  { state with epochs := state.store.undoEpoch.toList ++ state.epochs }

/-- The continued record of a ranged read. -/
def continues (config : JournalConfig) (actor : Account) (request : HelperRequest)
    (offset at_ : Nat) (state : JournalState) : Option OperationRecord := do
  let previous ← state.store.previousRecord actor.id request.requestId
  (Store.continuedRecord format config actor request offset at_ previous).toOption

def read (config : JournalConfig) (actor : Account) (request : HelperRequest) (offset at_ : Nat)
    (state : JournalState) : JournalState :=
  match state.continues format config actor request offset at_ with
  | none => state
  | some record => { state with continued := record :: state.continued }

def write (record : OperationRecord) (state : JournalState) : JournalState :=
  if record ∈ state.continued then
    { state with
      store := state.store.writeRecord record
      returned := record :: state.returned }
  else state

/-- The record of a new operation, and the store with it. -/
def inserted (config : JournalConfig) (ledger : Store.Ledger) (actor : Account)
    (request : HelperRequest) (epoch : Uuid) (at_ : Nat) (state : JournalState) :
    Except StoreError (OperationRecord × Store) := do
  let record ← Store.preparedRecord format config actor request (ids state.drawn) epoch at_
  let store ← state.store.insertRecord config ledger actor record at_
  return (record, store)

def insert (config : JournalConfig) (ledger : Store.Ledger) (actor : Account)
    (request : HelperRequest) (epoch : Uuid) (at_ : Nat) (state : JournalState) : JournalState :=
  if epoch ∈ state.epochs then
    match state.inserted format ids config ledger actor request epoch at_ with
    | .error _ => { state with drawn := state.drawn + 1 }
    | .ok (record, store) =>
        { state with
          store := store
          drawn := state.drawn + 1
          returned := record :: state.returned
          log := .begun record :: state.log }
  else state

/-- A record as the helper hands it back. -/
def charged (record : OperationRecord) (logReserveBytes : Nat) (logStorage : Option Text) :
    OperationRecord :=
  { record with logReserveBytes := logReserveBytes, logStorage := logStorage }

def finish (config : JournalConfig) (record : OperationRecord) (logReserveBytes : Nat)
    (logStorage : Option Text) (response : Option HelperResponse) (at_ : Nat)
    (state : JournalState) : JournalState :=
  if record ∈ state.returned then
    match state.store.finishOperation format config (charged record logReserveBytes logStorage)
        response at_ with
    | .error _ => state
    | .ok (finished, store) =>
        { state with store := store, log := .finished finished :: state.log }
  else state

def sweep (config : JournalConfig) (at_ : Nat) (state : JournalState) : JournalState :=
  match state.store.expiredOperations config at_ with
  | .error _ => state
  | .ok rows => { state with expired := rows ++ state.expired }

/-- A selected row is deleted.  The loop over the rows also checks each of them and
ends at the first that is not as it should be; here any of the rows may be deleted. -/
def delete (row : OperationKey × OperationRecord) (state : JournalState) : JournalState :=
  if row ∈ state.expired then { state with store := state.store.deleteExact row } else state

def claim (config : JournalConfig) (authority : Authority) (operationId : Uuid)
    (expectedState : Text) (at_ : Nat) (state : JournalState) : JournalState :=
  match state.store.claimUndo format config (ids state.drawn) authority operationId expectedState
      at_ with
  | .error _ => { state with drawn := state.drawn + 1 }
  | .ok (_, store) =>
      { state with
        store := store
        drawn := state.drawn + 1
        log := .claimed ⟨state.store, config, ids state.drawn, authority, operationId,
          expectedState, at_⟩ :: state.log }

def finishUndo (config : JournalConfig) (now : Nat) (record : OperationRecord)
    (response : Option HelperResponse) (state : JournalState) : JournalState :=
  match state.store.finishUndo format config now record response with
  | .error _ => state
  | .ok (settled, store) => { state with store := store, log := .settled settled :: state.log }

def cleanTrash (accountId id : Uuid) (state : JournalState) : JournalState :=
  { state with
    store := { state.store with trashExpiry := state.store.trashExpiry.erase (accountId, id) }
    log := .trashCleaned accountId id :: state.log }

def cleanStaging (accountId id : Uuid) (state : JournalState) : JournalState :=
  { state with
    store := { state.store with stagingExpiry := state.store.stagingExpiry.erase (accountId, id) }
    log := .stagingCleaned accountId id :: state.log }

def reviewTrash (copy : OperationRecord) (state : JournalState) : JournalState :=
  { state with
    store := { state.store with
      trashExpiry := state.store.trashExpiry.modify (copy.accountId, copy.id) (fun _ => copy) } }

def reviewStaging (copy : OperationRecord) (state : JournalState) : JournalState :=
  { state with
    store := { state.store with
      stagingExpiry := state.store.stagingExpiry.modify (copy.accountId, copy.id)
        (fun _ => copy) } }

def step (state : JournalState) : JournalStep -> JournalState
  | .account op => state.account env op
  | .restore now actor => state.restore env ids now actor
  | .drawEpoch => state.drawEpoch ids
  | .readEpoch => state.readEpoch
  | .read config actor request offset at_ => state.read format config actor request offset at_
  | .write record => state.write record
  | .insert config ledger actor request epoch at_ =>
      state.insert format ids config ledger actor request epoch at_
  | .finish config record logReserveBytes logStorage response at_ =>
      state.finish format config record logReserveBytes logStorage response at_
  | .sweep config at_ => state.sweep config at_
  | .delete row => state.delete row
  | .claim config authority operationId expectedState at_ =>
      state.claim format ids config authority operationId expectedState at_
  | .finishUndo config now record response => state.finishUndo format config now record response
  | .cleanTrash accountId id => state.cleanTrash accountId id
  | .cleanStaging accountId id => state.cleanStaging accountId id
  | .reviewTrash copy => state.reviewTrash copy
  | .reviewStaging copy => state.reviewStaging copy

end Steps

/-! ## What a step can do -/

/-- Everything a step can do.  Whatever is refused is idle, and may have drawn
an identifier. -/
inductive Moves (format : JournalFormat) (ids : Nat -> Uuid) (state : JournalState) :
    JournalStep -> JournalState -> Prop where
  | idle (step : JournalStep) : Moves format ids state step state
  | drew (step : JournalStep) : Moves format ids state step { state with drawn := state.drawn + 1 }
  | account (op : StoreOp) (store : Store) (tables : SameJournal state.store store)
      (epoch : store.undoEpoch = state.store.undoEpoch) :
      Moves format ids state (.account op) { state with store := store }
  | restore (now : Nat) (actor : Authority) (store : Store) (tables : SameJournal state.store store)
      (epoch : store.undoEpoch = some (ids state.drawn)) :
      Moves format ids state (.restore now actor)
        { state with store := store, drawn := state.drawn + 1, log := .restored :: state.log }
  | drawEpoch : Moves format ids state .drawEpoch (state.drawEpoch ids)
  | readEpoch : Moves format ids state .readEpoch state.readEpoch
  | read (config : JournalConfig) (actor : Account) (request : HelperRequest) (offset at_ : Nat)
      (previous record : OperationRecord)
      (found : state.store.previousRecord actor.id request.requestId = some previous)
      (accepted : Store.continuedRecord format config actor request offset at_ previous =
        .ok record) :
      Moves format ids state (.read config actor request offset at_)
        { state with continued := record :: state.continued }
  | write (record : OperationRecord) (checked : record ∈ state.continued) :
      Moves format ids state (.write record)
        { state with
          store := state.store.writeRecord record
          returned := record :: state.returned }
  | insert (config : JournalConfig) (ledger : Store.Ledger) (actor : Account)
      (request : HelperRequest) (epoch : Uuid) (at_ : Nat) (record : OperationRecord)
      (store : Store) (known : epoch ∈ state.epochs)
      (made : record = newRecord format actor request (ids state.drawn) epoch at_)
      (inserted : state.store.insertRecord config ledger actor record at_ = .ok store) :
      Moves format ids state (.insert config ledger actor request epoch at_)
        { state with
          store := store
          drawn := state.drawn + 1
          returned := record :: state.returned
          log := .begun record :: state.log }
  | finish (config : JournalConfig) (record : OperationRecord) (logReserveBytes : Nat)
      (logStorage : Option Text) (response : Option HelperResponse) (at_ : Nat)
      (finished : OperationRecord) (store : Store) (known : record ∈ state.returned)
      (done : state.store.finishOperation format config
        (charged record logReserveBytes logStorage) response at_ = .ok (finished, store)) :
      Moves format ids state (.finish config record logReserveBytes logStorage response at_)
        { state with store := store, log := .finished finished :: state.log }
  | sweep (config : JournalConfig) (at_ : Nat) (rows : List (OperationKey × OperationRecord))
      (found : state.store.expiredOperations config at_ = .ok rows) :
      Moves format ids state (.sweep config at_) { state with expired := rows ++ state.expired }
  | delete (row : OperationKey × OperationRecord) (listed : row ∈ state.expired) :
      Moves format ids state (.delete row) { state with store := state.store.deleteExact row }
  | claim (config : JournalConfig) (authority : Authority) (operationId : Uuid)
      (expectedState : Text) (at_ : Nat) (caller : Uuid) (row : AccountRow)
      (record : OperationRecord)
      (claims : Store.Claims config (ids state.drawn) authority operationId expectedState at_
        state.store caller row record) :
      Moves format ids state (.claim config authority operationId expectedState at_)
        { state with
          store := { state.store.ensureEpoch (ids state.drawn) with
            operations := state.store.operations.replace (Store.claimedRecord record) }
          drawn := state.drawn + 1
          log := .claimed ⟨state.store, config, ids state.drawn, authority, operationId,
            expectedState, at_⟩ :: state.log }
  | finishUndo (config : JournalConfig) (now : Nat) (record : OperationRecord)
      (response : Option HelperResponse) (current : OperationRecord)
      (found : state.store.operations.find record.key = some current)
      (pending : current.undoStatus = some .pending) :
      Moves format ids state (.finishUndo config now record response)
        { state with
          store := { state.store with
            trashExpiry := Store.settledTokens state.store
              (Store.settledRecord now response current)
            operations := state.store.operations.replace
              (Store.settledRecord now response current) }
          log := .settled (Store.settledRecord now response current) :: state.log }
  | cleanTrash (accountId id : Uuid) :
      Moves format ids state (.cleanTrash accountId id) (state.cleanTrash accountId id)
  | cleanStaging (accountId id : Uuid) :
      Moves format ids state (.cleanStaging accountId id) (state.cleanStaging accountId id)
  | reviewTrash (copy : OperationRecord) :
      Moves format ids state (.reviewTrash copy) (state.reviewTrash copy)
  | reviewStaging (copy : OperationRecord) :
      Moves format ids state (.reviewStaging copy) (state.reviewStaging copy)

/-- What was begun stays in the log. -/
theorem Moves.begun {format : JournalFormat} {ids : Nat -> Uuid} {state after : JournalState}
    {step : JournalStep} (moves : Moves format ids state step after) (born : OperationRecord)
    (listed : .begun born ∈ state.log) : .begun born ∈ after.log := by
  cases moves with
  | restore | insert | finish | claim | finishUndo | cleanTrash | cleanStaging =>
      exact List.mem_cons_of_mem _ listed
  | _ => exact listed

section Cases

variable (env : Environment) (format : JournalFormat) (ids : Nat -> Uuid) (state : JournalState)

theorem account_moves (op : StoreOp) :
    Moves format ids state (.account op) (state.account env op) := by
  unfold account
  split
  · next plain =>
      rcases StoreOp.step_cases env state.store op with same | done
      · rw [same]
        exact .idle _
      · rcases (StoreOp.apply_grants done).2.2 with ⟨tables, epoch⟩ | ⟨_, _, _, rfl, _, _⟩ | ⟨_, rfl⟩
        · exact .account op _ tables epoch
        · cases plain
        · cases plain
  · exact .idle _

theorem restore_moves (now : Nat) (actor : Authority) :
    Moves format ids state (.restore now actor) (state.restore env ids now actor) := by
  unfold restore
  split
  · exact .drew _
  · next store done =>
      rcases StoreOp.committed_eq_ok done with ⟨result, done⟩
      rcases Store.invalidateRestoredSessions_ok done with ⟨_, _, rfl⟩
      exact .restore now actor _ ⟨rfl, rfl, rfl⟩ rfl

theorem read_moves (config : JournalConfig) (actor : Account) (request : HelperRequest)
    (offset at_ : Nat) :
    Moves format ids state (.read config actor request offset at_)
      (state.read format config actor request offset at_) := by
  unfold read
  split
  · exact .idle _
  · next record found =>
      rcases Option.bind_eq_some_iff.mp found with ⟨previous, located, checked⟩
      cases outcome : Store.continuedRecord format config actor request offset at_ previous with
      | error problem =>
          rw [outcome] at checked
          cases checked
      | ok continued =>
          rw [outcome] at checked
          cases checked
          exact .read config actor request offset at_ previous record located outcome

theorem write_moves (record : OperationRecord) :
    Moves format ids state (.write record) (state.write record) := by
  unfold write
  split
  · next checked => exact .write record checked
  · exact .idle _

theorem insert_moves (config : JournalConfig) (ledger : Store.Ledger) (actor : Account)
    (request : HelperRequest) (epoch : Uuid) (at_ : Nat) :
    Moves format ids state (.insert config ledger actor request epoch at_)
      (state.insert format ids config ledger actor request epoch at_) := by
  unfold insert
  split
  · next known =>
      split
      · exact .drew _
      · next record store done =>
          simp only [inserted, bind_eq_ok, pure_eq_ok, Prod.mk.injEq] at done
          rcases done with ⟨_, prepared, _, insertion, rfl, rfl⟩
          exact .insert config ledger actor request epoch at_ _ _ known
            (Store.preparedRecord_ok prepared) insertion
  · exact .idle _

theorem finish_moves (config : JournalConfig) (record : OperationRecord) (logReserveBytes : Nat)
    (logStorage : Option Text) (response : Option HelperResponse) (at_ : Nat) :
    Moves format ids state (.finish config record logReserveBytes logStorage response at_)
      (state.finish format config record logReserveBytes logStorage response at_) := by
  unfold finish
  split
  · next known =>
      split
      · exact .idle _
      · next finished store done =>
          exact .finish config record logReserveBytes logStorage response at_ finished store known
            done
  · exact .idle _

theorem sweep_moves (config : JournalConfig) (at_ : Nat) :
    Moves format ids state (.sweep config at_) (state.sweep config at_) := by
  unfold sweep
  split
  · exact .idle _
  · next rows found => exact .sweep config at_ rows found

theorem delete_moves (row : OperationKey × OperationRecord) :
    Moves format ids state (.delete row) (state.delete row) := by
  unfold delete
  split
  · next listed => exact .delete row listed
  · exact .idle _

theorem claim_moves (config : JournalConfig) (authority : Authority) (operationId : Uuid)
    (expectedState : Text) (at_ : Nat) :
    Moves format ids state (.claim config authority operationId expectedState at_)
      (state.claim format ids config authority operationId expectedState at_) := by
  unfold claim
  split
  · exact .drew _
  · next claimed store done =>
      rcases Store.claimUndo_ok done with ⟨caller, row, record, claims, rfl, rfl⟩
      exact .claim config authority operationId expectedState at_ caller row record claims

theorem finishUndo_moves (config : JournalConfig) (now : Nat) (record : OperationRecord)
    (response : Option HelperResponse) :
    Moves format ids state (.finishUndo config now record response)
      (state.finishUndo format config now record response) := by
  unfold finishUndo
  split
  · exact .idle _
  · next settled store done =>
      rcases Store.finishUndo_ok done with ⟨current, found, pending, rfl, rfl⟩
      exact .finishUndo config now record response current found pending

theorem step_moves (step : JournalStep) :
    Moves format ids state step (state.step env format ids step) := by
  cases step with
  | account op => exact state.account_moves env format ids op
  | restore now actor => exact state.restore_moves env format ids now actor
  | drawEpoch => exact .drawEpoch
  | readEpoch => exact .readEpoch
  | read config actor request offset at_ =>
      exact state.read_moves format ids config actor request offset at_
  | write record => exact state.write_moves format ids record
  | insert config ledger actor request epoch at_ =>
      exact state.insert_moves format ids config ledger actor request epoch at_
  | finish config record logReserveBytes logStorage response at_ =>
      exact state.finish_moves format ids config record logReserveBytes logStorage response at_
  | sweep config at_ => exact state.sweep_moves format ids config at_
  | delete row => exact state.delete_moves format ids row
  | claim config authority operationId expectedState at_ =>
      exact state.claim_moves format ids config authority operationId expectedState at_
  | finishUndo config now record response =>
      exact state.finishUndo_moves format ids config now record response
  | cleanTrash accountId id => exact .cleanTrash accountId id
  | cleanStaging accountId id => exact .cleanStaging accountId id
  | reviewTrash copy => exact .reviewTrash copy
  | reviewStaging copy => exact .reviewStaging copy

/-! ## The call as a run -/

/-- A new record is stored in three steps. -/
theorem beginNew_run (config : JournalConfig) (ledger : Store.Ledger) (actor : Account)
    (request : HelperRequest) (at_ : Nat) :
    (Runs.run (step env format ids) state [.drawEpoch, .readEpoch,
        .insert config ledger actor request (state.store.undoEpoch.getD (ids state.drawn))
          at_]).store =
      (state.store.beginNew format config ⟨ids (state.drawn + 1), ids state.drawn⟩ ledger actor
        request at_).2 := by
  change (insert format ids config ledger actor request _ at_
    (readEpoch (drawEpoch ids state))).store = _
  unfold insert
  rw [if_pos (by simp [readEpoch, drawEpoch, Store.ensureEpoch])]
  unfold Store.beginNew inserted
  cases prepared : Store.preparedRecord format config actor request (ids (state.drawn + 1))
      (state.store.undoEpoch.getD (ids state.drawn)) at_ with
  | error problem => simp [drawEpoch, readEpoch, prepared, bind, Except.bind]
  | ok record =>
      cases stored : (state.store.ensureEpoch (ids state.drawn)).insertRecord config ledger actor
          record at_ with
      | error problem => simp [drawEpoch, readEpoch, prepared, stored, bind, Except.bind]
      | ok store =>
          simp [drawEpoch, readEpoch, prepared, stored, bind, Except.bind, pure, Except.pure]

/-- An undisturbed `begin_operation` is a run of at most three steps. -/
theorem beginOperation_run (config : JournalConfig) (ledger : Store.Ledger) (account : Account)
    (request : HelperRequest) (at_ : Nat) :
    ∃ steps, (Runs.run (step env format ids) state steps).store =
      (state.store.beginOperation format config ⟨ids (state.drawn + 1), ids state.drawn⟩ ledger
        account request at_).2 := by
  unfold Store.beginOperation
  dsimp only
  split
  · exact ⟨[], rfl⟩
  · next actor _ => exact ⟨_, beginNew_run env format ids state config ledger actor request at_⟩
  · next actor offset record earlier =>
      simp only [bind_eq_ok, pure_eq_ok, Prod.mk.injEq] at earlier
      rcases earlier with ⟨_, _, actor, _, _, found, rfl, rfl⟩
      split
      · exact ⟨[], rfl⟩
      · next continued accepted =>
          have reads : state.continues format config actor request offset at_ = some continued := by
            unfold continues
            rw [Store.earlierRecord_ok found]
            simp [accepted, Except.toOption]
          refine ⟨[.read config actor request offset at_, .write continued], ?_⟩
          change ((state.read format config actor request offset at_).write continued).store = _
          unfold read
          rw [reads]
          unfold write
          rw [if_pos List.mem_cons_self]

end Cases

end JournalState

end TealDrive
