import TealDrive.Library.History
import TealDrive.Accounts.Cleanup
import TealDrive.Accounts.UndoOnce

namespace TealDrive

open Outcome

/-!
# Processes and the lock of a root

Three kinds of processes act on operations: helper runs, which carry out one
request; undo runs, which claim an operation and put it back; and cleanup runs,
which remove old items from the trash.  Each of them takes the exclusive lock of
a root directory before it does its work, and may fail or die at any step, which
releases the lock.  Collecting old records, changes to accounts and restores
take no lock.

Every database statement is one step of the journal, so that a run of processes
is a run of the journal as well.  The history is not part of the system; it
records what the processes got done.
-/

/-- The root directory of an account, whose lock is taken. -/
abbrev RootKey := Uuid × RootId

structure UndoCall where
  authority : Authority
  operationId : Uuid
  expectedState : Text

/-- How far a process got, and what it remembers. -/
inductive Phase where
  | idle
  -- A helper run waits for the lock, reads the caller, looks for a record to
  -- continue, and stores what it begins.
  | waiting (account : Account) (request : HelperRequest)
  | locked (account : Account) (request : HelperRequest)
  | acting (actor : Account) (request : HelperRequest)
  | selected (record : OperationRecord)
  | fresh (actor : Account) (request : HelperRequest)
  | fenced (actor : Account) (request : HelperRequest) (epoch : Uuid)
  | begun (record : OperationRecord)
  | finished (record : OperationRecord)
  -- An undo run saw a candidate, took the lock, claimed it, and stored the
  -- outcome, if it could.
  | asked (call : UndoCall) (record : OperationRecord)
  | undoing (call : UndoCall) (record : OperationRecord)
  | claimed (record claim : OperationRecord)
  | settled (record claim : OperationRecord) (outcome : Option OperationStatus)
  -- A cleanup run goes through the tokens it selected.
  | listed (at_ : Nat) (rows : List (Uuid × Uuid))
  | picked (at_ : Nat) (copy : OperationRecord) (rest : List (Uuid × Uuid))
  | expiring (at_ : Nat) (copy : OperationRecord) (rest : List (Uuid × Uuid))
  | worked (at_ : Nat) (copy : OperationRecord) (rest : List (Uuid × Uuid)) (reached : Bool)
  -- Something was refused while the lock was held.
  | refused (key : RootKey)
  | ended

/-- The root an operation belongs to. -/
def OperationRecord.root (record : OperationRecord) : RootKey := (record.accountId, record.rootId)

namespace Phase

/-- The lock a process holds. -/
def holds : Phase -> Option RootKey
  | .locked account request => some (account.id, request.rootId)
  | .acting actor request | .fresh actor request | .fenced actor request _ =>
      some (actor.id, request.rootId)
  | .selected record | .begun record | .finished record | .undoing _ record | .claimed record _
  | .settled record _ _ | .expiring _ record _ | .worked _ record _ _ => some record.root
  | .refused key => some key
  | .idle | .waiting _ _ | .asked _ _ | .listed _ _ | .picked _ _ _ | .ended => none

/-- The lock a process waits for, and the phase it enters with it. -/
def admitted : Phase -> Option (RootKey × Phase)
  | .waiting account request => some ((account.id, request.rootId), .locked account request)
  | .asked call record => some (record.root, .undoing call record)
  | .picked at_ copy rest => some (copy.root, .expiring at_ copy rest)
  | _ => none

end Phase

inductive SystemEvent where
  /-- A range was begun. -/
  | begun (run : Nat) (key : OperationKey) (offset : Nat)
  /-- `finish_operation` recorded how the range ended. -/
  | closed (run : Nat) (key : OperationKey) (offset length : Nat) (status : OperationStatus)
  /-- The run that had begun a range on the record is over. -/
  | ended (run : Nat) (key : OperationKey)
  | claimed (accountId id : Uuid)
  | settled (accountId id : Uuid) (status : Option OperationStatus)
  /-- A cleanup worker got as far as `expire_trash`. -/
  | expired (accountId id : Uuid)
deriving DecidableEq

/-- The record a range event is about. -/
def SystemEvent.key : SystemEvent -> Option OperationKey
  | .begun _ key _ | .closed _ key _ _ _ | .ended _ key => some key
  | _ => none

structure System where
  journal : JournalState
  phases : Nat -> Phase
  locks : RootKey -> Option Nat
  history : List SystemEvent

inductive SystemStep where
  | other (step : JournalStep)
  | start (run : Nat) (account : Account) (request : HelperRequest)
  | acquire (run : Nat)
  | authorize (run : Nat) (config : JournalConfig)
  | select (run : Nat) (config : JournalConfig) (at_ : Nat)
  | write (run : Nat)
  | fence (run : Nat)
  | insert (run : Nat) (config : JournalConfig) (ledger : Store.Ledger) (at_ : Nat)
  | finish (run : Nat) (config : JournalConfig) (logReserveBytes : Nat) (logStorage : Option Text)
      (response : Option HelperResponse) (at_ : Nat)
  | ask (run : Nat) (call : UndoCall) (config : JournalConfig) (at_ : Nat)
  | claim (run : Nat) (config : JournalConfig) (at_ : Nat)
  | settle (run : Nat) (config : JournalConfig) (now : Nat) (response : Option HelperResponse)
  | list (run : Nat) (config : JournalConfig) (lifecycle : LifecycleConfig) (at_ : Nat)
  | pick (run : Nat) (lifecycle : LifecycleConfig)
  | expire (run : Nat) (lifecycle : LifecycleConfig) (now : Nat)
  | conclude (run : Nat) (config : JournalConfig) (success : Bool)
  /-- The process answers, fails or dies. -/
  | stop (run : Nat)

/-- The steps that no lock guards: accounts, restores, the collector, the epoch
and the tokens of staged operations. -/
def JournalStep.free : JournalStep -> Bool
  | .account _ | .restore _ _ | .drawEpoch | .readEpoch | .sweep _ _ | .delete _
  | .cleanStaging _ _ | .reviewStaging _ => true
  | _ => false

/-- The bytes a successful ranged read brought. -/
def deliveredLength : Option HelperResponse -> Nat
  | some ⟨true, _, _, _, _, .fileRange _ _ data⟩ => data.length
  | _ => 0

namespace System

def initial (store : Store) : System where
  journal := .initial store
  phases := fun _ => .idle
  locks := fun _ => none
  history := []

def enter (run : Nat) (phase : Phase) (system : System) : System :=
  { system with phases := Function.update system.phases run phase }

/-- The locks once a process in the given phase lets go. -/
def freed (phase : Phase) (system : System) : RootKey -> Option Nat :=
  match phase.holds with
  | none => system.locks
  | some key => Function.update system.locks key none

/-- The event of a begun range; other operations leave none. -/
def rangeBegun (run : Nat) (record : OperationRecord) : List SystemEvent :=
  (record.rangeNextOffset.map (fun offset => .begun run record.key offset)).toList

def rangeClosed (run : Nat) (record : OperationRecord) (response : Option HelperResponse)
    (status : OperationStatus) : List SystemEvent :=
  (record.rangeNextOffset.map (fun offset =>
    .closed run record.key offset (deliveredLength response) status)).toList

def rangeEnded (run : Nat) : Phase -> List SystemEvent
  | .begun record | .finished record =>
      (record.rangeNextOffset.map (fun _ => .ended run record.key)).toList
  | _ => []

section Steps

variable (env : Environment) (format : JournalFormat) (ids : Nat -> Uuid)

def other (step : JournalStep) (system : System) : System :=
  if step.free then { system with journal := system.journal.step env format ids step } else system

def start (run : Nat) (account : Account) (request : HelperRequest) (system : System) : System :=
  match system.phases run with
  | .idle => system.enter run (.waiting account request)
  | _ => system

def acquire (run : Nat) (system : System) : System :=
  match (system.phases run).admitted with
  | none => system
  | some (key, phase) =>
      match system.locks key with
      | some _ => system
      | none => { system.enter run phase with locks := Function.update system.locks key (some run) }

/-- `begin_operation` checks the request and reads the caller. -/
def authorize (run : Nat) (config : JournalConfig) (system : System) : System :=
  match system.phases run with
  | .locked account request =>
      match (do
        Store.checkBegin account request config
        system.journal.store.operationActor account : Except StoreError Account) with
      | .error _ => system.enter run (.refused (account.id, request.rootId))
      | .ok actor =>
          if request.command = .readFileRange then system.enter run (.acting actor request)
          else system.enter run (.fresh actor request)
  | _ => system

/-- `begin_operation` looks for the record of an earlier range. -/
def select (run : Nat) (config : JournalConfig) (at_ : Nat) (system : System) : System :=
  match system.phases run with
  | .acting actor request =>
      match Store.rangeOffset request with
      | .error _ => system.enter run (.refused (actor.id, request.rootId))
      | .ok offset =>
          match system.journal.store.previousRecord actor.id request.requestId with
          | none => system.enter run (.fresh actor request)
          | some previous =>
              match Store.continuedRecord format config actor request offset at_ previous with
              | .error _ => system.enter run (.refused (actor.id, request.rootId))
              | .ok record =>
                  { system.enter run (.selected record) with
                    journal := system.journal.read format config actor request offset at_ }
  | _ => system

def write (run : Nat) (system : System) : System :=
  match system.phases run with
  | .selected record =>
      { system.enter run (.begun record) with
        journal := system.journal.write record
        history := rangeBegun run record ++ system.history }
  | _ => system

/-- The epoch was stored before, by this process or another. -/
def fence (run : Nat) (system : System) : System :=
  match system.phases run, system.journal.store.undoEpoch with
  | .fresh actor request, some epoch =>
      { system.enter run (.fenced actor request epoch) with journal := system.journal.readEpoch }
  | _, _ => system

def insert (run : Nat) (config : JournalConfig) (ledger : Store.Ledger) (at_ : Nat)
    (system : System) : System :=
  match system.phases run with
  | .fenced actor request epoch =>
      let journal := system.journal.insert format ids config ledger actor request epoch at_
      match system.journal.inserted format ids config ledger actor request epoch at_ with
      | .error _ =>
          { system.enter run (.refused (actor.id, request.rootId)) with journal := journal }
      | .ok (record, _) =>
          { system.enter run (.begun record) with
            journal := journal
            history := rangeBegun run record ++ system.history }
  | _ => system

def finish (run : Nat) (config : JournalConfig) (logReserveBytes : Nat) (logStorage : Option Text)
    (response : Option HelperResponse) (at_ : Nat) (system : System) : System :=
  match system.phases run with
  | .begun record =>
      match system.journal.store.finishOperation format config
          (JournalState.charged record logReserveBytes logStorage) response at_ with
      | .error _ => system.enter run (.finished record)
      | .ok (finished, _) =>
          { system.enter run (.finished record) with
            journal := system.journal.finish format config record logReserveBytes logStorage
              response at_
            history := rangeClosed run record response finished.status ++ system.history }
  | _ => system

/-- `undo_candidate`, before the lock. -/
def ask (run : Nat) (call : UndoCall) (config : JournalConfig) (at_ : Nat) (system : System) :
    System :=
  match system.phases run, system.journal.store.undoEpoch with
  | .idle, some epoch =>
      match system.journal.store.undoCandidate config call.authority call.operationId epoch at_ with
      | .error _ => system
      | .ok candidate =>
          if candidate.available ∧ candidate.expectedState = some call.expectedState then
            system.enter run (.asked call candidate.operation)
          else system
  | _, _ => system

def claim (run : Nat) (config : JournalConfig) (at_ : Nat) (system : System) : System :=
  match system.phases run with
  | .undoing call record =>
      let journal := system.journal.claim format ids config call.authority call.operationId
        call.expectedState at_
      match system.journal.store.claimUndo format config (ids system.journal.drawn) call.authority
          call.operationId call.expectedState at_ with
      | .error _ => { system.enter run (.refused record.root) with journal := journal }
      | .ok (claim, _) =>
          { system.enter run (.claimed record claim) with
            journal := journal
            history := .claimed claim.accountId claim.id :: system.history }
  | _ => system

/-- The worker is over, and `finish_undo` is called. -/
def settle (run : Nat) (config : JournalConfig) (now : Nat) (response : Option HelperResponse)
    (system : System) : System :=
  match system.phases run with
  | .claimed record claim =>
      match system.journal.store.finishUndo format config now claim response with
      | .error _ => system.enter run (.settled record claim none)
      | .ok (settled, _) =>
          { system.enter run (.settled record claim settled.undoStatus) with
            journal := system.journal.finishUndo format config now claim response
            history := .settled settled.accountId settled.id settled.undoStatus :: system.history }
  | _ => system

/-- A cleanup selects tokens. -/
def list (run : Nat) (config : JournalConfig) (lifecycle : LifecycleConfig) (at_ : Nat)
    (system : System) : System :=
  match system.phases run with
  | .idle =>
      if lifecycle.valid ∧ config.enabled ∧ lifecycle.trashCleanupEnabled then
        match system.journal.store.trashRows lifecycle at_ with
        | .error _ => system
        | .ok rows => system.enter run (.listed at_ rows)
      else system
  | _ => system

/-- A cleanup reads the next token and its account. -/
def pick (run : Nat) (lifecycle : LifecycleConfig) (system : System) : System :=
  match system.phases run with
  | .listed at_ ((accountId, id) :: rest) =>
      match (do
        let copy ← system.journal.store.trashToken accountId id
        let actor ← system.journal.store.account accountId
        return (copy, actor) : Except StoreError (OperationRecord × Account)) with
      | .error _ => system.enter run .ended
      | .ok (copy, actor) =>
          if system.journal.store.purgedAccount actor then
            { system.enter run (.listed at_ rest) with
              journal := system.journal.cleanTrash accountId id }
          else if eligible format lifecycle copy at_ ∧ actor.status = .active then
            system.enter run (.picked at_ copy rest)
          else system.enter run (.listed at_ rest)
  | _ => system

/-- The worker of a cleanup reads the token again, and goes on if it may. -/
def expire (run : Nat) (lifecycle : LifecycleConfig) (now : Nat) (system : System) : System :=
  match system.phases run with
  | .expiring at_ copy rest =>
      match (do
        let token ← system.journal.store.trashToken copy.accountId copy.id
        let actor ← system.journal.store.account copy.accountId
        refuse (decide (actor.status ≠ .active) || !eligible format lifecycle token now) .forbidden
        : Except StoreError Unit) with
      | .error _ => system.enter run (.worked at_ copy rest false)
      | .ok _ =>
          { system.enter run (.worked at_ copy rest true) with
            history := .expired copy.accountId copy.id :: system.history }
  | _ => system

/-- The copy that a cleanup writes back when the worker did not succeed. -/
def needsReview (copy : OperationRecord) : OperationRecord :=
  { copy with trashGcStatus := some "needsReview".toList }

/-- A cleanup writes the result of the worker, and lets go of the root. -/
def conclude (run : Nat) (config : JournalConfig) (success : Bool) (system : System) : System :=
  match system.phases run with
  | .worked at_ copy rest reached =>
      let free := { system.enter run (.listed at_ rest) with
        locks := system.freed (system.phases run) }
      if success ∧ reached then
        { free with journal := system.journal.cleanTrash copy.accountId copy.id }
      else if format.size (needsReview copy) > config.maxRecordBytes then
        { free with phases := Function.update system.phases run .ended }
      else { free with journal := system.journal.reviewTrash (needsReview copy) }
  | _ => system

def stop (run : Nat) (system : System) : System :=
  { system.enter run .ended with
    locks := system.freed (system.phases run)
    history := rangeEnded run (system.phases run) ++ system.history }

def step (system : System) : SystemStep -> System
  | .other step => system.other env format ids step
  | .start run account request => system.start run account request
  | .acquire run => system.acquire run
  | .authorize run config => system.authorize run config
  | .select run config at_ => system.select format run config at_
  | .write run => system.write run
  | .fence run => system.fence run
  | .insert run config ledger at_ => system.insert format ids run config ledger at_
  | .finish run config logReserveBytes logStorage response at_ =>
      system.finish format run config logReserveBytes logStorage response at_
  | .ask run call config at_ => system.ask run call config at_
  | .claim run config at_ => system.claim format ids run config at_
  | .settle run config now response => system.settle format run config now response
  | .list run config lifecycle at_ => system.list run config lifecycle at_
  | .pick run lifecycle => system.pick format run lifecycle
  | .expire run lifecycle now => system.expire format run lifecycle now
  | .conclude run config success => system.conclude format run config success
  | .stop run => system.stop run

end Steps

/-! ## What a step can do -/

end System

namespace Phase

/-- The journal knows what the process remembers of it. -/
def Known (journal : JournalState) : Phase -> Prop
  | .selected record => record ∈ journal.continued
  | .fenced _ _ epoch => epoch ∈ journal.epochs
  | .begun record => record ∈ journal.returned
  | _ => True

/-- The process is not engaged in an operation. -/
def plain : Phase -> Bool
  | .idle | .waiting _ _ | .listed _ _ | .ended => true
  | _ => false

/-- The process has the lock, but no operation yet or no more. -/
def bare : Phase -> Bool
  | .locked _ _ | .acting _ _ | .fresh _ _ | .fenced _ _ _ | .undoing _ _ | .refused _ => true
  | _ => false

/-- The process has not finished an operation yet. -/
def opened : Phase -> Bool
  | .idle | .waiting _ _ | .locked _ _ | .acting _ _ | .selected _ | .fresh _ _ | .fenced _ _ _
  | .begun _ => true
  | _ => false

end Phase

namespace System

/-- Everything a step can do, where only some processes may end. -/
inductive Acts (format : JournalFormat) (ids : Nat -> Uuid) (ends : Nat -> Prop) (system : System) :
    System -> Prop where
  | idle : Acts format ids ends system system
  | free (step : JournalStep) (journal : JournalState) (unlocked : step.free = true)
      (moves : JournalState.Moves format ids system.journal step journal) :
      Acts format ids ends system { system with journal := journal }
  | turn (run : Nat) (phase : Phase) (before : (system.phases run).plain = true)
      (after : phase.plain = true) (later : phase.opened = true -> (system.phases run).opened = true) :
      Acts format ids ends system (system.enter run phase)
  | acquire (run : Nat) (key : RootKey) (phase : Phase)
      (wants : (system.phases run).admitted = some (key, phase)) (unheld : system.locks key = none) :
      Acts format ids ends system { system.enter run phase with
        locks := Function.update system.locks key (some run) }
  | advance (run : Nat) (phase : Phase) (step : JournalStep) (journal : JournalState)
      (before : (system.phases run).bare = true) (after : phase.bare = true)
      (same : phase.holds = (system.phases run).holds)
      (later : phase.opened = true -> (system.phases run).opened = true)
      (known : phase.Known journal) (apart : forall call record, phase ≠ .undoing call record)
      (moves : JournalState.Moves format ids system.journal step journal)
      (store : journal.store.operations = system.journal.store.operations ∧
        journal.store.trashExpiry = system.journal.store.trashExpiry)
      (log : journal.log = system.journal.log) :
      Acts format ids ends system { system.enter run phase with journal := journal }
  | select (run : Nat) (config : JournalConfig) (actor : Account) (request : HelperRequest)
      (offset at_ : Nat) (previous record : OperationRecord)
      (before : system.phases run = .acting actor request)
      (found : system.journal.store.previousRecord actor.id request.requestId = some previous)
      (accepted : Store.continuedRecord format config actor request offset at_ previous =
        .ok record) :
      Acts format ids ends system { system.enter run (.selected record) with
        journal := { system.journal with continued := record :: system.journal.continued } }
  | write (run : Nat) (record : OperationRecord) (before : system.phases run = .selected record)
      (checked : record ∈ system.journal.continued) :
      Acts format ids ends system { system.enter run (.begun record) with
        journal := { system.journal with
          store := system.journal.store.writeRecord record
          returned := record :: system.journal.returned }
        history := rangeBegun run record ++ system.history }
  | insert (run : Nat) (config : JournalConfig) (ledger : Store.Ledger) (actor : Account)
      (request : HelperRequest) (epoch : Uuid) (at_ : Nat) (record : OperationRecord)
      (store : Store) (before : system.phases run = .fenced actor request epoch)
      (known : epoch ∈ system.journal.epochs)
      (made : record = newRecord format actor request (ids system.journal.drawn) epoch at_)
      (inserted : system.journal.store.insertRecord config ledger actor record at_ = .ok store) :
      Acts format ids ends system { system.enter run (.begun record) with
        journal := { system.journal with
          store := store
          drawn := system.journal.drawn + 1
          returned := record :: system.journal.returned
          log := .begun record :: system.journal.log }
        history := rangeBegun run record ++ system.history }
  | finish (run : Nat) (config : JournalConfig) (record : OperationRecord) (logReserveBytes : Nat)
      (logStorage : Option Text) (response : Option HelperResponse) (at_ : Nat)
      (finished : OperationRecord) (store : Store) (before : system.phases run = .begun record)
      (known : record ∈ system.journal.returned)
      (done : system.journal.store.finishOperation format config
        (JournalState.charged record logReserveBytes logStorage) response at_ =
          .ok (finished, store)) :
      Acts format ids ends system { system.enter run (.finished record) with
        journal := { system.journal with
          store := store, log := .finished finished :: system.journal.log }
        history := rangeClosed run record response finished.status ++ system.history }
  | finishLost (run : Nat) (record : OperationRecord)
      (before : system.phases run = .begun record) :
      Acts format ids ends system (system.enter run (.finished record))
  | ask (run : Nat) (call : UndoCall) (record : OperationRecord)
      (before : system.phases run = .idle)
      (found : system.journal.store.operations.find record.key = some record)
      (named : record.id = call.operationId) :
      Acts format ids ends system (system.enter run (.asked call record))
  | claim (run : Nat) (config : JournalConfig) (at_ : Nat) (call : UndoCall)
      (record : OperationRecord) (caller : Uuid) (row : AccountRow) (current : OperationRecord)
      (before : system.phases run = .undoing call record)
      (claims : Store.Claims config (ids system.journal.drawn) call.authority call.operationId
        call.expectedState at_ system.journal.store caller row current) :
      Acts format ids ends system { system.enter run (.claimed record (Store.claimedRecord current)) with
        journal := { system.journal with
          store := { system.journal.store.ensureEpoch (ids system.journal.drawn) with
            operations := system.journal.store.operations.replace (Store.claimedRecord current) }
          drawn := system.journal.drawn + 1
          log := .claimed ⟨system.journal.store, config, ids system.journal.drawn, call.authority,
            call.operationId, call.expectedState, at_⟩ :: system.journal.log }
        history := .claimed current.accountId current.id :: system.history }
  | settle (run : Nat) (config : JournalConfig) (now : Nat) (response : Option HelperResponse)
      (record claim current : OperationRecord) (before : system.phases run = .claimed record claim)
      (found : system.journal.store.operations.find claim.key = some current)
      (pending : current.undoStatus = some .pending) :
      Acts format ids ends system
        { system.enter run (.settled record claim (some (Store.outcomeStatus response))) with
          journal := { system.journal with
            store := { system.journal.store with
              trashExpiry := Store.settledTokens system.journal.store
                (Store.settledRecord now response current)
              operations := system.journal.store.operations.replace
                (Store.settledRecord now response current) }
            log := .settled (Store.settledRecord now response current) :: system.journal.log }
          history := .settled current.accountId current.id (some (Store.outcomeStatus response)) ::
            system.history }
  | settleLost (run : Nat) (record claim : OperationRecord)
      (before : system.phases run = .claimed record claim) :
      Acts format ids ends system (system.enter run (.settled record claim none))
  | drop (run at_ : Nat) (accountId id : Uuid) (rest : List (Uuid × Uuid))
      (before : (system.phases run).plain = true) (open_ : (system.phases run).opened = false) :
      Acts format ids ends system { system.enter run (.listed at_ rest) with
        journal := system.journal.cleanTrash accountId id }
  | pick (run at_ : Nat) (copy : OperationRecord) (rest : List (Uuid × Uuid))
      (before : (system.phases run).plain = true)
      (found : system.journal.store.trashExpiry.find (copy.accountId, copy.id) = some copy) :
      Acts format ids ends system (system.enter run (.picked at_ copy rest))
  | expire (run at_ : Nat) (copy token : OperationRecord) (rest : List (Uuid × Uuid))
      (before : system.phases run = .expiring at_ copy rest)
      (found : system.journal.store.trashExpiry.find (copy.accountId, copy.id) = some token) :
      Acts format ids ends system { system.enter run (.worked at_ copy rest true) with
        history := .expired copy.accountId copy.id :: system.history }
  | unexpired (run at_ : Nat) (copy : OperationRecord) (rest : List (Uuid × Uuid))
      (before : system.phases run = .expiring at_ copy rest) :
      Acts format ids ends system (system.enter run (.worked at_ copy rest false))
  | cleaned (run at_ : Nat) (copy : OperationRecord) (rest : List (Uuid × Uuid)) (reached : Bool)
      (before : system.phases run = .worked at_ copy rest reached) :
      Acts format ids ends system { system.enter run (.listed at_ rest) with
        locks := Function.update system.locks copy.root none
        journal := system.journal.cleanTrash copy.accountId copy.id }
  | reviewed (run at_ : Nat) (copy : OperationRecord) (rest : List (Uuid × Uuid)) (reached : Bool)
      (before : system.phases run = .worked at_ copy rest reached) :
      Acts format ids ends system { system.enter run (.listed at_ rest) with
        locks := Function.update system.locks copy.root none
        journal := system.journal.reviewTrash (needsReview copy) }
  | overflow (run at_ : Nat) (copy : OperationRecord) (rest : List (Uuid × Uuid)) (reached : Bool)
      (before : system.phases run = .worked at_ copy rest reached) :
      Acts format ids ends system { system.enter run .ended with
        locks := Function.update system.locks copy.root none }
  | stop (run : Nat) (ending : ends run) : Acts format ids ends system (system.stop run)

section Cases

variable {env : Environment} {format : JournalFormat} {ids : Nat -> Uuid} {ends : Nat -> Prop}
variable {system : System}

theorem other_acts (step : JournalStep) : Acts format ids ends system (system.other env format ids step) := by
  unfold other
  split
  · next free => exact .free step _ free (system.journal.step_moves env format ids step)
  · exact .idle

theorem start_acts (run : Nat) (account : Account) (request : HelperRequest) :
    Acts format ids ends system (system.start run account request) := by
  unfold start
  split
  · next before =>
      refine .turn run _ ?_ rfl ?_
      · rw [before]
        rfl
      · intro _
        rw [before]
        rfl
  · exact .idle

theorem acquire_acts (run : Nat) : Acts format ids ends system (system.acquire run) := by
  unfold acquire
  split
  · exact .idle
  · next key phase wants =>
      split
      · exact .idle
      · next unheld => exact .acquire run key phase wants unheld

/-- A phase with the lock that leaves the journal alone. -/
theorem advance_acts {run : Nat} {phase : Phase} (before : (system.phases run).bare = true)
    (after : phase.bare = true) (same : phase.holds = (system.phases run).holds)
    (later : phase.opened = true -> (system.phases run).opened = true)
    (known : phase.Known system.journal) (apart : forall call record, phase ≠ .undoing call record) :
    Acts format ids ends system (system.enter run phase) :=
  .advance run phase .drawEpoch system.journal before after same later known apart (.idle _)
    ⟨rfl, rfl⟩ rfl

theorem authorize_acts (run : Nat) (config : JournalConfig) :
    Acts format ids ends system (system.authorize run config) := by
  unfold authorize
  split
  · next account request before =>
      split
      · refine advance_acts ?_ rfl ?_ ?_ trivial (by simp) <;> rw [before] <;> simp [Phase.bare, Phase.holds, Phase.opened]
      · next actor outcome =>
          simp only [bind_eq_ok] at outcome
          rcases outcome with ⟨_, _, acting⟩
          rcases Store.operationActor_ok acting with ⟨row, _, rfl⟩
          split <;> refine advance_acts ?_ rfl ?_ ?_ trivial (by simp) <;> rw [before] <;>
            simp [Phase.bare, Phase.holds, Phase.opened, Store.view]
  · exact .idle

theorem select_acts (run : Nat) (config : JournalConfig) (at_ : Nat) :
    Acts format ids ends system (system.select format run config at_) := by
  unfold select
  split
  · next actor request before =>
      have refused : Acts format ids ends system
          (system.enter run (.refused (actor.id, request.rootId))) := by
        refine advance_acts ?_ rfl ?_ ?_ trivial (by simp) <;> rw [before] <;>
          simp [Phase.bare, Phase.holds, Phase.opened]
      split
      · exact refused
      · next offset _ =>
          split
          · refine advance_acts ?_ rfl ?_ ?_ trivial (by simp) <;> rw [before] <;>
              simp [Phase.bare, Phase.holds, Phase.opened]
          · next previous found =>
              split
              · exact refused
              · next record accepted =>
                  have reads : system.journal.read format config actor request offset at_ =
                      { system.journal with continued := record :: system.journal.continued } := by
                    unfold JournalState.read JournalState.continues
                    rw [found]
                    simp [accepted, Except.toOption]
                  rw [reads]
                  exact .select run config actor request offset at_ previous record before found
                    accepted
  · exact .idle

theorem write_acts (known : forall run, (system.phases run).Known system.journal) (run : Nat) :
    Acts format ids ends system (system.write run) := by
  unfold write
  split
  · next record before =>
      have checked : record ∈ system.journal.continued := by
        have remembered := known run
        rw [before] at remembered
        exact remembered
      have writes : system.journal.write record =
          { system.journal with
            store := system.journal.store.writeRecord record
            returned := record :: system.journal.returned } := if_pos checked
      rw [writes]
      exact .write run record before checked
  · exact .idle

theorem fence_acts (run : Nat) : Acts format ids ends system (system.fence run) := by
  unfold fence
  split
  · next actor request epoch before set =>
      have known : epoch ∈ system.journal.readEpoch.epochs := by
        unfold JournalState.readEpoch
        rw [set]
        exact List.mem_cons_self
      refine .advance run _ .readEpoch _ ?_ rfl ?_ ?_ known (by simp) .readEpoch ⟨rfl, rfl⟩ rfl <;>
        rw [before] <;> simp [Phase.bare, Phase.holds, Phase.opened]
  · exact .idle

theorem insert_acts (known : forall run, (system.phases run).Known system.journal) (run : Nat)
    (config : JournalConfig) (ledger : Store.Ledger) (at_ : Nat) :
    Acts format ids ends system (system.insert format ids run config ledger at_) := by
  unfold insert
  split
  · next actor request epoch before =>
      have remembered : epoch ∈ system.journal.epochs := by
        have remembered := known run
        rw [before] at remembered
        exact remembered
      dsimp only
      split
      · next failure =>
          have drew : system.journal.insert format ids config ledger actor request epoch at_ =
              { system.journal with drawn := system.journal.drawn + 1 } := by
            unfold JournalState.insert
            rw [if_pos remembered, failure]
          rw [drew]
          refine .advance run _ .drawEpoch _ ?_ rfl ?_ ?_ trivial (by simp) (.drew _) ⟨rfl, rfl⟩ rfl <;>
            rw [before] <;> simp [Phase.bare, Phase.holds, Phase.opened]
      · next record store done =>
          have stored : system.journal.insert format ids config ledger actor request epoch at_ =
              { system.journal with
                store := store
                drawn := system.journal.drawn + 1
                returned := record :: system.journal.returned
                log := .begun record :: system.journal.log } := by
            unfold JournalState.insert
            rw [if_pos remembered, done]
          rw [stored]
          simp only [JournalState.inserted, bind_eq_ok, pure_eq_ok, Prod.mk.injEq] at done
          rcases done with ⟨_, prepared, _, insertion, rfl, rfl⟩
          exact .insert run config ledger actor request epoch at_ _ _ before remembered
            (Store.preparedRecord_ok prepared) insertion
  · exact .idle

theorem finish_acts (known : forall run, (system.phases run).Known system.journal) (run : Nat)
    (config : JournalConfig) (logReserveBytes : Nat) (logStorage : Option Text)
    (response : Option HelperResponse) (at_ : Nat) :
    Acts format ids ends system
      (system.finish format run config logReserveBytes logStorage response at_) := by
  unfold finish
  split
  · next record before =>
      have remembered : record ∈ system.journal.returned := by
        have remembered := known run
        rw [before] at remembered
        exact remembered
      split
      · exact .finishLost run record before
      · next finished store done =>
          have closes : system.journal.finish format config record logReserveBytes logStorage
              response at_ =
              { system.journal with
                store := store, log := .finished finished :: system.journal.log } := by
            unfold JournalState.finish
            rw [if_pos remembered, done]
          rw [closes]
          exact .finish run config record logReserveBytes logStorage response at_ finished store
            before remembered done
  · exact .idle

theorem ask_acts (run : Nat) (call : UndoCall) (config : JournalConfig) (at_ : Nat) :
    Acts format ids ends system (system.ask run call config at_) := by
  unfold ask
  split
  · next epoch before _ =>
      split
      · exact .idle
      · next found outcome =>
          split
          · simp only [Store.undoCandidate, bind_eq_ok, okOr_eq_ok, refuse_eq_ok, pure_eq_ok,
              Bool.or_eq_false_iff, bne_eq_false_iff_eq] at outcome
            rcases outcome with ⟨_, _, actor, _, record, own, _, ⟨⟨_, named⟩, _⟩, _, _, rfl⟩
            exact .ask run call record before (Store.ownOperation_spec own).1 named
          · exact .idle
  · exact .idle

theorem claim_acts (run : Nat) (config : JournalConfig) (at_ : Nat) :
    Acts format ids ends system (system.claim format ids run config at_) := by
  unfold claim
  split
  · next call record before =>
      dsimp only
      split
      · next failure =>
          have drew : system.journal.claim format ids config call.authority call.operationId
              call.expectedState at_ = { system.journal with drawn := system.journal.drawn + 1 } := by
            unfold JournalState.claim
            rw [failure]
          rw [drew]
          refine .advance run _ .drawEpoch _ ?_ rfl ?_ ?_ trivial (by simp) (.drew _) ⟨rfl, rfl⟩ rfl <;>
            rw [before] <;> simp [Phase.bare, Phase.holds, Phase.opened]
      · next claimed store done =>
          have stored : system.journal.claim format ids config call.authority call.operationId
              call.expectedState at_ =
              { system.journal with
                store := store
                drawn := system.journal.drawn + 1
                log := .claimed ⟨system.journal.store, config, ids system.journal.drawn,
                  call.authority, call.operationId, call.expectedState, at_⟩ ::
                  system.journal.log } := by
            unfold JournalState.claim
            rw [done]
          rw [stored]
          rcases Store.claimUndo_ok done with ⟨caller, row, current, claims, rfl, rfl⟩
          exact .claim run config at_ call record caller row current before claims
  · exact .idle

theorem settle_acts (run : Nat) (config : JournalConfig) (now : Nat)
    (response : Option HelperResponse) :
    Acts format ids ends system (system.settle format run config now response) := by
  unfold settle
  split
  · next record claim before =>
      split
      · exact .settleLost run record claim before
      · next settled store done =>
          have stored : system.journal.finishUndo format config now claim response =
              { system.journal with
                store := store, log := .settled settled :: system.journal.log } := by
            unfold JournalState.finishUndo
            rw [done]
          rw [stored]
          rcases Store.finishUndo_ok done with ⟨current, found, pending, rfl, rfl⟩
          exact .settle run config now response record claim current before found pending
  · exact .idle

theorem list_acts (run : Nat) (config : JournalConfig) (lifecycle : LifecycleConfig) (at_ : Nat) :
    Acts format ids ends system (system.list run config lifecycle at_) := by
  unfold list
  split
  · next before =>
      split
      · split
        · exact .idle
        · refine .turn run _ ?_ rfl ?_ <;> rw [before] <;> simp [Phase.plain, Phase.opened]
      · exact .idle
  · exact .idle

theorem pick_acts (run : Nat) (lifecycle : LifecycleConfig) :
    Acts format ids ends system (system.pick format run lifecycle) := by
  unfold pick
  split
  · next at_ accountId id rest before =>
      have plain : (system.phases run).plain = true := by
        rw [before]
        rfl
      have listed : (system.phases run).opened = false := by
        rw [before]
        rfl
      split
      · exact .turn run _ plain rfl (fun later => by cases later)
      · next copy actor outcome =>
          simp only [bind_eq_ok, pure_eq_ok, Prod.mk.injEq] at outcome
          rcases outcome with ⟨copy, token, _, _, rfl, _⟩
          rcases Store.trashToken_ok token with ⟨found, rfl, rfl⟩
          split
          · exact .drop run at_ _ _ rest plain listed
          · split
            · exact .pick run at_ copy rest plain found
            · exact .turn run _ plain rfl (fun later => by cases later)
  · exact .idle

theorem expire_acts (run : Nat) (lifecycle : LifecycleConfig) (now : Nat) :
    Acts format ids ends system (system.expire format run lifecycle now) := by
  unfold expire
  split
  · next at_ copy rest before =>
      split
      · exact .unexpired run at_ copy rest before
      · next outcome =>
          simp only [bind_eq_ok] at outcome
          rcases outcome with ⟨token, read, _⟩
          exact .expire run at_ copy token rest before (Store.trashToken_ok read).1
  · exact .idle

theorem conclude_acts (run : Nat) (config : JournalConfig) (success : Bool) :
    Acts format ids ends system (system.conclude format run config success) := by
  unfold conclude
  split
  · next at_ copy rest reached before =>
      have free : system.freed (system.phases run) = Function.update system.locks copy.root none := by
        rw [before]
        rfl
      rw [free]
      dsimp only
      split
      · exact .cleaned run at_ copy rest reached before
      · split
        · exact .overflow run at_ copy rest reached before
        · exact .reviewed run at_ copy rest reached before
  · exact .idle

theorem step_acts (env : Environment) (format : JournalFormat) (ids : Nat -> Uuid)
    (known : forall run, (system.phases run).Known system.journal) (step : SystemStep) :
    Acts format ids (fun run => step = .stop run) system (system.step env format ids step) := by
  cases step with
  | other step => exact other_acts step
  | start run account request => exact start_acts run account request
  | acquire run => exact acquire_acts run
  | authorize run config => exact authorize_acts run config
  | select run config at_ => exact select_acts run config at_
  | write run => exact write_acts known run
  | fence run => exact fence_acts run
  | insert run config ledger at_ => exact insert_acts known run config ledger at_
  | finish run config logReserveBytes logStorage response at_ =>
      exact finish_acts known run config logReserveBytes logStorage response at_
  | ask run call config at_ => exact ask_acts run call config at_
  | claim run config at_ => exact claim_acts run config at_
  | settle run config now response => exact settle_acts run config now response
  | list run config lifecycle at_ => exact list_acts run config lifecycle at_
  | pick run lifecycle => exact pick_acts run lifecycle
  | expire run lifecycle now => exact expire_acts run lifecycle now
  | conclude run config success => exact conclude_acts run config success
  | stop run => exact .stop run rfl

end Cases

/-! ## Locks and memories -/

/-- What a journal once handed out, it still knows. -/
structure Remembers (journal later : JournalState) : Prop where
  continued : forall record, record ∈ journal.continued -> record ∈ later.continued
  epochs : forall epoch, epoch ∈ journal.epochs -> epoch ∈ later.epochs
  returned : forall record, record ∈ journal.returned -> record ∈ later.returned

theorem remembers_of_moves {format : JournalFormat} {ids : Nat -> Uuid} {state after : JournalState}
    {step : JournalStep} (moves : JournalState.Moves format ids state step after) :
    Remembers state after := by
  cases moves with
  | readEpoch => exact ⟨fun _ => id, fun _ => List.mem_append_right _, fun _ => id⟩
  | read => exact ⟨fun _ => List.mem_cons_of_mem _, fun _ => id, fun _ => id⟩
  | write => exact ⟨fun _ => id, fun _ => id, fun _ => List.mem_cons_of_mem _⟩
  | insert => exact ⟨fun _ => id, fun _ => id, fun _ => List.mem_cons_of_mem _⟩
  | _ => exact ⟨fun _ => id, fun _ => id, fun _ => id⟩

theorem known_later {journal later : JournalState} {phase : Phase}
    (known : phase.Known journal) (remembers : Remembers journal later) : phase.Known later := by
  cases phase with
  | selected record => exact remembers.continued record known
  | fenced actor request epoch => exact remembers.epochs epoch known
  | begun record => exact remembers.returned record known
  | _ => trivial

/-- The journal moves with the system, or stays. -/
theorem Acts.moves {format : JournalFormat} {ids : Nat -> Uuid} {ends : Nat -> Prop}
    {system after : System} (acts : Acts format ids ends system after) :
    ∃ step, JournalState.Moves format ids system.journal step after.journal := by
  cases acts with
  | free step journal unlocked moves => exact ⟨step, moves⟩
  | advance run phase step journal before after same later known apart moves => exact ⟨step, moves⟩
  | select run config actor request offset at_ previous record before found accepted =>
      exact ⟨_, .read config actor request offset at_ previous record found accepted⟩
  | write run record before checked => exact ⟨_, .write record checked⟩
  | insert run config ledger actor request epoch at_ record store before known made inserted =>
      exact ⟨_, .insert config ledger actor request epoch at_ record store known made inserted⟩
  | finish run config record logReserveBytes logStorage response at_ finished store before known
      done =>
      exact ⟨_, .finish config record logReserveBytes logStorage response at_ finished store known
        done⟩
  | claim run config at_ call record caller row current before claims =>
      exact ⟨_, .claim config call.authority call.operationId call.expectedState at_ caller row
        current claims⟩
  | settle run config now response record claim current before found pending =>
      exact ⟨_, .finishUndo config now claim response current found pending⟩
  | drop run at_ accountId id rest => exact ⟨_, .cleanTrash accountId id⟩
  | cleaned run at_ copy rest reached before => exact ⟨_, .cleanTrash copy.accountId copy.id⟩
  | reviewed run at_ copy rest reached before => exact ⟨_, .reviewTrash (needsReview copy)⟩
  | _ => exact ⟨.drawEpoch, .idle _⟩

/-- What every reachable system satisfies: operations are traced, processes
remember what the journal knows, and who is in a phase with a lock has it. -/
structure Kept (ids : Nat -> Uuid) (system : System) : Prop where
  claims : ClaimsKept ids system.journal
  known : forall run, (system.phases run).Known system.journal
  locked : forall run key, (system.phases run).holds = some key -> system.locks key = some run

namespace Kept

variable {format : JournalFormat} {ids : Nat -> Uuid} {system after : System}

theorem initial (ids : Nat -> Uuid) (store : Store) : Kept ids (.initial store) where
  claims := .initial ids store
  known := fun _ => trivial
  locked := by
    intro run key held
    cases held

theorem known_enter (kept : Kept ids system) {journal : JournalState}
    (remembers : Remembers system.journal journal) {run : Nat} {phase : Phase}
    (known : phase.Known journal) (other : Nat) :
    (Function.update system.phases run phase other).Known journal := by
  by_cases same : other = run
  · rw [same, Function.update_self]
    exact known
  · rw [Function.update_of_ne same]
    exact known_later (kept.known other) remembers

/-- A process that changes its phase keeps its lock or needs none. -/
theorem locked_enter (kept : Kept ids system) {run : Nat} {phase : Phase}
    (same : phase.holds = (system.phases run).holds ∨ phase.holds = none) (other : Nat)
    (key : RootKey) (held : (Function.update system.phases run phase other).holds = some key) :
    system.locks key = some other := by
  by_cases mine : other = run
  · rw [mine, Function.update_self] at held
    rcases same with still | free
    · rw [mine]
      exact kept.locked run key (still.symm.trans held)
    · rw [free] at held
      cases held
  · rw [Function.update_of_ne mine] at held
    exact kept.locked other key held

/-- A process that lets go of its lock. -/
theorem locked_release (kept : Kept ids system) {run : Nat} {phase : Phase} {root : RootKey}
    (held : (system.phases run).holds = some root) (free : phase.holds = none) (other : Nat)
    (key : RootKey) (holding : (Function.update system.phases run phase other).holds = some key) :
    Function.update system.locks root none key = some other := by
  by_cases mine : other = run
  · rw [mine, Function.update_self, free] at holding
    cases holding
  · rw [Function.update_of_ne mine] at holding
    have locked := kept.locked other key holding
    by_cases same : key = root
    · subst same
      exact absurd (Option.some.inj (locked.symm.trans (kept.locked run key held))) mine
    · rw [Function.update_of_ne same]
      exact locked

theorem admitted_holds {phase next : Phase} {key : RootKey}
    (wants : phase.admitted = some (key, next)) : next.holds = some key := by
  cases phase with
  | waiting account request =>
      cases wants
      rfl
  | asked call record =>
      cases wants
      rfl
  | picked at_ copy rest =>
      cases wants
      rfl
  | _ => cases wants

theorem locked_acquire (kept : Kept ids system) {run : Nat} {phase : Phase} {root : RootKey}
    (wants : (system.phases run).admitted = some (root, phase)) (unheld : system.locks root = none)
    (other : Nat) (key : RootKey)
    (holding : (Function.update system.phases run phase other).holds = some key) :
    Function.update system.locks root (some run) key = some other := by
  by_cases mine : other = run
  · rw [mine, Function.update_self, admitted_holds wants] at holding
    cases holding
    rw [mine, Function.update_self]
  · rw [Function.update_of_ne mine] at holding
    have locked := kept.locked other key holding
    have apart : key ≠ root := by
      intro same
      rw [same, unheld] at locked
      cases locked
    rw [Function.update_of_ne apart]
    exact locked

theorem locked_stop (kept : Kept ids system) (run other : Nat) (key : RootKey)
    (holding : (Function.update system.phases run .ended other).holds = some key) :
    system.freed (system.phases run) key = some other := by
  unfold freed
  cases held : (system.phases run).holds with
  | none => exact kept.locked_enter (.inr rfl) other key holding
  | some root => exact kept.locked_release held rfl other key holding

theorem acts (kept : Kept ids system) (distinct : Function.Injective ids) {ends : Nat -> Prop}
    (acts : Acts format ids ends system after) : Kept ids after := by
  rcases acts.moves with ⟨step, moves⟩
  have remembers := remembers_of_moves moves
  refine ⟨kept.claims.moves distinct moves, ?_, ?_⟩
  · cases acts with
    | idle => exact kept.known
    | free => exact fun run => known_later (kept.known run) remembers
    | turn run phase before plain =>
        refine kept.known_enter remembers ?_
        cases phase <;> trivial
    | acquire run key phase wants =>
        refine kept.known_enter remembers ?_
        cases held : system.phases run <;> rw [held] at wants <;> cases wants <;> trivial
    | advance run phase step journal before after same later known =>
        exact kept.known_enter remembers known
    | select => exact kept.known_enter remembers List.mem_cons_self
    | write => exact kept.known_enter remembers List.mem_cons_self
    | insert => exact kept.known_enter remembers List.mem_cons_self
    | _ => exact kept.known_enter remembers trivial
  · cases acts with
    | idle | free => exact kept.locked
    | turn run phase before plain =>
        refine kept.locked_enter (.inr ?_)
        cases phase <;> first | rfl | cases plain
    | acquire run key phase wants unheld => exact kept.locked_acquire wants unheld
    | advance run phase step journal before after same => exact kept.locked_enter (.inl same)
    | select run config actor request offset at_ previous record before found accepted =>
        refine kept.locked_enter (.inl ?_)
        rcases Store.continuedRecord_ok accepted with ⟨_, root, _, _, _, _, rfl⟩
        rw [before]
        change some (previous.accountId, previous.rootId) = some (actor.id, request.rootId)
        rw [root, (Store.previousRecord_spec found).2.1]
    | write run record before => exact kept.locked_enter (.inl (before ▸ rfl))
    | insert run config ledger actor request epoch at_ record store before known made =>
        refine kept.locked_enter (.inl ?_)
        rw [before, made]
        rfl
    | finish run config record logReserveBytes logStorage response at_ finished store before =>
        exact kept.locked_enter (.inl (before ▸ rfl))
    | finishLost run record before => exact kept.locked_enter (.inl (before ▸ rfl))
    | ask | drop | pick => exact kept.locked_enter (.inr rfl)
    | claim run config at_ call record caller row current before =>
        exact kept.locked_enter (.inl (before ▸ rfl))
    | settle run config now response record claim current before =>
        exact kept.locked_enter (.inl (before ▸ rfl))
    | settleLost run record claim before => exact kept.locked_enter (.inl (before ▸ rfl))
    | expire run at_ copy token rest before => exact kept.locked_enter (.inl (before ▸ rfl))
    | unexpired run at_ copy rest before => exact kept.locked_enter (.inl (before ▸ rfl))
    | cleaned run at_ copy rest reached before =>
        exact kept.locked_release (before ▸ rfl) rfl
    | reviewed run at_ copy rest reached before =>
        exact kept.locked_release (before ▸ rfl) rfl
    | overflow run at_ copy rest reached before =>
        exact kept.locked_release (before ▸ rfl) rfl
    | stop run => exact kept.locked_stop run

end Kept

end System

end TealDrive
