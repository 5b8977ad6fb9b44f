import TealDrive.Accounts.Journal

namespace TealDrive

open Outcome

/-!
# Undo claims

A recorded operation may be undone once, for a while, by its own account.  The
claim is stored before the worker runs, and the outcome after it.
-/

/-- Why an operation cannot be undone. -/
inductive UndoObstacle where
  | operationIncomplete
  | unsupportedOperation
  | alreadyClaimed
  | restoredBackup
  | expired
  | missingExpectedState
  | unsupportedOriginalMode
  | incompleteObservation
deriving DecidableEq

structure UndoCandidate where
  operation : OperationRecord
  unavailableReason : Option UndoObstacle
  expiresAt : Nat
  expectedState : Option Text
deriving DecidableEq

def UndoCandidate.available (candidate : UndoCandidate) : Bool := candidate.unavailableReason.isNone

namespace FileState

def sameInode (state other : FileState) : Bool :=
  state.device == other.device && state.inode == other.inode && state.kind == other.kind

def fullyObserved (state : FileState) : Bool :=
  match state.kind with
  | .file => state.contentDigest.isSome
  | .directory => state.treeDigest.isSome
  | .other => false

end FileState

/-- `u64::saturating_add` and `saturating_mul`. -/
def saturateU64 (value : Nat) : Nat := min value u64Max

/-- The mode is known and has permission bits only. -/
def plainMode (mode : Option Nat) : Bool := mode.any (fun mode => decide (mode < 512))

/-- Both states are known in full, and they are of one file. -/
def observedMove (record : OperationRecord) : Bool :=
  record.targetPath.isSome &&
    match record.before, record.after with
    | some before, some after =>
        before.fullyObserved && after.fullyObserved && before.sameInode after
    | _, _ => false

def candidate (record : OperationRecord) (prefs : Store.UndoPreferences) (currentEpoch : Uuid)
    (at_ : Nat) : UndoCandidate :=
  let expiresAt := saturateU64 (record.createdAt + saturateU64 (prefs.effectiveHours * 3600))
  { operation := record
    unavailableReason :=
      if record.status ≠ .success then some .operationIncomplete
      else if !record.action.undoable then some .unsupportedOperation
      else if record.undoStatus.isSome then some .alreadyClaimed
      else if record.undoEpoch ≠ some currentEpoch then some .restoredBackup
      else if at_ ≥ expiresAt then some .expired
      else if record.after.isNone || record.before.isNone then some .missingExpectedState
      else if record.action = .chmod ∧ plainMode record.oldMode = false then
        some .unsupportedOriginalMode
      else if record.action ≠ .chmod ∧ observedMove record = false then
        some .incompleteObservation
      else none
    expiresAt := expiresAt
    expectedState := record.after.map (fun state => state.digest) }

namespace Store

/-- A digest, as 64 hexadecimal digits. -/
def wellFormedState (expectedState : Text) : Bool :=
  decide (expectedState.len = 64) && expectedState.all (fun symbol =>
    symbol.isDigit || "abcdefABCDEF".toList.contains symbol)

/-- The record of one of the caller's operations. -/
def ownOperation (store : Store) (actor operationId : Uuid) :
    Option OperationRecord :=
  (store.operations.table.select 1 (fun key record =>
    key.ofAccount actor && record.id == operationId)).head?.map Prod.snd

section Claim

variable (format : JournalFormat) (config : JournalConfig)

/-- The preferences a claim is judged by. -/
def claimPreferences (actor : Account) : UndoPreferences :=
  ⟨actor.undoHours, min (actor.undoHours.getD config.undoMaxHours) config.undoMaxHours,
    config.undoMaxHours, 0⟩

/-- What `undo_candidate` answers, in the epoch it read. -/
def undoCandidate (authority : Authority) (operationId epoch : Uuid) (at_ : Nat) (store : Store) :
    Except StoreError UndoCandidate := do
  let actor ← store.authorized authority
  let actor ← okOr actor .forbidden
  let record ← okOr (store.ownOperation actor.id operationId) .notFound
  refuse (record.accountId != actor.id || record.id != operationId || record.version != 1)
    .invalidInput
  let prefs ← undoPreferencesOf authority config store
  return candidate record prefs epoch at_

def claimUndo (drawn : Uuid) (authority : Authority) (operationId : Uuid) (expectedState : Text)
    (at_ : Nat) (store : Store) : Except StoreError (OperationRecord × Store) := do
  validateJournal config
  refuse (!wellFormedState expectedState) .invalidInput
  let actor ← store.authorized authority
  let actor ← okOr actor .forbidden
  let record ← okOr (store.ownOperation actor.id operationId) .notFound
  let fenced := store.ensureEpoch drawn
  let eligibility := candidate record (claimPreferences config actor)
    (store.undoEpoch.getD drawn) at_
  refuse (record.version != 1 || record.accountId != actor.id || record.id != operationId ||
    !eligibility.available || eligibility.expectedState != some expectedState) .conflict
  let claimed := { record with undoStatus := some OperationStatus.pending }
  encode format config claimed
  return (claimed, { fenced with operations := fenced.operations.replace claimed })

def finishUndo (now : Nat) (record : OperationRecord) (response : Option HelperResponse)
    (store : Store) : Except StoreError (OperationRecord × Store) := do
  let current ← okOr (store.operations.find record.key) .database
  refuse (current.id != record.id || current.accountId != record.accountId ||
    current.undoStatus != some .pending) .conflict
  let settled := { current with
    undoStatus := some (outcomeStatus response)
    updatedAt := now
    undoErrorCode := response.bind (fun response => response.errorKind) }
  let retired :=
    if settled.action = .trash ∧ settled.undoStatus = some .success then
      store.trashExpiry.erase (settled.accountId, settled.id)
    else store.trashExpiry
  encode format config settled
  return (settled, { store with
    trashExpiry := retired
    operations := store.operations.replace settled })

end Claim

end Store

end TealDrive
