import TealDrive.Accounts.Undo

namespace TealDrive

open Outcome

/-!
# Cleaning up the trash

Root selects tokens of old items and hands each to a worker that reads the token
again, checks it again, and only then removes the item.  Selecting, reading, the
worker and writing the result are separate database steps; they are put together
where the processes are described.
-/

/-- The path of the item, when it is one in the trash. -/
def trashTarget (format : JournalFormat) (record : OperationRecord) : Option RelativePath := do
  let path ← record.targetPath
  let id ← Text.stripPrefix trashFiles path.value
  let _ ← format.parseId id
  return path

/-- Whether the item may be removed, judging by its token. -/
def eligible (format : JournalFormat) (lifecycle : LifecycleConfig) (record : OperationRecord)
    (at_ : Nat) : Bool :=
  lifecycle.trashCleanupEnabled && record.action == .trash && record.status == .success &&
    (record.undoStatus.isNone || record.undoStatus == some .failed) &&
    decide (record.createdAt ≤ at_ - saturateU64 (lifecycle.trashRetentionHours * 3600)) &&
    record.after.any (fun state => state.kind == .file || state.fullyObserved) &&
    (trashTarget format record).isSome

/-- The actions that grow their result under a private path. -/
def stagedActions : List Action := [.write, .upload, .copy, .archive, .extract]

/-- Where the result of an operation goes, judging by its record. -/
def recordedResult (record : OperationRecord) : Except StoreError RelativePath :=
  if record.action = .write ∨ record.action = .upload then .ok record.sourcePath
  else okOr record.targetPath .invalidInput

/-- The private path that an operation recorded, and its destination. -/
def stageTarget (format : JournalFormat) (record : OperationRecord) :
    Except StoreError (RelativePath × RelativePath) := do
  let path ← okOr record.stagingPath .invalidInput
  let destination ← recordedResult record
  let stem := parentText destination ++ ".tdrv-transaction-".toList ++
    format.idText record.id
  refuse (!([stem, stem ++ ".zip".toList, stem ++ ".tar.gz".toList].contains path.value))
    .invalidInput
  refuse (!stagedActions.contains record.action || record.status == .success) .forbidden
  return (path, destination)

namespace Store

/-- A token as `record` reads it. -/
def trashToken (store : Store) (accountId id : Uuid) : Except StoreError OperationRecord := do
  let token ← okOr (store.trashExpiry.find (accountId, id)) .database
  refuse (token.version != 1 || token.accountId != accountId || token.id != id) .invalidInput
  return token

/-- The tokens a cleanup looks at. -/
def trashRows (lifecycle : LifecycleConfig) (at_ : Nat) (store : Store) :
    Except StoreError (List (Uuid × Uuid)) := do
  let cutoff := at_ - lifecycle.trashRetentionHours * 3600
  let _ ← number cutoff
  return (store.trashExpiry.select lifecycle.maxCleanupPerRun (fun _ token =>
    token.trashGcStatus.isNone && token.action == .trash && token.status == .success &&
      decide (token.createdAt ≤ cutoff))).map (fun row => (row.2.accountId, row.2.id))

/-- The account was deleted and its files are gone. -/
def purgedAccount (store : Store) (account : Account) : Bool :=
  account.status == .deleted && (store.virtualPurged.find account.id).isSome

theorem trashToken_ok {store : Store} {accountId id : Uuid} {token : OperationRecord}
    (found : store.trashToken accountId id = .ok token) :
    store.trashExpiry.find (accountId, id) = some token ∧ token.accountId = accountId ∧
      token.id = id := by
  simp only [trashToken, bind_eq_ok, okOr_eq_ok, refuse_eq_ok, pure_eq_ok, Bool.or_eq_false_iff,
    bne_eq_false_iff_eq] at found
  rcases found with ⟨_, stored, _, ⟨⟨_, owner⟩, named⟩, rfl⟩
  exact ⟨stored, owner, named⟩

end Store

end TealDrive
