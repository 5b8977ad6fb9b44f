import TealDrive.Accounts.Store

namespace TealDrive

open Outcome

/-!
# Transactions of virtual provisioning

A virtual account is created in two transactions.  The first records an
intent, which reserves its quota against the owner's budget or against the
pool; the second creates the account and marks the intent as completed.  An
intent that never completes can be cancelled.  Deleted accounts are purged by
a process that selects its victims first and commits for each one later.
-/

namespace Store

/-- The checks of `set_child_quota_with`, and the value its callback sees. -/
def checkChildQuota (store : Store) (actor : Authority) (id : Uuid) (generation bytes : Nat) :
    Except StoreError Nat := do
  refuse (bytes == 0) .invalidInput
  let target ← store.account id
  store.manage actor target
  refuse (target.kind != .virtual || target.role != .user || target.status == .deleted ||
    target.generation != generation) .conflict
  let owner ← okOr target.ownerAdminId .forbidden
  let sum ← store.childrenAllocated owner
  let reserved ← store.pendingReserved (.account owner) none
  let allocated ← checkedAdd sum reserved
  let own ← store.fixedOwn owner
  let wanted ← number bytes
  let old ← number (target.quotaBytes.getD 0)
  refuse (decide (wanted >
    sub64 (sub64 (store.budgetOf owner) (sub64 allocated old)) (own.getD 0))) .quotaExceeded
  return (own.getD (sub64 (sub64 (store.budgetOf owner) allocated + old) wanted)).toNat

def setChildQuotaWith (now : Nat) (actor : Authority) (id : Uuid) (generation bytes : Nat)
    (before : Nat -> Except StoreError Unit) (store : Store) :
    Except StoreError (Account × Store) := do
  let remaining ← store.checkChildQuota actor id generation bytes
  before remaining
  let marked := { store with virtualQuotaSync := store.virtualQuotaSync.insert id () }
  let _ ← number now
  let final ← marked.execute (.setQuota bytes now) id
  let result ← final.account id
  return (result, final)

/-! ## Intents -/

/-- `INSERT INTO security_state` of a fresh intent key. -/
def insertIntent (store : Store) (key : IntentKey) (intent : Intent) : Except StoreError Store := do
  refuse (store.virtualCreate.find key).isSome .database
  return { store with virtualCreate := store.virtualCreate.insert key intent }

/-- The intent transaction of `provision`. -/
def recordChildIntent (actor : Uuid) (generation : Nat) (request : Uuid) (name : Text)
    (quota uid : Nat) (store : Store) : Except StoreError (Unit × Store) := do
  let current ← store.authorized (.account actor generation)
  let current ← okOr current .forbidden
  refuse (current.role != .admin) .forbidden
  let allocated ← store.childrenAllocated actor
  let wanted ← number quota
  let pending ← store.pendingReserved (.account actor) none
  let own ← store.fixedOwn actor
  refuse (decide (wanted >
    sub64 (sub64 (sub64 (store.budgetOf actor) allocated) pending) (own.getD 0))) .quotaExceeded
  let final ← store.insertIntent ⟨.account actor, request⟩
    ⟨1, .account actor, name, quota, uid, none⟩
  return ((), final)

/-- The intent transaction of `create_admin`. -/
def recordAdminIntent (request : Uuid) (name : Text) (budget uid : Nat) (store : Store) :
    Except StoreError (Unit × Store) := do
  let allocated ← store.budgetsAllocated
  let wanted ← number budget
  let pending ← store.pendingReserved .root none
  refuse (decide (wanted > sub64 (sub64 store.poolLimit allocated) pending)) .quotaExceeded
  let final ← store.insertIntent ⟨.root, request⟩ ⟨1, .root, name, budget, uid, none⟩
  return ((), final)

/-- `INSERT … ON CONFLICT DO NOTHING` of a retired uid. -/
def retireUid (store : Store) (now uid : Nat) : Store :=
  if (store.virtualUidRetired.find uid).isSome then store
  else { store with virtualUidRetired := store.virtualUidRetired.insert uid now }

/-- The transaction of `cancel_pending`, for the intent read before it. -/
def cancelIntent (now : Nat) (key : IntentKey) (uid : Nat) (store : Store) : Store :=
  ({ store with virtualCreate := store.virtualCreate.erase key }).retireUid now uid

/-! ## Purging -/

/-- A row the query of `purge_deleted` selects. -/
def purgeable (store : Store) (deadline : Nat) (id : Uuid) (row : AccountRow) : Bool :=
  row.kind == .virtual && row.role == .user && row.status == .deleted &&
    row.deletedAt.any (fun time => decide (time ≤ deadline)) &&
    (store.virtualPurged.find id).isNone

/-- The purge intent, written before any file is removed. -/
def recordPurgeIntent (now : Nat) (id : Uuid) (store : Store) : Except StoreError (Unit × Store) := do
  let target ← store.account id
  refuse (store.virtualPurgeIntent.find id).isSome .database
  let marked := { store with
    virtualPurgeIntent := store.virtualPurgeIntent.insert id (target.uid, target.home) }
  return ((), marked.retireUid now target.uid)

/-- The last transaction of `purge_deleted` for one account. -/
def purge (now : Nat) (id : Uuid) (uid : Nat) (store : Store) : Except StoreError (Unit × Store) := do
  let retired := store.retireUid now uid
  refuse (retired.virtualPurged.find id).isSome .database
  let marked := { retired with virtualPurged := retired.virtualPurged.insert id (now, uid) }
  let updated ← marked.execute .purge id
  return ((), { updated with
    sessionGrants := updated.sessionGrants.filter (fun _ grant => grant.accountId != id) })

end Store

end TealDrive
