import Mathlib.Data.List.Sort
import TealDrive.Library.Faults
import TealDrive.Accounts.Changes

namespace TealDrive

open Outcome
open Faults (Program Event Behaviour attempt provided perform ofExcept)

/-!
# Provisioning under the global lock

The functions of `virtuals.rs` that take `provision.lock` work on two states
at once: the account database and the limits the kernel enforces per uid.
They are programs of atomic steps here, so that every step can fail and the
process can die before any of them.  What the programs learn from the operating
system is an argument.

Operations of the store that do not take the lock may run between any two
steps, except inside a transaction.  The caller of a program has read the
accounts it passes before the lock was taken.
-/

/-- The database, the kernel's limits, and the accounts callers have read. -/
structure World where
  store : Store
  native : Nat -> Option Nat
  taken : List Account

/-- What happens beside a program. -/
inductive Move where
  | commit (op : StoreOp)
  | get (id : Uuid)

def World.move (env : Environment) (world : World) : Move -> World
  | .commit op =>
      if op.quiet then { world with store := StoreOp.step env world.store op } else world
  | .get id =>
      match world.store.account id with
      | .ok account => { world with taken := account :: world.taken }
      | .error _ => world

/-- Nobody else writes while a transaction is open. -/
def World.still (world : World) (_ : Move) : World := world

abbrev Provisioning (Value : Type) := Program World Move StoreError Value

/-- What a program learns from the operating system. -/
structure Surroundings where
  parentUsed : Nat
  targetUsed : Nat
  nameExists : Bool
  blocked : List (Nat × Nat)
  freeId : Nat -> Bool
  homeExists : Nat -> Bool

/-! ## Steps -/

section Steps

variable (env : Environment) (cfg : AppConfig)

/-- One transaction, or one statement outside of any. -/
def transact {Value : Type} (transaction : Store -> Except StoreError (Value × Store)) :
    Provisioning Value :=
  perform (World.move env) id (fun world => do
    let (value, store) ← transaction world.store
    return (value, { world with store := store }))

def query {Value : Type} (read : Store -> Except StoreError Value) : Provisioning Value :=
  transact env (fun store => do
    let value ← read store
    return (value, store))

/-- A step that only the operating system sees. -/
def outside : Provisioning Unit :=
  transact env (fun store => .ok ((), store))

/-- The rest of a transaction whose checks were a `query`. -/
def commit {Value : Type} (transaction : Store -> Except StoreError (Value × Store)) :
    Provisioning Value :=
  perform World.still id (fun world => do
    let (value, store) ← transaction world.store
    return (value, { world with store := store }))

def nativeLimit (bytes : Nat) : Nat :=
  match cfg.homeTemplate.bind (fun template => template.quotaBytes) with
  | none => bytes
  | some limit => min bytes limit

/-- The world after `native_set`. -/
def World.withNative (world : World) (uid bytes : Nat) : World :=
  if cfg.virtualAccounts.enforcement = .userQuota then
    { world with native :=
        fun other => if other = uid then some (nativeLimit cfg bytes) else world.native other }
  else world

def nativeSet (uid bytes : Nat) : Provisioning Unit :=
  perform (World.move env) (fun world => world.withNative cfg uid bytes)
    (fun world => .ok ((), world.withNative cfg uid bytes))

/-- `native_set` inside an open transaction. -/
def nativeSetHeld (uid bytes : Nat) : Provisioning Unit :=
  perform World.still (fun world => world.withNative cfg uid bytes)
    (fun world => .ok ((), world.withNative cfg uid bytes))

end Steps

/-! ## Names and uids -/

def isReservedServiceUsername (username : Text) : Bool :=
  ["root", "caddy", "www-data", "wwwdata", "nginx", "apache", "apache2", "httpd", "tealdrive",
    "postgres", "postgresql", "mysql", "mariadb", "redis", "memcached", "nobody", "_www",
    "_caddy"].any (fun name => username.map Char.toLower == name.toList)

def minimumQuota (cfg : AppConfig) : Nat :=
  if cfg.journal.enabled then max 65536 ((cfg.journal.maxRecordBytes + 4095) / 4096 * 8192 + 8192)
  else if cfg.virtualAccounts.enforcement = .userQuota then 4096
  else 1

def validateInputScope (cfg : AppConfig) (name : Text) (quota : Nat) (rootAdmin : Bool) :
    Except StoreError Unit := do
  refuse (!cfg.virtualAccounts.enabled || cfg.homeTemplate.isNone) .forbidden
  refuse (name == [] || decide (name.len > 64) || !name.head?.any Char.isLower ||
    !name.all (fun symbol => symbol.isLower || symbol.isDigit || ['_', '.', '-'].contains symbol) ||
    decide (quota < minimumQuota cfg) || decide (quota > i64Max) ||
    (isReservedServiceUsername name && !(rootAdmin && name == "tealdrive".toList))) .invalidInput
  refuse (cfg.virtualAccounts.enforcement == .userQuota &&
    (decide (quota < 4096) || quota % 1024 != 0)) .invalidInput

def validateInput (cfg : AppConfig) (name : Text) (quota : Nat) : Except StoreError Unit :=
  validateInputScope cfg name quota false

def home (uid : Nat) : Text :=
  "/home/tealdrive/virtual-homes/tdv_".toList ++ Nat.toDigits 10 uid

/-- The gaps from a number on, between ranges in order. -/
def gapsFrom (max : Nat) (next : Nat) : List (Nat × Nat) -> List (Nat × Nat)
  | [] => if next ≤ max then [(next, max)] else []
  | (start, stop) :: rest =>
      if start > next then (next, start - 1) :: gapsFrom max (Nat.max next (stop + 1)) rest
      else gapsFrom max (Nat.max next (stop + 1)) rest

/-- The gaps between ranges.  `subids::free_segments` casts the bounds of the gaps,
which changes nothing as long as they are uids. -/
def gapsBetween (min max : Nat) (ranges : List (Nat × Nat)) : List (Nat × Nat) :=
  gapsFrom max min
    (((ranges.filter (fun range => decide (range.2 ≥ min) && decide (range.1 ≤ max))).map
      (fun range => (Nat.max range.1 min, Nat.min range.2 max))).insertionSort
        (fun first second => first.1 < second.1 ∨ (first.1 = second.1 ∧ first.2 ≤ second.2)))

def numbersIn (first last : Nat) : List Nat :=
  List.range' first (last + 1 - first)

theorem mem_numbersIn {first last number : Nat} :
    number ∈ numbersIn first last ↔ first ≤ number ∧ number ≤ last := by
  unfold numbersIn
  rw [List.mem_range'_1]
  omega

/-- The uids `allocate` tries, from the cursor on and then from the start. -/
def candidates (cfg : AppConfig) (start : Nat) (blocked : List (Nat × Nat)) : List Nat :=
  let segments := gapsBetween cfg.webAccounts.virtualMinUid cfg.webAccounts.virtualMaxUid blocked
  (((segments.filter (fun segment => decide (segment.2 ≥ start))).flatMap
      (fun segment => numbersIn (max segment.1 start) segment.2)) ++
    ((segments.filter (fun segment => decide (segment.1 < start))).flatMap
      (fun segment => numbersIn segment.1 (min segment.2 (start - 1))))).take 1024

/-- A uid that an account, a retirement or an intent holds. -/
def Store.uidTaken (store : Store) (uid : Nat) : Bool :=
  store.accounts.exists_ (fun _ row => row.uid == uid) ||
    (store.virtualUidRetired.find uid).isSome ||
    store.virtualCreate.exists_ (fun _ intent => intent.uid == uid)

section Programs

variable (env : Environment) (cfg : AppConfig)

/-- The loop of `allocate`. -/
def firstFree (seen : Surroundings) : List Nat -> Provisioning Nat
  | [] => ofExcept (.error .quotaExceeded)
  | uid :: rest => do
      let retired ← query env (fun store => .ok (store.uidTaken uid))
      outside env
      if !retired && !seen.blocked.any (fun range => within range.1 range.2 uid) && seen.freeId uid
      then do
        let next := if uid = cfg.webAccounts.virtualMaxUid then cfg.webAccounts.virtualMinUid
          else uid + 1
        transact env (fun store => .ok ((), { store with virtualUidCursor := some next }))
        return uid
      else firstFree seen rest

def allocate (seen : Surroundings) : Provisioning Nat := do
  let cursor ← query env (fun store => .ok store.virtualUidCursor)
  outside env
  let start := cursor.getD cfg.webAccounts.virtualMinUid
  ofExcept (refuse (decide (start < cfg.webAccounts.virtualMinUid) ||
    decide (start > cfg.webAccounts.virtualMaxUid)) .invalidInput)
  firstFree env cfg seen (candidates cfg start seen.blocked)

/-! ## Shared parts -/

/-- `root`: the checks on the account, and those of the file system. -/
def rootOf (target : Account) : Provisioning Unit := do
  ofExcept (refuse (target.kind != .virtual || target.home != home target.uid ||
    decide (target.uid < cfg.webAccounts.virtualMinUid) ||
    decide (target.uid > cfg.webAccounts.virtualMaxUid)) .forbidden)
  outside env
  ofExcept (refuse cfg.homeTemplate.isNone .forbidden)

/-- `own_reservation`: what a virtual parent uses. -/
def ownReservation (parent : Account) (used : Nat) : Provisioning (Option Nat) :=
  if parent.kind = .virtual then do
    rootOf env cfg parent
    let _ ← query env (fun store => store.effectiveQuota parent.id)
    outside env
    return some used
  else return none

def effectiveLimit (id : Uuid) : Provisioning Nat := do
  let quota ← query env (fun store => store.effectiveQuota id)
  return quota.getD 0

/-- `effective_quota(..)?.ok_or(Forbidden)?`. -/
def committedLimit (id : Uuid) : Provisioning Nat := do
  let quota ← query env (fun store => store.effectiveQuota id)
  ofExcept (okOr quota .forbidden)

def ensureOsIdentity (uid quota : Nat) : Provisioning Text := do
  outside env
  ofExcept (refuse cfg.homeTemplate.isNone .forbidden)
  nativeSet env cfg uid quota
  outside env
  return home uid

/-! ## Creating accounts -/

structure BudgetReport where
  limitBytes : Int
  reservedBytes : Int
  remainingBytes : Int
  ownQuotaBytes : Option Int

/-- `AccountStore::budget`. -/
def Store.budget (store : Store) (id : Uuid) : Except StoreError BudgetReport := do
  let target ← store.account id
  refuse (target.role != .admin) .forbidden
  let children ← store.childrenAllocated id
  let pending ← store.pendingReserved (.account id) none
  let own ← store.fixedOwn id
  let reserved ← checkedAdd children pending
  let needed ← checkedAdd reserved (own.getD 0)
  refuse (decide (needed > store.budgetOf id)) .quotaExceeded
  return ⟨store.budgetOf id, reserved,
    sub64 (sub64 (store.budgetOf id) reserved) (own.getD 0), own⟩

def Store.pendingName (store : Store) (name : Text) : Bool :=
  store.virtualCreate.exists_ (fun _ intent => intent.name == name && intent.accountId == none)

def Store.virtualCount (store : Store) : Nat :=
  store.accounts.count (fun _ row => row.kind == .virtual && row.status != .deleted) +
    store.virtualCreate.count (fun _ intent => intent.accountId == none)

/-- The checks on a name that no request has used yet. -/
def checkNewName (name : Text) (taken : Bool) : Provisioning Unit := do
  let found ← query env (fun store => .ok (store.findUsername name).isSome)
  outside env
  ofExcept (refuse (found || taken) .conflict)
  let pending ← query env (fun store => .ok (store.pendingName name))
  ofExcept (refuse pending .conflict)
  let count ← query env (fun store => .ok store.virtualCount)
  ofExcept (refuse (decide (count ≥ cfg.virtualAccounts.maxAccounts)) .quotaExceeded)

/-- A virtual parent gives up the quota before the intent is written. -/
def lowerParent (actor : Account) (quota oldLimit : Nat) : Option Nat -> Provisioning Unit
  | none => return ()
  | some used => do
      let fixed ← query env (fun store => store.fixedOwn actor.id)
      ofExcept (refuse (fixed.isNone && decide (oldLimit < quota)) .quotaExceeded)
      let nextLimit := if fixed.isSome then oldLimit else oldLimit - quota
      ofExcept (refuse (decide (nextLimit < used)) .quotaExceeded)
      nativeSet env cfg actor.uid nextLimit

/-- The part of `provision` for a request without an intent. -/
def reserveChild (actor : Account) (name : Text) (quota : Nat) (request : Uuid)
    (seen : Surroundings) (parent : Option Nat) : Provisioning Intent := do
  checkNewName env cfg name seen.nameExists
  let budget ← query env (fun store => store.budget actor.id)
  ofExcept (refuse (decide (budget.remainingBytes.toNat < quota)) .quotaExceeded)
  let uid ← allocate env cfg seen
  let oldLimit ← effectiveLimit env actor.id
  lowerParent env cfg actor quota oldLimit parent
  let result ← attempt (transact env
    (Store.recordChildIntent actor.id actor.generation request name quota uid))
  match result with
  | .ok _ => return ⟨1, .account actor.id, name, quota, uid, none⟩
  | .error error => do
      provided parent.isSome (do
        let _ ← attempt (nativeSet env cfg actor.uid oldLimit)
        return ())
      ofExcept (.error error)

/-- The part of `provision` for an intent that did not complete. -/
def resumeChild (actor : Account) : Option Nat -> Provisioning Unit
  | none => return ()
  | some used => do
      let remaining ← effectiveLimit env actor.id
      ofExcept (refuse (decide (remaining < used)) .quotaExceeded)
      nativeSet env cfg actor.uid remaining

def newVirtual (name : Text) (uid : Nat) (home : Text) (role : Role) (owner : Option Uuid)
    (quota : Option Nat) : NewAccount :=
  ⟨name, uid, uid, home, .virtual, role, owner, quota⟩

/-- The common end of `provision`, given the identifier of the new account and
the hash of its password. -/
def completeChild (id : Uuid) (now : Nat) (actor : Account) (name : Text) (quota : Nat)
    (hash : Text) (request : Uuid) (intent : Intent) : Provisioning Account := do
  let home ← ensureOsIdentity env cfg intent.uid quota
  outside env
  transact env (Store.createRecord id now (.account actor.id actor.generation)
    (newVirtual name intent.uid home .user (some actor.id) (some quota)) (some hash)
    (some (⟨.account actor.id, request⟩, intent)))

/-- The account a completed request of `provision` created. -/
def createdChild (actor : Account) (id : Uuid) : Provisioning Account := do
  let target ← query env (fun store => store.account id)
  ofExcept (refuse (target.ownerAdminId != some actor.id || target.kind != .virtual) .forbidden)
  return target

def provision (id : Uuid) (now : Nat) (actor : Account) (name : Text) (quota : Nat) (hash : Text)
    (request : Uuid) (seen : Surroundings) : Provisioning Account := do
  ofExcept (validateInput cfg name quota)
  ofExcept (refuse (actor.role != .admin) .forbidden)
  outside env
  let saved ← query env (fun store => .ok (store.virtualCreate.find ⟨.account actor.id, request⟩))
  match saved with
  | some intent => do
      ofExcept (refuse (intent.version != 1 || intent.owner != .account actor.id ||
        intent.name != name || intent.quota != quota) .conflict)
      match intent.accountId with
      | some created => createdChild env actor created
      | none => do
          let parent ← ownReservation env cfg actor seen.parentUsed
          resumeChild env cfg actor parent
          completeChild env cfg id now actor name quota hash request intent
  | none => do
      let parent ← ownReservation env cfg actor seen.parentUsed
      let intent ← reserveChild env cfg actor name quota request seen parent
      completeChild env cfg id now actor name quota hash request intent

/-- The part of `create_admin` for a request without an intent. -/
def reserveAdmin (name : Text) (budget : Nat) (request : Uuid) (seen : Surroundings) :
    Provisioning Intent := do
  checkNewName env cfg name (name != "tealdrive".toList && seen.nameExists)
  let uid ← allocate env cfg seen
  transact env (Store.recordAdminIntent request name budget uid)
  return ⟨1, .root, name, budget, uid, none⟩

/-- The common end of `create_admin`. -/
def completeAdmin (id : Uuid) (now : Nat) (name : Text) (budget : Nat) (hash : Text)
    (request : Uuid) (intent : Intent) : Provisioning Account := do
  let home ← ensureOsIdentity env cfg intent.uid budget
  outside env
  transact env (Store.createRecord id now .root
    (newVirtual name intent.uid home .admin none none) (some hash)
    (some (⟨.root, request⟩, intent)))

/-- The account a completed request of `create_admin` created. -/
def createdAdmin (id : Uuid) : Provisioning Account := do
  let target ← query env (fun store => store.account id)
  ofExcept (refuse (target.kind != .virtual || target.role != .admin ||
    target.ownerAdminId.isSome) .forbidden)
  return target

def createAdmin (id : Uuid) (now : Nat) (name : Text) (budget : Nat) (hash : Text)
    (request : Uuid) (seen : Surroundings) : Provisioning Account := do
  ofExcept (validateInputScope cfg name budget true)
  ofExcept (refuse (!cfg.webAccounts.enabled || cfg.homeTemplate.isNone) .forbidden)
  outside env
  let saved ← query env (fun store => .ok (store.virtualCreate.find ⟨.root, request⟩))
  match saved with
  | some intent => do
      ofExcept (refuse (intent.version != 1 || intent.owner != .root ||
        intent.name != name || intent.quota != budget) .conflict)
      match intent.accountId with
      | some created => createdAdmin env created
      | none => completeAdmin env cfg id now name budget hash request intent
  | none => do
      let intent ← reserveAdmin env cfg name budget request seen
      completeAdmin env cfg id now name budget hash request intent

/-! ## Changing quotas -/

/-- `DELETE` of the mark that a quota change left for the kernel. -/
def clearSync (id : Uuid) : Provisioning Unit :=
  transact env (fun store =>
    .ok ((), { store with virtualQuotaSync := store.virtualQuotaSync.erase id }))

/-- What the parent will have left, as `set_quota` foresees it. -/
def foreseenParent (fixed : Bool) (oldParent old bytes : Nat) : Except StoreError Nat :=
  if fixed then .ok oldParent
  else if oldParent + old ≤ u64Max ∧ bytes ≤ oldParent + old then .ok (oldParent + old - bytes)
  else .error .quotaExceeded

/-- The transaction of `set_quota` with its callback.  The kernel is told about
whatever shrinks before the commit. -/
def changeQuota (now : Nat) (authority : Authority) (owner target : Account)
    (generation bytes old : Nat) (parent : Option Nat) : Provisioning (Nat × Account) := do
  let remaining ← query env
    (fun store => store.checkChildQuota authority target.id generation bytes)
  ofExcept (refuse (parent.any (fun used => decide (remaining < used))) .quotaExceeded)
  provided (parent.isSome && decide (bytes > old)) (nativeSetHeld cfg owner.uid remaining)
  provided (decide (bytes < old)) (nativeSetHeld cfg target.uid bytes)
  let updated ← commit
    (Store.setChildQuotaWith now authority target.id generation bytes (fun _ => .ok ()))
  return (remaining, updated)

def setQuota (now : Nat) (authority : Authority) (target : Account) (generation bytes : Nat)
    (seen : Surroundings) : Provisioning Account := do
  ofExcept (validateInput cfg target.username bytes)
  ofExcept (refuse (target.kind != .virtual || target.role != .user) .forbidden)
  let ownerId ← ofExcept (okOr target.ownerAdminId .forbidden)
  let owner ← query env (fun store => store.account ownerId)
  let parent ← ownReservation env cfg owner seen.parentUsed
  rootOf env cfg target
  outside env
  ofExcept (refuse (decide (bytes < seen.targetUsed)) .quotaExceeded)
  let old := target.quotaBytes.getD 0
  let oldParent ← effectiveLimit env owner.id
  let fixed ← query env (fun store => store.fixedOwn owner.id)
  let newParent ← ofExcept (foreseenParent fixed.isSome oldParent old bytes)
  ofExcept (refuse (parent.any (fun used => decide (newParent < used))) .quotaExceeded)
  let result ← attempt (changeQuota env cfg now authority owner target generation bytes old parent)
  match result with
  | .error error => do
      provided (decide (bytes < old)) (do
        let _ ← attempt (nativeSet env cfg target.uid old)
        return ())
      provided (decide (bytes > old) && parent.isSome) (do
        let _ ← attempt (nativeSet env cfg owner.uid oldParent)
        return ())
      ofExcept (.error error)
  | .ok (remaining, updated) => do
      nativeSet env cfg target.uid bytes
      provided parent.isSome (nativeSet env cfg owner.uid remaining)
      clearSync env target.id
      return updated

/-- The transaction of `set_budget` with its callback. -/
def changeBudget (target : Account) (bytes oldRemaining : Nat) (held : Option Nat) :
    Provisioning Nat := do
  let remaining ← query env (fun store => store.checkBudget .root target.id bytes)
  ofExcept (refuse (held.any (fun used => decide (remaining < used))) .quotaExceeded)
  provided (held.isSome && decide (remaining < oldRemaining))
    (nativeSetHeld cfg target.uid remaining)
  commit (Store.setAdminBudgetWith .root target.id bytes (fun _ => .ok ()))
  return remaining

def setBudget (id : Uuid) (bytes : Nat) (seen : Surroundings) : Provisioning Unit := do
  let target ← query env (fun store => store.account id)
  ofExcept (refuse (cfg.virtualAccounts.enforcement == .userQuota && bytes % 1024 != 0)
    .invalidInput)
  let held ← ownReservation env cfg target seen.parentUsed
  let oldRemaining ← effectiveLimit env id
  let result ← attempt (changeBudget env cfg target bytes oldRemaining held)
  match result with
  | .error error => do
      provided held.isSome (do
        let _ ← attempt (nativeSet env cfg target.uid oldRemaining)
        return ())
      ofExcept (.error error)
  | .ok remaining => provided held.isSome (nativeSet env cfg target.uid remaining)

/-- The transaction of `set_own_quota` with its callback. -/
def changeOwn (now : Nat) (target : Account) (bytes old : Nat) (held : Option Nat) :
    Provisioning Unit := do
  query env (fun store => store.checkOwn .root target.id bytes)
  ofExcept (refuse (held.any (fun used => decide (bytes < used))) .quotaExceeded)
  provided (held.isSome && decide (bytes < old)) (nativeSetHeld cfg target.uid bytes)
  commit (Store.setAdminOwnWith now .root target.id bytes (fun _ => .ok ()))

def setOwnQuota (now : Nat) (id : Uuid) (bytes : Nat) (seen : Surroundings) :
    Provisioning Unit := do
  ofExcept (refuse (cfg.virtualAccounts.enforcement == .userQuota && bytes % 1024 != 0)
    .invalidInput)
  let target ← query env (fun store => store.account id)
  ofExcept (refuse (target.kind != .virtual || target.role != .admin) .forbidden)
  let held ← ownReservation env cfg target seen.parentUsed
  let quota ← query env (fun store => store.effectiveQuota id)
  let old ← ofExcept (okOr quota .invalidInput)
  let result ← attempt (changeOwn env cfg now target bytes old held)
  match result with
  | .error error => do
      provided held.isSome (do
        let _ ← attempt (nativeSet env cfg target.uid old)
        return ())
      ofExcept (.error error)
  | .ok _ => do
      provided held.isSome (nativeSet env cfg target.uid bytes)
      clearSync env id

/-! ## Cancelling and purging -/

/-- The owner of a cancelled intent, with its reservation. -/
def cancelledOwner (seen : Surroundings) : IntentOwner -> Provisioning (Option Account)
  | .root => return none
  | .account id => do
      let owner ← query env (fun store => store.account id)
      let held ← ownReservation env cfg owner seen.parentUsed
      return if held.isSome then some owner else none

/-- The kernel's limit of a parent follows the database. -/
def raiseParent : Option Account -> Provisioning Unit
  | none => return ()
  | some owner => do
      let limit ← committedLimit env owner.id
      nativeSet env cfg owner.uid limit

def cancelPending (now : Nat) (key : IntentKey) (seen : Surroundings) : Provisioning Unit := do
  let saved ← query env (fun store => okOr (store.virtualCreate.find key) .database)
  ofExcept (refuse (saved.version != 1 || saved.accountId.isSome ||
    decide (saved.uid < cfg.webAccounts.virtualMinUid) ||
    decide (saved.uid > cfg.webAccounts.virtualMaxUid)) .forbidden)
  outside env
  ofExcept (refuse (!seen.freeId saved.uid || seen.homeExists saved.uid) .conflict)
  let parent ← cancelledOwner env cfg seen saved.owner
  transact env (fun store => .ok ((), store.cancelIntent now key saved.uid))
  raiseParent env cfg parent

/-- The ids `purge_deleted` works on. -/
def Store.purgeCandidates (store : Store) (deadline : Nat) : List Uuid :=
  (((store.accounts.rows.filter (fun entry => store.purgeable deadline entry.1 entry.2)).insertionSort
    (fun first second => first.2.deletedAt.getD 0 ≤ second.2.deletedAt.getD 0)).take 100).map Prod.fst

/-- A purge intent is written before the first file is removed. -/
def clearHome (now : Nat) (target : Account) (intent : Option (Nat × Text)) : Provisioning Unit := do
  rootOf env cfg target
  outside env
  provided intent.isNone (transact env (Store.recordPurgeIntent now target.id))
  outside env

/-- The body of the loop of `purge_deleted`. -/
def purgeOne (now : Nat) (seen : Surroundings) (id : Uuid) : Provisioning Unit := do
  let target ← query env (fun store => store.account id)
  let ownerId ← ofExcept (okOr target.ownerAdminId .forbidden)
  let owner ← query env (fun store => store.account ownerId)
  let parent ← ownReservation env cfg owner seen.parentUsed
  let intent ← query env (fun store => .ok (store.virtualPurgeIntent.find id))
  ofExcept (refuse (intent.any (fun intent => intent != (target.uid, target.home))) .forbidden)
  outside env
  ofExcept (refuse (!seen.homeExists target.uid && intent.isNone) .forbidden)
  provided (seen.homeExists target.uid) (clearHome env cfg now target intent)
  outside env
  transact env (Store.purge now id target.uid)
  raiseParent env cfg (if parent.isSome then some owner else none)

def purgeEach (now : Nat) (seen : Surroundings) : List Uuid -> Provisioning Unit
  | [] => return ()
  | id :: rest => do
      purgeOne env cfg now seen id
      purgeEach now seen rest

def purgeDeleted (now : Nat) (seen : Surroundings) : Provisioning Unit := do
  let deadline := now - min (cfg.virtualAccounts.deletedRetentionHours * 3600) u64Max
  let _ ← ofExcept (number deadline)
  let ids ← query env (fun store => .ok (store.purgeCandidates deadline))
  purgeEach env cfg now seen ids

end Programs

/-! ## Runs -/

/-- A call that takes the lock. -/
inductive Call where
  | provision (id : Uuid) (now : Nat) (actor : Account) (name : Text) (quota : Nat) (hash : Text)
      (request : Uuid) (seen : Surroundings)
  | createAdmin (id : Uuid) (now : Nat) (name : Text) (budget : Nat) (hash : Text)
      (request : Uuid) (seen : Surroundings)
  | setQuota (now : Nat) (authority : Authority) (target : Account) (generation bytes : Nat)
      (seen : Surroundings)
  | setBudget (id : Uuid) (bytes : Nat) (seen : Surroundings)
  | setOwnQuota (now : Nat) (id : Uuid) (bytes : Nat) (seen : Surroundings)
  | cancelPending (now : Nat) (key : IntentKey) (seen : Surroundings)
  | purgeDeleted (now : Nat) (seen : Surroundings)

namespace Call

def run (env : Environment) (cfg : AppConfig) : Call -> Provisioning Unit
  | .provision id now actor name quota hash request seen => do
      let _ ← TealDrive.provision env cfg id now actor name quota hash request seen
      return ()
  | .createAdmin id now name budget hash request seen => do
      let _ ← TealDrive.createAdmin env cfg id now name budget hash request seen
      return ()
  | .setQuota now authority target generation bytes seen => do
      let _ ← TealDrive.setQuota env cfg now authority target generation bytes seen
      return ()
  | .setBudget id bytes seen => TealDrive.setBudget env cfg id bytes seen
  | .setOwnQuota now id bytes seen => TealDrive.setOwnQuota env cfg now id bytes seen
  | .cancelPending now key seen => TealDrive.cancelPending env cfg now key seen
  | .purgeDeleted now seen => TealDrive.purgeDeleted env cfg now seen

/-- The caller passes an account that it has read. -/
def given (world : World) : Call -> Prop
  | .provision _ _ actor .. => actor ∈ world.taken
  | .setQuota _ _ target .. => target ∈ world.taken
  | _ => True

end Call

/-- What happens while nobody holds the lock, then a call that takes it, and
what happens to the steps of the call. -/
structure Session where
  idle : List Move
  call : Call
  events : List (Event Move StoreError)

/-- The world in which the call takes the lock. -/
def Session.locked (env : Environment) (world : World) (session : Session) : World :=
  Runs.run (World.move env) world session.idle

def Session.behaviour (env : Environment) (cfg : AppConfig) (world : World) (session : Session) :
    Behaviour World Move StoreError Unit :=
  session.call.run env cfg session.events (session.locked env world)

/-- Every world that a sequence of calls passes through. -/
def visited (env : Environment) (cfg : AppConfig) (world : World) : List Session -> List World
  | [] => [world]
  | session :: rest =>
      world :: (Faults.path (World.move env) world session.idle ++
        (session.behaviour env cfg world).visited ++
        visited env cfg (session.behaviour env cfg world).world rest)

/-- A condition on every call in the world in which it takes the lock. -/
def eachCall (env : Environment) (cfg : AppConfig) (condition : World -> Call -> Prop)
    (world : World) : List Session -> Prop
  | [] => True
  | session :: rest =>
      condition (session.locked env world) session.call ∧
        eachCall env cfg condition (session.behaviour env cfg world).world rest

def World.initial (dummyPasswordHash : Text) : World where
  store := Store.initial dummyPasswordHash
  native := fun _ => none
  taken := []

end TealDrive
