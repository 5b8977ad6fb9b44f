import TealDrive.Accounts.Schema

namespace TealDrive

open Outcome

/-!
# Store operations

Each definition is one transaction of `store.rs`.  Integers the database
stores are 64-bit and signed: `number` refuses a value that does not fit, a
sum that does not fit is a database error, and a plain subtraction wraps
around.  All rewriting of account rows goes through `Store.execute`, one
constructor of `RowUpdate` for each `UPDATE accounts` statement of the source.
-/

/-! ## Integers -/

def number (value : Nat) : Except StoreError Int :=
  if value ≤ i64Max then .ok value else .error .invalidInput

/-- A sum the database returns as a 64-bit integer. -/
def queryInt (value : Nat) : Except StoreError Int :=
  if value ≤ i64Max then .ok value else .error .database

/-- `i64` subtraction in a release build. -/
def sub64 (left right : Int) : Int :=
  Int.bmod (left - right) (2 ^ 64)

/-- `i64::checked_add`, with the error the callers give. -/
def checkedAdd (left right : Int) : Except StoreError Int :=
  if left + right ≤ i64Max ∧ -(i64Max + 1 : Int) ≤ left + right then .ok (left + right)
  else .error .quotaExceeded

/-! ## Rows -/

/-- The `CHECK` constraints of `accounts`. -/
def AccountRow.valid (row : AccountRow) : Bool :=
  within 1 4294967295 row.uid && within 1 4294967295 row.gid && isAbsolute row.home &&
    decide (0 < row.generation) && row.undoHours.all (fun hours => decide (1 ≤ hours)) &&
    (row.kind == .virtual || (row.ownerAdminId == none && row.quotaBytes == none)) &&
    (row.kind == .linux ||
      (row.role == .admin && row.ownerAdminId == none && row.quotaBytes == none) ||
      (row.role == .user && row.ownerAdminId.isSome && row.quotaBytes.isSome))

/-- The `UPDATE accounts` statements. -/
inductive RowUpdate where
  /-- `generation=generation+1,updated_at=?` -/
  | touch (time : Nat)
  | setRole (role : Role) (time : Nat)
  | setPassword (hash : Option Text) (time : Nat)
  | setStatus (status : AccountStatus) (login : Bool) (deletedAt : Option Nat) (deny : Bool)
      (time : Nat)
  | setQuota (bytes : Nat) (time : Nat)
  | enroll (hash : Text) (time : Nat)
  | purge
  /-- `web_password_hash=?`, on a row just inserted -/
  | firstPassword (hash : Text)
  | setUndoHours (hours : Option Nat) (time : Nat)

def RowUpdate.apply : RowUpdate -> AccountRow -> AccountRow
  | .touch time, row => { row with generation := row.generation + 1, updatedAt := time }
  | .setRole role time, row =>
      { row with role := role, generation := row.generation + 1, updatedAt := time }
  | .setPassword hash time, row =>
      { row with webPasswordHash := hash, generation := row.generation + 1, updatedAt := time }
  | .setStatus status login deletedAt deny time, row =>
      { row with status := status, loginEnabled := login, generation := row.generation + 1,
                 updatedAt := time, deletedAt := deletedAt, denyEnrollment := deny }
  | .setQuota bytes time, row =>
      { row with quotaBytes := some bytes, generation := row.generation + 1, updatedAt := time }
  | .enroll hash time, row =>
      { row with webPasswordHash := some hash, status := .active, loginEnabled := true,
                 denyEnrollment := false, generation := row.generation + 1, updatedAt := time }
  | .purge, row =>
      { row with quotaBytes := some 0, webPasswordHash := none, generation := row.generation + 1 }
  | .firstPassword hash, row => { row with webPasswordHash := some hash }
  | .setUndoHours hours time, row => { row with undoHours := hours, updatedAt := time }

/-- A row that the database accepts: its constraints hold and its generation
still is a 64-bit integer. -/
def AccountRow.storable (row : AccountRow) : Bool :=
  row.valid && decide (row.generation ≤ i64Max)

namespace Store

def updateRow (store : Store) (update : RowUpdate) (id : Uuid) : Store :=
  { store with accounts := store.accounts.modify id update.apply }

/-- `UPDATE accounts SET … WHERE id=?`. -/
def execute (store : Store) (update : RowUpdate) (id : Uuid) : Except StoreError Store := do
  refuse ((store.accounts.find id).any (fun row => !(update.apply row).storable)) .database
  return store.updateRow update id

/-- `INSERT INTO accounts`, with the uniqueness of the row's identity and the
foreign key of its owner. -/
def insertAccount (store : Store) (id : Uuid) (row : AccountRow) : Except StoreError Store := do
  refuse ((store.accounts.find id).isSome ||
    store.accounts.exists_ (fun _ other => other.username == row.username || other.uid == row.uid) ||
    row.ownerAdminId.any (fun owner => owner != id && (store.accounts.find owner).isNone) ||
    !row.storable) .database
  return { store with accounts := store.accounts.insert id row }

/-- `DELETE FROM enrollment WHERE username=?`. -/
def dropEnrollment (store : Store) (username : Text) : Store :=
  { store with enrollment := store.enrollment.filter (fun _ row => row.username != username) }

/-! ## Reading accounts -/

/-- A row with the columns computed from other tables. -/
def view (store : Store) (id : Uuid) (row : AccountRow) : Account :=
  { row.toAccountColumns with
    id := id
    globalAdmin := row.role == .admin && (store.panelScope.find id).getD (row.kind == .linux)
    passwordChangeRequired := (store.passwordChangeRequired.find id).isSome
    passwordEnrolled := row.webPasswordHash.isSome }

def account (store : Store) (id : Uuid) : Except StoreError Account :=
  okOr ((store.accounts.find id).map (store.view id)) .notFound

/-- `find_username`: usernames are unique. -/
def findUsername (store : Store) (username : Text) : Option Account :=
  (store.accounts.rows.find? (fun entry => entry.2.username == username)).map
    (fun entry => store.view entry.1 entry.2)

def authorized (store : Store) : Authority -> Except StoreError (Option Account)
  | .root => .ok none
  | .account id generation => do
      let account ← store.account id
      refuse (account.generation != generation || !account.loginEnabled ||
        account.status != .active) .forbidden
      return some account

def manage (store : Store) (actor : Authority) (target : Account) : Except StoreError Unit := do
  let caller ← store.authorized actor
  forSome caller (fun caller =>
    refuse (caller.role != .admin || target.ownerAdminId != some caller.id ||
      target.kind != .virtual) .forbidden)

/-! ## Allocation sums -/

/-- The quotas of the pending intents of one owner, except one of them. -/
def pendingTotal (store : Store) (owner : IntentOwner) (exclude : Option IntentKey) : Nat :=
  store.virtualCreate.total (fun key intent =>
    if intent.owner = owner ∧ intent.accountId = none ∧ some key ≠ exclude then intent.quota
    else 0)

/-- The quotas of the accounts of one owner. -/
def childrenTotal (store : Store) (owner : Uuid) : Nat :=
  store.accounts.total (fun _ row =>
    if row.ownerAdminId = some owner then row.quotaBytes.getD 0 else 0)

/-- The limits of all budgets. -/
def budgetsTotal (store : Store) : Nat :=
  store.adminBudgets.total (fun _ limit => limit)

/-- `pending_reserved`. -/
def pendingReserved (store : Store) (owner : IntentOwner) (exclude : Option IntentKey) :
    Except StoreError Int :=
  queryInt (store.pendingTotal owner exclude)

/-- `sum(quota_bytes)` over the accounts of one owner. -/
def childrenAllocated (store : Store) (owner : Uuid) : Except StoreError Int :=
  queryInt (store.childrenTotal owner)

/-- `sum(limit_bytes)` over the budgets. -/
def budgetsAllocated (store : Store) : Except StoreError Int :=
  queryInt store.budgetsTotal

/-- The limit of a budget row, zero when there is none. -/
def budgetOf (store : Store) (id : Uuid) : Nat :=
  (store.adminBudgets.find id).getD 0

def fixedOwn (store : Store) (id : Uuid) : Except StoreError (Option Int) :=
  match store.adminOwnQuota.find id with
  | none => .ok none
  | some bytes => if 0 < bytes ∧ bytes ≤ i64Max then .ok (some bytes) else .error .invalidInput

/-! ## Scope and role -/

def setPanelScope (now : Nat) (actor : Authority) (id : Uuid) (global : Bool) (store : Store) :
    Except StoreError (Account × Store) := do
  refuse (actor != .root) .forbidden
  let target ← store.account id
  refuse (target.role != .admin || target.status != .active) .forbidden
  let placed := { store with panelScope := store.panelScope.insert id global }
  let _ ← number now
  let updated ← placed.execute (.touch now) id
  let final := updated.dropEnrollment target.username
  let result ← final.account id
  return (result, final)

def setRole (now : Nat) (actor : Authority) (id : Uuid) (role : Role) (store : Store) :
    Except StoreError (Account × Store) := do
  refuse (actor != .root) .forbidden
  let target ← store.account id
  refuse (target.kind != .linux || target.status != .active) .forbidden
  let _ ← number now
  let updated ← store.execute (.setRole role now) id
  let placed := { updated with panelScope := updated.panelScope.insert id (decide (role = Role.admin)) }
  let final := placed.dropEnrollment target.username
  let result ← final.account id
  return (result, final)

/-! ## Creating accounts -/

/-- The syntactic checks shared by `create_record` and enrollment identities. -/
def invalidIdentity (username : Text) (uid gid : Nat) (home : Text) : Bool :=
  username == [] || decide (username.len > 256) ||
    username.any (fun symbol => symbol == '/' || symbol == '\\' || symbol == '\x00') ||
    uid == 0 || gid == 0 || !isAbsolute home || components home == [.rootDir] || hasParentDir home

/-- The owner's budget bounds the quota of a new child. -/
def checkChild (store : Store) (quota : Nat) (owner : Uuid) (exclude : Option IntentKey) :
    Except StoreError Unit := do
  let ownerAccount ← store.account owner
  refuse (ownerAccount.role != .admin || ownerAccount.status != .active) .forbidden
  let budget ← okOr (store.adminBudgets.find owner) .quotaExceeded
  let allocated ← store.childrenAllocated owner
  let pending ← store.pendingReserved (.account owner) exclude
  let wanted ← number quota
  let own ← store.fixedOwn owner
  refuse (decide (wanted >
    sub64 (sub64 (sub64 budget allocated) pending) (own.getD 0))) .quotaExceeded

def checkAllocation (store : Store) (caller : Option Account) (new : NewAccount)
    (exclude : Option IntentKey) : Except StoreError Unit :=
  if new.kind = .virtual ∧ new.role = .admin then
    refuse (caller.isSome || new.ownerAdminId.isSome || new.quotaBytes.isSome) .forbidden
  else if new.kind = .virtual then do
    let quota ← okOr (new.quotaBytes.filter (fun quota => decide (0 < quota))) .invalidInput
    let owner ← okOr new.ownerAdminId .invalidInput
    store.checkChild quota owner exclude
  else refuse (new.ownerAdminId.isSome || new.quotaBytes.isSome) .invalidInput

/-- The budget a new virtual administrator draws from the pool. -/
def rootBudget (store : Store) (new : NewAccount) (requestState : Option (IntentKey × Intent)) :
    Except StoreError (Option Nat) :=
  match requestState with
  | none => .ok none
  | some (key, state) =>
      if new.kind = .virtual ∧ new.role = .admin then do
        refuse (state.owner != .root || key.owner != .root) .forbidden
        let allocated ← store.budgetsAllocated
        let wanted ← number state.quota
        let pending ← store.pendingReserved .root (some key)
        refuse (decide (wanted > sub64 (sub64 store.poolLimit allocated) pending)) .quotaExceeded
        return some state.quota
      else .ok none

/-- The row `create_record` inserts; defaults come from the schema. -/
def newRow (now : Nat) (new : NewAccount) : AccountRow where
  username := new.username
  uid := new.uid
  gid := new.gid
  home := new.home
  kind := new.kind
  role := new.role
  ownerAdminId := new.ownerAdminId
  status := .active
  loginEnabled := true
  generation := 1
  quotaBytes := new.quotaBytes
  undoHours := none
  createdAt := now
  updatedAt := now
  deletedAt := none
  denyEnrollment := false
  webPasswordHash := none

def insertBudget (store : Store) (id : Uuid) : Option Nat -> Except StoreError Store
  | none => .ok store
  | some budget => do
      refuse (store.adminBudgets.find id).isSome .database
      return { store with adminBudgets := store.adminBudgets.insert id budget }

/-- An administrator who chose the password knows it; the user must replace it. -/
def insertPassword (store : Store) (id : Uuid) (byAdmin : Bool) :
    Option Text -> Except StoreError Store
  | none => .ok store
  | some hash => do
      let updated ← store.execute (.firstPassword hash) id
      if byAdmin then do
        refuse (updated.passwordChangeRequired.find id).isSome .database
        return { updated with
          passwordChangeRequired := updated.passwordChangeRequired.insert id () }
      else return updated

/-- The request state is stored with the account it produced. -/
def completeIntent (store : Store) (id : Uuid) : Option (IntentKey × Intent) -> Store
  | none => store
  | some (key, state) =>
      { store with
        virtualCreate := store.virtualCreate.insert key { state with accountId := some id } }

/-- The checks of `create_record`, up to the first insertion. -/
def checkCreate (store : Store) (now : Nat) (actor : Authority) (new : NewAccount)
    (requestState : Option (IntentKey × Intent)) :
    Except StoreError (Option Account × Option Nat) := do
  refuse (invalidIdentity new.username new.uid new.gid new.home) .invalidInput
  let caller ← store.authorized actor
  forSome caller (fun caller =>
    refuse (new.kind != .virtual || new.role != .user || new.ownerAdminId != some caller.id ||
      caller.role != .admin) .forbidden)
  store.checkAllocation caller new (requestState.map Prod.fst)
  let budget ← store.rootBudget new requestState
  forSome new.quotaBytes (fun quota => refuse (decide (quota > i64Max)) .invalidInput)
  let _ ← number now
  return (caller, budget)

def createRecord (id : Uuid) (now : Nat) (actor : Authority) (new : NewAccount)
    (hash : Option Text) (requestState : Option (IntentKey × Intent)) (store : Store) :
    Except StoreError (Account × Store) := do
  let (caller, budget) ← store.checkCreate now actor new requestState
  let inserted ← store.insertAccount id (newRow now new)
  let budgeted ← inserted.insertBudget id budget
  let enrolled ← budgeted.insertPassword id caller.isSome hash
  let final := enrolled.completeIntent id requestState
  let result ← final.account id
  return (result, final)

/-! ## Quotas -/

def effectiveQuota (store : Store) (id : Uuid) : Except StoreError (Option Nat) := do
  let target ← store.account id
  if target.kind = .linux then return none
  else if target.role = .user then return target.quotaBytes
  else do
    let children ← store.childrenAllocated id
    let pending ← store.pendingReserved (.account id) none
    let allocated ← checkedAdd children pending
    refuse (decide (allocated > store.budgetOf id)) .quotaExceeded
    let own ← store.fixedOwn id
    refuse (own.any (fun own => decide (own > sub64 (store.budgetOf id) allocated))) .quotaExceeded
    return some (own.getD (sub64 (store.budgetOf id) allocated)).toNat

def setPool (actor : Authority) (bytes : Nat) (store : Store) : Except StoreError (Unit × Store) := do
  refuse (actor != .root) .forbidden
  let budgets ← store.budgetsAllocated
  let pending ← store.pendingReserved .root none
  let allocated ← checkedAdd budgets pending
  let wanted ← number bytes
  refuse (decide (wanted < allocated)) .quotaExceeded
  return ((), { store with poolLimit := bytes })

/-- The checks of `set_admin_budget_with`, and the value its callback sees. -/
def checkBudget (store : Store) (actor : Authority) (id : Uuid) (bytes : Nat) :
    Except StoreError Nat := do
  refuse (actor != .root) .forbidden
  let target ← store.account id
  refuse (target.role != .admin || target.status != .active) .forbidden
  let allocated ← store.budgetsAllocated
  let sum ← store.childrenAllocated id
  let reserved ← store.pendingReserved (.account id) none
  let children ← checkedAdd sum reserved
  let wanted ← number bytes
  let own ← store.fixedOwn id
  let needed ← checkedAdd children (own.getD 0)
  let pending ← store.pendingReserved .root none
  refuse (decide (wanted < needed) ||
    decide (wanted > sub64 (sub64 store.poolLimit (sub64 allocated (store.budgetOf id))) pending))
    .quotaExceeded
  return (own.getD (sub64 wanted children)).toNat

def setAdminBudgetWith (actor : Authority) (id : Uuid) (bytes : Nat)
    (beforeCommit : Nat -> Except StoreError Unit) (store : Store) :
    Except StoreError (Unit × Store) := do
  let remaining ← store.checkBudget actor id bytes
  beforeCommit remaining
  return ((), { store with adminBudgets := store.adminBudgets.insert id bytes })

/-- The checks of `set_admin_own_with`. -/
def checkOwn (store : Store) (actor : Authority) (id : Uuid) (bytes : Nat) :
    Except StoreError Unit := do
  refuse (actor != .root) .forbidden
  let wanted ← number bytes
  refuse (wanted == 0) .invalidInput
  let target ← store.account id
  refuse (target.kind != .virtual || target.role != .admin || target.status != .active) .forbidden
  let children ← store.childrenAllocated id
  let pending ← store.pendingReserved (.account id) none
  refuse (decide (wanted > sub64 (sub64 (store.budgetOf id) children) pending)) .quotaExceeded

def setAdminOwnWith (now : Nat) (actor : Authority) (id : Uuid) (bytes : Nat)
    (before : Nat -> Except StoreError Unit) (store : Store) :
    Except StoreError (Unit × Store) := do
  store.checkOwn actor id bytes
  before bytes
  let marked := { store with
    adminOwnQuota := store.adminOwnQuota.insert id bytes
    virtualQuotaSync := store.virtualQuotaSync.insert id () }
  let _ ← number now
  let final ← marked.execute (.touch now) id
  return ((), final)

/-! ## Sessions and passwords -/

def invalidateRestoredSessions (now : Nat) (epoch : Uuid) (actor : Authority) (store : Store) :
    Except StoreError (Unit × Store) := do
  refuse (actor != .root) .forbidden
  let _ ← number now
  refuse (store.accounts.exists_ (fun _ row => !((RowUpdate.touch now).apply row).storable)) .database
  return ((), { store with
    sessionGrants := .empty
    enrollment := .empty
    undoEpoch := some epoch
    accounts := store.accounts.map (fun _ row => (RowUpdate.touch now).apply row) })

def copyAdminCredentials (now : Nat) (actor : Authority) (source : Uuid) (sourceGeneration : Nat)
    (target : Uuid) (targetGeneration : Nat) (store : Store) :
    Except StoreError (Unit × Store) := do
  refuse (actor != .root) .forbidden
  let giver ← store.account source
  let receiver ← store.account target
  refuse (giver.kind != .linux || receiver.kind != .virtual || giver.role != .admin ||
    receiver.role != .admin || giver.status != .active || receiver.status != .active ||
    !giver.passwordEnrolled || giver.generation != sourceGeneration ||
    receiver.generation != targetGeneration) .forbidden
  let _ ← number now
  let hash := (store.accounts.find source).bind (fun row => row.webPasswordHash)
  let updated ← store.execute (.setPassword hash now) target
  let cleared := updated.passwordChangeRequired.erase target
  return ((), { updated with
    passwordChangeRequired :=
      if giver.passwordChangeRequired then cleared.insert target () else cleared })

def requirePasswordChange (now : Nat) (actor : Authority) (id : Uuid) (store : Store) :
    Except StoreError (Account × Store) := do
  refuse (actor != .root) .forbidden
  let target ← store.account id
  refuse (target.status != .active) .forbidden
  let marked := { store with passwordChangeRequired := store.passwordChangeRequired.insert id () }
  let _ ← number now
  let final ← marked.execute (.touch now) id
  let result ← final.account id
  return (result, final)

/-- `password::hash` draws a salt and `password::verify` compares; both come
from outside the store. -/
structure PasswordScheme where
  verify : Text -> Text -> Except StoreError Bool

/-- A caller other than the target must manage it. -/
def manageOther (store : Store) (actor : Authority) (target : Account) :
    Except StoreError Unit := do
  let caller ← store.authorized actor
  forSome caller (fun caller => whenever (caller.id != target.id) (store.manage actor target))

/-- `set_password`, given the hash of the new password. -/
def setPassword (scheme : PasswordScheme) (now : Nat) (actor : Authority) (id : Uuid)
    (password hash : Text) (store : Store) : Except StoreError (Account × Store) := do
  let target ← store.account id
  store.manageOther actor target
  refuse (target.status == .deleted) .forbidden
  whenever target.passwordChangeRequired (do
    let old ← okOr ((store.accounts.find id).bind (fun row => row.webPasswordHash)) .database
    let same ← scheme.verify password old
    refuse same .invalidInput)
  let cleared := { store with
    passwordChangeRequired := store.passwordChangeRequired.erase id }
  let _ ← number now
  let final ← cleared.execute (.setPassword (some hash) now) id
  let result ← final.account id
  return (result, final)

def verifyPassword (scheme : PasswordScheme) (username password : Text) (store : Store) :
    Except StoreError Account := do
  let found := store.findUsername username
  let stored := (found.bind (fun account => store.accounts.find account.id)).bind
    (fun row => row.webPasswordHash)
  let valid ← scheme.verify password (stored.getD store.dummyPasswordHash)
  match found with
  | some account =>
      if valid && account.passwordEnrolled && account.loginEnabled && account.status == .active then
        return account
      else throw .invalidCredentials
  | none => throw .invalidCredentials

/-! ## Lifecycle -/

/-- `transition_checked`. -/
def transition (now : Nat) (actor : Authority) (id : Uuid) (status : AccountStatus)
    (allowAdminDelete : Bool) (generation : Option Nat) (store : Store) :
    Except StoreError (Account × Store) := do
  let target ← store.account id
  refuse (generation.any (fun generation => generation != target.generation)) .conflict
  let caller ← store.authorized actor
  forSome caller (fun caller => do
    whenever (!(caller.id == target.id && target.kind == .linux && status == .revoked))
      (store.manage actor target)
    refuse (status == .deleted && !allowAdminDelete) .forbidden)
  refuse (target.status == .deleted) .conflict
  let selfRevoke := caller.any (fun caller => caller.id == target.id) && target.kind == .linux &&
    status == .revoked
  let deny := status != .active && !selfRevoke
  let _ ← number now
  let updated ← store.execute (.setStatus status (status == .active)
    (if status = .deleted then some now else none) deny now) id
  let final := updated.dropEnrollment target.username
  let result ← final.account id
  return (result, final)

def verifyGeneration (id : Uuid) (generation uid gid : Nat) (store : Store) :
    Except StoreError Account := do
  let account ← store.account id
  refuse (account.generation != generation || account.uid != uid || account.gid != gid ||
    !account.loginEnabled || account.status != .active) .forbidden
  return account

/-! ## What the shared parts establish -/

theorem execute_ok {store final : Store} {update : RowUpdate} {id : Uuid}
    (done : store.execute update id = .ok final) :
    final = store.updateRow update id ∧
      forall row, store.accounts.find id = some row -> (update.apply row).storable = true := by
  simp only [execute, bind_eq_ok, refuse_eq_ok, pure_eq_ok] at done
  rcases done with ⟨_, accepted, same⟩
  refine ⟨same.symm, ?_⟩
  intro row found
  rw [found] at accepted
  simpa using accepted

theorem account_ok {store : Store} {id : Uuid} {account : Account}
    (found : store.account id = .ok account) :
    ∃ row, store.accounts.find id = some row ∧ account = store.view id row := by
  rcases Option.map_eq_some_iff.mp (okOr_eq_ok.mp found) with ⟨row, present, same⟩
  exact ⟨row, present, same.symm⟩

theorem account_of_find {store : Store} {id : Uuid} {row : AccountRow}
    (found : store.accounts.find id = some row) : store.account id = .ok (store.view id row) := by
  unfold account
  rw [found]
  rfl

/-- An authorized caller is the account it names, active at the generation it
carries. -/
structure Caller (store : Store) (actor : Authority) (id : Uuid) (row : AccountRow) : Prop where
  actor : actor = .account id row.generation
  found : store.accounts.find id = some row
  login : row.loginEnabled = true
  active : row.status = .active

theorem authorized_ok {store : Store} {actor : Authority} {caller : Option Account}
    (accepted : store.authorized actor = .ok caller) :
    (actor = .root ∧ caller = none) ∨
      ∃ id row, Caller store actor id row ∧ caller = some (store.view id row) := by
  cases actor with
  | root =>
      cases accepted
      exact Or.inl ⟨rfl, rfl⟩
  | account id generation =>
      simp only [authorized, bind_eq_ok, refuse_eq_ok, pure_eq_ok, Bool.or_eq_false_iff,
        bne_eq_false_iff_eq, Bool.not_eq_false'] at accepted
      rcases accepted with ⟨account, found, _, ⟨⟨generationSame, login⟩, active⟩, same⟩
      rcases account_ok found with ⟨row, present, viewed⟩
      subst viewed
      exact Or.inr ⟨id, row, ⟨generationSame ▸ rfl, present, login, active⟩, same.symm⟩

/-- A caller that manages a target is root, or the target's active
administrator. -/
theorem manage_ok {store : Store} {actor : Authority} {target : Account}
    (accepted : store.manage actor target = .ok ()) :
    actor = .root ∨ ∃ id row, Caller store actor id row ∧ row.role = .admin ∧
      target.ownerAdminId = some id ∧ target.kind = .virtual := by
  simp only [manage, bind_eq_ok, forSome_eq_ok, refuse_eq_ok, Bool.or_eq_false_iff,
    bne_eq_false_iff_eq] at accepted
  rcases accepted with ⟨caller, authorized, owned⟩
  rcases authorized_ok authorized with ⟨root, _⟩ | ⟨id, row, valid, viewed⟩
  · exact Or.inl root
  · have facts := owned _ viewed
    exact Or.inr ⟨id, row, valid, facts.1.1, facts.1.2, facts.2⟩

/-- A subtraction that stays above zero does not wrap. -/
theorem sub64_of_le {left right : Nat} (ordered : right ≤ left) (fits : left ≤ i64Max) :
    sub64 left right = ((left - right : Nat) : Int) := by
  unfold sub64
  rw [Int.bmod_eq_of_le]
  · omega
  · omega
  · simp only [i64Max] at fits
    omega

theorem queryInt_ok {value : Nat} {result : Int} (fits : queryInt value = .ok result) :
    value ≤ i64Max ∧ result = value := by
  unfold queryInt at fits
  by_cases small : value ≤ i64Max
  · rw [if_pos small] at fits
    cases fits
    exact ⟨small, rfl⟩
  · rw [if_neg small] at fits
    cases fits

theorem number_ok {value : Nat} {result : Int} (fits : number value = .ok result) :
    value ≤ i64Max ∧ result = value := by
  unfold number at fits
  by_cases small : value ≤ i64Max
  · rw [if_pos small] at fits
    cases fits
    exact ⟨small, rfl⟩
  · rw [if_neg small] at fits
    cases fits

end Store

end TealDrive
