import TealDrive.Accounts.Runs

namespace TealDrive

/-!
# How account rows change

Whatever operation commits, the account relation changes in one of four ways:
not at all, by one new row, by one statement on one row, or by touching every
row.  `Permitted` collects what the operations check before they run each
statement.  Invariants of account rows are proved against these cases, not
against the operations.
-/

/-- Only virtual users have an owner and a quota. -/
inductive AccountRow.Shaped (row : AccountRow) : Prop where
  | linux (kind : row.kind = .linux) (owner : row.ownerAdminId = none)
      (quota : row.quotaBytes = none)
  | admin (kind : row.kind = .virtual) (role : row.role = .admin)
      (owner : row.ownerAdminId = none) (quota : row.quotaBytes = none)
  | user (kind : row.kind = .virtual) (role : row.role = .user)
      (owner : row.ownerAdminId.isSome = true) (quota : row.quotaBytes.isSome = true)

theorem AccountRow.shaped_of_storable {row : AccountRow} (storable : row.storable = true) :
    row.Shaped := by
  simp only [AccountRow.storable, valid, Bool.and_eq_true, Bool.or_eq_true, beq_iff_eq] at storable
  rcases storable with ⟨⟨⟨_, linux⟩, virtual⟩, _⟩
  cases kind : row.kind with
  | linux =>
      rcases linux with different | ⟨owner, quota⟩
      · rw [kind] at different
        cases different
      · exact .linux kind owner quota
  | virtual =>
      rcases virtual with (different | ⟨⟨role, owner⟩, quota⟩) | ⟨⟨role, owner⟩, quota⟩
      · rw [kind] at different
        cases different
      · exact .admin kind role owner quota
      · exact .user kind role owner quota

/-- What is checked of a row before a statement rewrites it. -/
inductive Permitted (row : AccountRow) : RowUpdate -> Prop where
  | touch (time : Nat) (alive : row.status ≠ .deleted) : Permitted row (.touch time)
  | setRole (role : Role) (time : Nat) (kind : row.kind = .linux) (active : row.status = .active) :
      Permitted row (.setRole role time)
  | setPassword (hash : Option Text) (time : Nat) (alive : row.status ≠ .deleted) :
      Permitted row (.setPassword hash time)
  | setStatus (status : AccountStatus) (deletedAt : Option Nat) (deny : Bool) (time : Nat)
      (alive : row.status ≠ .deleted) :
      Permitted row (.setStatus status (status == .active) deletedAt deny time)
  | setQuota (bytes time : Nat) (kind : row.kind = .virtual) (role : row.role = .user)
      (owner : row.ownerAdminId.isSome = true) (alive : row.status ≠ .deleted) :
      Permitted row (.setQuota bytes time)
  | enroll (hash : Text) (time : Nat) (kind : row.kind = .linux)
      (permitted : row.denyEnrollment = false) (alive : row.status ≠ .deleted)
      (unsuspended : row.status ≠ .suspended)
      (open_ : row.webPasswordHash = none ∨ row.status = .revoked) :
      Permitted row (.enroll hash time)
  | purge (storable : (RowUpdate.purge.apply row).storable = true) : Permitted row .purge
  | setUndoHours (hours : Option Nat) (time : Nat) (active : row.status = .active) :
      Permitted row (.setUndoHours hours time)

/-- What is known of a row when it is inserted. -/
structure Inserted (rows : Table Uuid AccountRow) (id : Uuid) (row : AccountRow) : Prop where
  absent : rows.find id = none
  unused : forall other present, rows.find other = some present ->
    present.username ≠ row.username ∧ present.uid ≠ row.uid
  shaped : row.Shaped
  active : row.status = .active
  login : row.loginEnabled = true

/-- The statements that leave the quota of a row alone. -/
def RowUpdate.keepsQuota : RowUpdate -> Bool
  | .setQuota .. | .purge => false
  | _ => true

inductive AccountsChange (rows : Table Uuid AccountRow) : Table Uuid AccountRow -> Prop where
  | same : AccountsChange rows rows
  | inserted (id : Uuid) (row : AccountRow) (new : Inserted rows id row) :
      AccountsChange rows (rows.insert id row)
  | updated (id : Uuid) (row : AccountRow) (update : RowUpdate) (found : rows.find id = some row)
      (permitted : Permitted row update) : AccountsChange rows (rows.modify id update.apply)
  | touched (time : Nat) :
      AccountsChange rows (rows.map (fun _ row => (RowUpdate.touch time).apply row))

/-- The statement that a committed operation runs on one account. -/
def StoreOp.executes (store : Store) (id : Uuid) (update : RowUpdate) : StoreOp -> Prop
  | .setPanelScope now _ target _ => id = target ∧ update = .touch now
  | .setRole now _ target role => id = target ∧ update = .setRole role now
  | .setAdminOwnWith now _ target _ _ => id = target ∧ update = .touch now
  | .copyAdminCredentials now _ _ _ target _ => id = target ∧
      ∃ hash, hash.isSome = true ∧ update = .setPassword hash now
  | .requirePasswordChange now _ target => id = target ∧ update = .touch now
  | .setPassword now _ target _ hash => id = target ∧ update = .setPassword (some hash) now
  | .transition now actor target status _ _ => id = target ∧ ∃ deletedAt deny,
      update = .setStatus status (status == .active) deletedAt deny now ∧
      (deny = false -> status = .active ∨
        (status = .revoked ∧ ∃ row, Store.Caller store actor id row))
  | .setChildQuotaWith now _ target _ bytes _ => id = target ∧ update = .setQuota bytes now
  | .purge _ target _ => id = target ∧ update = .purge
  | .commitEnrollment _ _ _ _ hash time => update = .enroll hash time
  | .setPolicy now _ target _ _ _ => id = target ∧ update = .touch now
  | .setUndoPreferences now authority _ hours _ =>
      (∃ row, Store.Caller store authority id row) ∧ update = .setUndoHours hours now
  | _ => False

/-- The same changes, with the operation behind them. -/
inductive RowsChange (op : StoreOp) (store : Store) : Table Uuid AccountRow -> Prop where
  | same : RowsChange op store store.accounts
  | inserted (id : Uuid) (row : AccountRow) (new : Inserted store.accounts id row)
      (kind : row.kind = .linux ∨ ∃ key now actor new hash state,
        op = .createRecord key now actor new hash state ∧ row.kind = new.kind) :
      RowsChange op store (store.accounts.insert id row)
  | updated (id : Uuid) (row : AccountRow) (update : RowUpdate)
      (found : store.accounts.find id = some row) (permitted : Permitted row update)
      (executed : op.executes store id update) :
      RowsChange op store (store.accounts.modify id update.apply)
  | touched (time : Nat) :
      RowsChange op store (store.accounts.map (fun _ row => (RowUpdate.touch time).apply row))

theorem RowsChange.accountsChange {op : StoreOp} {store : Store} {after : Table Uuid AccountRow}
    (change : RowsChange op store after) : AccountsChange store.accounts after := by
  cases change with
  | same => exact .same
  | inserted id row new kind => exact .inserted id row new
  | updated id row update found permitted executed => exact .updated id row update found permitted
  | touched time => exact .touched time

/-- The changes that neither create a virtual account nor move a quota. -/
inductive QuietChange (rows : Table Uuid AccountRow) : Table Uuid AccountRow -> Prop where
  | same : QuietChange rows rows
  | inserted (id : Uuid) (row : AccountRow) (new : Inserted rows id row)
      (kind : row.kind = .linux) (unowned : row.ownerAdminId = none) :
      QuietChange rows (rows.insert id row)
  | updated (id : Uuid) (row : AccountRow) (update : RowUpdate) (found : rows.find id = some row)
      (permitted : Permitted row update) (keeps : update.keepsQuota = true) :
      QuietChange rows (rows.modify id update.apply)
  | touched (time : Nat) :
      QuietChange rows (rows.map (fun _ row => (RowUpdate.touch time).apply row))

theorem QuietChange.accountsChange {rows after : Table Uuid AccountRow}
    (quiet : QuietChange rows after) : AccountsChange rows after := by
  cases quiet with
  | same => exact .same
  | inserted id row new kind unowned => exact .inserted id row new
  | updated id row update found permitted keeps => exact .updated id row update found permitted
  | touched time => exact .touched time

/-- What a row keeps for its whole life, and the generation it never lowers. -/
structure AccountRow.Continues (old new : AccountRow) : Prop where
  username : new.username = old.username
  uid : new.uid = old.uid
  kind : new.kind = old.kind
  owner : new.ownerAdminId = old.ownerAdminId
  role : old.kind = .virtual -> new.role = old.role
  generation : old.generation ≤ new.generation

theorem AccountRow.Continues.refl (row : AccountRow) : row.Continues row :=
  ⟨rfl, rfl, rfl, rfl, fun _ => rfl, Nat.le_refl _⟩

theorem AccountRow.Continues.trans {old middle new : AccountRow} (first : old.Continues middle)
    (second : middle.Continues new) : old.Continues new where
  username := second.username.trans first.username
  uid := second.uid.trans first.uid
  kind := second.kind.trans first.kind
  owner := second.owner.trans first.owner
  role := fun virtual => (second.role (first.kind.trans virtual)).trans (first.role virtual)
  generation := Nat.le_trans first.generation second.generation

theorem Permitted.continues {row : AccountRow} {update : RowUpdate}
    (permitted : Permitted row update) : row.Continues (update.apply row) := by
  cases permitted with
  | setRole role time kind active =>
      refine ⟨rfl, rfl, rfl, rfl, ?_, Nat.le_succ _⟩
      intro virtual
      cases kind.symm.trans virtual
  | setUndoHours hours time active => exact ⟨rfl, rfl, rfl, rfl, fun _ => rfl, Nat.le_refl _⟩
  | touch | setPassword | setStatus | setQuota | enroll | purge =>
      exact ⟨rfl, rfl, rfl, rfl, fun _ => rfl, Nat.le_succ _⟩

/-- No account row is ever deleted. -/
theorem AccountsChange.kept {rows after : Table Uuid AccountRow}
    (change : AccountsChange rows after) {id : Uuid} {row : AccountRow}
    (found : rows.find id = some row) : ∃ new, after.find id = some new ∧ row.Continues new := by
  cases change with
  | same => exact ⟨row, found, .refl row⟩
  | inserted key added new =>
      have different : id ≠ key := by
        intro same
        rw [same, new.absent] at found
        cases found
      exact ⟨row, (Table.find_insert_of_ne _ different).trans found, .refl row⟩
  | updated key old update present permitted =>
      by_cases here : id = key
      · subst here
        have same : old = row := Option.some.inj (present.symm.trans found)
        subst same
        refine ⟨update.apply old, ?_, permitted.continues⟩
        rw [Table.find_modify_self, found]
        rfl
      · exact ⟨row, (Table.find_modify_of_ne _ here).trans found, .refl row⟩
  | touched time =>
      refine ⟨(RowUpdate.touch time).apply row, ?_,
        ⟨rfl, rfl, rfl, rfl, fun _ => rfl, Nat.le_succ _⟩⟩
      rw [Table.find_map, found]
      rfl

/-- A row is the continuation of an older one, or it was just inserted. -/
theorem AccountsChange.origin {rows after : Table Uuid AccountRow}
    (change : AccountsChange rows after) {id : Uuid} {new : AccountRow}
    (found : after.find id = some new) :
    (∃ row, rows.find id = some row ∧ row.Continues new) ∨ Inserted rows id new := by
  cases present : rows.find id with
  | some row =>
      rcases change.kept present with ⟨kept, foundKept, continues⟩
      have same : kept = new := Option.some.inj (foundKept.symm.trans found)
      exact Or.inl ⟨row, rfl, same ▸ continues⟩
  | none =>
      cases change with
      | same =>
          rw [present] at found
          cases found
      | inserted key added inserted =>
          by_cases here : id = key
          · subst here
            rw [Table.find_insert_self] at found
            cases found
            exact Or.inr inserted
          · rw [Table.find_insert_of_ne _ here, present] at found
            cases found
      | updated key old update old_found permitted =>
          by_cases here : id = key
          · rw [here, old_found] at present
            cases present
          · rw [Table.find_modify_of_ne _ here, present] at found
            cases found
      | touched time =>
          rw [Table.find_map, present] at found
          cases found

/-- One operation inserts at most one row. -/
theorem AccountsChange.inserted_unique {rows after : Table Uuid AccountRow}
    (change : AccountsChange rows after) {first second : Uuid} {firstRow secondRow : AccountRow}
    (firstAbsent : rows.find first = none) (secondAbsent : rows.find second = none)
    (firstFound : after.find first = some firstRow)
    (secondFound : after.find second = some secondRow) : first = second := by
  cases change with
  | same =>
      rw [firstAbsent] at firstFound
      cases firstFound
  | inserted key added inserted =>
      by_cases here : first = key
      · by_cases there : second = key
        · exact here.trans there.symm
        · rw [Table.find_insert_of_ne _ there, secondAbsent] at secondFound
          cases secondFound
      · rw [Table.find_insert_of_ne _ here, firstAbsent] at firstFound
        cases firstFound
  | updated key old update present permitted =>
      have different : first ≠ key := by
        intro same
        rw [same, present] at firstAbsent
        cases firstAbsent
      rw [Table.find_modify_of_ne _ different, firstAbsent] at firstFound
      cases firstFound
  | touched time =>
      rw [Table.find_map, firstAbsent] at firstFound
      cases firstFound

/-- Two accounts never share the value of a column. -/
def Unique {Column : Type} (column : AccountRow -> Column) (rows : Table Uuid AccountRow) : Prop :=
  forall first second firstRow secondRow, rows.find first = some firstRow ->
    rows.find second = some secondRow -> column firstRow = column secondRow -> first = second

theorem Unique.change {Column : Type} {column : AccountRow -> Column}
    {rows after : Table Uuid AccountRow} (unique : Unique column rows)
    (change : AccountsChange rows after)
    (kept : forall old new, AccountRow.Continues old new -> column new = column old)
    (unused : forall id row other present, Inserted rows id row -> rows.find other = some present ->
      column present ≠ column row) : Unique column after := by
  intro first second firstRow secondRow firstFound secondFound same
  rcases change.origin firstFound with ⟨firstOld, firstPresent, firstKept⟩ | firstNew
  · rcases change.origin secondFound with ⟨secondOld, secondPresent, secondKept⟩ | secondNew
    · apply unique first second firstOld secondOld firstPresent secondPresent
      rw [← kept _ _ firstKept, ← kept _ _ secondKept]
      exact same
    · have distinct := unused second secondRow first firstOld secondNew firstPresent
      rw [← kept _ _ firstKept] at distinct
      exact absurd same distinct
  · rcases change.origin secondFound with ⟨secondOld, secondPresent, secondKept⟩ | secondNew
    · have distinct := unused first firstRow second secondOld firstNew secondPresent
      rw [← kept _ _ secondKept] at distinct
      exact absurd same.symm distinct
    · exact change.inserted_unique firstNew.absent secondNew.absent firstFound secondFound

def UniqueUids (rows : Table Uuid AccountRow) : Prop :=
  Unique (fun row => row.uid) rows

theorem UniqueUids.change {rows after : Table Uuid AccountRow} (unique : UniqueUids rows)
    (change : AccountsChange rows after) : UniqueUids after :=
  Unique.change unique change (fun _ _ continues => continues.uid)
    (fun _ _ other present inserted found => (inserted.unused other present found).2)

def UniqueNames (rows : Table Uuid AccountRow) : Prop :=
  Unique (fun row => row.username) rows

theorem UniqueNames.change {rows after : Table Uuid AccountRow} (unique : UniqueNames rows)
    (change : AccountsChange rows after) : UniqueNames after :=
  Unique.change unique change (fun _ _ continues => continues.username)
    (fun _ _ other present inserted found => (inserted.unused other present found).1)

/-- A property of single rows that insertions establish and statements keep
holds of every row. -/
theorem AccountsChange.forall_rows {holds : AccountRow -> Prop}
    {rows after : Table Uuid AccountRow} (change : AccountsChange rows after)
    (inserted : forall id row, Inserted rows id row -> holds row)
    (updated : forall row update, Permitted row update -> holds row -> holds (update.apply row))
    (touched : forall row time, holds row -> holds ((RowUpdate.touch time).apply row))
    (before : forall id row, rows.find id = some row -> holds row) :
    forall id row, after.find id = some row -> holds row := by
  intro key row found
  cases change with
  | same => exact before key row found
  | inserted id added new =>
      by_cases here : key = id
      · subst here
        rw [Table.find_insert_self] at found
        cases found
        exact inserted key row new
      · rw [Table.find_insert_of_ne _ here] at found
        exact before key row found
  | updated id old update present permitted =>
      by_cases here : key = id
      · subst here
        rw [Table.find_modify_self, present] at found
        cases found
        exact updated old update permitted (before key old present)
      · rw [Table.find_modify_of_ne _ here] at found
        exact before key row found
  | touched time =>
      rw [Table.find_map] at found
      rcases Option.map_eq_some_iff.mp found with ⟨old, present, same⟩
      subst same
      exact touched old time (before key old present)

namespace Store

section Committed

variable {store final : Store} {now : Nat} {actor : Authority} {id : Uuid}

/-- The allocation check leaves only the three shapes of the schema. -/
theorem shaped_of_allocation {caller : Option Account} {new : NewAccount}
    {exclude : Option IntentKey} {hash : Option Text}
    (checked : store.checkAllocation caller new exclude = .ok ()) :
    (createdRow now new hash).Shaped := by
  rcases checkAllocation_ok checked with
    ⟨owner, quota, linux | ⟨virtual, admin⟩⟩ | ⟨owner, quota, owned, given, kind, role, _⟩
  · exact .linux linux owner quota
  · exact .admin virtual admin owner quota
  · exact .user kind role (Option.isSome_iff_exists.mpr ⟨owner, owned⟩)
      (Option.isSome_iff_exists.mpr ⟨quota, given⟩)

theorem inserted_of_created {new : NewAccount} {hash : Option Text}
    {requestState : Option (IntentKey × Intent)} {budget : Option Nat}
    (created : Created store actor id new requestState budget) :
    TealDrive.Inserted store.accounts id (createdRow now new hash) := by
  rcases created.allocation with ⟨caller, allocation⟩
  exact ⟨created.absent, created.unused, shaped_of_allocation allocation, rfl, rfl⟩

theorem rowsChange_of_enrollment {op : StoreOp} {current : EnrollmentIdentity} {at_ : Nat} {hash : Text}
    {target : Uuid} {rows : Table Uuid AccountRow}
    (enrolled : EnrollmentOf store current at_ target rows)
    (executed : op.executes store target (.enroll hash at_)) :
    RowsChange op store (rows.modify target (RowUpdate.enroll hash at_).apply) := by
  cases enrolled with
  | existing row found located named kind permitted alive unsuspended open_ =>
      exact .updated target row _ found (.enroll hash at_ kind permitted alive unsuspended open_)
        executed
  | created absent unused =>
      rw [Table.modify_insert]
      exact .inserted target _ ⟨absent, unused, .linux rfl rfl rfl, rfl, rfl⟩ (Or.inl rfl)

end Committed

end Store

namespace StoreOp

open Store

/-- The operations that move no quota, whoever calls them. -/
def quiet : StoreOp -> Bool
  | .setAdminBudgetWith .. | .setAdminOwnWith .. | .setChildQuotaWith .. | .recordChildIntent ..
  | .recordAdminIntent .. | .cancelIntent .. | .recordPurgeIntent .. | .purge .. => false
  | .createRecord _ _ _ new _ requestState => new.kind == .linux && requestState.isNone
  | _ => true

/-- The tables of limits, reservations and uids. -/
structure SameTables (store final : Store) : Prop where
  budgets : final.adminBudgets = store.adminBudgets
  own : final.adminOwnQuota = store.adminOwnQuota
  intents : final.virtualCreate = store.virtualCreate
  retired : final.virtualUidRetired = store.virtualUidRetired
  purged : final.virtualPurged = store.virtualPurged

/-- The account relation after a committed operation. -/
theorem apply_rows {env : Environment} {store final : Store} {op : StoreOp}
    (done : op.apply env store = .ok final) : RowsChange op store final.accounts := by
  cases op with
  | setPanelScope now actor id global =>
      rcases committed_eq_ok done with ⟨result, done⟩
      rcases setPanelScope_ok done with ⟨_, row, found, _, active, written⟩
      subst written
      exact .updated id row _ found (.touch now (by rw [active]; decide)) ⟨rfl, rfl⟩
  | setRole now actor id role =>
      rcases committed_eq_ok done with ⟨result, done⟩
      rcases setRole_ok done with ⟨_, row, found, kind, active, _, written⟩
      subst written
      exact .updated id row _ found (.setRole role now kind active) ⟨rfl, rfl⟩
  | createRecord id now actor new hash requestState =>
      rcases committed_eq_ok done with ⟨result, done⟩
      rcases createRecord_ok done with ⟨budget, required, created, written⟩
      subst written
      exact .inserted id _ (inserted_of_created created)
        (Or.inr ⟨id, now, actor, new, hash, requestState, rfl, rfl⟩)
  | setPool actor bytes =>
      rcases committed_eq_ok done with ⟨result, done⟩
      rcases setPool_ok done with ⟨_, _, written⟩
      subst written
      exact .same
  | setAdminBudgetWith actor id bytes beforeCommit =>
      rcases committed_eq_ok done with ⟨result, done⟩
      rcases setAdminBudgetWith_ok done with ⟨_, _, _, written⟩
      subst written
      exact .same
  | setAdminOwnWith now actor id bytes before =>
      rcases committed_eq_ok done with ⟨result, done⟩
      rcases setAdminOwnWith_ok done with ⟨checked, _, written⟩
      rcases checkOwn_ok checked with ⟨_, _, _, ⟨row, found, _, _, active⟩, _⟩
      subst written
      exact .updated id row _ found (.touch now (by rw [active]; decide)) ⟨rfl, rfl⟩
  | invalidateRestoredSessions now epoch actor =>
      rcases committed_eq_ok done with ⟨result, done⟩
      rcases invalidateRestoredSessions_ok done with ⟨_, _, written⟩
      subst written
      exact .touched now
  | copyAdminCredentials now actor source sourceGeneration target targetGeneration =>
      rcases committed_eq_ok done with ⟨result, done⟩
      rcases copyAdminCredentials_ok done with
        ⟨_, giver, receiver, required, _, found, enrolled, _, _, active, written⟩
      subst written
      exact .updated target receiver _ found (.setPassword _ now (by rw [active]; decide))
        ⟨rfl, giver.webPasswordHash, enrolled, rfl⟩
  | requirePasswordChange now actor id =>
      rcases committed_eq_ok done with ⟨result, done⟩
      rcases requirePasswordChange_ok done with ⟨_, row, found, active, written⟩
      subst written
      exact .updated id row _ found (.touch now (by rw [active]; decide)) ⟨rfl, rfl⟩
  | setPassword now actor id password hash =>
      rcases committed_eq_ok done with ⟨result, done⟩
      rcases setPassword_ok done with ⟨row, found, _, alive, written⟩
      subst written
      exact .updated id row _ found (.setPassword _ now alive) ⟨rfl, rfl⟩
  | transition now actor id status allowAdminDelete generation =>
      rcases committed_eq_ok done with ⟨result, done⟩
      rcases transition_ok done with ⟨row, deny, found, _, alive, _, permitted, written⟩
      subst written
      refine .updated id row _ found (.setStatus status _ deny now alive) ⟨rfl, _, deny, rfl, ?_⟩
      intro allowed
      rcases permitted allowed with active | ⟨revoked, caller⟩
      · exact Or.inl active
      · exact Or.inr ⟨revoked, row, caller⟩
  | setChildQuotaWith now actor id generation bytes before =>
      rcases committed_eq_ok done with ⟨result, done⟩
      rcases setChildQuotaWith_ok done with ⟨remaining, checked, _, written⟩
      rcases checkChildQuota_ok checked with ⟨row, owner, found, kind, role, alive, _, owned, _⟩
      subst written
      exact .updated id row _ found (.setQuota bytes now kind role (by rw [owned]; rfl) alive)
        ⟨rfl, rfl⟩
  | recordChildIntent actor generation request name quota uid =>
      rcases committed_eq_ok done with ⟨result, done⟩
      rcases recordChildIntent_ok done with ⟨_, _, _, written⟩
      subst written
      exact .same
  | recordAdminIntent request name budget uid =>
      rcases committed_eq_ok done with ⟨result, done⟩
      rcases recordAdminIntent_ok done with ⟨_, _, written⟩
      subst written
      exact .same
  | cancelIntent now key uid =>
      rcases cancelIntent_eq store now uid key with ⟨retired, _, written⟩
      cases done
      rw [written]
      exact .same
  | recordPurgeIntent now id =>
      rcases committed_eq_ok done with ⟨result, done⟩
      rcases recordPurgeIntent_ok done with ⟨_, intents, retired, _, written⟩
      subst written
      exact .same
  | purge now id uid =>
      rcases committed_eq_ok done with ⟨result, done⟩
      rcases purge_ok done with ⟨_, storable, retired, _, written⟩
      subst written
      cases found : store.accounts.find id with
      | none =>
          change RowsChange _ store (store.accounts.modify id RowUpdate.purge.apply)
          rw [Table.modify_of_absent _ found]
          exact .same
      | some row => exact .updated id row _ found (.purge (storable row found)) ⟨rfl, rfl⟩
  | issueGrant nonce id generation caller at_ lifetime =>
      rcases committed_eq_ok done with ⟨result, done⟩
      rcases issueGrant_ok done with ⟨_, _, _, _, _, _, written⟩
      subst written
      exact .same
  | revokeGrant grant caller at_ =>
      rcases committed_eq_ok done with ⟨result, done⟩
      rcases revokeGrant_ok done with ⟨_, written⟩
      subst written
      exact .same
  | beginEnrollment token identity caller at_ lifetime =>
      rcases committed_eq_ok done with ⟨result, done⟩
      rcases beginEnrollment_ok done with ⟨_, _, _, written⟩
      subst written
      exact .same
  | commitEnrollment token id caller current hash at_ =>
      rcases committed_eq_ok done with ⟨result, done⟩
      rcases commitEnrollment_ok done with ⟨proof, target, rows, _, _, enrolled, written⟩
      subst written
      exact rowsChange_of_enrollment enrolled rfl
  | setPolicy now actor id expectedGeneration layer replacement =>
      rcases committed_eq_ok done with ⟨result, done⟩
      rcases setPolicy_ok done with ⟨row, rules, found, _, alive, _, written⟩
      subst written
      exact .updated id row _ found (.touch now alive) ⟨rfl, rfl⟩
  | setUndoPreferences now authority config hours expectedRevision =>
      rcases committed_eq_ok done with ⟨result, done⟩
      rcases setUndoPreferences_ok done with ⟨caller, row, valid, written⟩
      subst written
      exact .updated caller row _ valid.found (.setUndoHours hours now valid.active)
        ⟨⟨row, valid⟩, rfl⟩
  | keepBooks books =>
      cases done
      exact .same

theorem apply_accounts {env : Environment} {store final : Store} {op : StoreOp}
    (done : op.apply env store = .ok final) :
    AccountsChange store.accounts final.accounts :=
  (apply_rows done).accountsChange

/-- The statements of quiet operations leave the quota alone. -/
theorem keepsQuota_of_quiet {store : Store} {op : StoreOp} {id : Uuid} {update : RowUpdate}
    (quiet : op.quiet = true) (executed : op.executes store id update) :
    update.keepsQuota = true := by
  cases op with
  | setPanelScope | setRole | requirePasswordChange | setPassword | setPolicy =>
      rw [executed.2]
      rfl
  | copyAdminCredentials =>
      rcases executed.2 with ⟨hash, _, same⟩
      rw [same]
      rfl
  | transition =>
      rcases executed.2 with ⟨deletedAt, deny, same, _⟩
      rw [same]
      rfl
  | commitEnrollment =>
      cases executed
      rfl
  | setUndoPreferences =>
      rw [executed.2]
      rfl
  | setChildQuotaWith | purge | setAdminOwnWith => cases quiet
  | _ => cases executed

theorem quietChange_of_rows {store : Store} {after : Table Uuid AccountRow} {op : StoreOp}
    (change : RowsChange op store after) (quiet : op.quiet = true) :
    QuietChange store.accounts after := by
  cases change with
  | same => exact .same
  | inserted id row new kind =>
      have linux : row.kind = .linux := by
        rcases kind with linux | ⟨_, _, _, _, _, _, created, sameKind⟩
        · exact linux
        · subst created
          simp only [StoreOp.quiet, Bool.and_eq_true, beq_iff_eq] at quiet
          exact sameKind.trans quiet.1
      refine .inserted id row new linux ?_
      cases new.shaped with
      | linux _ owner _ => exact owner
      | admin virtual => cases linux.symm.trans virtual
      | user virtual => cases linux.symm.trans virtual
  | updated id row update found permitted executed =>
      exact .updated id row update found permitted (keepsQuota_of_quiet quiet executed)
  | touched time => exact .touched time

/-- Quiet operations leave limits, reservations and uids alone. -/
theorem sameTables_of_quiet {env : Environment} {store final : Store} {op : StoreOp}
    (done : op.apply env store = .ok final) (quiet : op.quiet = true) :
    SameTables store final ∧
      (final.poolLimit = store.poolLimit ∨ ∃ actor bytes, op = .setPool actor bytes) := by
  cases op with
  | setAdminBudgetWith | setAdminOwnWith | setChildQuotaWith | recordChildIntent
  | recordAdminIntent | cancelIntent | recordPurgeIntent | purge => cases quiet
  | setPanelScope now actor id global =>
      rcases committed_eq_ok done with ⟨result, done⟩
      rcases setPanelScope_ok done with ⟨_, _, _, _, _, written⟩
      subst written
      exact ⟨⟨rfl, rfl, rfl, rfl, rfl⟩, Or.inl rfl⟩
  | setRole now actor id role =>
      rcases committed_eq_ok done with ⟨result, done⟩
      rcases setRole_ok done with ⟨_, _, _, _, _, _, written⟩
      subst written
      exact ⟨⟨rfl, rfl, rfl, rfl, rfl⟩, Or.inl rfl⟩
  | createRecord id now actor new hash requestState =>
      rcases committed_eq_ok done with ⟨result, done⟩
      rcases createRecord_ok done with ⟨budget, required, created, written⟩
      simp only [StoreOp.quiet, Bool.and_eq_true, beq_iff_eq, Option.isNone_iff_eq_none] at quiet
      rcases quiet with ⟨_, stateless⟩
      subst stateless
      subst written
      have undrawn : budget = none := by
        have drawn := created.drawn
        cases drawn
        rfl
      subst undrawn
      exact ⟨⟨rfl, rfl, rfl, rfl, rfl⟩, Or.inl rfl⟩
  | setPool actor bytes =>
      rcases committed_eq_ok done with ⟨result, done⟩
      rcases setPool_ok done with ⟨_, _, written⟩
      subst written
      exact ⟨⟨rfl, rfl, rfl, rfl, rfl⟩, Or.inr ⟨actor, bytes, rfl⟩⟩
  | invalidateRestoredSessions now epoch actor =>
      rcases committed_eq_ok done with ⟨result, done⟩
      rcases invalidateRestoredSessions_ok done with ⟨_, _, written⟩
      subst written
      exact ⟨⟨rfl, rfl, rfl, rfl, rfl⟩, Or.inl rfl⟩
  | copyAdminCredentials now actor source sourceGeneration target targetGeneration =>
      rcases committed_eq_ok done with ⟨result, done⟩
      rcases copyAdminCredentials_ok done with ⟨_, _, _, _, _, _, _, _, _, _, written⟩
      subst written
      exact ⟨⟨rfl, rfl, rfl, rfl, rfl⟩, Or.inl rfl⟩
  | requirePasswordChange now actor id =>
      rcases committed_eq_ok done with ⟨result, done⟩
      rcases requirePasswordChange_ok done with ⟨_, _, _, _, written⟩
      subst written
      exact ⟨⟨rfl, rfl, rfl, rfl, rfl⟩, Or.inl rfl⟩
  | setPassword now actor id password hash =>
      rcases committed_eq_ok done with ⟨result, done⟩
      rcases setPassword_ok done with ⟨_, _, _, _, written⟩
      subst written
      exact ⟨⟨rfl, rfl, rfl, rfl, rfl⟩, Or.inl rfl⟩
  | transition now actor id status allowAdminDelete generation =>
      rcases committed_eq_ok done with ⟨result, done⟩
      rcases transition_ok done with ⟨_, _, _, _, _, _, _, written⟩
      subst written
      exact ⟨⟨rfl, rfl, rfl, rfl, rfl⟩, Or.inl rfl⟩
  | issueGrant nonce id generation caller at_ lifetime =>
      rcases committed_eq_ok done with ⟨result, done⟩
      rcases issueGrant_ok done with ⟨_, _, _, _, _, _, written⟩
      subst written
      exact ⟨⟨rfl, rfl, rfl, rfl, rfl⟩, Or.inl rfl⟩
  | revokeGrant grant caller at_ =>
      rcases committed_eq_ok done with ⟨result, done⟩
      rcases revokeGrant_ok done with ⟨_, written⟩
      subst written
      exact ⟨⟨rfl, rfl, rfl, rfl, rfl⟩, Or.inl rfl⟩
  | beginEnrollment token identity caller at_ lifetime =>
      rcases committed_eq_ok done with ⟨result, done⟩
      rcases beginEnrollment_ok done with ⟨_, _, _, written⟩
      subst written
      exact ⟨⟨rfl, rfl, rfl, rfl, rfl⟩, Or.inl rfl⟩
  | commitEnrollment token id caller current hash at_ =>
      rcases committed_eq_ok done with ⟨result, done⟩
      rcases commitEnrollment_ok done with ⟨_, _, _, _, _, _, written⟩
      subst written
      exact ⟨⟨rfl, rfl, rfl, rfl, rfl⟩, Or.inl rfl⟩
  | setPolicy now actor id expectedGeneration layer replacement =>
      rcases committed_eq_ok done with ⟨result, done⟩
      rcases setPolicy_ok done with ⟨_, _, _, _, _, _, written⟩
      subst written
      exact ⟨⟨rfl, rfl, rfl, rfl, rfl⟩, Or.inl rfl⟩
  | setUndoPreferences now authority config hours expectedRevision =>
      rcases committed_eq_ok done with ⟨result, done⟩
      rcases setUndoPreferences_ok done with ⟨_, _, _, written⟩
      subst written
      exact ⟨⟨rfl, rfl, rfl, rfl, rfl⟩, Or.inl rfl⟩
  | keepBooks books =>
      cases done
      exact ⟨⟨rfl, rfl, rfl, rfl, rfl⟩, Or.inl rfl⟩

theorem apply_quiet {env : Environment} {store final : Store} {op : StoreOp}
    (done : op.apply env store = .ok final) (quiet : op.quiet = true) :
    QuietChange store.accounts final.accounts ∧ SameTables store final ∧
      (final.poolLimit = store.poolLimit ∨ ∃ actor bytes, op = .setPool actor bytes) :=
  ⟨quietChange_of_rows (apply_rows done) quiet, sameTables_of_quiet done quiet⟩

theorem step_kept (env : Environment) {store : Store} {id : Uuid} {row : AccountRow}
    (found : store.accounts.find id = some row) (op : StoreOp) :
    ∃ new, (step env store op).accounts.find id = some new ∧ row.Continues new := by
  rcases step_cases env store op with same | done
  · rw [same]
    exact ⟨row, found, .refl row⟩
  · exact (apply_accounts done).kept found

/-- An account stays what it is through every run. -/
theorem run_kept (env : Environment) {store : Store} {id : Uuid} {row : AccountRow}
    (found : store.accounts.find id = some row) (ops : List StoreOp) :
    ∃ new, (Runs.run (step env) store ops).accounts.find id = some new ∧ row.Continues new := by
  induction ops generalizing store row with
  | nil => exact ⟨row, found, .refl row⟩
  | cons op rest ih =>
      rcases step_kept env found op with ⟨middle, middleFound, first⟩
      rcases ih middleFound with ⟨new, newFound, second⟩
      exact ⟨new, newFound, first.trans second⟩

/-- What every change of the account relation preserves, every run preserves. -/
theorem run_accounts (holds : Table Uuid AccountRow -> Prop)
    (kept : forall rows after, AccountsChange rows after -> holds rows -> holds after)
    (initial : holds .empty) (env : Environment) (dummyPasswordHash : Text) (ops : List StoreOp) :
    holds (Runs.run (step env) (Store.initial dummyPasswordHash) ops).accounts := by
  refine Runs.invariant (fun store : Store => holds store.accounts) ?_ initial ops
  intro store op before
  rcases step_cases env store op with same | done
  · rw [same]
    exact before
  · exact kept _ _ (apply_accounts done) before

theorem uniqueNames_run (env : Environment) (dummyPasswordHash : Text) (ops : List StoreOp) :
    UniqueNames (Runs.run (step env) (Store.initial dummyPasswordHash) ops).accounts := by
  refine run_accounts UniqueNames (fun _ _ change unique => unique.change change) ?_ env dummyPasswordHash ops
  intro first second firstRow secondRow found
  cases found

end StoreOp

end TealDrive
