import TealDrive.Accounts.Virtuals
import TealDrive.Accounts.Grants
import TealDrive.Accounts.Policies

namespace TealDrive

open Outcome

/-!
# What a committed operation does

One lemma for each mutating operation.  It reads a successful result back:
which checks passed, and which store was committed, written as a composition
of the elementary writes.  Nothing after this module unfolds an operation.
-/

namespace Store

section Store

variable {now : Nat} {actor : Authority} {id : Uuid} {store final : Store} {result : Account}

theorem setPanelScope_ok {global : Bool}
    (done : setPanelScope now actor id global store = .ok (result, final)) :
    actor = .root ∧ ∃ row, store.accounts.find id = some row ∧ row.role = .admin ∧
      row.status = .active ∧
      final = (({ store with panelScope := store.panelScope.insert id global }).updateRow
        (.touch now) id).dropEnrollment row.username := by
  simp only [setPanelScope, bind_eq_ok, refuse_eq_ok, pure_eq_ok, Bool.or_eq_false_iff,
    bne_eq_false_iff_eq, Prod.mk.injEq] at done
  rcases done with ⟨_, root, target, found, _, ⟨role, active⟩, _, _, updated, executed, _, _, _, same⟩
  rcases account_ok found with ⟨row, present, viewed⟩
  rcases execute_ok executed with ⟨written, _⟩
  subst viewed
  subst written
  exact ⟨root, row, present, role, active, same.symm⟩

theorem setRole_ok {role : Role} (done : setRole now actor id role store = .ok (result, final)) :
    actor = .root ∧ ∃ row, store.accounts.find id = some row ∧ row.kind = .linux ∧
      row.status = .active ∧ ((RowUpdate.setRole role now).apply row).storable = true ∧
      final = ({ store.updateRow (.setRole role now) id with
        panelScope := store.panelScope.insert id (decide (role = Role.admin)) }).dropEnrollment
          row.username := by
  simp only [setRole, bind_eq_ok, refuse_eq_ok, pure_eq_ok, Bool.or_eq_false_iff,
    bne_eq_false_iff_eq, Prod.mk.injEq] at done
  rcases done with ⟨_, root, target, found, _, ⟨kind, active⟩, _, _, updated, executed, _, _, _, same⟩
  rcases account_ok found with ⟨row, present, viewed⟩
  rcases execute_ok executed with ⟨written, storable⟩
  subst viewed
  subst written
  exact ⟨root, row, present, kind, active, storable row present, same.symm⟩

theorem requirePasswordChange_ok
    (done : requirePasswordChange now actor id store = .ok (result, final)) :
    actor = .root ∧ ∃ row, store.accounts.find id = some row ∧ row.status = .active ∧
      final = ({ store with
        passwordChangeRequired := store.passwordChangeRequired.insert id () }).updateRow
          (.touch now) id := by
  simp only [requirePasswordChange, bind_eq_ok, refuse_eq_ok, pure_eq_ok, bne_eq_false_iff_eq,
    Prod.mk.injEq] at done
  rcases done with ⟨_, root, target, found, _, active, _, _, updated, executed, _, _, _, same⟩
  rcases account_ok found with ⟨row, present, viewed⟩
  rcases execute_ok executed with ⟨written, _⟩
  subst viewed
  subst same
  exact ⟨root, row, present, active, written⟩

/-- The caller is root, the account itself, or its administrator. -/
inductive MayManage (store : Store) (actor : Authority) (id : Uuid) (row : AccountRow) : Prop where
  | root (same : actor = .root)
  | self (caller : Caller store actor id row)
  | owner (admin : Uuid) (adminRow : AccountRow) (caller : Caller store actor admin adminRow)
      (role : adminRow.role = .admin) (owned : row.ownerAdminId = some admin)
      (kind : row.kind = .virtual)

theorem manageOther_ok {row : AccountRow} (present : store.accounts.find id = some row)
    (accepted : store.manageOther actor (store.view id row) = .ok ()) :
    MayManage store actor id row := by
  simp only [manageOther, bind_eq_ok, forSome_eq_ok, whenever_eq_ok, bne_iff_ne] at accepted
  rcases accepted with ⟨caller, authorized, other⟩
  rcases authorized_ok authorized with ⟨root, _⟩ | ⟨admin, adminRow, valid, viewed⟩
  · exact .root root
  · by_cases same : admin = id
    · subst same
      have equal : adminRow = row := Option.some.inj (valid.found.symm.trans present)
      exact .self (equal ▸ valid)
    · have managed := other _ viewed same
      rcases manage_ok managed with root | ⟨owner, ownerRow, owning, role, owned, kind⟩
      · exact .root root
      · exact .owner owner ownerRow owning role owned kind

theorem setPassword_ok {scheme : PasswordScheme} {password hash : Text}
    (done : setPassword scheme now actor id password hash store = .ok (result, final)) :
    ∃ row, store.accounts.find id = some row ∧ MayManage store actor id row ∧
      row.status ≠ .deleted ∧
      final = ({ store with
        passwordChangeRequired := store.passwordChangeRequired.erase id }).updateRow
          (.setPassword (some hash) now) id := by
  simp only [setPassword, bind_eq_ok, refuse_eq_ok, pure_eq_ok, beq_eq_false_iff_ne,
    Prod.mk.injEq] at done
  rcases done with ⟨target, found, _, managed, _, alive, _, _, _, _, updated, executed, _, _, _, same⟩
  rcases account_ok found with ⟨row, present, viewed⟩
  rcases execute_ok executed with ⟨written, _⟩
  subst viewed
  subst same
  exact ⟨row, present, manageOther_ok present managed, alive, written⟩

/-- Who may move an account to a status: root, its administrator, or a Linux
account that revokes itself. -/
inductive MayTransition (store : Store) (actor : Authority) (id : Uuid) (row : AccountRow)
    (status : AccountStatus) : Prop where
  | root (same : actor = .root)
  | self (caller : Caller store actor id row) (kind : row.kind = .linux)
      (revoke : status = .revoked)
  | owner (admin : Uuid) (adminRow : AccountRow) (caller : Caller store actor admin adminRow)
      (role : adminRow.role = .admin) (owned : row.ownerAdminId = some admin)
      (kind : row.kind = .virtual)

theorem transition_ok {status : AccountStatus} {allowAdminDelete : Bool} {generation : Option Nat}
    (done : transition now actor id status allowAdminDelete generation store = .ok (result, final)) :
    ∃ row deny, store.accounts.find id = some row ∧ MayTransition store actor id row status ∧
      row.status ≠ .deleted ∧ (status = .active -> deny = false) ∧
      (deny = false -> status = .active ∨ (status = .revoked ∧ Caller store actor id row)) ∧
      final = (store.updateRow (.setStatus status (status == .active)
        (if status = .deleted then some now else none) deny now) id).dropEnrollment
          row.username := by
  simp only [transition, bind_eq_ok, refuse_eq_ok, pure_eq_ok, beq_eq_false_iff_ne, forSome_eq_ok,
    whenever_eq_ok, Prod.mk.injEq] at done
  rcases done with ⟨target, found, _, _, caller, authorized, _, managed, _, alive, _, _, updated,
    executed, _, _, _, same⟩
  rcases account_ok found with ⟨row, present, viewed⟩
  rcases execute_ok executed with ⟨written, _⟩
  subst viewed
  subst written
  refine ⟨row, _, present, ?_, alive, ?_, ?_, same.symm⟩
  · rcases authorized_ok authorized with ⟨root, _⟩ | ⟨admin, adminRow, valid, viewed⟩
    · exact .root root
    · rcases managed _ viewed with ⟨_, checked, _⟩
      by_cases own : (admin == id && row.kind == .linux && status == .revoked) = true
      · simp only [Bool.and_eq_true, beq_iff_eq] at own
        rcases own with ⟨⟨sameId, kind⟩, revoke⟩
        subst sameId
        have equal : adminRow = row := Option.some.inj (valid.found.symm.trans present)
        exact .self (equal ▸ valid) kind revoke
      · have managing := checked (by
          rw [Bool.not_eq_true']
          exact Bool.not_eq_true _ ▸ own)
        rcases manage_ok managing with root | ⟨owner, ownerRow, owning, role, owned, kind⟩
        · exact .root root
        · exact .owner owner ownerRow owning role owned kind
  · intro active
    rw [active]
    rfl
  · intro allowed
    simp only [Bool.and_eq_false_iff, bne_eq_false_iff_eq, Bool.not_eq_false', Bool.and_eq_true,
      beq_iff_eq] at allowed
    rcases allowed with active | ⟨⟨own, _⟩, revoke⟩
    · exact Or.inl active
    · refine Or.inr ⟨revoke, ?_⟩
      rcases authorized_ok authorized with ⟨_, none⟩ | ⟨admin, adminRow, valid, viewed⟩
      · rw [none] at own
        cases own
      · rw [viewed] at own
        have sameId : admin = id := by simpa [view] using own
        subst sameId
        have equal : adminRow = row := Option.some.inj (valid.found.symm.trans present)
        exact equal ▸ valid

theorem copyAdminCredentials_ok {source target : Uuid} {sourceGeneration targetGeneration : Nat}
    {done : Unit}
    (committed : copyAdminCredentials now actor source sourceGeneration target targetGeneration
      store = .ok (done, final)) :
    actor = .root ∧ ∃ giver receiver required, store.accounts.find source = some giver ∧
      store.accounts.find target = some receiver ∧ giver.webPasswordHash.isSome = true ∧
      receiver.kind = .virtual ∧ receiver.role = .admin ∧ receiver.status = .active ∧
      final = { store.updateRow (.setPassword giver.webPasswordHash now) target with
        passwordChangeRequired := required } := by
  simp only [copyAdminCredentials, bind_eq_ok, refuse_eq_ok, pure_eq_ok, Bool.or_eq_false_iff,
    bne_eq_false_iff_eq, Bool.not_eq_false', Prod.mk.injEq] at committed
  rcases committed with ⟨_, root, giver, giverFound, receiver, receiverFound, _, checks, _, _,
    updated, executed, _, same⟩
  rcases account_ok giverFound with ⟨giverRow, giverPresent, giverViewed⟩
  rcases account_ok receiverFound with ⟨receiverRow, receiverPresent, receiverViewed⟩
  rcases execute_ok executed with ⟨written, _⟩
  rw [giverPresent] at written
  subst giverViewed
  subst receiverViewed
  rcases checks with ⟨⟨⟨⟨⟨⟨⟨⟨_, kind⟩, _⟩, role⟩, _⟩, active⟩, enrolled⟩, _⟩, _⟩
  subst written
  exact ⟨root, giverRow, receiverRow, _, giverPresent, receiverPresent, enrolled, kind, role,
    active, same.symm⟩

theorem invalidateRestoredSessions_ok {epoch : Uuid} {done : Unit}
    (committed : invalidateRestoredSessions now epoch actor store = .ok (done, final)) :
    actor = .root ∧
      (forall key row, store.accounts.find key = some row ->
        ((RowUpdate.touch now).apply row).storable = true) ∧
      final = { store with
        sessionGrants := .empty
        enrollment := .empty
        undoEpoch := some epoch
        accounts := store.accounts.map (fun _ row => (RowUpdate.touch now).apply row) } := by
  simp only [invalidateRestoredSessions, bind_eq_ok, refuse_eq_ok, pure_eq_ok, bne_eq_false_iff_eq,
    Prod.mk.injEq] at committed
  rcases committed with ⟨_, root, _, _, _, storable, _, same⟩
  refine ⟨root, ?_, same.symm⟩
  intro key row found
  have member := Table.find_eq_some_iff.mp found
  have accepted := List.any_eq_false.mp storable (key, row) member
  simpa using accepted

/-! ## Creation -/

/-- The row a committed creation leaves behind. -/
def createdRow (now : Nat) (new : NewAccount) (hash : Option Text) : AccountRow :=
  { newRow now new with webPasswordHash := hash }

/-- Who may create an account: root, or an administrator a user of its own. -/
inductive MayCreate (store : Store) (actor : Authority) (new : NewAccount) : Prop where
  | root (same : actor = .root)
  | owner (admin : Uuid) (adminRow : AccountRow) (caller : Caller store actor admin adminRow)
      (role : adminRow.role = .admin) (owned : new.ownerAdminId = some admin)
      (kind : new.kind = .virtual) (user : new.role = .user)

def withBudget (budgets : Table Uuid Nat) (id : Uuid) : Option Nat -> Table Uuid Nat
  | none => budgets
  | some limit => budgets.insert id limit

def withIntent (intents : Table IntentKey Intent) (id : Uuid) :
    Option (IntentKey × Intent) -> Table IntentKey Intent
  | none => intents
  | some (key, state) => intents.insert key { state with accountId := some id }

/-- What a committed creation checked. -/
structure Created (store : Store) (actor : Authority) (id : Uuid) (new : NewAccount)
    (requestState : Option (IntentKey × Intent)) (budget : Option Nat) : Prop where
  allowed : MayCreate store actor new
  allocation : ∃ caller, store.checkAllocation caller new (requestState.map Prod.fst) = .ok ()
  drawn : store.rootBudget new requestState = .ok budget
  absent : store.accounts.find id = none
  unused : forall other row, store.accounts.find other = some row ->
    row.username ≠ new.username ∧ row.uid ≠ new.uid
  unbudgeted : budget.isSome = true -> store.adminBudgets.find id = none

theorem checkCreate_ok {new : NewAccount} {requestState : Option (IntentKey × Intent)}
    {caller : Option Account} {budget : Option Nat}
    (checked : store.checkCreate now actor new requestState = .ok (caller, budget)) :
    MayCreate store actor new ∧
      store.checkAllocation caller new (requestState.map Prod.fst) = .ok () ∧
      store.rootBudget new requestState = .ok budget := by
  simp only [checkCreate, bind_eq_ok, refuse_eq_ok, forSome_eq_ok, pure_eq_ok, Prod.mk.injEq,
    Bool.or_eq_false_iff, bne_eq_false_iff_eq] at checked
  rcases checked with ⟨_, _, _, authorized, _, owned, _, allocation, _, budgeted, _, _, _, _,
    sameCaller, sameBudget⟩
  subst sameCaller
  subst sameBudget
  refine ⟨?_, allocation, budgeted⟩
  rcases authorized_ok authorized with ⟨root, _⟩ | ⟨admin, adminRow, valid, viewed⟩
  · exact .root root
  · rcases owned _ viewed with ⟨⟨⟨kind, user⟩, owner⟩, role⟩
    exact .owner admin adminRow valid role owner kind user

theorem insertAccount_ok {row : AccountRow} (done : store.insertAccount id row = .ok final) :
    store.accounts.find id = none ∧
      (forall other present, store.accounts.find other = some present ->
        present.username ≠ row.username ∧ present.uid ≠ row.uid) ∧
      row.storable = true ∧ final = { store with accounts := store.accounts.insert id row } := by
  simp only [insertAccount, bind_eq_ok, refuse_eq_ok, pure_eq_ok, Bool.or_eq_false_iff,
    Bool.not_eq_false'] at done
  rcases done with ⟨_, ⟨⟨⟨absent, unused⟩, _⟩, storable⟩, same⟩
  refine ⟨by simpa using absent, ?_, storable, same.symm⟩
  intro other present found
  have distinct := List.any_eq_false.mp unused (other, present) (Table.find_eq_some_iff.mp found)
  simpa using distinct

theorem createRecord_ok {new : NewAccount} {hash : Option Text}
    {requestState : Option (IntentKey × Intent)}
    (done : createRecord id now actor new hash requestState store = .ok (result, final)) :
    ∃ budget required, Created store actor id new requestState budget ∧
      final = { store with
        accounts := store.accounts.insert id (createdRow now new hash)
        adminBudgets := withBudget store.adminBudgets id budget
        passwordChangeRequired := required
        virtualCreate := withIntent store.virtualCreate id requestState } := by
  simp only [createRecord, bind_eq_ok, pure_eq_ok, Prod.mk.injEq] at done
  rcases done with ⟨⟨caller, budget⟩, checked, inserted, insertion, budgeted, budgeting, enrolled,
    enrolling, _, _, _, same⟩
  rcases checkCreate_ok checked with ⟨allowed, allocation, drawn⟩
  rcases insertAccount_ok insertion with ⟨absent, unused, _, insertedEq⟩
  have budgetedEq : budgeted =
      { inserted with adminBudgets := withBudget inserted.adminBudgets id budget } ∧
        (budget.isSome = true -> inserted.adminBudgets.find id = none) := by
    cases budget with
    | none =>
        cases budgeting
        exact ⟨rfl, fun absurdity => by cases absurdity⟩
    | some limit =>
        simp only [insertBudget, bind_eq_ok, refuse_eq_ok, pure_eq_ok] at budgeting
        rcases budgeting with ⟨_, unbudgeted, same⟩
        exact ⟨same.symm, fun _ => by simpa using unbudgeted⟩
  rcases budgetedEq with ⟨budgetedEq, unbudgeted⟩
  rw [insertedEq] at unbudgeted
  have enrolledEq : ∃ required, enrolled = { budgeted with
      accounts := store.accounts.insert id (createdRow now new hash)
      passwordChangeRequired := required } := by
    have accounts : budgeted.accounts = store.accounts.insert id (newRow now new) := by
      rw [budgetedEq, insertedEq]
    cases hash with
    | none =>
        cases enrolling
        refine ⟨budgeted.passwordChangeRequired, ?_⟩
        have unchanged : createdRow now new none = newRow now new := rfl
        rw [unchanged, ← accounts]
    | some chosen =>
        simp only [insertPassword, bind_eq_ok] at enrolling
        rcases enrolling with ⟨updated, executed, rest⟩
        rcases execute_ok executed with ⟨written, _⟩
        have rows : updated.accounts =
            store.accounts.insert id (createdRow now new (some chosen)) := by
          rw [written]
          change budgeted.accounts.modify id _ = _
          rw [accounts, Table.modify_insert]
          rfl
        cases byAdmin : caller.isSome with
        | false =>
            rw [byAdmin] at rest
            cases rest
            refine ⟨budgeted.passwordChangeRequired, ?_⟩
            rw [← rows, written]
            rfl
        | true =>
            rw [byAdmin, if_pos rfl] at rest
            simp only [bind_eq_ok, pure_eq_ok] at rest
            rcases rest with ⟨_, _, final⟩
            refine ⟨updated.passwordChangeRequired.insert id (), ?_⟩
            rw [← rows, ← final, written]
            rfl
  rcases enrolledEq with ⟨required, enrolledEq⟩
  refine ⟨budget, required, ⟨allowed, ⟨caller, allocation⟩, drawn, absent, unused, unbudgeted⟩,
    ?_⟩
  rw [← same, enrolledEq, budgetedEq, insertedEq]
  cases requestState with
  | none => rfl
  | some state => rfl

/-! ## Quotas and provisioning -/

/-- The own quota reserved for an administrator, zero when none is fixed. -/
def ownOf (store : Store) (id : Uuid) : Nat :=
  (store.adminOwnQuota.find id).getD 0

theorem fixedOwn_ok {own : Option Int} (read : store.fixedOwn id = .ok own) :
    own = (store.adminOwnQuota.find id).map (fun bytes => (bytes : Int)) := by
  unfold fixedOwn at read
  cases stored : store.adminOwnQuota.find id with
  | none =>
      rw [stored] at read
      cases read
      rfl
  | some bytes =>
      rw [stored] at read
      change (if 0 < bytes ∧ bytes ≤ i64Max then _ else _) = _ at read
      by_cases positive : 0 < bytes ∧ bytes ≤ i64Max
      · rw [if_pos positive] at read
        cases read
        rfl
      · rw [if_neg positive] at read
        cases read

theorem fixedOwn_getD {own : Option Int} (read : store.fixedOwn id = .ok own) :
    own.getD 0 = store.ownOf id := by
  rw [fixedOwn_ok read]
  unfold ownOf
  cases store.adminOwnQuota.find id <;> rfl

theorem checkedAdd_ok {left right sum : Int} (added : checkedAdd left right = .ok sum) :
    sum = left + right ∧ sum ≤ i64Max := by
  unfold checkedAdd at added
  by_cases fits : left + right ≤ i64Max ∧ -(i64Max + 1 : Int) ≤ left + right
  · rw [if_pos fits] at added
    cases added
    exact ⟨rfl, fits.1⟩
  · rw [if_neg fits] at added
    cases added

/-- What the owner's budget has left, as `create_record` and `provision`
compute it. -/
def budgetLeft (store : Store) (owner : Uuid) (exclude : Option IntentKey) : Int :=
  sub64 (sub64 (sub64 (store.budgetOf owner) (store.childrenTotal owner))
    (store.pendingTotal (.account owner) exclude)) (store.ownOf owner)

/-- What the pool has left, as `create_record` and `create_admin` compute it. -/
def poolLeft (store : Store) (exclude : Option IntentKey) : Int :=
  sub64 (sub64 store.poolLimit store.budgetsTotal) (store.pendingTotal .root exclude)

theorem checkChild_ok {quota : Nat} {owner : Uuid} {exclude : Option IntentKey}
    (checked : store.checkChild quota owner exclude = .ok ()) :
    quota ≤ store.budgetLeft owner exclude ∧
      ∃ row, store.accounts.find owner = some row ∧ row.role = .admin := by
  simp only [checkChild, bind_eq_ok, refuse_eq_ok, okOr_eq_ok, decide_eq_false_iff_not,
    Int.not_lt, childrenAllocated, pendingReserved, Bool.or_eq_false_iff,
    bne_eq_false_iff_eq] at checked
  rcases checked with ⟨account, read, _, ⟨role, _⟩, limit, budget, _, children, _, pending, _,
    wanted, _, own, fits⟩
  rcases account_ok read with ⟨row, found, viewed⟩
  subst viewed
  rw [(queryInt_ok children).2, (queryInt_ok pending).2, (number_ok wanted).2,
    fixedOwn_getD own] at fits
  refine ⟨?_, row, found, role⟩
  unfold budgetLeft budgetOf
  rw [budget]
  exact fits

theorem checkAllocation_ok {caller : Option Account} {new : NewAccount}
    {exclude : Option IntentKey}
    (checked : store.checkAllocation caller new exclude = .ok ()) :
    (new.ownerAdminId = none ∧ new.quotaBytes = none ∧
      (new.kind = .linux ∨ new.kind = .virtual ∧ new.role = .admin)) ∨
      ∃ owner quota, new.ownerAdminId = some owner ∧ new.quotaBytes = some quota ∧
        new.kind = .virtual ∧ new.role = .user ∧ quota ≤ store.budgetLeft owner exclude ∧
        ∃ row, store.accounts.find owner = some row ∧ row.role = .admin := by
  unfold checkAllocation at checked
  by_cases admin : new.kind = .virtual ∧ new.role = .admin
  · rw [if_pos admin] at checked
    simp only [refuse_eq_ok, Bool.or_eq_false_iff, Option.isSome_eq_false_iff,
      Option.isNone_iff_eq_none] at checked
    exact Or.inl ⟨checked.1.2, checked.2, Or.inr admin⟩
  · rw [if_neg admin] at checked
    by_cases virtual : new.kind = .virtual
    · rw [if_pos virtual] at checked
      simp only [bind_eq_ok, okOr_eq_ok] at checked
      rcases checked with ⟨quota, given, owner, owned, fits⟩
      have user : new.role = .user := by
        cases role : new.role with
        | user => rfl
        | admin => exact absurd ⟨virtual, role⟩ admin
      exact Or.inr ⟨owner, quota, owned, (Option.filter_eq_some_iff.mp given).1, virtual, user,
        checkChild_ok fits⟩
    · rw [if_neg virtual] at checked
      simp only [refuse_eq_ok, Bool.or_eq_false_iff, Option.isSome_eq_false_iff,
        Option.isNone_iff_eq_none] at checked
      have linux : new.kind = .linux := by
        cases kind : new.kind with
        | linux => rfl
        | virtual => exact absurd kind virtual
      exact Or.inl ⟨checked.1, checked.2, Or.inl linux⟩

theorem rootBudget_ok {new : NewAccount} {requestState : Option (IntentKey × Intent)}
    {limit : Nat} (drawn : store.rootBudget new requestState = .ok (some limit)) :
    ∃ key state, requestState = some (key, state) ∧ new.role = .admin ∧
      limit ≤ store.poolLeft (some key) := by
  cases requestState with
  | none => cases drawn
  | some pair =>
      rcases pair with ⟨key, state⟩
      unfold rootBudget at drawn
      change (if new.kind = .virtual ∧ new.role = .admin then _ else _) = _ at drawn
      by_cases admin : new.kind = .virtual ∧ new.role = .admin
      · rw [if_pos admin] at drawn
        simp only [bind_eq_ok, refuse_eq_ok, pure_eq_ok, budgetsAllocated, pendingReserved,
          decide_eq_false_iff_not, Int.not_lt, Option.some.injEq] at drawn
        rcases drawn with ⟨_, _, _, budgets, _, wanted, _, pending, _, fits, same⟩
        rw [(queryInt_ok budgets).2, (number_ok wanted).2, (queryInt_ok pending).2, same] at fits
        exact ⟨key, state, rfl, admin.2, fits⟩
      · rw [if_neg admin] at drawn
        cases drawn

/-- A virtual administrator gets the budget its intent reserved. -/
theorem rootBudget_of_admin {new : NewAccount} {key : IntentKey} {intent : Intent}
    {budget : Option Nat} (virtual : new.kind = .virtual) (admin : new.role = .admin)
    (drawn : store.rootBudget new (some (key, intent)) = .ok budget) :
    budget = some intent.quota := by
  unfold rootBudget at drawn
  change (if new.kind = .virtual ∧ new.role = .admin then _ else _) = _ at drawn
  rw [if_pos ⟨virtual, admin⟩] at drawn
  simp only [bind_eq_ok, pure_eq_ok] at drawn
  rcases drawn with ⟨_, _, _, _, _, _, _, _, _, _, same⟩
  exact same.symm

theorem setPool_ok {bytes : Nat} {done : Unit}
    (committed : setPool actor bytes store = .ok (done, final)) :
    bytes ≤ i64Max ∧ store.budgetsTotal + store.pendingTotal .root none ≤ bytes ∧
      final = { store with poolLimit := bytes } := by
  simp only [setPool, bind_eq_ok, refuse_eq_ok, pure_eq_ok, Prod.mk.injEq, budgetsAllocated,
    pendingReserved, decide_eq_false_iff_not, Int.not_lt] at committed
  rcases committed with ⟨_, _, _, budgets, _, pending, _, added, _, wanted, _, enough, _, same⟩
  have total := (checkedAdd_ok added).1
  rw [(queryInt_ok budgets).2, (queryInt_ok pending).2] at total
  have bound := (number_ok wanted).2
  refine ⟨(number_ok wanted).1, ?_, same.symm⟩
  omega

theorem checkBudget_ok {bytes remaining : Nat}
    (checked : store.checkBudget actor id bytes = .ok remaining) :
    (∃ row, store.accounts.find id = some row ∧ row.role = .admin ∧ row.status = .active) ∧
      bytes ≤ i64Max ∧
      store.childrenTotal id + store.pendingTotal (.account id) none + store.ownOf id ≤ bytes ∧
      bytes ≤ sub64 (sub64 store.poolLimit (sub64 store.budgetsTotal (store.budgetOf id)))
        (store.pendingTotal .root none) ∧
      remaining = (store.adminOwnQuota.find id).getD
        (bytes - (store.childrenTotal id + store.pendingTotal (.account id) none)) := by
  simp only [checkBudget, bind_eq_ok, refuse_eq_ok, pure_eq_ok, Bool.or_eq_false_iff,
    bne_eq_false_iff_eq, budgetsAllocated, childrenAllocated, pendingReserved,
    decide_eq_false_iff_not, Int.not_lt] at checked
  rcases checked with ⟨_, _, target, found, _, ⟨role, active⟩, _, budgets, _, children, _, reserved,
    _, added, _, wanted, own, fixed, _, needed, _, pending, _, ⟨enough, fits⟩, same⟩
  rcases account_ok found with ⟨row, present, viewed⟩
  subst viewed
  have childrenSum := (checkedAdd_ok added).1
  have neededSum := (checkedAdd_ok needed).1
  rw [(queryInt_ok children).2, (queryInt_ok reserved).2] at childrenSum
  rw [fixedOwn_getD fixed] at neededSum
  rw [(queryInt_ok budgets).2, (queryInt_ok pending).2, (number_ok wanted).2] at fits
  rw [(number_ok wanted).2] at enough same
  have covered : store.childrenTotal id + store.pendingTotal (.account id) none ≤ bytes := by omega
  have left := sub64_of_le covered (number_ok wanted).1
  refine ⟨⟨row, present, role, active⟩, (number_ok wanted).1, by omega, fits, ?_⟩
  rw [childrenSum, ← Int.natCast_add, left, fixedOwn_ok fixed] at same
  cases stored : store.adminOwnQuota.find id with
  | none =>
      rw [stored] at same
      exact same.symm
  | some own =>
      rw [stored] at same
      exact same.symm

theorem checkOwn_ok {bytes : Nat} (checked : store.checkOwn actor id bytes = .ok ()) :
    actor = .root ∧ 0 < bytes ∧ bytes ≤ i64Max ∧
      (∃ row, store.accounts.find id = some row ∧ row.kind = .virtual ∧ row.role = .admin ∧
        row.status = .active) ∧
      bytes ≤ sub64 (sub64 (store.budgetOf id) (store.childrenTotal id))
        (store.pendingTotal (.account id) none) := by
  simp only [checkOwn, bind_eq_ok, refuse_eq_ok, Bool.or_eq_false_iff, bne_eq_false_iff_eq,
    beq_eq_false_iff_ne, childrenAllocated, pendingReserved, decide_eq_false_iff_not,
    Int.not_lt] at checked
  rcases checked with ⟨_, root, _, wanted, _, positive, target, found, _, ⟨⟨kind, role⟩, active⟩, _,
    children, _, pending, fits⟩
  rcases account_ok found with ⟨row, present, viewed⟩
  subst viewed
  rw [(number_ok wanted).2] at positive
  rw [(queryInt_ok children).2, (queryInt_ok pending).2, (number_ok wanted).2] at fits
  exact ⟨root, by omega, (number_ok wanted).1, ⟨row, present, kind, role, active⟩, fits⟩

theorem setAdminBudgetWith_ok {bytes : Nat} {before : Nat -> Except StoreError Unit} {done : Unit}
    (committed : setAdminBudgetWith actor id bytes before store = .ok (done, final)) :
    ∃ remaining, store.checkBudget actor id bytes = .ok remaining ∧ before remaining = .ok () ∧
      final = { store with adminBudgets := store.adminBudgets.insert id bytes } := by
  simp only [setAdminBudgetWith, bind_eq_ok, pure_eq_ok, Prod.mk.injEq] at committed
  rcases committed with ⟨remaining, checked, _, called, _, same⟩
  exact ⟨remaining, checked, called, same.symm⟩

theorem setAdminOwnWith_ok {bytes : Nat} {before : Nat -> Except StoreError Unit} {done : Unit}
    (committed : setAdminOwnWith now actor id bytes before store = .ok (done, final)) :
    store.checkOwn actor id bytes = .ok () ∧ before bytes = .ok () ∧
      final = ({ store with
        adminOwnQuota := store.adminOwnQuota.insert id bytes
        virtualQuotaSync := store.virtualQuotaSync.insert id () }).updateRow (.touch now) id := by
  simp only [setAdminOwnWith, bind_eq_ok, pure_eq_ok, Prod.mk.injEq] at committed
  rcases committed with ⟨_, checked, _, called, _, _, updated, executed, _, same⟩
  subst same
  exact ⟨checked, called, (execute_ok executed).1⟩

theorem setChildQuotaWith_ok {generation bytes : Nat} {before : Nat -> Except StoreError Unit}
    (committed : setChildQuotaWith now actor id generation bytes before store =
      .ok (result, final)) :
    ∃ remaining, store.checkChildQuota actor id generation bytes = .ok remaining ∧
      before remaining = .ok () ∧
      final = ({ store with
        virtualQuotaSync := store.virtualQuotaSync.insert id () }).updateRow
          (.setQuota bytes now) id := by
  simp only [setChildQuotaWith, bind_eq_ok, pure_eq_ok, Prod.mk.injEq] at committed
  rcases committed with ⟨remaining, checked, _, called, _, _, updated, executed, _, _, _, same⟩
  subst same
  exact ⟨remaining, checked, called, (execute_ok executed).1⟩

/-- The target of a quota change, and who changed it. -/
theorem checkChildQuota_ok {generation bytes remaining : Nat}
    (checked : store.checkChildQuota actor id generation bytes = .ok remaining) :
    ∃ row owner, store.accounts.find id = some row ∧ row.kind = .virtual ∧ row.role = .user ∧
      row.status ≠ .deleted ∧ row.generation = generation ∧ row.ownerAdminId = some owner ∧
      (actor = .root ∨ ∃ adminRow, Caller store actor owner adminRow) := by
  simp only [checkChildQuota, bind_eq_ok, refuse_eq_ok, pure_eq_ok, Bool.or_eq_false_iff,
    bne_eq_false_iff_eq, beq_eq_false_iff_ne, okOr_eq_ok] at checked
  rcases checked with ⟨_, _, target, found, _, managed, _, ⟨⟨⟨kind, role⟩, alive⟩, current⟩,
    owner, owned, _⟩
  rcases account_ok found with ⟨row, present, viewed⟩
  subst viewed
  refine ⟨row, owner, present, kind, role, alive, current, owned, ?_⟩
  rcases manage_ok managed with root | ⟨admin, adminRow, caller, _, sameOwner, _⟩
  · exact Or.inl root
  · have equal : owner = admin := Option.some.inj (owned.symm.trans sameOwner)
    exact Or.inr ⟨adminRow, equal ▸ caller⟩

/-- The sums a quota change is checked against. -/
theorem checkChildQuota_fits {generation bytes remaining owner : Nat} {row : AccountRow}
    (checked : store.checkChildQuota actor id generation bytes = .ok remaining)
    (found : store.accounts.find id = some row) (owned : row.ownerAdminId = some owner) :
    0 < bytes ∧ bytes ≤ i64Max ∧
      bytes ≤ sub64 (sub64 (store.budgetOf owner) (sub64
        (store.childrenTotal owner + store.pendingTotal (.account owner) none : Nat)
        (row.quotaBytes.getD 0 : Nat))) (store.ownOf owner) ∧
      remaining = (((store.adminOwnQuota.find owner).map (fun own => (own : Int))).getD
        (sub64 (sub64 (store.budgetOf owner)
          (store.childrenTotal owner + store.pendingTotal (.account owner) none : Nat) +
            (row.quotaBytes.getD 0 : Nat)) bytes)).toNat := by
  simp only [checkChildQuota, bind_eq_ok, refuse_eq_ok, pure_eq_ok, beq_eq_false_iff_ne,
    okOr_eq_ok, childrenAllocated, pendingReserved, decide_eq_false_iff_not, Int.not_lt] at checked
  rcases checked with ⟨_, positive, target, read, _, _, _, _, other, sameOwner, _, children, _,
    reserved, _, added, own, fixed, _, wanted, _, old, _, fits, left⟩
  rcases account_ok read with ⟨again, present, viewed⟩
  have equal : again = row := Option.some.inj (present.symm.trans found)
  subst equal
  subst viewed
  have ownerSame : other = owner := Option.some.inj (sameOwner.symm.trans owned)
  subst ownerSame
  have sum := (checkedAdd_ok added).1
  rw [(queryInt_ok children).2, (queryInt_ok reserved).2, ← Int.natCast_add] at sum
  rw [sum, fixedOwn_getD fixed, (number_ok wanted).2, (number_ok old).2] at fits
  rw [sum, fixedOwn_ok fixed, (number_ok wanted).2, (number_ok old).2] at left
  exact ⟨Nat.pos_of_ne_zero positive, (number_ok wanted).1, fits, left.symm⟩

theorem insertIntent_ok {key : IntentKey} {intent : Intent}
    (done : store.insertIntent key intent = .ok final) :
    store.virtualCreate.find key = none ∧
      final = { store with virtualCreate := store.virtualCreate.insert key intent } := by
  simp only [insertIntent, bind_eq_ok, refuse_eq_ok, pure_eq_ok] at done
  rcases done with ⟨_, absent, same⟩
  exact ⟨by simpa using absent, same.symm⟩

theorem recordChildIntent_ok {owner request : Uuid} {name : Text} {generation quota uid : Nat}
    {done : Unit}
    (committed : recordChildIntent owner generation request name quota uid store =
      .ok (done, final)) :
    (∃ row, Caller store (.account owner generation) owner row ∧ row.role = .admin) ∧
      quota ≤ store.budgetLeft owner none ∧
      store.virtualCreate.find ⟨.account owner, request⟩ = none ∧
      final = { store with
        virtualCreate := store.virtualCreate.insert ⟨.account owner, request⟩
          ⟨1, .account owner, name, quota, uid, none⟩ } := by
  simp only [recordChildIntent, bind_eq_ok, refuse_eq_ok, okOr_eq_ok, pure_eq_ok, Prod.mk.injEq,
    childrenAllocated, pendingReserved, decide_eq_false_iff_not, Int.not_lt,
    bne_eq_false_iff_eq] at committed
  rcases committed with ⟨_, authorized, current, given, _, role, _, children, _, wanted, _, pending,
    _, fixed, _, fits, inserted, insertion, _, same⟩
  rw [(queryInt_ok children).2, (queryInt_ok pending).2, (number_ok wanted).2,
    fixedOwn_getD fixed] at fits
  rcases insertIntent_ok insertion with ⟨absent, written⟩
  subst same
  refine ⟨?_, fits, absent, written⟩
  rcases authorized_ok authorized with ⟨root, _⟩ | ⟨key, row, caller, viewed⟩
  · cases root
  · rw [viewed] at given
    cases given
    have sameKey : owner = key := by
      have named := caller.actor
      injection named
    exact ⟨row, sameKey ▸ caller, role⟩

theorem recordAdminIntent_ok {request : Uuid} {name : Text} {budget uid : Nat} {done : Unit}
    (committed : recordAdminIntent request name budget uid store = .ok (done, final)) :
    budget ≤ store.poolLeft none ∧ store.virtualCreate.find ⟨.root, request⟩ = none ∧
      final = { store with
        virtualCreate := store.virtualCreate.insert ⟨.root, request⟩
          ⟨1, .root, name, budget, uid, none⟩ } := by
  simp only [recordAdminIntent, bind_eq_ok, refuse_eq_ok, pure_eq_ok, Prod.mk.injEq,
    budgetsAllocated, pendingReserved, decide_eq_false_iff_not, Int.not_lt] at committed
  rcases committed with ⟨_, budgets, _, wanted, _, pending, _, fits, inserted, insertion, _, same⟩
  rw [(queryInt_ok budgets).2, (queryInt_ok pending).2, (number_ok wanted).2] at fits
  rcases insertIntent_ok insertion with ⟨absent, written⟩
  subst same
  exact ⟨fits, absent, written⟩

/-- A uid is retired, and so is every uid that was. -/
structure Retires (before : Table Nat Nat) (uid : Nat) (after : Table Nat Nat) : Prop where
  retired : (after.find uid).isSome = true
  kept : forall other, (before.find other).isSome = true -> (after.find other).isSome = true

theorem retireUid_eq (store : Store) (now uid : Nat) :
    ∃ retired, Retires store.virtualUidRetired uid retired ∧
      store.retireUid now uid = { store with virtualUidRetired := retired } := by
  unfold retireUid
  by_cases present : (store.virtualUidRetired.find uid).isSome = true
  · exact ⟨store.virtualUidRetired, ⟨present, fun _ kept => kept⟩, if_pos present⟩
  · refine ⟨store.virtualUidRetired.insert uid now, ⟨?_, ?_⟩, if_neg present⟩
    · rw [Table.find_insert_self]
      rfl
    · intro other kept
      have different : other ≠ uid := by
        intro same
        exact present (same ▸ kept)
      rw [Table.find_insert_of_ne _ different]
      exact kept

theorem cancelIntent_eq (store : Store) (now uid : Nat) (key : IntentKey) :
    ∃ retired, Retires store.virtualUidRetired uid retired ∧
      store.cancelIntent now key uid = { store with
        virtualCreate := store.virtualCreate.erase key
        virtualUidRetired := retired } :=
  retireUid_eq { store with virtualCreate := store.virtualCreate.erase key } now uid

theorem recordPurgeIntent_ok {done : Unit}
    (committed : recordPurgeIntent now id store = .ok (done, final)) :
    ∃ uid intents retired, Retires store.virtualUidRetired uid retired ∧
      final = { store with virtualPurgeIntent := intents, virtualUidRetired := retired } := by
  simp only [recordPurgeIntent, bind_eq_ok, pure_eq_ok, Prod.mk.injEq] at committed
  rcases committed with ⟨target, _, _, _, _, same⟩
  rcases retireUid_eq { store with
    virtualPurgeIntent := store.virtualPurgeIntent.insert id (target.uid, target.home) } now
      target.uid with ⟨retired, retires, written⟩
  exact ⟨target.uid, _, retired, retires, same.symm.trans written⟩

theorem purge_ok {uid : Nat} {done : Unit}
    (committed : purge now id uid store = .ok (done, final)) :
    store.virtualPurged.find id = none ∧
      (forall row, store.accounts.find id = some row ->
        (RowUpdate.purge.apply row).storable = true) ∧
      ∃ retired, Retires store.virtualUidRetired uid retired ∧ final = ({ store with
        virtualUidRetired := retired
        virtualPurged := store.virtualPurged.insert id (now, uid)
        sessionGrants := store.sessionGrants.filter
          (fun _ grant => grant.accountId != id) }).updateRow .purge id := by
  simp only [purge, bind_eq_ok, refuse_eq_ok, pure_eq_ok, Prod.mk.injEq] at committed
  rcases committed with ⟨_, absent, updated, executed, _, same⟩
  rcases retireUid_eq store now uid with ⟨retired, retires, written⟩
  rw [written] at absent executed
  rcases execute_ok executed with ⟨rewritten, storable⟩
  refine ⟨by simpa using absent, storable, retired, retires, ?_⟩
  rw [← same, rewritten]
  rfl

/-! ## Grants and enrollment -/

/-- The grants that survive the clean-up of `issue_grant`. -/
def keptGrants (store : Store) (at_ : Nat) : Table Uuid GrantRow :=
  store.sessionGrants.filter (fun _ grant => !store.staleGrant at_ grant)

theorem issueGrant_ok {nonce : Uuid} {generation at_ lifetime : Nat} {caller : CallerBinding}
    {grant : SessionGrant}
    (done : issueGrant nonce id generation caller at_ lifetime store = .ok (grant, final)) :
    (∃ row, store.accounts.find id = some row ∧ row.generation = generation ∧
      row.status = .active ∧ row.loginEnabled = true) ∧
      (store.keptGrants at_).size < 8192 ∧
      (store.keptGrants at_).count (fun _ grant => grant.accountId == id) < 64 ∧
      (store.keptGrants at_).find nonce = none ∧ at_ < grant.expiresAt ∧
      grant = ⟨nonce, id, generation, caller, grant.expiresAt⟩ ∧
      final = { store with
        sessionGrants := (store.keptGrants at_).insert nonce
          ⟨id, generation, caller, grant.expiresAt, false⟩ } := by
  simp only [issueGrant, expiry, bind_eq_ok, refuse_eq_ok, pure_eq_ok, Prod.mk.injEq,
    Bool.or_eq_false_iff, bne_eq_false_iff_eq, Bool.not_eq_false', decide_eq_false_iff_not,
    beq_eq_false_iff_ne] at done
  rcases done with ⟨_, _, expiresAt, ⟨_, ⟨positive, _⟩, _, _, _, _, later⟩, target, found, _,
    ⟨⟨current, active⟩, login⟩, _, ⟨total, own⟩, _, _, _, fresh, issued, same⟩
  rcases account_ok found with ⟨row, present, viewed⟩
  subst viewed
  subst issued
  refine ⟨⟨row, present, current, active, login⟩, ?_, ?_,
    Option.isNone_iff_eq_none.mp (Option.isSome_eq_false_iff.mp fresh), ?_, rfl, same.symm⟩
  · exact Nat.lt_of_not_le total
  · exact Nat.lt_of_not_le own
  · change at_ < expiresAt
    omega

theorem verifyRestrictedGrant_ok {grant : SessionGrant} {caller : CallerBinding} {at_ : Nat}
    (verified : verifyRestrictedGrant grant caller at_ store = .ok result) :
    grant.caller = caller ∧ at_ < grant.expiresAt ∧
      (∃ row, store.sessionGrants.find grant.nonce = some row ∧
        row = ⟨grant.accountId, grant.generation, grant.caller, grant.expiresAt, false⟩) ∧
      ∃ row, store.accounts.find grant.accountId = some row ∧ row.generation = grant.generation ∧
        row.loginEnabled = true ∧ row.status = .active ∧
        result = store.view grant.accountId row := by
  simp only [verifyRestrictedGrant, verifyGeneration, bind_eq_ok, refuse_eq_ok, pure_eq_ok,
    Bool.or_eq_false_iff, bne_eq_false_iff_eq, decide_eq_false_iff_not, Nat.not_le,
    Bool.not_eq_false'] at verified
  rcases verified with ⟨_, ⟨sameCaller, alive⟩, _, _, _, _, _, _, _, _, _, listed, target, found,
    account, again, _, ⟨⟨⟨⟨current, _⟩, _⟩, login⟩, active⟩, viewed⟩
  rcases account_ok found with ⟨row, present, targetViewed⟩
  subst targetViewed
  rcases account_ok again with ⟨second, secondPresent, accountViewed⟩
  have equal : second = row := Option.some.inj (secondPresent.symm.trans present)
  subst equal
  subst accountViewed
  refine ⟨sameCaller, alive, ?_, second, present, current, login, active, viewed.symm⟩
  cases stored : store.sessionGrants.find grant.nonce with
  | none =>
      rw [stored] at listed
      cases listed
  | some grantRow =>
      rw [stored] at listed
      simp only [Option.any_some, matchesGrant, Bool.and_eq_true, beq_iff_eq,
        Bool.not_eq_true'] at listed
      rcases listed with ⟨⟨⟨⟨⟨account, generation⟩, binding⟩, expires⟩, _⟩, valid⟩
      refine ⟨grantRow, rfl, ?_⟩
      cases grantRow
      cases account
      cases generation
      cases binding
      cases expires
      cases valid
      rfl

theorem revokeGrant_ok {grant : SessionGrant} {caller : CallerBinding} {at_ : Nat} {done : Unit}
    (committed : revokeGrant grant caller at_ store = .ok (done, final)) :
    (∃ account, store.verifyRestrictedGrant grant caller at_ = .ok account) ∧
      final = { store with
        sessionGrants := store.sessionGrants.modify grant.nonce
          (fun row => { row with revoked := true }) } := by
  simp only [revokeGrant, bind_eq_ok, pure_eq_ok, Prod.mk.injEq] at committed
  rcases committed with ⟨account, verified, _, same⟩
  exact ⟨⟨account, verified⟩, same.symm⟩

theorem findUsername_eq_some {username : Text} {account : Account}
    (found : store.findUsername username = some account) :
    ∃ key row, store.accounts.find key = some row ∧ row.username = username ∧
      account = store.view key row := by
  rcases Option.map_eq_some_iff.mp found with ⟨⟨key, row⟩, located, same⟩
  have named : row.username = username := by simpa using List.find?_some located
  have member := List.mem_of_find?_eq_some located
  exact ⟨key, row, Table.find_eq_some_iff.mpr member, named, same.symm⟩

/-- The enrollment rows `begin_enrollment` keeps. -/
def keptProofs (store : Store) (identity : EnrollmentIdentity) (caller : CallerBinding)
    (at_ : Nat) : Table Text EnrollmentRow :=
  store.enrollment.filter (fun _ row =>
    !(decide (row.expiresAt ≤ at_) || row.consumed ||
      (row.username == identity.username && row.caller.uid == caller.uid &&
        row.caller.pid == caller.pid)))

theorem beginEnrollment_ok {digest : Uuid -> Text} {token : Uuid} {identity : EnrollmentIdentity}
    {caller : CallerBinding} {at_ lifetime : Nat} {proof : Uuid}
    (done : beginEnrollment digest token identity caller at_ lifetime store = .ok (proof, final)) :
    proof = token ∧ (store.keptProofs identity caller at_).find (digest token) = none ∧
      ∃ expiresAt, final = { store with
        enrollment := (store.keptProofs identity caller at_).insert (digest token)
          ⟨identity.username, identity.uid, identity.gid, identity.home, caller, expiresAt,
            false⟩ } := by
  simp only [beginEnrollment, bind_eq_ok, refuse_eq_ok, pure_eq_ok, Prod.mk.injEq] at done
  rcases done with ⟨_, _, _, _, expiresAt, _, _, _, _, _, _, fresh, sameToken, same⟩
  exact ⟨sameToken.symm, Option.isNone_iff_eq_none.mp (Option.isSome_eq_false_iff.mp fresh),
    expiresAt, same.symm⟩

/-- The account a committed enrollment found or created, before the password
was set. -/
inductive EnrollmentOf (store : Store) (current : EnrollmentIdentity) (at_ : Nat) (target : Uuid) :
    Table Uuid AccountRow -> Prop where
  | existing (row : AccountRow) (found : store.accounts.find target = some row)
      (located : store.findUsername current.username = some (store.view target row))
      (named : row.username = current.username) (kind : row.kind = .linux)
      (permitted : row.denyEnrollment = false) (alive : row.status ≠ .deleted)
      (unsuspended : row.status ≠ .suspended)
      (open_ : row.webPasswordHash = none ∨ row.status = .revoked) :
      EnrollmentOf store current at_ target store.accounts
  | created (absent : store.accounts.find target = none)
      (unused : forall other row, store.accounts.find other = some row ->
        row.username ≠ current.username ∧ row.uid ≠ current.uid) :
      EnrollmentOf store current at_ target
        (store.accounts.insert target (enrolledRow current at_))

theorem commitEnrollment_ok {digest : Uuid -> Text} {token : Uuid} {caller : CallerBinding}
    {current : EnrollmentIdentity} {hash : Text} {at_ : Nat}
    (done : commitEnrollment digest token id caller current hash at_ store = .ok (result, final)) :
    ∃ proof target rows, store.enrollment.find (digest token) = some proof ∧
      usableProof caller at_ proof = true ∧ EnrollmentOf store current at_ target rows ∧
      final = { store with
        accounts := rows.modify target (RowUpdate.enroll hash at_).apply
        enrollment := store.enrollment.modify (digest token)
          (fun row => { row with consumed := true }) } := by
  simp only [commitEnrollment, bind_eq_ok, okOr_eq_ok, pure_eq_ok, Prod.mk.injEq] at done
  rcases done with ⟨_, _, _, _, proof, usable, ⟨target, inserted⟩, located, _, executed, _, _, _,
    same⟩
  rcases Option.filter_eq_some_iff.mp usable with ⟨found, valid⟩
  rcases execute_ok executed with ⟨written, _⟩
  subst same
  unfold enrollmentTarget at located
  cases existing : ({ store with
      enrollment := store.enrollment.modify (digest token)
        (fun row => { row with consumed := true }) } : Store).findUsername current.username with
  | some account =>
      rw [existing] at located
      simp only [bind_eq_ok, refuse_eq_ok, pure_eq_ok, Prod.mk.injEq, Bool.or_eq_false_iff,
        refusesEnrollment, bne_eq_false_iff_eq, beq_eq_false_iff_ne, Bool.and_eq_false_iff]
        at located
      rcases located with ⟨_, ⟨⟨⟨⟨⟨⟨⟨kind, _⟩, _⟩, _⟩, deny⟩, suspended⟩, alive⟩, unopened⟩,
        sameTarget, sameStore⟩
      rcases findUsername_eq_some existing with ⟨key, row, present, named, viewed⟩
      subst viewed
      subst sameTarget
      subst sameStore
      refine ⟨proof, key, store.accounts, found, valid,
        .existing row present existing named kind deny alive suspended ?_, written⟩
      rcases unopened with unenrolled | revoked
      · exact Or.inl (by simpa [view] using unenrolled)
      · exact Or.inr revoked
  | none =>
      rw [existing] at located
      simp only [bind_eq_ok, pure_eq_ok, Prod.mk.injEq] at located
      rcases located with ⟨added, insertion, sameTarget, sameStore⟩
      rcases insertAccount_ok insertion with ⟨absent, unused, _, insertedEq⟩
      subst sameTarget
      subst sameStore
      refine ⟨proof, id, _, found, valid, .created absent unused, ?_⟩
      rw [written, insertedEq]
      rfl

/-! ## Policies -/

/-- Who may replace a layer of an account's rules. -/
inductive MayReplace (store : Store) (actor : Authority) (id : Uuid) (row : AccountRow)
    (layer : PolicyLayer) : Prop where
  | root (same : actor = .root)
  | self (caller : Caller store actor id row) (personal : layer = .personal)
  | owner (admin : Uuid) (adminRow : AccountRow) (caller : Caller store actor admin adminRow)
      (owned : row.ownerAdminId = some admin) (kind : row.kind = .virtual)
      (administrative : layer = .admin)

theorem setPolicy_ok {encoding : RuleEncoding} {expectedGeneration : Nat} {layer : PolicyLayer}
    {replacement : List Rule}
    (done : setPolicy encoding now actor id expectedGeneration layer replacement store =
      .ok (result, final)) :
    ∃ row rules, store.accounts.find id = some row ∧ MayReplace store actor id row layer ∧
      row.status ≠ .deleted ∧ rules = (store.accountPolicy.find id).getD .empty ∧
      final = (({ store with
        accountPolicy := store.accountPolicy.insert id
          (replaceLayer rules replacement layer) }).updateRow (.touch now) id).dropEnrollment
            row.username := by
  simp only [setPolicy, bind_eq_ok, refuse_eq_ok, pure_eq_ok, forSome_eq_ok, Bool.or_eq_false_iff,
    beq_eq_false_iff_ne, Prod.mk.injEq] at done
  rcases done with ⟨target, found, caller, authorized, _, permitted, _, ⟨_, alive⟩, rules, loaded,
    _, _, _, _, _, _, updated, executed, _, _, _, same⟩
  rcases account_ok found with ⟨row, present, viewed⟩
  rcases execute_ok executed with ⟨written, _⟩
  subst viewed
  subst written
  refine ⟨row, rules, present, ?_, alive, ?_, same.symm⟩
  · rcases authorized_ok authorized with ⟨root, _⟩ | ⟨admin, adminRow, valid, viewed⟩
    · exact .root root
    · have replaced := permitted _ viewed
      cases layer with
      | root => cases replaced
      | personal =>
          simp only [mayReplace, refuse_eq_ok, bne_eq_false_iff_eq] at replaced
          have sameId : admin = id := replaced
          subst sameId
          have equal : adminRow = row := Option.some.inj (valid.found.symm.trans present)
          exact .self (equal ▸ valid) rfl
      | admin =>
          rcases manage_ok replaced with root | ⟨owner, ownerRow, owning, _, owned, kind⟩
          · exact .root root
          · exact .owner owner ownerRow owning owned kind rfl
  · unfold loadPolicy at loaded
    cases stored : store.accountPolicy.find id with
    | none =>
        rw [stored] at loaded
        cases loaded
        rfl
    | some current =>
        rw [stored] at loaded
        simp only [bind_eq_ok, pure_eq_ok] at loaded
        rcases loaded with ⟨_, _, _, _, same⟩
        exact same.symm

theorem setUndoPreferences_ok {config : JournalConfig} {hours : Option Nat}
    {expectedRevision : Nat} {preferences : UndoPreferences}
    (done : setUndoPreferences now actor config hours expectedRevision store =
      .ok (preferences, final)) :
    ∃ caller row, Caller store actor caller row ∧
      final = { store.updateRow (.setUndoHours hours now) caller with
        undoPreferences := store.undoPreferences.insert caller (store.undoRevision caller + 1) } := by
  simp only [setUndoPreferences, bind_eq_ok, okOr_eq_ok, pure_eq_ok, Prod.mk.injEq] at done
  rcases done with ⟨_, _, _, _, caller, authorized, account, given, _, _, _, _, _, _, updated,
    executed, _, _, _, same⟩
  rcases authorized_ok authorized with ⟨_, none⟩ | ⟨key, row, valid, viewed⟩
  · rw [none] at given
    cases given
  · rw [viewed] at given
    cases given
    rcases execute_ok executed with ⟨written, _⟩
    subst written
    exact ⟨key, row, valid, same.symm⟩

end Store

end Store

end TealDrive
