import TealDrive.Accounts.JournalEffects
import TealDrive.Accounts.Runs

namespace TealDrive

open Outcome

/-!
# Tenants do not reach each other

An account may write its own rows and, as an administrator, those of its
virtual children.  Each operation derives the caller's authority in its own
way, so each gets its own frame; `Isolated` is what all of them share.
-/

/-- The mutating operations an account may ask for.  `begin_operation` acts for
the account it is given. -/
inductive TenantOp where
  | createRecord (id : Uuid) (now : Nat) (actor : Authority) (new : NewAccount)
      (hash : Option Text) (requestState : Option (IntentKey × Intent))
  | setChildQuotaWith (now : Nat) (actor : Authority) (id : Uuid) (generation bytes : Nat)
      (before : Nat -> Except StoreError Unit)
  | setPassword (now : Nat) (actor : Authority) (id : Uuid) (password hash : Text)
  | transition (now : Nat) (actor : Authority) (id : Uuid) (status : AccountStatus)
      (allowAdminDelete : Bool) (generation : Option Nat)
  | setPolicy (now : Nat) (actor : Authority) (id : Uuid) (expectedGeneration : Nat)
      (layer : PolicyLayer) (replacement : List Rule)
  | setUndoPreferences (now : Nat) (actor : Authority) (config : JournalConfig)
      (hours : Option Nat) (expectedRevision : Nat)
  | beginOperation (config : JournalConfig) (draws : Store.Draws) (ledger : Store.Ledger)
      (account : Account) (request : HelperRequest) (at_ : Nat)
  | claimUndo (config : JournalConfig) (drawn : Uuid) (actor : Authority) (operationId : Uuid)
      (expectedState : Text) (at_ : Nat)

namespace TenantOp

/-- Who asks. -/
def authority : TenantOp -> Authority
  | .createRecord _ _ actor _ _ _ => actor
  | .setChildQuotaWith _ actor _ _ _ _ => actor
  | .setPassword _ actor _ _ _ => actor
  | .transition _ actor _ _ _ _ => actor
  | .setPolicy _ actor _ _ _ _ => actor
  | .setUndoPreferences _ actor _ _ _ => actor
  | .beginOperation _ _ _ account _ _ => .account account.id account.generation
  | .claimUndo _ _ actor _ _ _ => actor

/-- The operation succeeds and leaves the given store behind. -/
def Succeeds (env : Environment) (format : JournalFormat) (store after : Store) : TenantOp -> Prop
  | .createRecord id now actor new hash requestState =>
      ∃ result, store.createRecord id now actor new hash requestState = .ok (result, after)
  | .setChildQuotaWith now actor id generation bytes before =>
      ∃ result, store.setChildQuotaWith now actor id generation bytes before = .ok (result, after)
  | .setPassword now actor id password hash =>
      ∃ result, store.setPassword env.scheme now actor id password hash = .ok (result, after)
  | .transition now actor id status allowAdminDelete generation =>
      ∃ result, store.transition now actor id status allowAdminDelete generation =
        .ok (result, after)
  | .setPolicy now actor id expectedGeneration layer replacement =>
      ∃ result, store.setPolicy env.encoding now actor id expectedGeneration layer replacement =
        .ok (result, after)
  | .setUndoPreferences now actor config hours expectedRevision =>
      ∃ result, store.setUndoPreferences now actor config hours expectedRevision =
        .ok (result, after)
  | .beginOperation config draws ledger account request at_ =>
      ∃ record, store.beginOperation format config draws ledger account request at_ =
        (.ok record, after)
  | .claimUndo config drawn actor operationId expectedState at_ =>
      ∃ record, store.claimUndo format config drawn actor operationId expectedState at_ =
        .ok (record, after)

end TenantOp

/-- The journal operations keep books; the others are operations of the store's
runs already. -/
theorem TenantOp.Succeeds.apply {env : Environment} {format : JournalFormat} {store after : Store}
    {op : TenantOp} (done : op.Succeeds env format store after) :
    ∃ operation : StoreOp, operation.apply env store = .ok after := by
  cases op with
  | createRecord id now actor new hash requestState =>
      rcases done with ⟨result, done⟩
      exact ⟨.createRecord id now actor new hash requestState, StoreOp.committed_of_ok done⟩
  | setChildQuotaWith now actor id generation bytes before =>
      rcases done with ⟨result, done⟩
      exact ⟨.setChildQuotaWith now actor id generation bytes before, StoreOp.committed_of_ok done⟩
  | setPassword now actor id password hash =>
      rcases done with ⟨result, done⟩
      exact ⟨.setPassword now actor id password hash, StoreOp.committed_of_ok done⟩
  | transition now actor id status allowAdminDelete generation =>
      rcases done with ⟨result, done⟩
      exact ⟨.transition now actor id status allowAdminDelete generation,
        StoreOp.committed_of_ok done⟩
  | setPolicy now actor id expectedGeneration layer replacement =>
      rcases done with ⟨result, done⟩
      exact ⟨.setPolicy now actor id expectedGeneration layer replacement,
        StoreOp.committed_of_ok done⟩
  | setUndoPreferences now actor config hours expectedRevision =>
      rcases done with ⟨result, done⟩
      exact ⟨.setUndoPreferences now actor config hours expectedRevision,
        StoreOp.committed_of_ok done⟩
  | beginOperation config draws ledger account request at_ =>
      rcases done with ⟨record, done⟩
      rcases (Store.beginOperation_ok done).2 with
        ⟨_, _, _, _, _, rfl⟩ | ⟨_, kept, trash, staging, _, inserted⟩
      · exact ⟨.keepBooks { store.writeRecord record with }, rfl⟩
      · rw [inserted.stored]
        exact ⟨.keepBooks { store.ensureEpoch draws.epoch with
          operations := kept.insert record
          trashExpiry := trash
          stagingExpiry := staging }, rfl⟩
  | claimUndo config drawn actor operationId expectedState at_ =>
      rcases done with ⟨record, done⟩
      rcases Store.claimUndo_ok done with ⟨_, _, _, _, _, rfl⟩
      exact ⟨.keepBooks { store.ensureEpoch drawn with
        operations := store.operations.replace record }, rfl⟩

/-! ## What a tenant may touch -/

/-- A virtual child of the account. -/
def ChildOf (store : Store) (actor id : Uuid) : Prop :=
  ∃ row, store.accounts.find id = some row ∧ row.kind = .virtual ∧ row.ownerAdminId = some actor

/-- The account itself or a virtual child of it. -/
def Belongs (store : Store) (actor id : Uuid) : Prop := id = actor ∨ ChildOf store actor id

/-- The layers of an account's stored rules. -/
def Store.rulesOf (store : Store) (id : Uuid) : UserRules :=
  (store.accountPolicy.find id).getD .empty

/-- Nothing changed that does not belong to the account. -/
structure Isolated (store : Store) (actor : Uuid) (after : Store) : Prop where
  accounts : forall id row, store.accounts.find id = some row -> ¬ Belongs store actor id ->
    after.accounts.find id = some row
  created : forall id, store.accounts.find id = none -> after.accounts.find id ≠ none ->
    ChildOf after actor id
  budgets : forall id, ¬ Belongs store actor id ->
    after.adminBudgets.find id = store.adminBudgets.find id
  policies : forall id, ¬ Belongs store actor id ->
    after.accountPolicy.find id = store.accountPolicy.find id
  operations : forall key, ¬ Belongs store actor key.accountId ->
    after.operations.find key = store.operations.find key
  trashTokens : forall key, ¬ Belongs store actor key.1 ->
    after.trashExpiry.find key = store.trashExpiry.find key
  stagingTokens : forall key, ¬ Belongs store actor key.1 ->
    after.stagingExpiry.find key = store.stagingExpiry.find key
  rootLayer : forall id, (after.rulesOf id).rootRules = (store.rulesOf id).rootRules
  adminLayer : forall id, (after.rulesOf id).adminRules ≠ (store.rulesOf id).adminRules ->
    ChildOf store actor id
  personalLayer : forall id, (after.rulesOf id).personalRules ≠ (store.rulesOf id).personalRules ->
    id = actor

namespace Isolated

variable {store after : Store} {actor : Uuid} {generation : Nat}

theorem refl (store : Store) (actor : Uuid) : Isolated store actor store where
  accounts := fun _ _ found _ => found
  created := fun _ absent present => absurd absent present
  budgets := fun _ _ => rfl
  policies := fun _ _ => rfl
  operations := fun _ _ => rfl
  trashTokens := fun _ _ => rfl
  stagingTokens := fun _ _ => rfl
  rootLayer := fun _ => rfl
  adminLayer := fun _ changed => absurd rfl changed
  personalLayer := fun _ changed => absurd rfl changed

/-- Rewriting one row that belongs to the account. -/
theorem update (id : Uuid) (change : AccountRow -> AccountRow) (own : Belongs store actor id) :
    Isolated store actor { store with accounts := store.accounts.modify id change } :=
  { refl store actor with
    accounts := by
      intro other row found foreign
      have different : other ≠ id := fun same => foreign (same ▸ own)
      exact (Table.find_modify_of_ne change different).trans found
    created := by
      intro other absent present
      by_cases same : other = id
      · subst same
        refine absurd ?_ present
        change (store.accounts.modify other change).find other = none
        rw [Table.find_modify_self, absent]
        rfl
      · refine absurd ?_ present
        exact (Table.find_modify_of_ne change same).trans absent }

/-- Tables outside the frame do not matter. -/
theorem congr (isolated : Isolated store actor after) {final : Store}
    (accounts : final.accounts = after.accounts) (budgets : final.adminBudgets = after.adminBudgets)
    (policies : final.accountPolicy = after.accountPolicy)
    (operations : final.operations = after.operations)
    (trash : final.trashExpiry = after.trashExpiry)
    (staging : final.stagingExpiry = after.stagingExpiry) : Isolated store actor final where
  accounts := by
    rw [accounts]
    exact isolated.accounts
  created := by
    unfold ChildOf
    rw [accounts]
    exact isolated.created
  budgets := by
    rw [budgets]
    exact isolated.budgets
  policies := by
    rw [policies]
    exact isolated.policies
  operations := by
    rw [operations]
    exact isolated.operations
  trashTokens := by
    rw [trash]
    exact isolated.trashTokens
  stagingTokens := by
    rw [staging]
    exact isolated.stagingTokens
  rootLayer := by
    unfold Store.rulesOf
    rw [policies]
    exact isolated.rootLayer
  adminLayer := by
    unfold Store.rulesOf
    rw [policies]
    exact isolated.adminLayer
  personalLayer := by
    unfold Store.rulesOf
    rw [policies]
    exact isolated.personalLayer

end Isolated

/-! ## Every operation -/

section Operations

variable {store after : Store} {env : Environment} {format : JournalFormat} {actor : Uuid}
  {generation : Nat}

theorem Store.Caller.eq {id : Uuid} {row : AccountRow}
    (caller : Store.Caller store (.account actor generation) id row) : id = actor :=
  (Authority.account.inj caller.actor).1.symm

theorem childOf_caller {id admin : Uuid} {row adminRow : AccountRow}
    (caller : Store.Caller store (.account actor generation) admin adminRow)
    (found : store.accounts.find id = some row) (owned : row.ownerAdminId = some admin)
    (kind : row.kind = .virtual) : ChildOf store actor id := by
  rw [caller.eq] at owned
  exact ⟨row, found, kind, owned⟩

theorem isolated_createRecord {id : Uuid} {now : Nat} {new : NewAccount} {hash : Option Text}
    {requestState : Option (IntentKey × Intent)} {result : Account}
    (done : store.createRecord id now (.account actor generation) new hash requestState =
      .ok (result, after)) : Isolated store actor after := by
  rcases Store.createRecord_ok done with ⟨budget, required, created, rfl⟩
  cases created.allowed with
  | root same => cases same
  | owner admin adminRow caller role owned kind user =>
      -- an administrator creates users only, and a user has no budget
      have unbudgeted : budget = none := by
        cases drawn : budget with
        | none => rfl
        | some limit =>
            have funded := created.drawn
            rw [drawn] at funded
            rcases Store.rootBudget_ok funded with ⟨_, _, _, administrator, _⟩
            rw [user] at administrator
            cases administrator
      subst unbudgeted
      rw [caller.eq] at owned
      exact
        { Isolated.refl store actor with
          accounts := by
            intro other row found _
            have different : other ≠ id := by
              intro same
              rw [same, created.absent] at found
              cases found
            exact (Table.find_insert_of_ne _ different).trans found
          created := by
            intro other absent present
            by_cases same : other = id
            · subst same
              exact ⟨_, Table.find_insert_self _ _ _, kind, owned⟩
            · exact absurd ((Table.find_insert_of_ne _ same).trans absent) present }

theorem isolated_setChildQuotaWith {now : Nat} {id : Uuid} {expected bytes : Nat}
    {before : Nat -> Except StoreError Unit} {result : Account}
    (done : store.setChildQuotaWith now (.account actor generation) id expected bytes before =
      .ok (result, after)) : Isolated store actor after := by
  rcases Store.setChildQuotaWith_ok done with ⟨remaining, checked, _, rfl⟩
  rcases Store.checkChildQuota_ok checked with ⟨row, owner, found, kind, _, _, _, owned, allowed⟩
  rcases allowed with root | ⟨adminRow, caller⟩
  · cases root
  · have child := childOf_caller caller found owned kind
    exact (Isolated.update id _ (Or.inr child)).congr rfl rfl rfl rfl rfl rfl

theorem belongs_of_mayManage {id : Uuid} {row : AccountRow}
    (found : store.accounts.find id = some row)
    (allowed : Store.MayManage store (.account actor generation) id row) :
    Belongs store actor id := by
  cases allowed with
  | root same => cases same
  | self caller => exact Or.inl caller.eq
  | owner admin adminRow caller role owned kind =>
      exact Or.inr (childOf_caller caller found owned kind)

theorem isolated_setPassword {now : Nat} {id : Uuid} {password hash : Text} {result : Account}
    (done : store.setPassword env.scheme now (.account actor generation) id password hash =
      .ok (result, after)) : Isolated store actor after := by
  rcases Store.setPassword_ok done with ⟨row, found, allowed, _, rfl⟩
  exact (Isolated.update id _ (belongs_of_mayManage found allowed)).congr rfl rfl rfl rfl rfl rfl

theorem isolated_transition {now : Nat} {id : Uuid} {status : AccountStatus}
    {allowAdminDelete : Bool} {expected : Option Nat} {result : Account}
    (done : store.transition now (.account actor generation) id status allowAdminDelete expected =
      .ok (result, after)) : Isolated store actor after := by
  rcases Store.transition_ok done with ⟨row, deny, found, allowed, _, _, _, rfl⟩
  have own : Belongs store actor id := by
    cases allowed with
    | root same => cases same
    | self caller kind revoke => exact Or.inl caller.eq
    | owner admin adminRow caller role owned kind =>
        exact Or.inr (childOf_caller caller found owned kind)
  exact (Isolated.update id _ own).congr rfl rfl rfl rfl rfl rfl

theorem isolated_setUndoPreferences {now : Nat} {config : JournalConfig} {hours : Option Nat}
    {expectedRevision : Nat} {result : Store.UndoPreferences}
    (done : store.setUndoPreferences now (.account actor generation) config hours
      expectedRevision = .ok (result, after)) : Isolated store actor after := by
  rcases Store.setUndoPreferences_ok done with ⟨caller, row, valid, rfl⟩
  exact (Isolated.update caller _ (Or.inl valid.eq)).congr rfl rfl rfl rfl rfl rfl

theorem rulesOf_insert (store : Store) (id other : Uuid) (rules : UserRules) :
    (({ store with accountPolicy := store.accountPolicy.insert id rules } : Store).rulesOf other) =
      if other = id then rules else store.rulesOf other := by
  unfold Store.rulesOf
  by_cases same : other = id
  · subst same
    rw [if_pos rfl, Table.find_insert_self]
    rfl
  · rw [if_neg same, Table.find_insert_of_ne _ same]

/-- The rows a caller may give rules belong to it. -/
theorem belongs_of_mayReplace {id : Uuid} {row : AccountRow} {layer : PolicyLayer}
    (found : store.accounts.find id = some row)
    (allowed : Store.MayReplace store (.account actor generation) id row layer) :
    Belongs store actor id := by
  cases allowed with
  | root same => cases same
  | self caller personal => exact Or.inl caller.eq
  | owner admin adminRow caller owned kind administrative =>
      exact Or.inr (childOf_caller caller found owned kind)

/-- What replacing a layer does to the other layers. -/
theorem layers_of_mayReplace {id : Uuid} {row : AccountRow} {layer : PolicyLayer}
    (rules : UserRules) (replacement : List Rule) (found : store.accounts.find id = some row)
    (allowed : Store.MayReplace store (.account actor generation) id row layer) :
    (Store.replaceLayer rules replacement layer).rootRules = rules.rootRules ∧
      ((Store.replaceLayer rules replacement layer).adminRules ≠ rules.adminRules ->
        ChildOf store actor id) ∧
      ((Store.replaceLayer rules replacement layer).personalRules ≠ rules.personalRules ->
        id = actor) := by
  cases allowed with
  | root same => cases same
  | self caller personal =>
      subst personal
      exact ⟨rfl, fun changed => absurd rfl changed, fun _ => caller.eq⟩
  | owner admin adminRow caller owned kind administrative =>
      subst administrative
      exact ⟨rfl, fun _ => childOf_caller caller found owned kind, fun changed => absurd rfl changed⟩

/-- Replacing a layer that the caller may replace. -/
theorem Isolated.replaceLayer {id : Uuid} {row : AccountRow} {layer : PolicyLayer}
    (replacement : List Rule) (found : store.accounts.find id = some row)
    (allowed : Store.MayReplace store (.account actor generation) id row layer) :
    Isolated store actor { store with
      accountPolicy := store.accountPolicy.insert id
        (Store.replaceLayer (store.rulesOf id) replacement layer) } := by
  have own := belongs_of_mayReplace found allowed
  rcases layers_of_mayReplace (store.rulesOf id) replacement found allowed with
    ⟨root, admin, personal⟩
  exact
    { Isolated.refl store actor with
      policies := by
        intro other foreign
        have different : other ≠ id := fun same => foreign (same ▸ own)
        exact Table.find_insert_of_ne _ different
      rootLayer := by
        intro other
        rw [rulesOf_insert]
        split
        · next same =>
            subst same
            exact root
        · rfl
      adminLayer := by
        intro other changed
        rw [rulesOf_insert] at changed
        split at changed
        · next same =>
            subst same
            exact admin changed
        · exact absurd rfl changed
      personalLayer := by
        intro other changed
        rw [rulesOf_insert] at changed
        split at changed
        · next same =>
            subst same
            exact personal changed
        · exact absurd rfl changed }

theorem isolated_setPolicy {now : Nat} {id : Uuid} {expected : Nat} {layer : PolicyLayer}
    {replacement : List Rule} {result : Account}
    (done : store.setPolicy env.encoding now (.account actor generation) id expected layer
      replacement = .ok (result, after)) : Isolated store actor after := by
  rcases Store.setPolicy_ok done with ⟨row, rules, found, allowed, _, rfl, rfl⟩
  have rewritten := Isolated.update id (RowUpdate.apply (.touch now))
    (belongs_of_mayReplace found allowed)
  have replaced := Isolated.replaceLayer replacement found allowed
  exact { replaced with accounts := rewritten.accounts, created := rewritten.created }

/-! ### The journal -/

theorem Isolated.journal {operations : Operations}
    {trash staging : Table (Uuid × Uuid) OperationRecord} {epoch : Option Uuid}
    (records : forall key, key.accountId ≠ actor -> operations.find key = store.operations.find key)
    (trashTokens : forall key, key.1 ≠ actor -> trash.find key = store.trashExpiry.find key)
    (stagingTokens : forall key, key.1 ≠ actor -> staging.find key = store.stagingExpiry.find key) :
    Isolated store actor { store with
      operations := operations
      trashExpiry := trash
      stagingExpiry := staging
      undoEpoch := epoch } :=
  { Isolated.refl store actor with
    operations := fun key foreign => records key (fun same => foreign (Or.inl same))
    trashTokens := fun key foreign => trashTokens key (fun same => foreign (Or.inl same))
    stagingTokens := fun key foreign => stagingTokens key (fun same => foreign (Or.inl same)) }

/-- A row written under a record of the account is a row of the account. -/
theorem find_replace_foreign {record : OperationRecord} (own : record.accountId = actor)
    {key : OperationKey} (foreign : key.accountId ≠ actor) (operations : Operations) :
    (operations.replace record).find key = operations.find key := by
  apply Register.find_replace_of_ne
  intro same
  exact foreign (same ▸ own)

theorem isolated_beginOperation {config : JournalConfig} {draws : Store.Draws}
    {ledger : Store.Ledger} {account : Account} {request : HelperRequest} {at_ : Nat}
    {record : OperationRecord}
    (done : store.beginOperation format config draws ledger account request at_ =
      (.ok record, after)) : Isolated store account.id after := by
  rcases (Store.beginOperation_ok done).2 with
    ⟨_, offset, previous, found, accepted, rfl⟩ | ⟨row, kept, trash, staging, made, inserted⟩
  · rcases Store.continuedRecord_ok accepted with ⟨_, _, _, _, _, _, same⟩
    have own : record.accountId = account.id := by
      rw [same]
      exact (Store.previousRecord_spec found).2.1
    exact Isolated.journal (fun key foreign => find_replace_foreign own foreign _)
      (fun _ _ => rfl) (fun _ _ => rfl)
  · have own : record.accountId = account.id := by
      rw [made]
      rfl
    rw [inserted.stored]
    refine Isolated.journal ?_ ?_ ?_
    · intro key foreign
      have different : key ≠ record.key := fun same => foreign (same ▸ own)
      rw [Register.find_insert_of_ne different]
      rcases inserted.rotates key with same | ⟨mine, _⟩
      · exact same
      · exact absurd mine foreign
    · intro key foreign
      exact inserted.trashTokens.other (fun same => foreign (same ▸ own))
    · intro key foreign
      exact inserted.stagingTokens.other (fun same => foreign (same ▸ own))

theorem isolated_claimUndo {config : JournalConfig} {drawn operationId : Uuid}
    {expectedState : Text} {at_ : Nat} {record : OperationRecord}
    (done : store.claimUndo format config drawn (.account actor generation) operationId
      expectedState at_ = .ok (record, after)) : Isolated store actor after := by
  rcases Store.claimUndo_ok done with ⟨caller, row, claimed, claims, rfl, rfl⟩
  have own : (Store.claimedRecord claimed).accountId = actor := claims.own.trans claims.calling.eq
  exact Isolated.journal (fun key foreign => find_replace_foreign own foreign _)
    (fun _ _ => rfl) (fun _ _ => rfl)

end Operations

/-- Whatever an account does, nothing changes that is neither its own nor a
virtual child's, and of the stored rules it reaches its own personal layer and
the administrative layer of its children only. -/
theorem tenants_isolated (env : Environment) (format : JournalFormat) {store after : Store}
    {op : TenantOp} {actor : Uuid} {generation : Nat}
    (under : op.authority = .account actor generation)
    (done : op.Succeeds env format store after) : Isolated store actor after := by
  cases op with
  | createRecord id now authority new hash requestState =>
      rcases done with ⟨result, done⟩
      change authority = _ at under
      subst under
      exact isolated_createRecord done
  | setChildQuotaWith now authority id expected bytes before =>
      rcases done with ⟨result, done⟩
      change authority = _ at under
      subst under
      exact isolated_setChildQuotaWith done
  | setPassword now authority id password hash =>
      rcases done with ⟨result, done⟩
      change authority = _ at under
      subst under
      exact isolated_setPassword done
  | transition now authority id status allowAdminDelete expected =>
      rcases done with ⟨result, done⟩
      change authority = _ at under
      subst under
      exact isolated_transition done
  | setPolicy now authority id expected layer replacement =>
      rcases done with ⟨result, done⟩
      change authority = _ at under
      subst under
      exact isolated_setPolicy done
  | setUndoPreferences now authority config hours expectedRevision =>
      rcases done with ⟨result, done⟩
      change authority = _ at under
      subst under
      exact isolated_setUndoPreferences done
  | beginOperation config draws ledger account request at_ =>
      rcases done with ⟨record, done⟩
      have same : account.id = actor := (Authority.account.inj under).1
      subst same
      exact isolated_beginOperation done
  | claimUndo config drawn authority operationId expectedState at_ =>
      rcases done with ⟨record, done⟩
      change authority = _ at under
      subst under
      exact isolated_claimUndo done

namespace OneTenant

def environment : Environment := ⟨⟨fun _ _ => .ok true⟩, fun _ => [], ⟨fun _ => 0⟩⟩

def format : JournalFormat := ⟨fun _ => 0, fun _ => [], fun _ => none⟩

def row (name : Text) (uid : Nat) (kind : AccountKind) (role : Role) (owner : Option Uuid)
    (quota : Option Nat) : AccountRow :=
  ⟨⟨name, uid, uid, "/home".toList, kind, role, owner, .active, true, 1, quota, none, 0, 0, none,
    false⟩, none⟩

/-- An administrator, a virtual child of it, and a stranger. -/
def store : Store :=
  { Store.initial [] with
    accounts := ⟨[(1, row "ann".toList 1000 .linux .admin none none),
      (2, row "ben".toList 2000 .virtual .user (some 1) (some 10)),
      (3, row "eve".toList 3000 .linux .user none none)], by decide⟩ }

/-- The administrator suspends its child. -/
def suspend : TenantOp := .transition 5 (.account 1 1) 2 .suspended false none

def suspended : Store :=
  (store.updateRow (.setStatus .suspended false none true 5) 2).dropEnrollment "ben".toList

end OneTenant

open OneTenant in
theorem tenants_isolated_suspend :
    suspend.Succeeds environment format store suspended ∧ Isolated store 1 suspended := by
  have done : suspend.Succeeds environment format store suspended :=
    ⟨suspended.view 2 ((suspended.accounts.find 2).getD (row [] 0 .linux .user none none)), rfl⟩
  exact ⟨done, tenants_isolated environment format rfl done⟩

end TealDrive
