import TealDrive.Library.Runs
import TealDrive.Accounts.Effects

namespace TealDrive

open Outcome

/-!
# Runs of the account store

Every mutating operation of the store, as data, and the store after any
sequence of them.  An operation that fails leaves the store as it was.  The
callbacks that some operations run before they commit are arguments, and so
are the identifiers the source draws at random and the time it reads.

`complete_enrollment` looks at its proof before it starts its transaction.  Only
the transaction is an operation here: the look changes nothing, and whatever
happens between the two is part of the run.

Operations that only write books of their own, such as the rate limiter's, are
one operation here, and it may leave anything in them.
-/

/-- What the store takes from outside. -/
structure Environment where
  scheme : Store.PasswordScheme
  digest : Uuid -> Text
  encoding : Store.RuleEncoding

/-- The tables that the rate limiter, the journal and the choice of uids keep
for themselves. -/
structure Books where
  loginLimits : Table (LimitScope × Text) LimitRow
  virtualQuotaSync : Table Uuid Unit
  virtualUidCursor : Option Nat
  operations : Register OperationKey OperationRecord OperationRecord.key
  trashExpiry : Table (Uuid × Uuid) OperationRecord
  stagingExpiry : Table (Uuid × Uuid) OperationRecord
  undoEpoch : Option Uuid

/-- A store with other books. -/
def Store.withBooks (store : Store) (books : Books) : Store :=
  { store with
    loginLimits := books.loginLimits
    virtualQuotaSync := books.virtualQuotaSync
    virtualUidCursor := books.virtualUidCursor
    operations := books.operations
    trashExpiry := books.trashExpiry
    stagingExpiry := books.stagingExpiry
    undoEpoch := books.undoEpoch }

inductive StoreOp where
  | setPanelScope (now : Nat) (actor : Authority) (id : Uuid) (global : Bool)
  | setRole (now : Nat) (actor : Authority) (id : Uuid) (role : Role)
  | createRecord (id : Uuid) (now : Nat) (actor : Authority) (new : NewAccount)
      (hash : Option Text) (requestState : Option (IntentKey × Intent))
  | setPool (actor : Authority) (bytes : Nat)
  | setAdminBudgetWith (actor : Authority) (id : Uuid) (bytes : Nat)
      (beforeCommit : Nat -> Except StoreError Unit)
  | setAdminOwnWith (now : Nat) (actor : Authority) (id : Uuid) (bytes : Nat)
      (before : Nat -> Except StoreError Unit)
  | invalidateRestoredSessions (now : Nat) (epoch : Uuid) (actor : Authority)
  | copyAdminCredentials (now : Nat) (actor : Authority) (source : Uuid) (sourceGeneration : Nat)
      (target : Uuid) (targetGeneration : Nat)
  | requirePasswordChange (now : Nat) (actor : Authority) (id : Uuid)
  | setPassword (now : Nat) (actor : Authority) (id : Uuid) (password hash : Text)
  | transition (now : Nat) (actor : Authority) (id : Uuid) (status : AccountStatus)
      (allowAdminDelete : Bool) (generation : Option Nat)
  | setChildQuotaWith (now : Nat) (actor : Authority) (id : Uuid) (generation bytes : Nat)
      (before : Nat -> Except StoreError Unit)
  | recordChildIntent (actor : Uuid) (generation : Nat) (request : Uuid) (name : Text)
      (quota uid : Nat)
  | recordAdminIntent (request : Uuid) (name : Text) (budget uid : Nat)
  | cancelIntent (now : Nat) (key : IntentKey) (uid : Nat)
  | recordPurgeIntent (now : Nat) (id : Uuid)
  | purge (now : Nat) (id : Uuid) (uid : Nat)
  | issueGrant (nonce id : Uuid) (generation : Nat) (caller : CallerBinding) (at_ lifetime : Nat)
  | revokeGrant (grant : SessionGrant) (caller : CallerBinding) (at_ : Nat)
  | beginEnrollment (token : Uuid) (identity : EnrollmentIdentity) (caller : CallerBinding)
      (at_ lifetime : Nat)
  | commitEnrollment (token id : Uuid) (caller : CallerBinding) (current : EnrollmentIdentity)
      (hash : Text) (at_ : Nat)
  | setPolicy (now : Nat) (actor : Authority) (id : Uuid) (expectedGeneration : Nat)
      (layer : PolicyLayer) (replacement : List Rule)
  | setUndoPreferences (now : Nat) (authority : Authority) (config : JournalConfig)
      (hours : Option Nat) (expectedRevision : Nat)
  | keepBooks (books : Books)

namespace StoreOp

/-- Keep the store of an operation's result. -/
def committed {Result : Type} (outcome : Except StoreError (Result × Store)) :
    Except StoreError Store :=
  match outcome with
  | .ok (_, store) => .ok store
  | .error problem => .error problem

theorem committed_eq_ok {Result : Type} {outcome : Except StoreError (Result × Store)}
    {store : Store} (done : committed outcome = .ok store) :
    ∃ result, outcome = .ok (result, store) := by
  cases outcome with
  | error problem => cases done
  | ok pair =>
      cases done
      exact ⟨pair.1, rfl⟩

theorem committed_of_ok {Result : Type} {outcome : Except StoreError (Result × Store)}
    {result : Result} {store : Store} (done : outcome = .ok (result, store)) :
    committed outcome = .ok store := by
  rw [done]
  rfl

def apply (env : Environment) : StoreOp -> Store -> Except StoreError Store
  | .setPanelScope now actor id global, store =>
      committed (store.setPanelScope now actor id global)
  | .setRole now actor id role, store => committed (store.setRole now actor id role)
  | .createRecord id now actor new hash requestState, store =>
      committed (store.createRecord id now actor new hash requestState)
  | .setPool actor bytes, store => committed (store.setPool actor bytes)
  | .setAdminBudgetWith actor id bytes beforeCommit, store =>
      committed (store.setAdminBudgetWith actor id bytes beforeCommit)
  | .setAdminOwnWith now actor id bytes before, store =>
      committed (store.setAdminOwnWith now actor id bytes before)
  | .invalidateRestoredSessions now epoch actor, store =>
      committed (store.invalidateRestoredSessions now epoch actor)
  | .copyAdminCredentials now actor source sourceGeneration target targetGeneration, store =>
      committed (store.copyAdminCredentials now actor source sourceGeneration target
        targetGeneration)
  | .requirePasswordChange now actor id, store =>
      committed (store.requirePasswordChange now actor id)
  | .setPassword now actor id password hash, store =>
      committed (store.setPassword env.scheme now actor id password hash)
  | .transition now actor id status allowAdminDelete generation, store =>
      committed (store.transition now actor id status allowAdminDelete generation)
  | .setChildQuotaWith now actor id generation bytes before, store =>
      committed (store.setChildQuotaWith now actor id generation bytes before)
  | .recordChildIntent actor generation request name quota uid, store =>
      committed (store.recordChildIntent actor generation request name quota uid)
  | .recordAdminIntent request name budget uid, store =>
      committed (store.recordAdminIntent request name budget uid)
  | .cancelIntent now key uid, store => .ok (store.cancelIntent now key uid)
  | .recordPurgeIntent now id, store => committed (store.recordPurgeIntent now id)
  | .purge now id uid, store => committed (store.purge now id uid)
  | .issueGrant nonce id generation caller at_ lifetime, store =>
      committed (store.issueGrant nonce id generation caller at_ lifetime)
  | .revokeGrant grant caller at_, store => committed (store.revokeGrant grant caller at_)
  | .beginEnrollment token identity caller at_ lifetime, store =>
      committed (store.beginEnrollment env.digest token identity caller at_ lifetime)
  | .commitEnrollment token id caller current hash at_, store =>
      committed (store.commitEnrollment env.digest token id caller current hash at_)
  | .setPolicy now actor id expectedGeneration layer replacement, store =>
      committed (store.setPolicy env.encoding now actor id expectedGeneration layer replacement)
  | .setUndoPreferences now authority config hours expectedRevision, store =>
      committed (store.setUndoPreferences now authority config hours expectedRevision)
  | .keepBooks books, store => .ok (store.withBooks books)

/-- The store after an operation; a failure changes nothing. -/
def step (env : Environment) (store : Store) (op : StoreOp) : Store :=
  match op.apply env store with
  | .ok final => final
  | .error _ => store

theorem step_of_ok {env : Environment} {store final : Store} {op : StoreOp}
    (done : op.apply env store = .ok final) : step env store op = final := by
  unfold step
  rw [done]

/-- Either nothing changed, or the operation committed. -/
theorem step_cases (env : Environment) (store : Store) (op : StoreOp) :
    step env store op = store ∨ op.apply env store = .ok (step env store op) := by
  cases outcome : op.apply env store with
  | ok final => exact Or.inr (congrArg Except.ok (step_of_ok outcome).symm)
  | error problem =>
      refine Or.inl ?_
      unfold step
      rw [outcome]

/-- The operation commits somewhere in a run, in the given state. -/
def Commits (env : Environment) (store : Store) (ops : List StoreOp) (op : StoreOp)
    (state : Store) : Prop :=
  ∃ before after final, ops = before ++ op :: after ∧
    state = Runs.run (step env) store before ∧ op.apply env state = .ok final

theorem Commits.later {env : Environment} {store state : Store} {first op : StoreOp}
    {rest : List StoreOp} (commits : Commits env (step env store first) rest op state) :
    Commits env store (first :: rest) op state := by
  rcases commits with ⟨before, after, final, split, reached, done⟩
  exact ⟨first :: before, after, final, congrArg (List.cons first) split, reached, done⟩

theorem Commits.now {env : Environment} {store final : Store} {op : StoreOp}
    (done : op.apply env store = .ok final) (rest : List StoreOp) :
    Commits env store (op :: rest) op store :=
  ⟨[], rest, final, rfl, rfl, done⟩

end StoreOp

namespace Store

theorem completeEnrollment_ok {digest : Uuid -> Text} {token id : Uuid} {caller : CallerBinding}
    {current : EnrollmentIdentity} {hash : Text} {at_ : Nat} {store final : Store}
    {result : Account}
    (done : completeEnrollment digest token id caller current hash at_ store = .ok (result, final)) :
    store.checkEnrollment digest token caller current at_ = .ok () ∧
      store.commitEnrollment digest token id caller current hash at_ = .ok (result, final) := by
  simp only [completeEnrollment, bind_eq_ok] at done
  rcases done with ⟨_, checked, committed⟩
  exact ⟨checked, committed⟩

end Store

end TealDrive
