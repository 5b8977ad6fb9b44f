import TealDrive.Accounts.Changes

namespace TealDrive

open Store

/-!
# The life of an account

The status of an account and its permission to log in are written by separate
statements in several modules; they agree in every state.  Deletion is final:
no statement that runs on a deleted row touches its status, its password or its
role, except the one that purges it.
-/

/-! ## Login follows status -/

/-- The two columns say the same. -/
def AccountRow.LoginAgrees (row : AccountRow) : Prop :=
  row.loginEnabled = true ↔ row.status = .active

theorem Permitted.loginAgrees {row : AccountRow} {update : RowUpdate}
    (permitted : Permitted row update) (agrees : row.LoginAgrees) :
    (update.apply row).LoginAgrees := by
  cases permitted with
  | setStatus status deletedAt deny time alive => exact beq_iff_eq
  | enroll => exact ⟨fun _ => rfl, fun _ => rfl⟩
  | touch | setRole | setPassword | setQuota | purge | setUndoHours => exact agrees

theorem loginAgrees_run (env : Environment) (dummyPasswordHash : Text) (ops : List StoreOp) :
    forall id row, (Runs.run (StoreOp.step env) (Store.initial dummyPasswordHash)
      ops).accounts.find id = some row -> row.LoginAgrees := by
  refine StoreOp.run_accounts (fun rows => forall id row, rows.find id = some row -> row.LoginAgrees) ?_ ?_ env dummyPasswordHash ops
  · intro rows after change before
    refine change.forall_rows ?_ (fun _ _ permitted => permitted.loginAgrees)
      (fun _ _ agrees => agrees) before
    intro id row new
    exact ⟨fun _ => new.active, fun _ => new.login⟩
  · intro id row found
    cases found

/-! ## Deletion is final -/

/-- What stays of a deleted row until it is purged. -/
structure AccountRow.Rests (row new : AccountRow) : Prop where
  status : new.status = row.status
  role : new.role = row.role
  password : new.webPasswordHash = row.webPasswordHash
  quota : new.quotaBytes = row.quotaBytes

theorem AccountRow.Rests.refl (row : AccountRow) : row.Rests row :=
  ⟨rfl, rfl, rfl, rfl⟩

theorem StoreOp.executes_purge {store : Store} {op : StoreOp} {id : Uuid}
    (executed : op.executes store id .purge) : ∃ now uid, op = .purge now id uid := by
  cases op with
  | purge now target uid =>
      rw [executed.1]
      exact ⟨now, uid, rfl⟩
  | copyAdminCredentials =>
      rcases executed.2 with ⟨_, _, impossible⟩
      cases impossible
  | transition =>
      rcases executed.2 with ⟨_, _, impossible, _⟩
      cases impossible
  | commitEnrollment => cases executed
  | setPanelScope | setRole | setAdminOwnWith | requirePasswordChange | setPassword
  | setChildQuotaWith | setPolicy | setUndoPreferences => cases executed.2
  | _ => cases executed

/-- One operation leaves a deleted row as it is, or purges it. -/
theorem RowsChange.deleted {op : StoreOp} {store : Store} {after : Table Uuid AccountRow}
    (change : RowsChange op store after) {id : Uuid} {row : AccountRow}
    (found : store.accounts.find id = some row) (deleted : row.status = .deleted) :
    ∃ new, after.find id = some new ∧
      (row.Rests new ∨ (∃ now uid, op = .purge now id uid) ∧ new = RowUpdate.purge.apply row) := by
  cases change with
  | same => exact ⟨row, found, Or.inl (.refl row)⟩
  | inserted key added new kind =>
      have different : id ≠ key := by
        intro same
        rw [same, new.absent] at found
        cases found
      exact ⟨row, (Table.find_insert_of_ne _ different).trans found, Or.inl (.refl row)⟩
  | touched time =>
      refine ⟨(RowUpdate.touch time).apply row, ?_, Or.inl ⟨rfl, rfl, rfl, rfl⟩⟩
      rw [Table.find_map, found]
      rfl
  | updated key old update present permitted executed =>
      by_cases here : id = key
      · subst here
        cases present.symm.trans found
        refine ⟨update.apply row, ?_, ?_⟩
        · rw [Table.find_modify_self, found]
          rfl
        -- Every other statement is run on rows that are not deleted.
        cases permitted with
        | purge storable => exact Or.inr ⟨StoreOp.executes_purge executed, rfl⟩
        | touch time alive => exact absurd deleted alive
        | setRole role time kind active => cases active.symm.trans deleted
        | setPassword hash time alive => exact absurd deleted alive
        | setStatus status deletedAt deny time alive => exact absurd deleted alive
        | setQuota bytes time kind role owner alive => exact absurd deleted alive
        | enroll hash time kind allowed alive unsuspended open_ => exact absurd deleted alive
        | setUndoHours hours time active => cases active.symm.trans deleted
      · exact ⟨row, (Table.find_modify_of_ne _ here).trans found, Or.inl (.refl row)⟩

/-- A purge that commits empties the row. -/
theorem StoreOp.row_of_purge {env : Environment} {store final : Store} {now uid : Nat} {id : Uuid}
    {row : AccountRow} (found : store.accounts.find id = some row)
    (done : (StoreOp.purge now id uid).apply env store = .ok final) :
    final.accounts.find id = some (RowUpdate.purge.apply row) := by
  rcases committed_eq_ok done with ⟨_, committed⟩
  rcases purge_ok committed with ⟨_, _, _, _, rfl⟩
  change (store.accounts.modify id RowUpdate.purge.apply).find id = _
  rw [Table.find_modify_self, found]
  rfl

/-- What a run can do to a deleted account. -/
structure Gone (env : Environment) (store : Store) (ops : List StoreOp) (id : Uuid)
    (row new : AccountRow) : Prop where
  status : new.status = .deleted
  role : new.role = row.role
  emptied : (new.webPasswordHash = row.webPasswordHash ∧ new.quotaBytes = row.quotaBytes) ∨
    (new.webPasswordHash = none ∧ new.quotaBytes = some 0 ∧
      ∃ now uid state, StoreOp.Commits env store ops (.purge now id uid) state)
  purged : forall now uid state, StoreOp.Commits env store ops (.purge now id uid) state ->
    new.webPasswordHash = none ∧ new.quotaBytes = some 0

theorem gone_of_run (env : Environment) {store : Store} {id : Uuid} {row : AccountRow}
    (found : store.accounts.find id = some row) (deleted : row.status = .deleted)
    (ops : List StoreOp) :
    ∃ new, (Runs.run (StoreOp.step env) store ops).accounts.find id = some new ∧
      Gone env store ops id row new := by
  induction ops generalizing store row with
  | nil =>
      refine ⟨row, found, deleted, rfl, Or.inl ⟨rfl, rfl⟩, ?_⟩
      rintro now uid state ⟨before, after, final, split, _⟩
      exact absurd split.symm (List.append_ne_nil_of_right_ne_nil _ (List.cons_ne_nil _ _))
  | cons op rest ih =>
      have stepped : ∃ middle, (StoreOp.step env store op).accounts.find id = some middle ∧
          (row.Rests middle ∨ (∃ now uid, op = .purge now id uid ∧
            op.apply env store = .ok (StoreOp.step env store op)) ∧
              middle = RowUpdate.purge.apply row) := by
        rcases StoreOp.step_cases env store op with same | done
        · rw [same]
          exact ⟨row, found, Or.inl (.refl row)⟩
        · rcases (StoreOp.apply_rows done).deleted found deleted with
            ⟨middle, middleFound, rests | ⟨⟨now, uid, purge⟩, purged⟩⟩
          · exact ⟨middle, middleFound, Or.inl rests⟩
          · exact ⟨middle, middleFound, Or.inr ⟨⟨now, uid, purge, done⟩, purged⟩⟩
      rcases stepped with ⟨middle, middleFound, stepped⟩
      have still : middle.status = .deleted := by
        rcases stepped with rests | ⟨_, purged⟩
        · exact rests.status.trans deleted
        · rw [purged]
          exact deleted
      rcases ih middleFound still with ⟨new, newFound, gone⟩
      have purged : forall now uid state,
          StoreOp.Commits env store (op :: rest) (.purge now id uid) state ->
            new.webPasswordHash = none ∧ new.quotaBytes = some 0 := by
        rintro now uid state ⟨before, after, final, split, reached, done⟩
        cases before with
        | nil =>
            -- The purge is the operation itself, and nothing fills the row again.
            cases split
            subst reached
            have emptied := StoreOp.row_of_purge found done
            rw [← StoreOp.step_of_ok done] at emptied
            cases middleFound.symm.trans emptied
            rcases gone.emptied with same | ⟨password, quota, _⟩
            · exact same
            · exact ⟨password, quota⟩
        | cons first before =>
            cases split
            exact gone.purged now uid state ⟨before, after, final, rfl, reached, done⟩
      rcases stepped with rests | ⟨⟨now, uid, purge, done⟩, emptied⟩
      · refine ⟨new, newFound, gone.status, gone.role.trans rests.role, ?_, purged⟩
        rcases gone.emptied with ⟨password, quota⟩ | ⟨password, quota, now, uid, state, purge⟩
        · exact Or.inl ⟨password.trans rests.password, quota.trans rests.quota⟩
        · exact Or.inr ⟨password, quota, now, uid, state, purge.later⟩
      · subst emptied
        refine ⟨new, newFound, gone.status, gone.role, Or.inr ?_, purged⟩
        subst purge
        have commits := StoreOp.Commits.now done rest
        rcases gone.emptied with ⟨password, quota⟩ | ⟨password, quota, _⟩
        · exact ⟨password, quota, now, uid, store, commits⟩
        · exact ⟨password, quota, now, uid, store, commits⟩

/-! ## What fails for a deleted account -/

section Refused

variable {store : Store} {id : Uuid} {row : AccountRow}

theorem verifyPassword_ok {scheme : PasswordScheme} {username password : Text} {account : Account}
    (verified : store.verifyPassword scheme username password = .ok account) :
    ∃ key present, store.accounts.find key = some present ∧ present.username = username ∧
      present.status = .active := by
  simp only [verifyPassword, Outcome.bind_eq_ok] at verified
  rcases verified with ⟨valid, _, accepted⟩
  cases found : store.findUsername username with
  | none =>
      rw [found] at accepted
      cases accepted
  | some target =>
      rw [found] at accepted
      rcases findUsername_eq_some found with ⟨key, present, presentFound, named, viewed⟩
      subst viewed
      refine ⟨key, present, presentFound, named, ?_⟩
      change (if _ then _ else _) = _ at accepted
      split at accepted
      · rename_i allowed
        rw [Bool.and_eq_true] at allowed
        exact beq_iff_eq.mp allowed.2
      · cases accepted

theorem verifyPassword_deleted (unique : UniqueNames store.accounts)
    (found : store.accounts.find id = some row) (deleted : row.status = .deleted)
    (scheme : PasswordScheme) (password : Text) (account : Account) :
    store.verifyPassword scheme row.username password ≠ .ok account := by
  intro verified
  rcases verifyPassword_ok verified with ⟨key, present, presentFound, named, active⟩
  have same := unique key id present row presentFound found named
  subst same
  cases presentFound.symm.trans found
  cases active.symm.trans deleted

theorem verifyGrant_deleted (found : store.accounts.find id = some row)
    (deleted : row.status = .deleted) (grant : SessionGrant) (caller : CallerBinding) (at_ : Nat)
    (account : Account) (named : grant.accountId = id) :
    store.verifyGrant grant caller at_ ≠ .ok account := by
  intro verified
  simp only [verifyGrant, Outcome.bind_eq_ok] at verified
  rcases verified with ⟨target, restricted, _⟩
  rcases verifyRestrictedGrant_ok restricted with
    ⟨_, _, _, present, presentFound, _, _, active, _⟩
  rw [named, found] at presentFound
  cases presentFound
  cases active.symm.trans deleted

theorem completeEnrollment_deleted (unique : UniqueNames store.accounts)
    (found : store.accounts.find id = some row) (deleted : row.status = .deleted)
    (digest : Uuid -> Text) (token new : Uuid) (caller : CallerBinding)
    (current : EnrollmentIdentity) (hash : Text) (at_ : Nat) (result : Account × Store)
    (named : current.username = row.username) :
    store.completeEnrollment digest token new caller current hash at_ ≠ .ok result := by
  intro completed
  rcases commitEnrollment_ok (completeEnrollment_ok completed).2 with
    ⟨_, target, _, _, _, enrolled, _⟩
  cases enrolled with
  | existing present presentFound _ presentNamed _ _ alive _ _ =>
      have same := unique target id present row presentFound found (presentNamed.trans named)
      subst same
      cases presentFound.symm.trans found
      exact alive deleted
  | created _ unused => exact (unused id row found).1 named.symm

theorem setChildQuotaWith_deleted (found : store.accounts.find id = some row)
    (deleted : row.status = .deleted) (now : Nat) (actor : Authority) (generation bytes : Nat)
    (before : Nat -> Except StoreError Unit) (result : Account × Store) :
    store.setChildQuotaWith now actor id generation bytes before ≠ .ok result := by
  intro committed
  rcases setChildQuotaWith_ok committed with ⟨_, checked, _, _⟩
  rcases checkChildQuota_ok checked with ⟨present, _, presentFound, _, _, alive, _⟩
  cases presentFound.symm.trans found
  exact alive deleted

theorem setPolicy_deleted (found : store.accounts.find id = some row)
    (deleted : row.status = .deleted) (encoding : RuleEncoding) (now : Nat) (actor : Authority)
    (generation : Nat) (layer : PolicyLayer) (replacement : List Rule)
    (result : Account × Store) :
    store.setPolicy encoding now actor id generation layer replacement ≠ .ok result := by
  intro committed
  rcases setPolicy_ok committed with ⟨present, _, presentFound, _, alive, _⟩
  cases presentFound.symm.trans found
  exact alive deleted

end Refused

/-- Login follows status in every reachable state, and a deleted account stays
deleted, keeps its role, loses its password only to a purge, and is refused
everywhere. -/
theorem account_lifecycle (env : Environment) (dummyPasswordHash : Text) (ops : List StoreOp) :
    let store := Runs.run (StoreOp.step env) (Store.initial dummyPasswordHash) ops
    forall id row, store.accounts.find id = some row ->
      (row.loginEnabled = true ↔ row.status = .active) ∧
      (row.status = .deleted ->
        (forall more, ∃ new,
          (Runs.run (StoreOp.step env) store more).accounts.find id = some new ∧
          Gone env store more id row new) ∧
        (forall password account,
          store.verifyPassword env.scheme row.username password ≠ .ok account) ∧
        (forall grant caller at_ account, grant.accountId = id ->
          store.verifyGrant grant caller at_ ≠ .ok account) ∧
        (forall token new caller current hash at_ result, current.username = row.username ->
          store.completeEnrollment env.digest token new caller current hash at_ ≠ .ok result) ∧
        (forall now actor generation bytes before result,
          store.setChildQuotaWith now actor id generation bytes before ≠ .ok result) ∧
        forall now actor generation layer replacement result,
          store.setPolicy env.encoding now actor id generation layer replacement ≠ .ok result) := by
  intro store id row found
  have unique : UniqueNames store.accounts :=
    StoreOp.uniqueNames_run env dummyPasswordHash ops
  refine ⟨loginAgrees_run env dummyPasswordHash ops id row found, ?_⟩
  intro deleted
  exact ⟨gone_of_run env found deleted,
    verifyPassword_deleted unique found deleted env.scheme,
    verifyGrant_deleted found deleted,
    completeEnrollment_deleted unique found deleted env.digest,
    setChildQuotaWith_deleted found deleted,
    setPolicy_deleted found deleted env.encoding⟩

namespace OneLife

def environment : Environment := ⟨⟨fun _ _ => .ok true⟩, fun _ => [], ⟨fun _ => 0⟩⟩

/-- An account is made and deleted. -/
def ops : List StoreOp :=
  [.createRecord 1 0 .root
      ⟨"ann".toList, 1000, 1000, "/home/ann".toList, .linux, .user, none, none⟩ none none,
    .transition 5 .root 1 .deleted true none]

end OneLife

open OneLife in
theorem account_lifecycle_deleted :
    ∃ row, (Runs.run (StoreOp.step environment) (Store.initial []) ops).accounts.find 1 =
        some row ∧
      (row.loginEnabled = true ↔ row.status = .active) ∧ row.status = .deleted ∧
      forall password account,
        (Runs.run (StoreOp.step environment) (Store.initial []) ops).verifyPassword
          environment.scheme row.username password ≠ .ok account := by
  have present : ((Runs.run (StoreOp.step environment) (Store.initial []) ops).accounts.find
      1).map (fun row => row.status) = some .deleted := by decide
  rcases Option.map_eq_some_iff.mp present with ⟨row, found, deleted⟩
  have life := account_lifecycle environment [] ops 1 row found
  exact ⟨row, found, life.1, deleted, (life.2 deleted).2.1⟩

end TealDrive
