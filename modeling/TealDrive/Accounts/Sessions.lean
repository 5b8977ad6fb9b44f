import TealDrive.Accounts.GrantChanges

namespace TealDrive

open Store

/-!
# Session grants over whole runs

A grant verifies when its row is there, unrevoked, and its generation is the
account's.  Rows come only from `issue_grant`, so a row that is there at the
end of a run was issued in it and has not been revoked since; and generations
only grow, so an operation that raises one ends every session of the account.
The clean-up of `issue_grant` removes no row that could still verify.
-/

/-- The grant has its row, and the row is not revoked. -/
def Store.Listed (store : Store) (grant : SessionGrant) : Prop :=
  store.sessionGrants.find grant.nonce = some grant.row

/-- A row of a grant was there before, or the operation issued the grant. -/
theorem GrantsChange.origin {op : StoreOp} {store : Store} {rows : Table Uuid GrantRow}
    (change : GrantsChange op store rows) {grant : SessionGrant}
    (found : rows.find grant.nonce = some grant.row) :
    store.Listed grant ∨ ∃ at_ lifetime,
      op = .issueGrant grant.nonce grant.accountId grant.generation grant.caller at_ lifetime ∧
      ∃ final, store.issueGrant grant.nonce grant.accountId grant.generation grant.caller at_
        lifetime = .ok (grant, final) := by
  cases change with
  | same => exact Or.inl found
  | cleared => cases found
  | purged id =>
      rw [Table.find_filter] at found
      exact Or.inl (Option.filter_eq_some_iff.mp found).1
  | revoked nonce =>
      by_cases here : grant.nonce = nonce
      · rw [← here, Table.find_modify_self] at found
        rcases Option.map_eq_some_iff.mp found with ⟨row, _, same⟩
        have impossible : true = false := congrArg GrantRow.revoked same
        cases impossible
      · rw [Table.find_modify_of_ne _ here] at found
        exact Or.inl found
  | issued other at_ lifetime issue returned total own fresh =>
      by_cases here : grant.nonce = other.nonce
      · rw [here, Table.find_insert_self] at found
        have rows := Option.some.inj found
        have same : other = grant := by
          cases other
          cases grant
          cases here
          cases rows
          rfl
        subst same
        exact Or.inr ⟨at_, lifetime, issue, returned⟩
      · rw [Table.find_insert_of_ne _ here] at found
        unfold keptGrants at found
        rw [Table.find_filter] at found
        exact Or.inl (Option.filter_eq_some_iff.mp found).1

/-! ## Generations -/

/-- The operation is one that ends every session of the account. -/
def StoreOp.ends (store : Store) (id : Uuid) : StoreOp -> Prop
  | .setRole _ _ target _ => target = id
  | .setPanelScope _ _ target _ => target = id
  | .setPassword _ _ target _ _ => target = id
  | .transition _ _ target _ _ _ => target = id
  | .requirePasswordChange _ _ target => target = id
  | .setPolicy _ _ target _ _ _ => target = id
  | .setChildQuotaWith _ _ target _ _ _ => target = id
  | .setAdminOwnWith _ _ target _ _ => target = id
  | .commitEnrollment _ _ _ current _ _ =>
      ∃ account, store.findUsername current.username = some account ∧ account.id = id
  | .copyAdminCredentials _ _ _ _ target _ => target = id
  | .invalidateRestoredSessions _ _ _ => True
  | .purge _ target _ => target = id
  | _ => False

/-- The generation of a row that a statement raises. -/
theorem raised_of_modify {rows : Table Uuid AccountRow} {id : Uuid} {row : AccountRow}
    {update : RowUpdate} (found : rows.find id = some row)
    (raises : (update.apply row).generation = row.generation + 1) :
    ∃ new, (rows.modify id update.apply).find id = some new ∧
      row.generation < new.generation := by
  refine ⟨update.apply row, ?_, by omega⟩
  rw [Table.find_modify_self, found]
  rfl

namespace StoreOp

theorem apply_ends {env : Environment} {store final : Store} {op : StoreOp} {id : Uuid}
    {row : AccountRow} (done : op.apply env store = .ok final) (ends : op.ends store id)
    (found : store.accounts.find id = some row) :
    ∃ new, final.accounts.find id = some new ∧ row.generation < new.generation := by
  cases op with
  | setRole now actor target role =>
      subst ends
      rcases committed_eq_ok done with ⟨result, done⟩
      rcases setRole_ok done with ⟨_, _, _, _, _, _, written⟩
      subst written
      exact raised_of_modify found rfl
  | setPanelScope now actor target global =>
      subst ends
      rcases committed_eq_ok done with ⟨result, done⟩
      rcases setPanelScope_ok done with ⟨_, _, _, _, _, written⟩
      subst written
      exact raised_of_modify found rfl
  | setPassword now actor target password hash =>
      subst ends
      rcases committed_eq_ok done with ⟨result, done⟩
      rcases setPassword_ok done with ⟨_, _, _, _, written⟩
      subst written
      exact raised_of_modify found rfl
  | transition now actor target status allowAdminDelete generation =>
      subst ends
      rcases committed_eq_ok done with ⟨result, done⟩
      rcases transition_ok done with ⟨_, _, _, _, _, _, _, written⟩
      subst written
      exact raised_of_modify found rfl
  | requirePasswordChange now actor target =>
      subst ends
      rcases committed_eq_ok done with ⟨result, done⟩
      rcases requirePasswordChange_ok done with ⟨_, _, _, _, written⟩
      subst written
      exact raised_of_modify found rfl
  | setPolicy now actor target expectedGeneration layer replacement =>
      subst ends
      rcases committed_eq_ok done with ⟨result, done⟩
      rcases setPolicy_ok done with ⟨_, _, _, _, _, _, written⟩
      subst written
      exact raised_of_modify found rfl
  | setChildQuotaWith now actor target generation bytes before =>
      subst ends
      rcases committed_eq_ok done with ⟨result, done⟩
      rcases setChildQuotaWith_ok done with ⟨_, _, _, written⟩
      subst written
      exact raised_of_modify found rfl
  | setAdminOwnWith now actor target bytes before =>
      subst ends
      rcases committed_eq_ok done with ⟨result, done⟩
      rcases setAdminOwnWith_ok done with ⟨_, _, written⟩
      subst written
      exact raised_of_modify found rfl
  | commitEnrollment token new caller current hash at_ =>
      rcases committed_eq_ok done with ⟨result, done⟩
      rcases commitEnrollment_ok done with ⟨_, target, _, _, _, enrolled, written⟩
      subst written
      rcases ends with ⟨account, named, sameId⟩
      cases enrolled with
      | existing present presentFound located _ _ _ _ _ _ =>
          cases located.symm.trans named
          subst sameId
          exact raised_of_modify found rfl
      | created _ unused =>
          rcases findUsername_eq_some named with ⟨key, old, oldFound, oldNamed, _⟩
          exact absurd oldNamed (unused key old oldFound).1
  | copyAdminCredentials now actor source sourceGeneration target targetGeneration =>
      subst ends
      rcases committed_eq_ok done with ⟨result, done⟩
      rcases copyAdminCredentials_ok done with ⟨_, _, _, _, _, _, _, _, _, _, written⟩
      subst written
      exact raised_of_modify found rfl
  | invalidateRestoredSessions now epoch actor =>
      rcases committed_eq_ok done with ⟨result, done⟩
      rcases invalidateRestoredSessions_ok done with ⟨_, _, written⟩
      subst written
      refine ⟨(RowUpdate.touch now).apply row, ?_, Nat.lt_succ_self _⟩
      rw [Table.find_map, found]
      rfl
  | purge now target uid =>
      subst ends
      rcases committed_eq_ok done with ⟨result, done⟩
      rcases purge_ok done with ⟨_, _, _, _, written⟩
      subst written
      exact raised_of_modify found rfl
  | _ => cases ends

/-- A run in which such an operation commits leaves a higher generation. -/
theorem generation_lt_of_commits {env : Environment} {store state : Store} {ops : List StoreOp}
    {op : StoreOp} {id : Uuid} {row : AccountRow} (found : store.accounts.find id = some row)
    (commits : Commits env store ops op state) (ends : op.ends state id) :
    ∃ new, (Runs.run (step env) store ops).accounts.find id = some new ∧
      row.generation < new.generation := by
  rcases commits with ⟨before, after, final, split, reached, done⟩
  rcases run_kept env found before with ⟨middle, middleFound, first⟩
  rw [← reached] at middleFound
  rcases apply_ends done ends middleFound with ⟨raised, raisedFound, higher⟩
  rcases run_kept env raisedFound after with ⟨new, newFound, second⟩
  have ended : Runs.run (step env) store ops = Runs.run (step env) final after := by
    rw [split, Runs.run_append, ← reached]
    change Runs.run (step env) (step env state op) after = _
    rw [step_of_ok done]
  refine ⟨new, ended ▸ newFound, ?_⟩
  have firstLe := first.generation
  have secondLe := second.generation
  omega

end StoreOp

/-! ## Issued and not revoked -/

section Valid

variable {env : Environment} {store : Store} {grant : SessionGrant} {caller : CallerBinding}
  {at_ : Nat} {account : Account}

/-- What a verified grant says about the store. -/
theorem verifyGrant_ok (verified : store.verifyGrant grant caller at_ = .ok account) :
    grant.caller = caller ∧ at_ < grant.expiresAt ∧ store.Listed grant ∧
      ∃ row, store.accounts.find grant.accountId = some row ∧
        row.generation = grant.generation ∧ row.loginEnabled = true ∧ row.status = .active ∧
        store.passwordChangeRequired.find grant.accountId = none := by
  simp only [verifyGrant, Outcome.bind_eq_ok, Outcome.refuse_eq_ok] at verified
  rcases verified with ⟨target, restricted, _, unchanged, _⟩
  rcases verifyRestrictedGrant_ok restricted with
    ⟨sameCaller, alive, ⟨row, listed, sameRow⟩, accountRow, found, current, login, active, viewed⟩
  subst sameRow
  subst viewed
  refine ⟨sameCaller, alive, listed, accountRow, found, current, login, active, ?_⟩
  exact Option.isNone_iff_eq_none.mp (Option.isSome_eq_false_iff.mp unchanged)

/-- A revocation that commits takes the row away. -/
theorem not_listed_of_revoke {binding : CallerBinding} {time : Nat} {final : Store}
    (done : (StoreOp.revokeGrant grant binding time).apply env store = .ok final) :
    ¬ final.Listed grant := by
  rcases StoreOp.committed_eq_ok done with ⟨_, done⟩
  rcases revokeGrant_ok done with ⟨_, written⟩
  subst written
  intro listed
  have found := (Table.find_modify_self _).symm.trans listed
  rcases Option.map_eq_some_iff.mp found with ⟨row, _, same⟩
  have impossible : true = false := congrArg GrantRow.revoked same
  cases impossible

/-- A grant that is listed at the end of a run was issued in the run, and its
revocation did not commit since. -/
theorem issued_of_listed {dummyPasswordHash : Text} {ops : List StoreOp}
    (listed : (Runs.run (StoreOp.step env) (Store.initial dummyPasswordHash) ops).Listed grant) :
    ∃ before time lifetime after issued,
      ops = before ++ StoreOp.issueGrant grant.nonce grant.accountId grant.generation grant.caller
        time lifetime :: after ∧
      (Runs.run (StoreOp.step env) (Store.initial dummyPasswordHash) before).issueGrant grant.nonce
        grant.accountId grant.generation grant.caller time lifetime = .ok (grant, issued) ∧
      forall binding late state,
        ¬ StoreOp.Commits env issued after (.revokeGrant grant binding late) state := by
  have start : ¬ (Store.initial dummyPasswordHash).Listed grant := by
    intro impossible
    cases impossible
  rcases Runs.established (fun store : Store => store.Listed grant) start listed with
    ⟨before, op, after, split, unlisted, kept⟩
  have now := kept [] List.nil_prefix
  rw [Runs.run_concat] at now
  rcases StoreOp.step_cases env (Runs.run (StoreOp.step env) (Store.initial dummyPasswordHash)
    before) op with same | done
  · rw [same] at now
    exact absurd now unlisted
  rcases (StoreOp.apply_grants done).1.origin now with already | ⟨time, lifetime, issue, returned⟩
  · exact absurd already unlisted
  rcases returned with ⟨issued, returned⟩
  have reached : StoreOp.step env (Runs.run (StoreOp.step env) (Store.initial dummyPasswordHash)
      before) op = issued := by
    rw [issue]
    exact StoreOp.step_of_ok (congrArg StoreOp.committed returned)
  refine ⟨before, time, lifetime, after, issued, issue ▸ split, returned, ?_⟩
  rintro binding late state ⟨early, rest, final, inner, sameState, revoked⟩
  have still := kept (early ++ [.revokeGrant grant binding late]) (by
    rw [inner]
    exact ⟨rest, by simp⟩)
  have path : Runs.run (StoreOp.step env) (Store.initial dummyPasswordHash)
      (before ++ op :: (early ++ [.revokeGrant grant binding late])) = final := by
    rw [Runs.run_append]
    change Runs.run (StoreOp.step env) (StoreOp.step env _ op) (early ++ [_]) = _
    rw [reached, Runs.run_concat, ← sameState]
    exact StoreOp.step_of_ok revoked
  rw [path] at still
  exact not_listed_of_revoke revoked still

/-! ## Other grants -/

/-- The grants matter to a verification only at the nonce it names. -/
theorem verifyGrant_congr {rows : Table Uuid GrantRow}
    (same : rows.find grant.nonce = store.sessionGrants.find grant.nonce) :
    ({ store with sessionGrants := rows }).verifyGrant grant caller at_ =
      store.verifyGrant grant caller at_ := by
  simp only [verifyGrant, verifyRestrictedGrant, same]
  rfl

/-- Revocations of other grants, and clean-ups while this one is not expired. -/
def StoreOp.spares (grant : SessionGrant) : StoreOp -> Prop
  | .revokeGrant other _ _ => other ≠ grant
  | .issueGrant _ _ _ _ time _ => time < grant.expiresAt
  | _ => False

theorem eq_of_listed {other : SessionGrant} (listed : store.Listed grant)
    (otherListed : store.Listed other) (sameNonce : other.nonce = grant.nonce) : other = grant := by
  unfold Listed at listed otherListed
  rw [sameNonce, listed] at otherListed
  have rows := Option.some.inj otherListed
  cases other
  cases grant
  cases sameNonce
  cases rows
  rfl

theorem verifyGrant_of_spares {op : StoreOp}
    (verified : store.verifyGrant grant caller at_ = .ok account) (spared : op.spares grant) :
    (StoreOp.step env store op).verifyGrant grant caller at_ = .ok account := by
  rcases verifyGrant_ok verified with ⟨_, _, listed, row, found, current, _, _, _⟩
  rcases StoreOp.step_cases env store op with same | done
  · rw [same]
    exact verified
  cases op with
  | revokeGrant other binding time =>
      rcases StoreOp.committed_eq_ok done with ⟨_, done⟩
      rcases revokeGrant_ok done with ⟨⟨_, restricted⟩, written⟩
      rcases verifyRestrictedGrant_ok restricted with ⟨_, _, ⟨_, otherFound, otherRow⟩, _⟩
      have apart : grant.nonce ≠ other.nonce := by
        intro same
        exact spared (eq_of_listed listed (otherFound.trans (congrArg some otherRow)) same.symm)
      rw [written]
      exact (verifyGrant_congr (Table.find_modify_of_ne _ apart)).trans verified
  | issueGrant nonce id generation binding time lifetime =>
      rcases StoreOp.committed_eq_ok done with ⟨_, done⟩
      rcases issueGrant_ok done with ⟨_, _, _, fresh, _, _, written⟩
      have fine : store.staleGrant time grant.row = false := by
        unfold staleGrant
        change (decide (grant.expiresAt ≤ time) || false ||
          (store.accounts.find grant.accountId).any _) = false
        rw [found, Option.any_some, Bool.or_eq_false_iff, Bool.or_eq_false_iff,
          decide_eq_false_iff_not, bne_eq_false_iff_eq]
        exact ⟨⟨Nat.not_le.mpr spared, rfl⟩, current.symm⟩
      have kept : (store.keptGrants time).find grant.nonce = some grant.row := by
        unfold keptGrants
        rw [Table.find_filter, Option.filter_eq_some_iff, Bool.not_eq_true']
        exact ⟨listed, fine⟩
      have apart : grant.nonce ≠ nonce := by
        intro same
        rw [← same, kept] at fresh
        cases fresh
      have same : forall row, ((store.keptGrants time).insert nonce row).find grant.nonce =
          store.sessionGrants.find grant.nonce :=
        fun row => (Table.find_insert_of_ne row apart).trans (kept.trans listed.symm)
      rw [written]
      exact (verifyGrant_congr (same _)).trans verified
  | _ => cases spared

theorem verifyGrant_of_run {ops : List StoreOp}
    (verified : store.verifyGrant grant caller at_ = .ok account)
    (spared : forall op, op ∈ ops -> op.spares grant) :
    (Runs.run (StoreOp.step env) store ops).verifyGrant grant caller at_ = .ok account := by
  induction ops generalizing store with
  | nil => exact verified
  | cons op rest ih =>
      refine ih (verifyGrant_of_spares verified (spared op List.mem_cons_self)) ?_
      intro other member
      exact spared other (List.mem_cons_of_mem _ member)

end Valid

/-! ## How many there are -/

/-- At most 8192 rows, and at most 64 of one account. -/
structure Few (rows : Table Uuid GrantRow) : Prop where
  total : rows.size ≤ 8192
  own : forall id, rows.count (fun _ row => row.accountId == id) ≤ 64

theorem Few.filter {rows : Table Uuid GrantRow} (few : Few rows)
    (keep : Uuid -> GrantRow -> Bool) : Few (rows.filter keep) where
  total := Nat.le_trans (List.length_filter_le _ _) few.total
  own := fun id => Nat.le_trans (Table.count_filter_le rows keep _) (few.own id)

theorem Few.change {op : StoreOp} {store : Store} {rows : Table Uuid GrantRow}
    (few : Few store.sessionGrants) (change : GrantsChange op store rows) : Few rows := by
  cases change with
  | same => exact few
  | cleared => exact ⟨Nat.zero_le _, fun _ => Nat.zero_le _⟩
  | purged id => exact few.filter _
  | revoked nonce =>
      refine ⟨?_, ?_⟩
      · exact (List.length_map _).trans_le few.total
      · intro id
        refine (Table.count_map _ _ ?_).trans_le (few.own id)
        intro key row
        split <;> rfl
  | issued grant at_ lifetime issue returned total own fresh =>
      have kept : Few (store.keptGrants at_) := few.filter _
      refine ⟨?_, ?_⟩
      · rw [Table.size_eq_count, Table.count_insert_of_absent _ _ fresh, ← Table.size_eq_count]
        exact total
      · intro id
        rw [Table.count_insert_of_absent _ _ fresh]
        by_cases mine : grant.accountId = id
        · subst mine
          have counted : (grant.row.accountId == grant.accountId) = true :=
            beq_self_eq_true grant.accountId
          rw [if_pos counted]
          exact own
        · have skipped : ¬ (grant.row.accountId == id) = true := fun same => mine (beq_iff_eq.mp same)
          rw [if_neg skipped]
          exact kept.own id

theorem Few.run (env : Environment) (dummyPasswordHash : Text) (ops : List StoreOp) :
    Few (Runs.run (StoreOp.step env) (Store.initial dummyPasswordHash) ops).sessionGrants := by
  refine Runs.invariant (fun store : Store => Few store.sessionGrants) ?_ ?_ ops
  · intro store op few
    rcases StoreOp.step_cases env store op with same | done
    · rw [same]
      exact few
    · exact few.change (StoreOp.apply_grants done).1
  · exact ⟨Nat.zero_le _, fun _ => Nat.zero_le _⟩

/-! ## Sessions -/

/-- In every state that a run reaches, a grant verifies only for the caller it
was issued to, before it expires, while its account may log in, and when
neither its revocation nor an operation that ends the account's sessions
committed since it was issued.  Grants of others do not matter, and there are
only so many that could verify. -/
theorem session_grants_hold (env : Environment) (dummyPasswordHash : Text) (ops : List StoreOp) :
    let store := Runs.run (StoreOp.step env) (Store.initial dummyPasswordHash) ops
    (forall grant caller at_ account, store.verifyGrant grant caller at_ = .ok account ->
      grant.caller = caller ∧ at_ < grant.expiresAt ∧
      (∃ row, store.accounts.find grant.accountId = some row ∧ row.status = .active ∧
        row.loginEnabled = true ∧ store.passwordChangeRequired.find grant.accountId = none) ∧
      ∃ before time lifetime after issued,
        ops = before ++ StoreOp.issueGrant grant.nonce grant.accountId grant.generation caller
          time lifetime :: after ∧
        (Runs.run (StoreOp.step env) (Store.initial dummyPasswordHash) before).issueGrant
          grant.nonce grant.accountId grant.generation caller time lifetime = .ok (grant, issued) ∧
        (forall binding late state,
          ¬ StoreOp.Commits env issued after (.revokeGrant grant binding late) state) ∧
        forall op state, StoreOp.Commits env issued after op state ->
          ¬ op.ends state grant.accountId) ∧
    (forall grant caller at_ account others, store.verifyGrant grant caller at_ = .ok account ->
      (forall op, op ∈ others -> op.spares grant) ->
      (Runs.run (StoreOp.step env) store others).verifyGrant grant caller at_ = .ok account) ∧
    forall at_, (store.keptGrants at_).size ≤ 8192 ∧
      forall id, (store.keptGrants at_).count (fun _ row => row.accountId == id) ≤ 64 := by
  refine ⟨?_, ?_, ?_⟩
  · intro grant caller at_ account verified
    rcases verifyGrant_ok verified with
      ⟨sameCaller, alive, listed, row, found, current, login, active, unchanged⟩
    subst sameCaller
    rcases issued_of_listed listed with
      ⟨before, time, lifetime, after, issued, split, returned, unrevoked⟩
    refine ⟨rfl, alive, ⟨row, found, active, login, unchanged⟩, before, time, lifetime, after,
      issued, split, returned, unrevoked, ?_⟩
    intro op state commits ends
    rcases issueGrant_ok returned with ⟨⟨first, firstFound, firstCurrent, _⟩, _, _, _, _, _, written⟩
    have kept : issued.accounts.find grant.accountId = some first := by
      rw [written]
      exact firstFound
    rcases StoreOp.generation_lt_of_commits kept commits ends with ⟨last, lastFound, higher⟩
    have applied : (StoreOp.issueGrant grant.nonce grant.accountId grant.generation grant.caller
        time lifetime).apply env (Runs.run (StoreOp.step env) (Store.initial dummyPasswordHash)
          before) = .ok issued := congrArg StoreOp.committed returned
    have ended : Runs.run (StoreOp.step env) (Store.initial dummyPasswordHash) ops =
        Runs.run (StoreOp.step env) issued after := by
      rw [split, Runs.run_append]
      change Runs.run (StoreOp.step env) (StoreOp.step env _ _) after = _
      rw [StoreOp.step_of_ok applied]
    rw [← ended, found] at lastFound
    cases lastFound
    omega
  · intro grant caller at_ account others verified spared
    exact verifyGrant_of_run verified spared
  · intro at_
    have few := (Few.run env dummyPasswordHash ops).filter
      (fun _ grant => !(Runs.run (StoreOp.step env) (Store.initial dummyPasswordHash)
        ops).staleGrant at_ grant)
    exact ⟨few.total, few.own⟩

namespace OneSession

def environment : Environment := ⟨⟨fun _ _ => .ok false⟩, fun _ => [], ⟨fun _ => 0⟩⟩

def caller : CallerBinding := ⟨1000, 7, 3, 9⟩

def ops : List StoreOp :=
  [.createRecord 1 0 .root
      ⟨"ann".toList, 1000, 1000, "/home/ann".toList, .linux, .user, none, none⟩ none none,
    .issueGrant 5 1 1 caller 10 100]

def grant : SessionGrant := ⟨5, 1, 1, caller, 110⟩

end OneSession

open OneSession in
theorem session_grants_hold_once :
    ∃ account, (Runs.run (StoreOp.step environment) (Store.initial []) ops).verifyGrant grant caller
        50 = .ok account ∧
      ∃ before time lifetime after issued,
        ops = before ++ StoreOp.issueGrant 5 1 1 caller time lifetime :: after ∧
        (Runs.run (StoreOp.step environment) (Store.initial []) before).issueGrant 5 1 1 caller time
          lifetime = .ok (grant, issued) := by
  have valid : ((Runs.run (StoreOp.step environment) (Store.initial []) ops).verifyGrant grant
      caller 50).toOption.isSome = true := by decide
  cases verified : (Runs.run (StoreOp.step environment) (Store.initial []) ops).verifyGrant grant
      caller 50 with
  | error problem =>
      rw [verified] at valid
      cases valid
  | ok account =>
      rcases (session_grants_hold environment [] ops).1 grant caller 50 account verified with
        ⟨_, _, _, before, time, lifetime, after, issued, split, returned, _⟩
      exact ⟨account, rfl, before, time, lifetime, after, issued, split, returned⟩

end TealDrive
