import TealDrive.Accounts.Changes

namespace TealDrive

open Store

/-!
# How grants, proofs and the journal change

Whatever operation commits, the session grants, the enrollment proofs and the
journal change in one of a few ways.  Invariants of these tables are proved
against the ways, not against the operations.
-/

/-! ## Rows of grants -/

/-- The row that `issue_grant` writes for a grant. -/
def SessionGrant.row (grant : SessionGrant) : GrantRow :=
  ⟨grant.accountId, grant.generation, grant.caller, grant.expiresAt, false⟩

/-- How the grants change when an operation commits. -/
inductive GrantsChange (op : StoreOp) (store : Store) : Table Uuid GrantRow -> Prop where
  | same : GrantsChange op store store.sessionGrants
  | cleared : GrantsChange op store .empty
  | purged (id : Uuid) :
      GrantsChange op store (store.sessionGrants.filter (fun _ grant => grant.accountId != id))
  | revoked (nonce : Uuid) :
      GrantsChange op store
        (store.sessionGrants.modify nonce (fun row => { row with revoked := true }))
  | issued (grant : SessionGrant) (at_ lifetime : Nat)
      (issue : op = .issueGrant grant.nonce grant.accountId grant.generation grant.caller at_
        lifetime)
      (returned : ∃ final, store.issueGrant grant.nonce grant.accountId grant.generation
        grant.caller at_ lifetime = .ok (grant, final))
      (total : (store.keptGrants at_).size < 8192)
      (own : (store.keptGrants at_).count (fun _ row => row.accountId == grant.accountId) < 64)
      (fresh : (store.keptGrants at_).find grant.nonce = none) :
      GrantsChange op store ((store.keptGrants at_).insert grant.nonce grant.row)

/-- How the enrollment proofs change when an operation commits. -/
inductive ProofsChange (digest : Uuid -> Text) (op : StoreOp) (store : Store) :
    Table Text EnrollmentRow -> Prop where
  | same : ProofsChange digest op store store.enrollment
  | cleared : ProofsChange digest op store .empty
  | dropped (username : Text) :
      ProofsChange digest op store
        (store.enrollment.filter (fun _ row => row.username != username))
  | begun (token : Uuid) (identity : EnrollmentIdentity) (caller : CallerBinding)
      (at_ lifetime expiresAt : Nat)
      (begin_ : op = .beginEnrollment token identity caller at_ lifetime)
      (fresh : (store.keptProofs identity caller at_).find (digest token) = none) :
      ProofsChange digest op store ((store.keptProofs identity caller at_).insert (digest token)
        ⟨identity.username, identity.uid, identity.gid, identity.home, caller, expiresAt, false⟩)
  | consumed (token : Uuid) :
      ProofsChange digest op store (store.enrollment.modify (digest token)
        (fun row => { row with consumed := true }))

/-- The journal is untouched. -/
structure SameJournal (store final : Store) : Prop where
  operations : final.operations = store.operations
  trashExpiry : final.trashExpiry = store.trashExpiry
  stagingExpiry : final.stagingExpiry = store.stagingExpiry

/-- How the journal changes when an operation of the store commits. -/
inductive JournalChange (op : StoreOp) (store final : Store) : Prop where
  | same (tables : SameJournal store final) (epoch : final.undoEpoch = store.undoEpoch)
  | restored (now : Nat) (epoch : Uuid) (actor : Authority)
      (restore : op = .invalidateRestoredSessions now epoch actor)
      (tables : SameJournal store final) (fenced : final.undoEpoch = some epoch)
  | kept (books : Books) (keep : op = .keepBooks books)

namespace StoreOp

theorem apply_grants {env : Environment} {store final : Store} {op : StoreOp}
    (done : op.apply env store = .ok final) :
    GrantsChange op store final.sessionGrants ∧
      ProofsChange env.digest op store final.enrollment ∧ JournalChange op store final := by
  cases op with
  | cancelIntent now key uid =>
      rcases cancelIntent_eq store now uid key with ⟨retired, _, written⟩
      cases done
      rw [written]
      exact ⟨.same, .same, .same ⟨rfl, rfl, rfl⟩ rfl⟩
  | keepBooks books =>
      cases done
      exact ⟨.same, .same, .kept books rfl⟩
  | setPanelScope now actor id global =>
      rcases committed_eq_ok done with ⟨result, done⟩
      rcases setPanelScope_ok done with ⟨_, _, _, _, _, written⟩
      subst written
      exact ⟨.same, .dropped _, .same ⟨rfl, rfl, rfl⟩ rfl⟩
  | setRole now actor id role =>
      rcases committed_eq_ok done with ⟨result, done⟩
      rcases setRole_ok done with ⟨_, _, _, _, _, _, written⟩
      subst written
      exact ⟨.same, .dropped _, .same ⟨rfl, rfl, rfl⟩ rfl⟩
  | createRecord id now actor new hash requestState =>
      rcases committed_eq_ok done with ⟨result, done⟩
      rcases createRecord_ok done with ⟨_, _, _, written⟩
      subst written
      exact ⟨.same, .same, .same ⟨rfl, rfl, rfl⟩ rfl⟩
  | setPool actor bytes =>
      rcases committed_eq_ok done with ⟨result, done⟩
      rcases setPool_ok done with ⟨_, _, written⟩
      subst written
      exact ⟨.same, .same, .same ⟨rfl, rfl, rfl⟩ rfl⟩
  | setAdminBudgetWith actor id bytes beforeCommit =>
      rcases committed_eq_ok done with ⟨result, done⟩
      rcases setAdminBudgetWith_ok done with ⟨_, _, _, written⟩
      subst written
      exact ⟨.same, .same, .same ⟨rfl, rfl, rfl⟩ rfl⟩
  | setAdminOwnWith now actor id bytes before =>
      rcases committed_eq_ok done with ⟨result, done⟩
      rcases setAdminOwnWith_ok done with ⟨_, _, written⟩
      subst written
      exact ⟨.same, .same, .same ⟨rfl, rfl, rfl⟩ rfl⟩
  | invalidateRestoredSessions now epoch actor =>
      rcases committed_eq_ok done with ⟨result, done⟩
      rcases invalidateRestoredSessions_ok done with ⟨_, _, written⟩
      subst written
      exact ⟨.cleared, .cleared, .restored now epoch actor rfl ⟨rfl, rfl, rfl⟩ rfl⟩
  | copyAdminCredentials now actor source sourceGeneration target targetGeneration =>
      rcases committed_eq_ok done with ⟨result, done⟩
      rcases copyAdminCredentials_ok done with ⟨_, _, _, _, _, _, _, _, _, _, written⟩
      subst written
      exact ⟨.same, .same, .same ⟨rfl, rfl, rfl⟩ rfl⟩
  | requirePasswordChange now actor id =>
      rcases committed_eq_ok done with ⟨result, done⟩
      rcases requirePasswordChange_ok done with ⟨_, _, _, _, written⟩
      subst written
      exact ⟨.same, .same, .same ⟨rfl, rfl, rfl⟩ rfl⟩
  | setPassword now actor id password hash =>
      rcases committed_eq_ok done with ⟨result, done⟩
      rcases setPassword_ok done with ⟨_, _, _, _, written⟩
      subst written
      exact ⟨.same, .same, .same ⟨rfl, rfl, rfl⟩ rfl⟩
  | transition now actor id status allowAdminDelete generation =>
      rcases committed_eq_ok done with ⟨result, done⟩
      rcases transition_ok done with ⟨_, _, _, _, _, _, _, written⟩
      subst written
      exact ⟨.same, .dropped _, .same ⟨rfl, rfl, rfl⟩ rfl⟩
  | setChildQuotaWith now actor id generation bytes before =>
      rcases committed_eq_ok done with ⟨result, done⟩
      rcases setChildQuotaWith_ok done with ⟨_, _, _, written⟩
      subst written
      exact ⟨.same, .same, .same ⟨rfl, rfl, rfl⟩ rfl⟩
  | recordChildIntent actor generation request name quota uid =>
      rcases committed_eq_ok done with ⟨result, done⟩
      rcases recordChildIntent_ok done with ⟨_, _, _, written⟩
      subst written
      exact ⟨.same, .same, .same ⟨rfl, rfl, rfl⟩ rfl⟩
  | recordAdminIntent request name budget uid =>
      rcases committed_eq_ok done with ⟨result, done⟩
      rcases recordAdminIntent_ok done with ⟨_, _, written⟩
      subst written
      exact ⟨.same, .same, .same ⟨rfl, rfl, rfl⟩ rfl⟩
  | recordPurgeIntent now id =>
      rcases committed_eq_ok done with ⟨result, done⟩
      rcases recordPurgeIntent_ok done with ⟨_, _, _, _, written⟩
      subst written
      exact ⟨.same, .same, .same ⟨rfl, rfl, rfl⟩ rfl⟩
  | purge now id uid =>
      rcases committed_eq_ok done with ⟨result, done⟩
      rcases purge_ok done with ⟨_, _, _, _, written⟩
      subst written
      exact ⟨.purged id, .same, .same ⟨rfl, rfl, rfl⟩ rfl⟩
  | issueGrant nonce id generation caller at_ lifetime =>
      rcases committed_eq_ok done with ⟨grant, done⟩
      rcases issueGrant_ok done with ⟨_, total, own, fresh, _, issued, written⟩
      have returned : ∃ final, store.issueGrant nonce id generation caller at_ lifetime =
          .ok (⟨nonce, id, generation, caller, grant.expiresAt⟩, final) :=
        ⟨final, issued ▸ done⟩
      subst written
      exact ⟨.issued ⟨nonce, id, generation, caller, grant.expiresAt⟩ at_ lifetime rfl returned
        total own fresh, .same, .same ⟨rfl, rfl, rfl⟩ rfl⟩
  | revokeGrant grant caller at_ =>
      rcases committed_eq_ok done with ⟨result, done⟩
      rcases revokeGrant_ok done with ⟨_, written⟩
      subst written
      exact ⟨.revoked grant.nonce, .same, .same ⟨rfl, rfl, rfl⟩ rfl⟩
  | beginEnrollment token identity caller at_ lifetime =>
      rcases committed_eq_ok done with ⟨result, done⟩
      rcases beginEnrollment_ok done with ⟨_, fresh, expiresAt, written⟩
      subst written
      exact ⟨.same, .begun token identity caller at_ lifetime expiresAt rfl fresh,
        .same ⟨rfl, rfl, rfl⟩ rfl⟩
  | commitEnrollment token id caller current hash at_ =>
      rcases committed_eq_ok done with ⟨result, done⟩
      rcases commitEnrollment_ok done with ⟨_, _, _, _, _, _, written⟩
      subst written
      exact ⟨.same, .consumed token, .same ⟨rfl, rfl, rfl⟩ rfl⟩
  | setPolicy now actor id expectedGeneration layer replacement =>
      rcases committed_eq_ok done with ⟨result, done⟩
      rcases setPolicy_ok done with ⟨_, _, _, _, _, _, written⟩
      subst written
      exact ⟨.same, .dropped _, .same ⟨rfl, rfl, rfl⟩ rfl⟩
  | setUndoPreferences now authority config hours expectedRevision =>
      rcases committed_eq_ok done with ⟨result, done⟩
      rcases setUndoPreferences_ok done with ⟨_, _, _, written⟩
      subst written
      exact ⟨.same, .same, .same ⟨rfl, rfl, rfl⟩ rfl⟩

end StoreOp

end TealDrive
