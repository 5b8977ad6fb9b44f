import TealDrive.Accounts.GrantChanges

namespace TealDrive

open Store

/-!
# Enrollment

A proof of enrollment is a row under the digest of its token.  Nothing but a
new `begin_enrollment` with the same digest brings a row back that was consumed
or deleted, so every proof is used at most once, and an administrator who
changes the account of a user ends the proofs that are out for it.

`complete_enrollment` reads the proof and later runs its transaction.  What
follows is about the transaction, in whatever state it finds the store: between
the two anything may happen.
-/

/-! ## Proofs -/

/-- The operation begins a proof under the digest. -/
def StoreOp.begins (digest : Uuid -> Text) (key : Text) : StoreOp -> Prop
  | .beginEnrollment token _ _ _ _ => digest token = key
  | _ => False

/-- The operation changes the account of a user. -/
def StoreOp.revises (store : Store) (username : Text) : StoreOp -> Prop
  | .transition _ _ id _ _ _ => ∃ row, store.accounts.find id = some row ∧ row.username = username
  | .setRole _ _ id _ => ∃ row, store.accounts.find id = some row ∧ row.username = username
  | .setPanelScope _ _ id _ => ∃ row, store.accounts.find id = some row ∧ row.username = username
  | .setPolicy _ _ id _ _ _ => ∃ row, store.accounts.find id = some row ∧ row.username = username
  | _ => False

/-- No proof under the digest can be used. -/
def Spent (key : Text) (proofs : Table Text EnrollmentRow) : Prop :=
  forall row, proofs.find key = some row -> row.consumed = true

/-- A proof under the digest is for the user. -/
def ProofFor (key : Text) (username : Text) (proofs : Table Text EnrollmentRow) : Prop :=
  forall row, proofs.find key = some row -> row.username = username

/-- A proof was there before, for the same user and not less used, or it was
just begun. -/
theorem ProofsChange.origin {digest : Uuid -> Text} {op : StoreOp} {store : Store}
    {after : Table Text EnrollmentRow} (change : ProofsChange digest op store after) {key : Text}
    {new : EnrollmentRow} (found : after.find key = some new) :
    op.begins digest key ∨ ∃ row, store.enrollment.find key = some row ∧
      new.username = row.username ∧ (row.consumed = true -> new.consumed = true) := by
  cases change with
  | same => exact Or.inr ⟨new, found, rfl, fun consumed => consumed⟩
  | cleared => cases found
  | dropped username =>
      rw [Table.find_filter] at found
      exact Or.inr ⟨new, (Option.filter_eq_some_iff.mp found).1, rfl, fun consumed => consumed⟩
  | begun token identity caller at_ lifetime expiresAt begin_ fresh =>
      by_cases here : key = digest token
      · subst begin_
        exact Or.inl here.symm
      · rw [Table.find_insert_of_ne _ here] at found
        unfold keptProofs at found
        rw [Table.find_filter] at found
        exact Or.inr ⟨new, (Option.filter_eq_some_iff.mp found).1, rfl, fun consumed => consumed⟩
  | consumed token =>
      by_cases here : key = digest token
      · rw [here, Table.find_modify_self] at found
        rcases Option.map_eq_some_iff.mp found with ⟨row, present, same⟩
        subst same
        exact Or.inr ⟨row, here ▸ present, rfl, fun _ => rfl⟩
      · rw [Table.find_modify_of_ne _ here] at found
        exact Or.inr ⟨new, found, rfl, fun consumed => consumed⟩

section Proofs

variable {env : Environment} {store : Store} {key : Text}

/-- What changes of the proofs preserve unless a proof is begun under the
digest, runs preserve when none is. -/
theorem run_proofs {holds : Table Text EnrollmentRow -> Prop}
    (kept : forall op store after, ProofsChange env.digest op store after ->
      ¬ op.begins env.digest key -> holds store.enrollment -> holds after)
    (start : holds store.enrollment) (ops : List StoreOp)
    (none : forall op state, StoreOp.Commits env store ops op state -> ¬ op.begins env.digest key) :
    holds (Runs.run (StoreOp.step env) store ops).enrollment := by
  induction ops generalizing store with
  | nil => exact start
  | cons op rest ih =>
      refine ih ?_ (fun other state commits => none other state commits.later)
      rcases StoreOp.step_cases env store op with same | done
      · rw [same]
        exact start
      · exact kept op store _ (StoreOp.apply_grants done).2.1 (none op store (.now done rest)) start

theorem Spent.run (spent : Spent key store.enrollment) (ops : List StoreOp)
    (none : forall op state, StoreOp.Commits env store ops op state -> ¬ op.begins env.digest key) :
    Spent key (Runs.run (StoreOp.step env) store ops).enrollment := by
  refine run_proofs ?_ spent ops none
  intro op store after change other before new found
  rcases change.origin found with begins | ⟨row, present, _, more⟩
  · exact absurd begins other
  · exact more (before row present)

theorem ProofFor.run {username : Text} (for_ : ProofFor key username store.enrollment)
    (ops : List StoreOp)
    (none : forall op state, StoreOp.Commits env store ops op state -> ¬ op.begins env.digest key) :
    ProofFor key username (Runs.run (StoreOp.step env) store ops).enrollment := by
  refine run_proofs ?_ for_ ops none
  intro op store after change other before new found
  rcases change.origin found with begins | ⟨row, present, same, _⟩
  · exact absurd begins other
  · exact same.trans (before row present)

/-- A change of the account deletes the proofs of its user. -/
theorem spent_of_revises {username : Text} {op : StoreOp} {final : Store}
    (for_ : ProofFor key username store.enrollment) (done : op.apply env store = .ok final)
    (revises : op.revises store username) : Spent key final.enrollment := by
  have dropped : final.enrollment =
      store.enrollment.filter (fun _ row => row.username != username) := by
    cases op with
    | transition now actor id status allowAdminDelete generation =>
        rcases StoreOp.committed_eq_ok done with ⟨_, done⟩
        rcases transition_ok done with ⟨row, _, found, _, _, _, _, written⟩
        rcases revises with ⟨present, presentFound, named⟩
        cases found.symm.trans presentFound
        subst written
        rw [← named]
        rfl
    | setRole now actor id role =>
        rcases StoreOp.committed_eq_ok done with ⟨_, done⟩
        rcases setRole_ok done with ⟨_, row, found, _, _, _, written⟩
        rcases revises with ⟨present, presentFound, named⟩
        cases found.symm.trans presentFound
        subst written
        rw [← named]
        rfl
    | setPanelScope now actor id global =>
        rcases StoreOp.committed_eq_ok done with ⟨_, done⟩
        rcases setPanelScope_ok done with ⟨_, row, found, _, _, written⟩
        rcases revises with ⟨present, presentFound, named⟩
        cases found.symm.trans presentFound
        subst written
        rw [← named]
        rfl
    | setPolicy now actor id expectedGeneration layer replacement =>
        rcases StoreOp.committed_eq_ok done with ⟨_, done⟩
        rcases setPolicy_ok done with ⟨row, _, found, _, _, _, written⟩
        rcases revises with ⟨present, presentFound, named⟩
        cases found.symm.trans presentFound
        subst written
        rw [← named]
        rfl
    | _ => cases revises
  intro new found
  rw [dropped, Table.find_filter] at found
  rcases Option.filter_eq_some_iff.mp found with ⟨present, kept⟩
  exact absurd (for_ new present) (bne_iff_ne.mp kept)

/-- The transaction needs a proof that is not spent. -/
theorem not_spent_of_commit {token new : Uuid} {caller : CallerBinding}
    {current : EnrollmentIdentity} {hash : Text} {at_ : Nat} {result : Account × Store}
    (done : store.commitEnrollment env.digest token new caller current hash at_ = .ok result) :
    ¬ Spent (env.digest token) store.enrollment := by
  intro spent
  rcases commitEnrollment_ok done with ⟨proof, _, _, found, usable, _⟩
  unfold usableProof at usable
  rw [spent proof found] at usable
  simp at usable

theorem spent_of_commit {token new : Uuid} {caller : CallerBinding} {current : EnrollmentIdentity}
    {hash : Text} {at_ : Nat} {result : Account} {final : Store}
    (done : store.commitEnrollment env.digest token new caller current hash at_ =
      .ok (result, final)) : Spent (env.digest token) final.enrollment := by
  rcases commitEnrollment_ok done with ⟨_, _, _, _, _, _, written⟩
  subst written
  intro row found
  rcases Option.map_eq_some_iff.mp ((Table.find_modify_self _).symm.trans found) with
    ⟨old, _, same⟩
  subst same
  rfl

end Proofs

/-! ## Revocations -/

/-- Revoked, but free to enroll again. -/
def Reopened (id : Uuid) (rows : Table Uuid AccountRow) : Prop :=
  ∃ row, rows.find id = some row ∧ row.status = .revoked ∧ row.denyEnrollment = false

theorem StoreOp.executes_setStatus {store : Store} {op : StoreOp} {id : Uuid}
    {status : AccountStatus} {login deny : Bool} {deletedAt : Option Nat} {time : Nat}
    (executed : op.executes store id (.setStatus status login deletedAt deny time)) :
    ∃ actor allowAdminDelete generation,
      op = .transition time actor id status allowAdminDelete generation ∧
      (deny = false -> status = .active ∨ (status = .revoked ∧ ∃ row, Caller store actor id row)) := by
  cases op with
  | transition now actor target next allowAdminDelete generation =>
      rcases executed with ⟨sameId, _, _, same, permitted⟩
      cases same
      subst sameId
      exact ⟨actor, allowAdminDelete, generation, rfl, permitted⟩
  | copyAdminCredentials =>
      rcases executed.2 with ⟨_, _, impossible⟩
      cases impossible
  | commitEnrollment => cases executed
  | setPanelScope | setRole | setAdminOwnWith | requirePasswordChange | setPassword
  | setChildQuotaWith | setPolicy | setUndoPreferences | purge => cases executed.2
  | _ => cases executed

/-- Only the account itself reopens itself. -/
theorem RowsChange.reopened {op : StoreOp} {store : Store} {after : Table Uuid AccountRow}
    (change : RowsChange op store after) {id : Uuid} (open_ : Reopened id after) :
    Reopened id store.accounts ∨ ∃ now actor allowAdminDelete generation,
      op = .transition now actor id .revoked allowAdminDelete generation ∧
      ∃ row, Caller store actor id row := by
  rcases open_ with ⟨new, found, revoked, allowed⟩
  cases change with
  | same => exact Or.inl ⟨new, found, revoked, allowed⟩
  | inserted key added inserted kind =>
      by_cases here : id = key
      · rw [here, Table.find_insert_self] at found
        cases found
        cases inserted.active.symm.trans revoked
      · rw [Table.find_insert_of_ne _ here] at found
        exact Or.inl ⟨new, found, revoked, allowed⟩
  | touched time =>
      rw [Table.find_map] at found
      rcases Option.map_eq_some_iff.mp found with ⟨row, present, same⟩
      subst same
      exact Or.inl ⟨row, present, revoked, allowed⟩
  | updated key row update present permitted executed =>
      by_cases here : id = key
      · subst here
        rw [Table.find_modify_self, present] at found
        cases found
        cases permitted with
        | setStatus status deletedAt deny time alive =>
            rcases StoreOp.executes_setStatus executed with
              ⟨actor, allowAdminDelete, generation, transition, permitted⟩
            have sameStatus : status = .revoked := revoked
            subst sameStatus
            rcases permitted allowed with impossible | ⟨_, caller⟩
            · cases impossible
            · exact Or.inr ⟨time, actor, allowAdminDelete, generation, transition, caller⟩
        | enroll => cases revoked
        | touch | setRole | setPassword | setQuota | purge | setUndoHours =>
            exact Or.inl ⟨row, present, revoked, allowed⟩
      · rw [Table.find_modify_of_ne _ here] at found
        exact Or.inl ⟨new, found, revoked, allowed⟩

/-- In the run the account revoked itself, and nothing has happened to its
status since. -/
def SelfRevoked (env : Environment) (store : Store) (ops : List StoreOp) (id : Uuid) : Prop :=
  ∃ before now actor allowAdminDelete generation after,
    ops = before ++ StoreOp.transition now actor id .revoked allowAdminDelete generation :: after ∧
    (∃ row, Caller (Runs.run (StoreOp.step env) store before) actor id row) ∧
    forall middle, middle <+: after ->
      Reopened id (Runs.run (StoreOp.step env) store (before ++
        .transition now actor id .revoked allowAdminDelete generation :: middle)).accounts

theorem selfRevoked_of_reopened {env : Environment} {dummyPasswordHash : Text}
    {ops : List StoreOp} {id : Uuid}
    (open_ : Reopened id (Runs.run (StoreOp.step env) (Store.initial dummyPasswordHash)
      ops).accounts) : SelfRevoked env (Store.initial dummyPasswordHash) ops id := by
  have start : ¬ Reopened id (Store.initial dummyPasswordHash).accounts := by
    rintro ⟨row, found, _⟩
    cases found
  rcases Runs.established (fun store : Store => Reopened id store.accounts) start open_ with
    ⟨before, op, after, split, closed, kept⟩
  have now := kept [] List.nil_prefix
  rw [Runs.run_concat] at now
  rcases StoreOp.step_cases env (Runs.run (StoreOp.step env) (Store.initial dummyPasswordHash)
    before) op with same | done
  · rw [same] at now
    exact absurd now closed
  rcases (StoreOp.apply_rows done).reopened now with
    already | ⟨time, actor, allowAdminDelete, generation, transition, caller⟩
  · exact absurd already closed
  · subst transition
    exact ⟨before, time, actor, allowAdminDelete, generation, after, split, caller, kept⟩

/-! ## Passwords of Linux accounts -/

theorem StoreOp.executes_setPassword {store : Store} {op : StoreOp} {id : Uuid}
    {hash : Option Text} {time : Nat} (executed : op.executes store id (.setPassword hash time)) :
    hash.isSome = true := by
  cases op with
  | setPassword now actor target password given =>
      cases executed.2
      rfl
  | copyAdminCredentials =>
      rcases executed.2 with ⟨copied, enrolled, same⟩
      cases same
      exact enrolled
  | transition =>
      rcases executed.2 with ⟨_, _, impossible, _⟩
      cases impossible
  | commitEnrollment => cases executed
  | setPanelScope | setRole | setAdminOwnWith | requirePasswordChange | setChildQuotaWith
  | setPolicy | setUndoPreferences | purge => cases executed.2
  | _ => cases executed

/-- A Linux account that has a password keeps one. -/
theorem RowsChange.enrolled {op : StoreOp} {store : Store} {after : Table Uuid AccountRow}
    (change : RowsChange op store after) {id : Uuid} {row new : AccountRow}
    (found : store.accounts.find id = some row) (newFound : after.find id = some new)
    (linux : row.kind = .linux) (has : row.webPasswordHash.isSome = true) :
    new.webPasswordHash.isSome = true := by
  cases change with
  | same =>
      cases found.symm.trans newFound
      exact has
  | inserted key added inserted kind =>
      have different : id ≠ key := by
        intro same
        rw [same, inserted.absent] at found
        cases found
      rw [Table.find_insert_of_ne _ different, found] at newFound
      cases newFound
      exact has
  | touched time =>
      rw [Table.find_map, found] at newFound
      cases newFound
      exact has
  | updated key old update present permitted executed =>
      by_cases here : id = key
      · subst here
        rw [Table.find_modify_self, found] at newFound
        cases newFound
        cases present.symm.trans found
        cases permitted with
        | setPassword hash time alive => exact StoreOp.executes_setPassword executed
        | enroll => rfl
        | purge storable =>
            -- A Linux row has no quota, so the statement of a purge violates the schema.
            cases AccountRow.shaped_of_storable storable with
            | linux _ _ quota => cases quota
            | admin virtual => cases linux.symm.trans virtual
            | user virtual => cases linux.symm.trans virtual
        | touch | setRole | setStatus | setQuota | setUndoHours => exact has
      · rw [Table.find_modify_of_ne _ here, found] at newFound
        cases newFound
        exact has

/-- A Linux account without a password never had one. -/
theorem never_enrolled (env : Environment) {store : Store} {id : Uuid} {row new : AccountRow}
    (found : store.accounts.find id = some row) (ops : List StoreOp)
    (newFound : (Runs.run (StoreOp.step env) store ops).accounts.find id = some new)
    (linux : new.kind = .linux) (without : new.webPasswordHash = none) :
    row.webPasswordHash = none := by
  induction ops generalizing store row with
  | nil =>
      cases found.symm.trans newFound
      exact without
  | cons op rest ih =>
      rcases StoreOp.step_cases env store op with same | done
      · exact ih (same.symm ▸ found) newFound
      · rcases (StoreOp.apply_accounts done).kept found with ⟨middle, middleFound, continues⟩
        have empty := ih middleFound newFound
        rcases StoreOp.run_kept env middleFound rest with ⟨last, lastFound, later⟩
        cases lastFound.symm.trans newFound
        have before : row.kind = .linux := continues.kind.symm.trans (later.kind.symm.trans linux)
        cases password : row.webPasswordHash with
        | none => rfl
        | some hash =>
            have has := (StoreOp.apply_rows done).enrolled found middleFound before
              (by rw [password]; rfl)
            rw [empty] at has
            cases has

/-! ## Who is enrolled -/

/-- An account whose password an enrollment may set, after a run. -/
inductive Enrollable (env : Environment) (start : Store) (ops : List StoreOp)
    (current : EnrollmentIdentity) (id : Uuid) : Prop where
  | absent
      (missing : (Runs.run (StoreOp.step env) start ops).accounts.find id = none)
      (unused : forall other row,
        (Runs.run (StoreOp.step env) start ops).accounts.find other = some row ->
          row.username ≠ current.username)
  | present (row : AccountRow)
      (found : (Runs.run (StoreOp.step env) start ops).accounts.find id = some row)
      (named : row.username = current.username) (linux : row.kind = .linux)
      (permitted : row.denyEnrollment = false) (unsuspended : row.status ≠ .suspended)
      (alive : row.status ≠ .deleted)
      (free : (row.webPasswordHash = none ∧ forall before after old, ops = before ++ after ->
          (Runs.run (StoreOp.step env) start before).accounts.find id = some old ->
            old.webPasswordHash = none) ∨
        (row.status = .revoked ∧ SelfRevoked env start ops id))

theorem enrollable_of_commit {env : Environment} {dummyPasswordHash : Text} {ops : List StoreOp}
    {token new : Uuid} {caller : CallerBinding} {current : EnrollmentIdentity} {hash : Text}
    {at_ : Nat} {result : Account} {final : Store}
    (done : (Runs.run (StoreOp.step env) (Store.initial dummyPasswordHash) ops).commitEnrollment
      env.digest token new caller current hash at_ = .ok (result, final))
    {id : Uuid} {row : AccountRow} (found : final.accounts.find id = some row) :
    (Runs.run (StoreOp.step env) (Store.initial dummyPasswordHash) ops).accounts.find id = some row ∨
      Enrollable env (Store.initial dummyPasswordHash) ops current id := by
  rcases commitEnrollment_ok done with ⟨proof, target, rows, _, _, enrolled, written⟩
  subst written
  by_cases here : id = target
  · subst here
    right
    cases enrolled with
    | created absent unused =>
        exact .absent absent (fun other present presentFound => (unused other present presentFound).1)
    | existing old oldFound located named linux permitted alive unsuspended open_ =>
        refine .present old oldFound named linux permitted unsuspended alive ?_
        rcases open_ with without | revoked
        · refine Or.inl ⟨without, ?_⟩
          intro before after earlier split earlierFound
          rw [split, Runs.run_append] at oldFound
          exact never_enrolled env earlierFound after oldFound linux without
        · exact Or.inr ⟨revoked, selfRevoked_of_reopened ⟨old, oldFound, revoked, permitted⟩⟩
  · left
    rw [Table.find_modify_of_ne _ here] at found
    cases enrolled with
    | created absent unused =>
        rw [Table.find_insert_of_ne _ here] at found
        exact found
    | existing old oldFound located named linux permitted alive unsuspended open_ => exact found

/-- A proof is consumed at most once; what it enrolls was absent, never
enrolled or revoked by its owner; and it is worthless after its user's account
was changed. -/
theorem enrollment_single_use (env : Environment) (dummyPasswordHash : Text)
    (ops : List StoreOp) :
    let store := Runs.run (StoreOp.step env) (Store.initial dummyPasswordHash) ops
    (forall token new caller current hash at_ result final,
      store.commitEnrollment env.digest token new caller current hash at_ = .ok (result, final) ->
      (forall id row, final.accounts.find id = some row ->
        store.accounts.find id = some row ∨
          Enrollable env (Store.initial dummyPasswordHash) ops current id) ∧
      forall later, (forall op state, StoreOp.Commits env final later op state ->
          ¬ op.begins env.digest (env.digest token)) ->
        forall other binding identity password time outcome,
          (Runs.run (StoreOp.step env) final later).commitEnrollment env.digest token other binding
            identity password time ≠ .ok outcome) ∧
    forall token identity caller at_ lifetime proof begun,
      store.beginEnrollment env.digest token identity caller at_ lifetime = .ok (proof, begun) ->
      forall later, (forall op state, StoreOp.Commits env begun later op state ->
          ¬ op.begins env.digest (env.digest token)) ->
        (∃ op state, StoreOp.Commits env begun later op state ∧
          op.revises state identity.username) ->
        forall new binding current hash time outcome,
          (Runs.run (StoreOp.step env) begun later).commitEnrollment env.digest token new binding
            current hash time ≠ .ok outcome := by
  refine ⟨?_, ?_⟩
  · intro token new caller current hash at_ result final done
    refine ⟨fun id row found => enrollable_of_commit done found, ?_⟩
    intro later none other binding identity password time outcome again
    exact not_spent_of_commit again ((spent_of_commit done).run later none)
  · intro token identity caller at_ lifetime proof begun done later none revised
    rcases revised with ⟨op, state, ⟨before, after, final, split, reached, committed⟩, revises⟩
    intro new binding current hash time outcome completed
    rcases beginEnrollment_ok done with ⟨_, _, expiresAt, written⟩
    have first : ProofFor (env.digest token) identity.username begun.enrollment := by
      subst written
      intro row found
      cases (Table.find_insert_self _ _ _).symm.trans found
      rfl
    have reachedBegun : ProofFor (env.digest token) identity.username state.enrollment := by
      rw [reached]
      refine first.run before ?_
      rintro earlier earlierState ⟨early, late, ending, inner, sameState, ended⟩
      refine none earlier earlierState ⟨early, late ++ op :: after, ending, ?_, sameState, ended⟩
      rw [split, inner, List.append_assoc, List.cons_append]
    have spent := spent_of_revises reachedBegun committed revises
    have ended : Runs.run (StoreOp.step env) begun later =
        Runs.run (StoreOp.step env) final after := by
      rw [split, Runs.run_append, ← reached]
      change Runs.run (StoreOp.step env) (StoreOp.step env state op) after = _
      rw [StoreOp.step_of_ok committed]
    rw [ended] at completed
    refine not_spent_of_commit completed (spent.run after ?_)
    rintro other otherState ⟨early, late, ending, inner, sameState, settled⟩
    refine none other otherState ⟨before ++ op :: early, late, ending, ?_, ?_, settled⟩
    · rw [split, inner, List.append_assoc, List.cons_append]
    · rw [Runs.run_append, ← reached, sameState]
      change _ = Runs.run (StoreOp.step env) (StoreOp.step env state op) early
      rw [StoreOp.step_of_ok committed]

namespace OneProof

def environment : Environment := ⟨⟨fun _ _ => .ok true⟩, Nat.toDigits 10, ⟨fun _ => 0⟩⟩

def caller : CallerBinding := ⟨1000, 7, 3, 9⟩

def identity : EnrollmentIdentity := ⟨"ann".toList, 1000, 1000, "/home/ann".toList⟩

/-- The store with one proof for a user who is not known yet. -/
def begun : Store :=
  Runs.run (StoreOp.step environment) (Store.initial []) [.beginEnrollment 4 identity caller 10 60]

end OneProof

open OneProof in
theorem enrollment_single_use_once :
    ∃ result final, begun.commitEnrollment environment.digest 4 1 caller identity [] 20 =
        .ok (result, final) ∧
      forall new binding current hash time outcome,
        final.commitEnrollment environment.digest 4 new binding current hash time ≠ .ok outcome := by
  have valid : (begun.commitEnrollment environment.digest 4 1 caller identity []
      20).toOption.isSome = true := by decide
  cases done : begun.commitEnrollment environment.digest 4 1 caller identity [] 20 with
  | error problem =>
      rw [done] at valid
      cases valid
  | ok pair =>
      rcases pair with ⟨result, final⟩
      have once := (enrollment_single_use environment []
        [.beginEnrollment 4 identity caller 10 60]).1 4 1 caller identity [] 20 result final done
      refine ⟨result, final, rfl, once.2 [] ?_⟩
      rintro op state ⟨before, after, _, split, _⟩
      cases before with
      | nil => cases split
      | cons first rest => cases split

end TealDrive
