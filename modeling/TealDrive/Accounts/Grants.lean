import TealDrive.Accounts.Store

namespace TealDrive

open Outcome

/-!
# Session grants and enrollment proofs

A session grant is a row bound to one account generation and one calling
process.  Issuing a grant first deletes every row that can no longer verify,
and only then counts rows against the limits.  An enrollment proof is a token
whose digest is stored; completing it consumes the row and sets the password
in one transaction, after a check outside it.
-/

structure SessionGrant where
  nonce : Uuid
  accountId : Uuid
  generation : Nat
  caller : CallerBinding
  expiresAt : Nat
deriving DecidableEq

structure EnrollmentIdentity where
  username : Text
  uid : Nat
  gid : Nat
  home : Text
deriving DecidableEq

/-- `EnrollmentIdentity::eq`, which compares the homes as paths. -/
def EnrollmentIdentity.same (first second : EnrollmentIdentity) : Bool :=
  first.username == second.username && first.uid == second.uid && first.gid == second.gid &&
    samePath first.home second.home

/-- `CallerBinding::validate`.  A boot identifier that is not a UUID cannot be
expressed here. -/
def CallerBinding.validate (caller : CallerBinding) : Except StoreError Unit := do
  refuse (caller.pid == 0 || caller.startTime == 0) .invalidInput
  let _ ← number caller.startTime
  return ()

def EnrollmentIdentity.validate (identity : EnrollmentIdentity) : Except StoreError Unit :=
  refuse (Store.invalidIdentity identity.username identity.uid identity.gid identity.home)
    .invalidInput

/-- An expiry inside the lifetime bound that fits the database. -/
def expiry (bound at_ lifetime : Nat) : Except StoreError Nat := do
  refuse (lifetime == 0 || decide (lifetime > bound)) .invalidInput
  refuse (decide (at_ + lifetime > u64Max)) .invalidInput
  let _ ← number (at_ + lifetime)
  return at_ + lifetime

namespace Store

/-! ## Grants -/

/-- A row that `issue_grant` deletes before it counts. -/
def staleGrant (store : Store) (at_ : Nat) (grant : GrantRow) : Bool :=
  decide (grant.expiresAt ≤ at_) || grant.revoked ||
    (store.accounts.find grant.accountId).any
      (fun row => grant.accountGeneration != row.generation)

def issueGrant (nonce : Uuid) (id : Uuid) (generation : Nat) (caller : CallerBinding)
    (at_ lifetime : Nat) (store : Store) : Except StoreError (SessionGrant × Store) := do
  caller.validate
  let expiresAt ← expiry 43200 at_ lifetime
  let target ← store.account id
  refuse (target.generation != generation || target.status != .active || !target.loginEnabled)
    .forbidden
  let kept := store.sessionGrants.filter (fun _ grant => !store.staleGrant at_ grant)
  refuse (decide (kept.size ≥ 8192) ||
    decide (kept.count (fun _ grant => grant.accountId == id) ≥ 64)) .conflict
  let _ ← number generation
  refuse (kept.find nonce).isSome .database
  return (⟨nonce, id, generation, caller, expiresAt⟩,
    { store with sessionGrants := kept.insert nonce ⟨id, generation, caller, expiresAt, false⟩ })

/-- The row that a verification looks for. -/
def matchesGrant (grant : SessionGrant) (at_ : Nat) (row : GrantRow) : Bool :=
  row.accountId == grant.accountId && row.accountGeneration == grant.generation &&
    row.caller == grant.caller && row.expiresAt == grant.expiresAt &&
    decide (at_ < row.expiresAt) && !row.revoked

def verifyRestrictedGrant (grant : SessionGrant) (caller : CallerBinding) (at_ : Nat)
    (store : Store) : Except StoreError Account := do
  refuse (grant.caller != caller || decide (grant.expiresAt ≤ at_)) .forbidden
  let _ ← number grant.generation
  let _ ← number caller.startTime
  let _ ← number grant.expiresAt
  let _ ← number at_
  refuse (!(store.sessionGrants.find grant.nonce).any (matchesGrant grant at_)) .forbidden
  let target ← store.account grant.accountId
  store.verifyGeneration target.id grant.generation target.uid target.gid

def verifyGrant (grant : SessionGrant) (caller : CallerBinding) (at_ : Nat) (store : Store) :
    Except StoreError Account := do
  let account ← store.verifyRestrictedGrant grant caller at_
  refuse account.passwordChangeRequired .forbidden
  return account

def revokeGrant (grant : SessionGrant) (caller : CallerBinding) (at_ : Nat) (store : Store) :
    Except StoreError (Unit × Store) := do
  let _ ← store.verifyRestrictedGrant grant caller at_
  return ((), { store with
    sessionGrants := store.sessionGrants.modify grant.nonce
      (fun row => { row with revoked := true }) })

/-! ## Enrollment -/

/-- An account that a proof of the identity must not touch. -/
def refusesEnrollment (target : Account) (identity : EnrollmentIdentity) : Bool :=
  target.kind != .linux || target.uid != identity.uid || target.gid != identity.gid ||
    !samePath target.home identity.home || target.denyEnrollment || target.status == .suspended ||
    target.status == .deleted

section Digest

variable (digest : Uuid -> Text)

def beginEnrollment (token : Uuid) (identity : EnrollmentIdentity) (caller : CallerBinding)
    (at_ lifetime : Nat) (store : Store) : Except StoreError (Uuid × Store) := do
  identity.validate
  caller.validate
  let expiresAt ← expiry 300 at_ lifetime
  forSome (store.findUsername identity.username) (fun target =>
    refuse (refusesEnrollment target identity ||
      (target.passwordEnrolled && !(target.status == .revoked && !target.denyEnrollment)))
      .forbidden)
  let kept := store.enrollment.filter (fun _ row =>
    !(decide (row.expiresAt ≤ at_) || row.consumed ||
      (row.username == identity.username && row.caller.uid == caller.uid &&
        row.caller.pid == caller.pid)))
  refuse (decide (kept.size ≥ 1024)) .conflict
  refuse (kept.find (digest token)).isSome .database
  return (token, { store with
    enrollment := kept.insert (digest token)
      ⟨identity.username, identity.uid, identity.gid, identity.home, caller, expiresAt, false⟩ })

/-- The row a proof names, still usable by the caller. -/
def usableProof (caller : CallerBinding) (at_ : Nat) (row : EnrollmentRow) : Bool :=
  row.caller == caller && decide (at_ < row.expiresAt) && !row.consumed

def enrollmentIdentity (token : Uuid) (caller : CallerBinding) (at_ : Nat) (store : Store) :
    Except StoreError EnrollmentIdentity := do
  let _ ← number caller.startTime
  let _ ← number at_
  let row ← okOr ((store.enrollment.find (digest token)).filter (usableProof caller at_))
    .invalidCredentials
  let identity : EnrollmentIdentity := ⟨row.username, row.uid, row.gid, row.home⟩
  identity.validate
  return identity

/-- The part of `complete_enrollment` outside its transaction. -/
def checkEnrollment (token : Uuid) (caller : CallerBinding) (current : EnrollmentIdentity)
    (at_ : Nat) (store : Store) : Except StoreError Unit := do
  let snapshot ← store.enrollmentIdentity digest token caller at_
  refuse (!snapshot.same current) .forbidden

/-- A Linux account as enrollment inserts it. -/
def enrolledRow (current : EnrollmentIdentity) (at_ : Nat) : AccountRow :=
  newRow at_ ⟨current.username, current.uid, current.gid, current.home, .linux, .user, none, none⟩

/-- The account the proof enrolls, inserted when the username is new. -/
def enrollmentTarget (id : Uuid) (current : EnrollmentIdentity) (at_ : Nat) (store : Store) :
    Except StoreError (Uuid × Store) :=
  match store.findUsername current.username with
  | some target => do
      refuse (refusesEnrollment target current ||
        (target.passwordEnrolled && target.status != .revoked)) .forbidden
      return (target.id, store)
  | none => do
      let inserted ← store.insertAccount id (enrolledRow current at_)
      return (id, inserted)

/-- The transaction of `complete_enrollment`, given the hash of the password
and an identifier for a new account. -/
def commitEnrollment (token id : Uuid) (caller : CallerBinding) (current : EnrollmentIdentity)
    (hash : Text) (at_ : Nat) (store : Store) : Except StoreError (Account × Store) := do
  let _ ← number caller.startTime
  let _ ← number at_
  let _ ← okOr ((store.enrollment.find (digest token)).filter (usableProof caller at_))
    .invalidCredentials
  let consumed := { store with
    enrollment := store.enrollment.modify (digest token) (fun row => { row with consumed := true }) }
  let (target, inserted) ← consumed.enrollmentTarget id current at_
  let final ← inserted.execute (.enroll hash at_) target
  let result ← final.account target
  return (result, final)

/-- `complete_enrollment` when nothing happens in between. -/
def completeEnrollment (token id : Uuid) (caller : CallerBinding) (current : EnrollmentIdentity)
    (hash : Text) (at_ : Nat) (store : Store) : Except StoreError (Account × Store) := do
  store.checkEnrollment digest token caller current at_
  store.commitEnrollment digest token id caller current hash at_

end Digest

end Store

end TealDrive
