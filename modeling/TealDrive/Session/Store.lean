import TealDrive.Accounts.Grants
import TealDrive.Accounts.Undo
import TealDrive.Library.History

namespace TealDrive

/-!
# Browser sessions

The server keeps its sessions in memory.  A session ends at two deadlines: one is
set when it is created and lowered by every grant attached to it, the other is
moved whenever the session is touched.  Sessions are also revoked, and swept by
three operations that each have a condition of their own.

The operations are the steps of a machine that also draws identifiers and lists
what happened, so that theorems can speak about whole runs.
-/

def AccountPolicyConfig.allowsLogin (policy : AccountPolicyConfig) (username : Text) : Bool :=
  policy.allowedUsers.contains username

namespace Browser

open History

structure Session where
  sessionId : Uuid
  grant : Option SessionGrant
  csrfToken : Text
  username : Text
  uid : Nat
  gid : Nat
  createdAt : Nat
  lastSeenAt : Nat
  expiresAt : Nat
  idleExpiresAt : Nat
  userAgent : Option Text
  ip : Option Text
  revoked : Bool
deriving DecidableEq

structure SessionCreateInput where
  username : Text
  uid : Nat
  gid : Nat
  userAgent : Option Text
  ip : Option Text

inductive SessionLookupResult where
  | found (session : Session)
  | notFound
  | expired
  | revoked
deriving DecidableEq

/-- The `Uuid` of a session is the key it is stored under. -/
structure InMemorySessionStore where
  sessions : Register Uuid Session Session.sessionId
  config : SessionConfig

/-- `InMemorySessionStore::classify`. -/
def Session.classify (session : Session) (now : Nat) : SessionLookupResult :=
  if session.revoked then .revoked
  else if now ≥ session.expiresAt ∨ now ≥ session.idleExpiresAt then .expired
  else .found session

/-- What `take_disallowed` removes. -/
def Session.disallowed (policy : AccountPolicyConfig) (session : Session) : Bool :=
  !session.revoked &&
    ((session.grant.isNone && !policy.allowsLogin session.username) ||
      (policy.rejectRoot && session.uid == 0) ||
      (policy.rejectSystemAccounts && decide (session.uid < policy.minimumRegularUid)))

/-- Revoke the session if it is the user's. -/
def Session.revokeFor (username : Text) (session : Session) : Session :=
  if session.username == username && !session.revoked then { session with revoked := true }
  else session

theorem Session.revokeFor_id (username : Text) (session : Session) :
    (session.revokeFor username).sessionId = session.sessionId := by
  unfold revokeFor
  split <;> rfl

namespace InMemorySessionStore

variable (store : InMemorySessionStore)

def new (config : SessionConfig) : InMemorySessionStore := ⟨.empty, config⟩

/-- The session with a fresh identifier and a fresh token. -/
def createSession (id : Uuid) (csrfToken : Text) (input : SessionCreateInput) (now : Nat) :
    Session × InMemorySessionStore :=
  let session : Session :=
    { sessionId := id
      grant := none
      csrfToken := csrfToken
      username := input.username
      uid := input.uid
      gid := input.gid
      createdAt := now
      lastSeenAt := now
      expiresAt := saturateU64 (now + store.config.absoluteTimeoutSeconds)
      idleExpiresAt := saturateU64 (now + store.config.idleTimeoutSeconds)
      userAgent := input.userAgent
      ip := input.ip
      revoked := false }
  (session, { store with sessions := store.sessions.insert session })

def attachGrant (id : Uuid) (grant : SessionGrant) (now : Nat) : Bool × InMemorySessionStore :=
  match store.sessions.find id with
  | none => (false, store)
  | some session =>
      if session.revoked ∨ grant.expiresAt ≤ now then (false, store)
      else
        (true, { store with
          sessions := store.sessions.replace { session with
            expiresAt := min session.expiresAt grant.expiresAt
            grant := some grant } })

def getSession (id : Uuid) (now : Nat) : SessionLookupResult :=
  match store.sessions.find id with
  | none => .notFound
  | some session => session.classify now

def touchSession (id : Uuid) (now : Nat) : SessionLookupResult × InMemorySessionStore :=
  match store.sessions.find id with
  | none => (.notFound, store)
  | some session =>
      match session.classify now with
      | .found _ =>
          let touched := { session with
            lastSeenAt := now
            idleExpiresAt := saturateU64 (now + store.config.idleTimeoutSeconds) }
          (.found touched, { store with sessions := store.sessions.replace touched })
      | other => (other, store)

def revokeSession (id : Uuid) : Bool × InMemorySessionStore :=
  match store.sessions.find id with
  | none => (false, store)
  | some session =>
      (true, { store with sessions := store.sessions.replace { session with revoked := true } })

/-- The sessions of a user that are not revoked yet. -/
def ofUser (username : Text) : List Session :=
  (store.sessions.table.rows.map Prod.snd).filter (fun session =>
    session.username == username && !session.revoked)

def revokeAllForUser (username : Text) : Nat × InMemorySessionStore :=
  ((store.ofUser username).length, { store with
    sessions := store.sessions.map (Session.revokeFor username) (Session.revokeFor_id username) })

def takeDisallowed (policy : AccountPolicyConfig) : List Session × InMemorySessionStore :=
  ((store.sessions.table.rows.map Prod.snd).filter (Session.disallowed policy), { store with
    sessions := store.sessions.filter (fun _ session => !session.disallowed policy) })

def takeExpired (now : Nat) : List Session × InMemorySessionStore :=
  ((store.sessions.table.rows.map Prod.snd).filter (fun session =>
      decide (session.classify now = .expired)), { store with
    sessions := (store.sessions.filter (fun _ session =>
      !decide (session.classify now = .expired))).filter (fun _ session => !session.revoked) })

def cleanupExpired (now : Nat) : Nat × InMemorySessionStore :=
  let kept := store.sessions.filter (fun _ session =>
    !(decide (session.classify now = .expired) || decide (session.classify now = .revoked)))
  (store.sessions.table.size - kept.table.size, { store with sessions := kept })

def updateConfig (config : SessionConfig) : InMemorySessionStore := { store with config := config }

end InMemorySessionStore

/-! ## The machine -/

inductive SessionOp where
  | create (input : SessionCreateInput) (csrfToken : Text) (now : Nat)
  | attachGrant (id : Uuid) (grant : SessionGrant) (now : Nat)
  | touch (id : Uuid) (now : Nat)
  | get (id : Uuid) (now : Nat)
  | revoke (id : Uuid)
  | revokeAllForUser (username : Text)
  | takeDisallowed (policy : AccountPolicyConfig)
  | takeExpired (now : Nat)
  | cleanupExpired (now : Nat)
  | updateConfig (config : SessionConfig)

/-- The time an operation reads. -/
def SessionOp.time? : SessionOp -> Option Nat
  | .create _ _ now | .attachGrant _ _ now | .touch _ now | .get _ now | .takeExpired now
  | .cleanupExpired now => some now
  | _ => none

inductive SessionEvent where
  /-- A session was created, with the timeouts then configured. -/
  | created (id : Uuid) (at_ absolute idle : Nat)
  | attached (id : Uuid) (expiresAt : Nat)
  /-- A touch was successful, with the idle timeout then configured. -/
  | touched (id : Uuid) (at_ idle : Nat)
  | revoked (id : Uuid)
  /-- A lookup answered something other than `Found`. -/
  | refused (id : Uuid)
deriving DecidableEq

namespace SessionEvent

def id : SessionEvent -> Uuid
  | .created id _ _ _ | .attached id _ | .touched id _ _ | .revoked id | .refused id => id

/-- Creations and touches start the idle time anew. -/
def refresh (session : Uuid) : SessionEvent -> Option (Nat × Nat)
  | .created id at_ _ idle => if id = session then some (at_, idle) else none
  | .touched id at_ idle => if id = session then some (at_, idle) else none
  | _ => none

def Creates (session : Uuid) (event : SessionEvent) : Prop :=
  ∃ at_ absolute idle, event = .created session at_ absolute idle

def Refuses (session : Uuid) (event : SessionEvent) : Prop := event = .refused session

end SessionEvent

structure SessionSystem where
  store : InMemorySessionStore
  /-- How many identifiers were drawn. -/
  drawn : Nat
  /-- The latest time that was read. -/
  clock : Nat
  log : List SessionEvent

/-- What a lookup adds to the log. -/
def SessionLookupResult.refusal (id : Uuid) : SessionLookupResult -> List SessionEvent
  | .found _ => []
  | _ => [.refused id]

namespace SessionSystem

def initial (config : SessionConfig) : SessionSystem := ⟨.new config, 0, 0, []⟩

/-- The next store and the events of an operation, given a fresh identifier. -/
def perform (fresh : Uuid) (store : InMemorySessionStore) :
    SessionOp -> InMemorySessionStore × List SessionEvent
  | .create input csrfToken now =>
      ((store.createSession fresh csrfToken input now).2,
        [.created fresh now store.config.absoluteTimeoutSeconds store.config.idleTimeoutSeconds])
  | .attachGrant id grant now =>
      let (attached, after) := store.attachGrant id grant now
      (after, if attached then [.attached id grant.expiresAt] else [])
  | .touch id now =>
      let (result, after) := store.touchSession id now
      (after, match result with
        | .found _ => [.touched id now store.config.idleTimeoutSeconds]
        | other => other.refusal id)
  | .get id now => (store, (store.getSession id now).refusal id)
  | .revoke id =>
      let (revoked, after) := store.revokeSession id
      (after, if revoked then [.revoked id] else [])
  | .revokeAllForUser username =>
      ((store.revokeAllForUser username).2,
        (store.ofUser username).map (fun session => .revoked session.sessionId))
  | .takeDisallowed policy => ((store.takeDisallowed policy).2, [])
  | .takeExpired now => ((store.takeExpired now).2, [])
  | .cleanupExpired now => ((store.cleanupExpired now).2, [])
  | .updateConfig config => (store.updateConfig config, [])

def step (ids : Nat -> Uuid) (system : SessionSystem) (op : SessionOp) : SessionSystem :=
  let (after, events) := perform (ids system.drawn) system.store op
  { store := after
    drawn := system.drawn + 1
    clock := op.time?.getD system.clock
    log := events ++ system.log }

/-- The clock does not go back. -/
def Timely (system : SessionSystem) (op : SessionOp) : Prop :=
  system.clock ≤ op.time?.getD system.clock

instance (system : SessionSystem) (op : SessionOp) : Decidable (Timely system op) :=
  inferInstanceAs (Decidable (_ ≤ _))

end SessionSystem

end Browser

end TealDrive
