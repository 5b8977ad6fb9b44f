import TealDrive.Session.Store

namespace TealDrive

/-!
# Dead sessions stay dead

What a stored session owes to the history of its identifier is one invariant: its
deadlines are no later than the history allows, it is revoked if the history says
so, and if a lookup was ever refused it is dead by now.  Being dead is kept by
every operation, since nothing moves the first deadline back, and the second one
is moved for living sessions only.
-/

namespace Browser

open History SessionEvent

/-- No lookup finds the session from now on. -/
def Session.Dead (session : Session) (now : Nat) : Prop :=
  session.revoked = true ∨ session.expiresAt ≤ now ∨ session.idleExpiresAt ≤ now

theorem Session.Dead.later {session : Session} {now later : Nat} (dead : session.Dead now)
    (after : now ≤ later) : session.Dead later := by
  rcases dead with revoked | expired | idle
  · exact Or.inl revoked
  · exact Or.inr (Or.inl (Nat.le_trans expired after))
  · exact Or.inr (Or.inr (Nat.le_trans idle after))

theorem Session.classify_found {session other : Session} {now : Nat} :
    session.classify now = .found other ↔ other = session ∧ ¬ session.Dead now := by
  unfold classify Dead
  cases revoked : session.revoked with
  | true => simp
  | false =>
      simp only [Bool.false_eq_true, if_false, false_or]
      split
      · next late =>
          constructor
          · intro impossible
            cases impossible
          · intro found
            exact absurd late found.2
      · next early =>
          constructor
          · intro same
            cases same
            exact ⟨rfl, early⟩
          · rintro ⟨rfl, _⟩
            rfl

/-- A session that is not found is dead, and the refusal is listed. -/
theorem Session.classify_cases (session : Session) (now : Nat) :
    (¬ session.Dead now ∧ session.classify now = .found session) ∨
      (session.Dead now ∧ forall id, (session.classify now).refusal id = [.refused id]) := by
  unfold classify Dead
  cases revoked : session.revoked with
  | true => exact Or.inr ⟨Or.inl rfl, fun _ => rfl⟩
  | false =>
      simp only [Bool.false_eq_true, if_false, false_or]
      split
      · next late => exact Or.inr ⟨late, fun _ => rfl⟩
      · next early => exact Or.inl ⟨early, rfl⟩

theorem saturateU64_le (value : Nat) : saturateU64 value ≤ value := Nat.min_le_left _ _

/-! ## What the operations do -/

namespace InMemorySessionStore

variable (store : InMemorySessionStore)

theorem attachGrant_cases (id : Uuid) (grant : SessionGrant) (now : Nat) :
    store.attachGrant id grant now = (false, store) ∨
      ∃ session, store.sessions.find id = some session ∧
        store.attachGrant id grant now = (true, { store with
          sessions := store.sessions.replace { session with
            expiresAt := min session.expiresAt grant.expiresAt
            grant := some grant } }) := by
  unfold attachGrant
  cases found : store.sessions.find id with
  | none => exact Or.inl rfl
  | some session =>
      by_cases refused : session.revoked = true ∨ grant.expiresAt ≤ now
      · exact Or.inl (if_pos refused)
      · exact Or.inr ⟨session, rfl, if_neg refused⟩

/-- A touch answers what a lookup does, and changes a living session only. -/
theorem touchSession_cases (id : Uuid) (now : Nat) :
    (store.touchSession id now = (store.getSession id now, store) ∧
        forall session, store.getSession id now ≠ .found session) ∨
      ∃ session, store.sessions.find id = some session ∧ ¬ session.Dead now ∧
        store.touchSession id now =
          (.found { session with
            lastSeenAt := now
            idleExpiresAt := saturateU64 (now + store.config.idleTimeoutSeconds) },
          { store with
            sessions := store.sessions.replace { session with
              lastSeenAt := now
              idleExpiresAt := saturateU64 (now + store.config.idleTimeoutSeconds) } }) := by
  unfold touchSession getSession
  cases found : store.sessions.find id with
  | none =>
      refine Or.inl ⟨rfl, ?_⟩
      intro session impossible
      cases impossible
  | some session =>
      cases classified : session.classify now with
      | found other => exact Or.inr ⟨session, rfl, (Session.classify_found.mp classified).2, by
          simp only [classified]⟩
      | _ =>
          refine Or.inl ⟨by simp only [classified], ?_⟩
          intro other impossible
          cases classified.symm.trans impossible

theorem revokeSession_cases (id : Uuid) :
    store.revokeSession id = (false, store) ∨
      ∃ session, store.sessions.find id = some session ∧
        store.revokeSession id = (true, { store with
          sessions := store.sessions.replace { session with revoked := true } }) := by
  unfold revokeSession
  cases found : store.sessions.find id with
  | none => exact Or.inl rfl
  | some session => exact Or.inr ⟨session, rfl, rfl⟩

end InMemorySessionStore

/-! ## One session -/

/-- What the history of its identifier says about a stored session. -/
structure SessionSound (clock : Nat) (log : List SessionEvent) (session : Session) : Prop where
  born : ∃ event, event ∈ log ∧ Creates session.sessionId event
  absolute : forall at_ absolute idle,
    .created session.sessionId at_ absolute idle ∈ log -> session.expiresAt ≤ at_ + absolute
  granted : forall expiresAt, .attached session.sessionId expiresAt ∈ log ->
    session.expiresAt ≤ expiresAt
  refreshed : ∃ at_ idle, log.findSome? (refresh session.sessionId) = some (at_, idle) ∧
    session.idleExpiresAt ≤ at_ + idle
  revoked : .revoked session.sessionId ∈ log -> session.revoked = true
  refused : Since (Refuses session.sessionId) (Creates session.sessionId) log ->
    session.Dead clock

namespace SessionSound

variable {clock : Nat} {log : List SessionEvent} {session : Session}

theorem later {now : Nat} (sound : SessionSound clock log session) (after : clock ≤ now) :
    SessionSound now log session :=
  { sound with refused := fun since => (sound.refused since).later after }

/-- Events of other sessions say nothing. -/
theorem other (sound : SessionSound clock log session) {event : SessionEvent}
    (apart : event.id ≠ session.sessionId) : SessionSound clock (event :: log) session := by
  have about : forall own : SessionEvent, own.id = session.sessionId -> own ∈ event :: log ->
      own ∈ log := by
    intro own named member
    rcases List.mem_cons.mp member with here | there
    · exact absurd (here ▸ named) apart
    · exact there
  have silent : refresh session.sessionId event = none := by
    cases event with
    | created id at_ absolute idle => exact if_neg apart
    | touched id at_ idle => exact if_neg apart
    | _ => rfl
  constructor
  case born =>
    rcases sound.born with ⟨birth, listed, creates⟩
    exact ⟨birth, List.mem_cons_of_mem _ listed, creates⟩
  case absolute =>
    intro at_ absolute idle member
    exact sound.absolute at_ absolute idle (about _ rfl member)
  case granted => exact fun expiresAt member => sound.granted expiresAt (about _ rfl member)
  case refreshed =>
    rcases sound.refreshed with ⟨at_, idle, found, bounded⟩
    exact ⟨at_, idle, by rw [List.findSome?_cons, silent]; exact found, bounded⟩
  case revoked => exact fun member => sound.revoked (about _ rfl member)
  case refused =>
    rw [since_cons_of_neither]
    · exact sound.refused
    · rintro rfl
      exact apart rfl
    · rintro ⟨_, _, _, rfl⟩
      exact apart rfl

/-- An event of the session itself that is neither its creation nor a touch. -/
theorem own (sound : SessionSound clock log session) {event : SessionEvent}
    (silent : refresh session.sessionId event = none)
    (uncreated : ¬ Creates session.sessionId event)
    (granted : forall expiresAt, event = .attached session.sessionId expiresAt ->
      session.expiresAt ≤ expiresAt)
    (revoked : event = .revoked session.sessionId -> session.revoked = true)
    (refused : event = .refused session.sessionId -> session.Dead clock) :
    SessionSound clock (event :: log) session := by
  constructor
  case born =>
    rcases sound.born with ⟨birth, listed, creates⟩
    exact ⟨birth, List.mem_cons_of_mem _ listed, creates⟩
  case absolute =>
    intro at_ absolute idle member
    rcases List.mem_cons.mp member with here | there
    · exact absurd ⟨at_, absolute, idle, here.symm⟩ uncreated
    · exact sound.absolute at_ absolute idle there
  case granted =>
    intro expiresAt member
    rcases List.mem_cons.mp member with here | there
    · exact granted expiresAt here.symm
    · exact sound.granted expiresAt there
  case refreshed =>
    rcases sound.refreshed with ⟨at_, idle, found, bounded⟩
    exact ⟨at_, idle, by rw [List.findSome?_cons, silent]; exact found, bounded⟩
  case revoked =>
    intro member
    rcases List.mem_cons.mp member with here | there
    · exact revoked here.symm
    · exact sound.revoked there
  case refused =>
    intro since
    rcases since_cons.mp since with here | ⟨before, _⟩
    · exact refused here
    · exact sound.refused before

/-- A refusal of a dead session. -/
theorem refuse (sound : SessionSound clock log session) (dead : session.Dead clock) :
    SessionSound clock (.refused session.sessionId :: log) session :=
  sound.own rfl (by rintro ⟨_, _, _, impossible⟩; cases impossible)
    (by intro _ impossible; cases impossible) (by intro impossible; cases impossible)
    (fun _ => dead)

/-- A grant lowers the first deadline. -/
theorem attach (sound : SessionSound clock log session) (grant : SessionGrant) :
    SessionSound clock (.attached session.sessionId grant.expiresAt :: log) { session with
      expiresAt := min session.expiresAt grant.expiresAt
      grant := some grant } := by
  have lowered : SessionSound clock log { session with
      expiresAt := min session.expiresAt grant.expiresAt
      grant := some grant } :=
    { born := sound.born
      absolute := fun at_ absolute idle member =>
        Nat.le_trans (Nat.min_le_left _ _) (sound.absolute at_ absolute idle member)
      granted := fun expiresAt member =>
        Nat.le_trans (Nat.min_le_left _ _) (sound.granted expiresAt member)
      refreshed := sound.refreshed
      revoked := sound.revoked
      refused := by
        intro since
        rcases sound.refused since with revoked | expired | idle
        · exact Or.inl revoked
        · exact Or.inr (Or.inl (Nat.le_trans (Nat.min_le_left _ _) expired))
        · exact Or.inr (Or.inr idle) }
  refine lowered.own rfl (by rintro ⟨_, _, _, impossible⟩; cases impossible) ?_
    (by intro impossible; cases impossible) (by intro impossible; cases impossible)
  intro expiresAt same
  cases same
  exact Nat.min_le_right _ _

/-- A touch moves the second deadline of a living session. -/
theorem touch (sound : SessionSound clock log session) (alive : ¬ session.Dead clock)
    (idle : Nat) : SessionSound clock (.touched session.sessionId clock idle :: log) { session with
      lastSeenAt := clock
      idleExpiresAt := saturateU64 (clock + idle) } := by
  constructor
  case born =>
    rcases sound.born with ⟨birth, listed, creates⟩
    exact ⟨birth, List.mem_cons_of_mem _ listed, creates⟩
  case absolute =>
    intro at_ absolute idle member
    rcases List.mem_cons.mp member with impossible | there
    · cases impossible
    · exact sound.absolute at_ absolute idle there
  case granted =>
    intro expiresAt member
    rcases List.mem_cons.mp member with impossible | there
    · cases impossible
    · exact sound.granted expiresAt there
  case refreshed => exact ⟨clock, idle, by simp [refresh], saturateU64_le _⟩
  case revoked =>
    intro member
    rcases List.mem_cons.mp member with impossible | there
    · cases impossible
    · exact sound.revoked there
  case refused =>
    intro since
    rcases since_cons.mp since with impossible | ⟨before, _⟩
    · cases impossible
    · exact absurd (sound.refused before) alive

theorem revoke (sound : SessionSound clock log session) :
    SessionSound clock log { session with revoked := true } :=
  { sound with
    revoked := fun _ => rfl
    refused := fun _ => Or.inl rfl }

/-- Revocations are listed for revoked sessions only. -/
theorem revocations (sound : SessionSound clock log session) {events : List SessionEvent}
    (only : forall event, event ∈ events -> ∃ id, event = .revoked id)
    (own : .revoked session.sessionId ∈ events -> session.revoked = true) :
    SessionSound clock (events ++ log) session := by
  induction events with
  | nil => exact sound
  | cons event rest ih =>
      have tail := ih (fun other member => only other (List.mem_cons_of_mem _ member))
        (fun member => own (List.mem_cons_of_mem _ member))
      rcases only event List.mem_cons_self with ⟨id, rfl⟩
      by_cases same : id = session.sessionId
      · refine tail.own rfl (by rintro ⟨_, _, _, impossible⟩; cases impossible)
          (by intro _ impossible; cases impossible) ?_ (by intro impossible; cases impossible)
        intro here
        exact own (here ▸ List.mem_cons_self)
      · exact tail.other same

/-- A session just created. -/
theorem create {session : Session} {at_ absolute idle : Nat}
    (fresh : forall event, event ∈ log -> event.id = session.sessionId ->
      event = .refused session.sessionId)
    (expires : session.expiresAt ≤ at_ + absolute) (rests : session.idleExpiresAt ≤ at_ + idle) :
    SessionSound clock (.created session.sessionId at_ absolute idle :: log) session := by
  constructor
  case born => exact ⟨_, List.mem_cons_self, at_, absolute, idle, rfl⟩
  case absolute =>
    intro at_ absolute idle member
    rcases List.mem_cons.mp member with here | there
    · cases here
      exact expires
    · cases fresh _ there rfl
  case granted =>
    intro expiresAt member
    rcases List.mem_cons.mp member with impossible | there
    · cases impossible
    · cases fresh _ there rfl
  case refreshed => exact ⟨at_, idle, by simp [refresh], rests⟩
  case revoked =>
    intro member
    rcases List.mem_cons.mp member with impossible | there
    · cases impossible
    · cases fresh _ there rfl
  case refused =>
    intro since
    rcases since_cons.mp since with impossible | ⟨_, uncreated⟩
    · cases impossible
    · exact absurd ⟨at_, absolute, idle, rfl⟩ uncreated

end SessionSound

/-! ## All sessions -/

/-- The invariant of the machine. -/
structure SessionsKept (ids : Nat -> Uuid) (system : SessionSystem) : Prop where
  sound : forall key session, system.store.sessions.find key = some session ->
    SessionSound system.clock system.log session
  known : forall key session, system.store.sessions.find key = some session ->
    ∃ index, index < system.drawn ∧ ids index = key
  listed : forall event, event ∈ system.log ->
    (∃ index, index < system.drawn ∧ ids index = event.id) ∨ event = .refused event.id

namespace SessionsKept

variable {ids : Nat -> Uuid} {system : SessionSystem}

theorem initial (ids : Nat -> Uuid) (config : SessionConfig) :
    SessionsKept ids (.initial config) where
  sound := by
    intro key session found
    cases found
  known := by
    intro key session found
    cases found
  listed := fun _ member => absurd member List.not_mem_nil

/-- An operation that stores no new session. -/
theorem next (kept : SessionsKept ids system)
    {after : InMemorySessionStore} {events : List SessionEvent} {now : Nat}
    (stored : forall key session, after.sessions.find key = some session ->
      (system.store.sessions.find key).isSome = true)
    (named : forall event, event ∈ events ->
      (system.store.sessions.find event.id).isSome = true ∨ event = .refused event.id)
    (sound : forall key session, after.sessions.find key = some session ->
      SessionSound now (events ++ system.log) session) :
    SessionsKept ids ⟨after, system.drawn + 1, now, events ++ system.log⟩ := by
  have drawn : forall key, (system.store.sessions.find key).isSome = true ->
      ∃ index, index < system.drawn + 1 ∧ ids index = key := by
    intro key present
    rcases Option.isSome_iff_exists.mp present with ⟨session, found⟩
    rcases kept.known key session found with ⟨index, below, same⟩
    exact ⟨index, Nat.lt_succ_of_lt below, same⟩
  refine ⟨sound, fun key session found => drawn key (stored key session found), ?_⟩
  intro event member
  rcases List.mem_append.mp member with new | old
  · rcases named event new with present | refused
    · exact Or.inl (drawn event.id present)
    · exact Or.inr refused
  · rcases kept.listed event old with ⟨index, below, same⟩ | refused
    · exact Or.inl ⟨index, Nat.lt_succ_of_lt below, same⟩
    · exact Or.inr refused

/-- Sessions are removed, and nothing is listed. -/
theorem shrink (kept : SessionsKept ids system) {after : InMemorySessionStore} {now : Nat}
    (timely : system.clock ≤ now)
    (fewer : forall key session, after.sessions.find key = some session ->
      system.store.sessions.find key = some session) :
    SessionsKept ids ⟨after, system.drawn + 1, now, system.log⟩ := by
  have grown := @next ids system kept after [] now
    (fun key session found => Option.isSome_iff_exists.mpr ⟨session, fewer key session found⟩)
    (fun event member => absurd member List.not_mem_nil)
    (fun key session found => (kept.sound key session (fewer key session found)).later timely)
  exact grown

/-- One stored session is replaced, and one event of its own is listed. -/
theorem rewrite (kept : SessionsKept ids system) {session changed : Session}
    {event : SessionEvent} {config : SessionConfig} {now : Nat} (timely : system.clock ≤ now)
    (found : system.store.sessions.find session.sessionId = some session)
    (same : changed.sessionId = session.sessionId) (about : event.id = session.sessionId)
    (sound : SessionSound now system.log session ->
      SessionSound now (event :: system.log) changed) :
    SessionsKept ids ⟨⟨system.store.sessions.replace changed, config⟩, system.drawn + 1, now,
      event :: system.log⟩ := by
  refine @next ids system kept _ [event] now ?_ ?_ ?_
  · intro key other present
    rw [← Register.isSome_find_replace changed key]
    exact Option.isSome_iff_exists.mpr ⟨other, present⟩
  · intro other member
    rw [List.mem_singleton.mp member, about, found]
    exact Or.inl rfl
  · intro key other present
    by_cases own : key = changed.sessionId
    · rw [own, Register.find_replace_self, same, found] at present
      cases present
      exact sound ((kept.sound _ session found).later timely)
    · rw [Register.find_replace_of_ne own] at present
      refine ((kept.sound key other present).later timely).other ?_
      rw [about, system.store.sessions.keyed key other present, ← same]
      exact fun equal => own equal.symm

/-- A lookup that does not find the session lists that. -/
theorem lookup (kept : SessionsKept ids system) {now : Nat}
    (timely : system.clock ≤ now) (id : Uuid) :
    SessionsKept ids ⟨system.store, system.drawn + 1, now,
      (system.store.getSession id now).refusal id ++ system.log⟩ := by
  have refusal : (system.store.getSession id now).refusal id = [] ∨
      (system.store.getSession id now).refusal id = [.refused id] := by
    cases system.store.getSession id now with
    | found session => exact Or.inl rfl
    | _ => exact Or.inr rfl
  refine @next ids system kept _ _ now ?_ ?_ ?_
  · exact fun key session found => Option.isSome_iff_exists.mpr ⟨session, found⟩
  · intro event member
    rcases refusal with none | one
    · rw [none] at member
      exact absurd member List.not_mem_nil
    · rw [one] at member
      rw [List.mem_singleton.mp member]
      exact Or.inr rfl
  · intro key session found
    have before := (kept.sound key session found).later timely
    have named := system.store.sessions.keyed key session found
    by_cases own : key = id
    · subst own
      have looked : system.store.getSession key now = session.classify now := by
        unfold InMemorySessionStore.getSession
        rw [found]
      rw [looked]
      rcases session.classify_cases now with ⟨_, alive⟩ | ⟨dead, refused⟩
      · rw [alive]
        exact before
      · rw [refused key, ← named]
        exact before.refuse dead
    · rcases refusal with none | one
      · rw [none]
        exact before
      · rw [one]
        refine before.other ?_
        rw [named]
        exact fun equal => own equal.symm

/-- A session is stored under the identifier just drawn. -/
theorem store (distinct : Function.Injective ids) (kept : SessionsKept ids system)
    {session : Session} {config : SessionConfig} {now absolute idle : Nat}
    (timely : system.clock ≤ now) (drawn : session.sessionId = ids system.drawn)
    (expires : session.expiresAt ≤ now + absolute) (rests : session.idleExpiresAt ≤ now + idle) :
    SessionsKept ids ⟨⟨system.store.sessions.insert session, config⟩, system.drawn + 1, now,
      .created session.sessionId now absolute idle :: system.log⟩ := by
  have unused : forall index, index < system.drawn -> ids index ≠ ids system.drawn :=
    fun index below same => absurd (distinct same) (Nat.ne_of_lt below)
  constructor
  case sound =>
    intro key other found
    by_cases new : key = session.sessionId
    · subst new
      have stored := (Register.find_insert_self session).symm.trans found
      cases stored
      refine SessionSound.create ?_ expires rests
      intro event member about
      rcases kept.listed event member with ⟨index, below, same⟩ | refused
      · exact absurd (same.trans (about.trans drawn)) (unused index below)
      · rw [about] at refused
        exact refused
    · have old := (Register.find_insert_of_ne new).symm.trans found
      apply ((kept.sound key other old).later timely).other
      rw [system.store.sessions.keyed key other old]
      exact fun equal => new equal.symm
  case known =>
    intro key other found
    by_cases new : key = session.sessionId
    · exact ⟨system.drawn, Nat.lt_succ_self _, (new.trans drawn).symm⟩
    · have old := (Register.find_insert_of_ne new).symm.trans found
      rcases kept.known key other old with ⟨index, below, same⟩
      exact ⟨index, Nat.lt_succ_of_lt below, same⟩
  case listed =>
    intro event member
    rcases List.mem_cons.mp member with rfl | old
    · exact Or.inl ⟨system.drawn, Nat.lt_succ_self _, drawn.symm⟩
    · rcases kept.listed event old with ⟨index, below, same⟩ | refused
      · exact Or.inl ⟨index, Nat.lt_succ_of_lt below, same⟩
      · exact Or.inr refused

theorem attachGrant (kept : SessionsKept ids system) (id : Uuid) (grant : SessionGrant) {now : Nat}
    (timely : system.clock ≤ now) :
    SessionsKept ids (system.step ids (.attachGrant id grant now)) := by
  dsimp only [SessionSystem.step, SessionSystem.perform]
  rcases system.store.attachGrant_cases id grant now with same | ⟨session, found, attached⟩
  · rw [same]
    exact kept.shrink timely (fun _ _ found => found)
  · rw [attached]
    have named := system.store.sessions.keyed id session found
    subst named
    exact kept.rewrite timely found rfl rfl (fun sound => sound.attach grant)

theorem touch (kept : SessionsKept ids system) (id : Uuid) {now : Nat}
    (timely : system.clock ≤ now) : SessionsKept ids (system.step ids (.touch id now)) := by
  dsimp only [SessionSystem.step, SessionSystem.perform]
  rcases system.store.touchSession_cases id now with
    ⟨refused, looked⟩ | ⟨session, found, alive, touched⟩
  · rw [refused]
    have listed := kept.lookup timely id
    cases answer : system.store.getSession id now with
    | found session => exact absurd answer (looked session)
    | _ =>
        rw [answer] at listed
        exact listed
  · rw [touched]
    have named := system.store.sessions.keyed id session found
    subst named
    exact kept.rewrite timely found rfl rfl (fun sound => sound.touch alive _)

theorem revoke (kept : SessionsKept ids system) (id : Uuid) :
    SessionsKept ids (system.step ids (.revoke id)) := by
  dsimp only [SessionSystem.step, SessionSystem.perform]
  rcases system.store.revokeSession_cases id with same | ⟨session, found, revoked⟩
  · rw [same]
    exact kept.shrink (Nat.le_refl _) (fun _ _ present => present)
  · rw [revoked]
    have named := system.store.sessions.keyed id session found
    subst named
    refine kept.rewrite (Nat.le_refl _) found rfl rfl ?_
    intro sound
    apply @SessionSound.revocations _ _ _ sound.revoke [.revoked session.sessionId]
    · intro event member
      exact ⟨_, List.mem_singleton.mp member⟩
    · exact fun _ => rfl

theorem revokeAllForUser (kept : SessionsKept ids system) (username : Text) :
    SessionsKept ids (system.step ids (.revokeAllForUser username)) := by
  have mine : forall session, session ∈ system.store.ofUser username ->
      system.store.sessions.find session.sessionId = some session ∧
        (session.username == username && !session.revoked) = true := by
    intro session member
    rcases List.mem_filter.mp member with ⟨stored, chosen⟩
    rcases List.mem_map.mp stored with ⟨row, present, rfl⟩
    have found : system.store.sessions.find row.1 = some row.2 :=
      Table.find_eq_some_iff.mpr present
    rw [system.store.sessions.keyed row.1 row.2 found]
    exact ⟨found, chosen⟩
  refine @next ids system kept _ _ system.clock ?_ ?_ ?_
  · intro key session found
    have mapped := (Register.find_map _ (Session.revokeFor_id username) key).symm.trans found
    rcases Option.map_eq_some_iff.mp mapped with ⟨old, present, _⟩
    exact Option.isSome_iff_exists.mpr ⟨old, present⟩
  · intro event member
    rcases List.mem_map.mp member with ⟨session, chosen, rfl⟩
    exact Or.inl (Option.isSome_iff_exists.mpr ⟨session, (mine session chosen).1⟩)
  · intro key session found
    have mapped := (Register.find_map _ (Session.revokeFor_id username) key).symm.trans found
    rcases Option.map_eq_some_iff.mp mapped with ⟨old, present, rfl⟩
    have before := kept.sound key old present
    refine SessionSound.revocations ?_ ?_ ?_
    · unfold Session.revokeFor
      split
      · exact before.revoke
      · exact before
    · intro event member
      rcases List.mem_map.mp member with ⟨other, _, rfl⟩
      exact ⟨_, rfl⟩
    · intro member
      rcases List.mem_map.mp member with ⟨other, chosen, same⟩
      rcases mine other chosen with ⟨stored, wanted⟩
      have equal : other = old := by
        have named := system.store.sessions.keyed key old present
        have id := SessionEvent.revoked.inj same
        rw [Session.revokeFor_id, named] at id
        rw [id, present] at stored
        exact (Option.some.inj stored).symm
      subst equal
      unfold Session.revokeFor
      rw [if_pos wanted]

theorem step (distinct : Function.Injective ids) (kept : SessionsKept ids system) {op : SessionOp}
    (timely : system.Timely op) : SessionsKept ids (system.step ids op) := by
  cases op with
  | create input csrfToken now =>
      exact kept.store distinct timely rfl (saturateU64_le _) (saturateU64_le _)
  | attachGrant id grant now => exact kept.attachGrant id grant timely
  | touch id now => exact kept.touch id timely
  | get id now => exact kept.lookup timely id
  | revoke id => exact kept.revoke id
  | revokeAllForUser username => exact kept.revokeAllForUser username
  | takeDisallowed policy =>
      refine kept.shrink (Nat.le_refl _) ?_
      intro key session found
      exact (Option.filter_eq_some_iff.mp ((Register.find_filter _ key).symm.trans found)).1
  | takeExpired now =>
      refine kept.shrink timely ?_
      intro key session found
      have inner := (Option.filter_eq_some_iff.mp ((Register.find_filter _ key).symm.trans found)).1
      exact (Option.filter_eq_some_iff.mp ((Register.find_filter _ key).symm.trans inner)).1
  | cleanupExpired now =>
      refine kept.shrink timely ?_
      intro key session found
      exact (Option.filter_eq_some_iff.mp ((Register.find_filter _ key).symm.trans found)).1
  | updateConfig config =>
      exact kept.shrink (Nat.le_refl _) (fun _ _ found => found)

end SessionsKept

/-! ## Lookups -/

/-- A lookup finds the session, by asking for it or by touching it. -/
def InMemorySessionStore.Finds (store : InMemorySessionStore) (id : Uuid) (now : Nat) : Prop :=
  ∃ session, store.getSession id now = .found session ∨
    (store.touchSession id now).1 = .found session

theorem InMemorySessionStore.getSession_found {store : InMemorySessionStore} {id : Uuid}
    {now : Nat} {session : Session} (looked : store.getSession id now = .found session) :
    store.sessions.find id = some session ∧ ¬ session.Dead now := by
  unfold getSession at looked
  cases stored : store.sessions.find id with
  | none =>
      rw [stored] at looked
      cases looked
  | some other =>
      rw [stored] at looked
      rcases Session.classify_found.mp looked with ⟨rfl, alive⟩
      exact ⟨rfl, alive⟩

theorem InMemorySessionStore.Finds.alive {store : InMemorySessionStore} {id : Uuid} {now : Nat}
    (finds : store.Finds id now) :
    ∃ session, store.sessions.find id = some session ∧ ¬ session.Dead now := by
  rcases finds with ⟨session, looked | touched⟩
  · exact ⟨session, getSession_found looked⟩
  · rcases store.touchSession_cases id now with ⟨same, refused⟩ | ⟨other, found, alive, _⟩
    · rw [same] at touched
      exact absurd touched (refused session)
    · exact ⟨other, found, alive⟩

/-- What the history of an identifier says when a lookup finds its session. -/
structure Living (id : Uuid) (now : Nat) (log : List SessionEvent) : Prop where
  born : ∃ event, event ∈ log ∧ Creates id event
  absolute : forall at_ absolute idle, .created id at_ absolute idle ∈ log -> now < at_ + absolute
  granted : forall expiresAt, .attached id expiresAt ∈ log -> now < expiresAt
  refreshed : ∃ at_ idle, log.findSome? (refresh id) = some (at_, idle) ∧ now < at_ + idle
  unrevoked : .revoked id ∉ log
  unrefused : ¬ Since (Refuses id) (Creates id) log

/-- A session that can still be found is one that was created, is within all its
times and was neither revoked nor swept away or evicted since: what happens to
other sessions never brings a dead one back. -/
theorem dead_sessions_stay_dead (ids : Nat -> Uuid) (distinct : Function.Injective ids)
    (config : SessionConfig) (operations : List SessionOp)
    (timely : Runs.Each (SessionSystem.step ids) SessionSystem.Timely (.initial config) operations)
    (id : Uuid) (now : Nat)
    (later : (Runs.run (SessionSystem.step ids) (.initial config) operations).clock ≤ now)
    (finds : (Runs.run (SessionSystem.step ids) (.initial config) operations).store.Finds id now) :
    Living id now (Runs.run (SessionSystem.step ids) (.initial config) operations).log := by
  have kept : SessionsKept ids (Runs.run (SessionSystem.step ids) (.initial config) operations) :=
    Runs.invariant_each (SessionsKept ids) (fun _ _ timely kept => kept.step distinct timely)
      (.initial ids config) timely
  rcases finds.alive with ⟨session, found, alive⟩
  have named := kept.sound id session found
  have key := (Runs.run (SessionSystem.step ids) (.initial config) operations).store.sessions.keyed
    id session found
  have sound := named.later later
  rw [Session.Dead, not_or, not_or, Nat.not_le, Nat.not_le] at alive
  rcases alive with ⟨unrevoked, absolute, idle⟩
  subst key
  constructor
  case born => exact sound.born
  case absolute =>
    intro at_ span rest member
    exact Nat.lt_of_lt_of_le absolute (sound.absolute at_ span rest member)
  case granted =>
    intro expiresAt member
    exact Nat.lt_of_lt_of_le absolute (sound.granted expiresAt member)
  case refreshed =>
    rcases sound.refreshed with ⟨at_, span, latest, bounded⟩
    exact ⟨at_, span, latest, Nat.lt_of_lt_of_le idle bounded⟩
  case unrevoked => exact fun member => unrevoked (sound.revoked member)
  case unrefused =>
    intro since
    rcases sound.refused since with revoked | expired | rested
    · exact unrevoked revoked
    · exact absurd expired (Nat.not_le.mpr absolute)
    · exact absurd rested (Nat.not_le.mpr idle)

namespace OneSession

def config : SessionConfig :=
  { cookieName := []
    idleTimeoutSeconds := 30
    absoluteTimeoutSeconds := 600
    secureCookies := true
    sameSite := .strict }

def grant : SessionGrant := ⟨1, 2, 0, ⟨1000, 1, 1, 1⟩, 300⟩

/-- A session is created, bound to a grant and touched, while other users are
locked out. -/
def operations : List SessionOp :=
  [.create ⟨"alice".toList, 1000, 1000, none, none⟩ "token".toList 10,
    .attachGrant 100 grant 20,
    .touch 100 35,
    .revokeAllForUser "bob".toList,
    .takeExpired 60]

end OneSession

theorem dead_sessions_stay_dead_touched :
    Living 100 64 (Runs.run (SessionSystem.step (fun index => index + 100))
      (.initial OneSession.config) OneSession.operations).log :=
  dead_sessions_stay_dead (fun index => index + 100) (fun _ _ same => Nat.add_right_cancel same)
    OneSession.config OneSession.operations (by decide) 100 64 (by decide)
    ⟨_, Or.inl rfl⟩

end Browser

end TealDrive
