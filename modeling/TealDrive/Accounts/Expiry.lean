import TealDrive.Accounts.Processes

namespace TealDrive

open Outcome History

/-!
# Expiry of trash and claimed undos

A cleanup judges an item by its token, and a claim is written to the operation
record only.  While an undo run holds the lock of the root no cleanup worker can
run, and an undo that succeeded takes the token away.  What is left are undo runs
that end without having stored an outcome: nothing in the token tells a later
cleanup about their claim.
-/

namespace SystemEvent

def claimsItem (account id : Uuid) : SystemEvent -> Prop
  | .claimed owner item => owner = account ∧ item = id
  | _ => False

/-- `finish_undo` records that the undo failed. -/
def undoFails (account id : Uuid) : SystemEvent -> Prop
  | .settled owner item status => owner = account ∧ item = id ∧ status = some .failed
  | _ => False

instance (account id : Uuid) : DecidablePred (claimsItem account id)
  | .claimed _ _ => inferInstanceAs (Decidable (_ ∧ _))
  | .begun _ _ _ | .closed _ _ _ _ _ | .ended _ _ | .settled _ _ _ | .expired _ _ =>
      isFalse (fun claimed => claimed)

instance (account id : Uuid) : DecidablePred (undoFails account id)
  | .settled _ _ _ => inferInstanceAs (Decidable (_ ∧ _))
  | .begun _ _ _ | .closed _ _ _ _ _ | .ended _ _ | .claimed _ _ | .expired _ _ =>
      isFalse (fun failed => failed)

end SystemEvent

/-- The operation was claimed, and no failure of the undo is recorded since. -/
def UndoClaimed (history : List SystemEvent) (account id : Uuid) : Prop :=
  Since (SystemEvent.claimsItem account id) (SystemEvent.undoFails account id) history

instance (history : List SystemEvent) (account id : Uuid) :
    Decidable (UndoClaimed history account id) :=
  decidableSince history

/-- No cleanup got as far as `expire_trash` for a claimed operation. -/
def ExpirySafe (history : List SystemEvent) : Prop :=
  forall later account id earlier, history = later ++ .expired account id :: earlier ->
    ¬ UndoClaimed earlier account id

/-- The process is not in the middle of an undo of a trash operation: it has
recorded success or failure, if it claimed one. -/
def Phase.mayEnd : Phase -> Prop
  | .claimed record _ => record.action ≠ .trash
  | .settled record _ outcome =>
      record.action = .trash -> outcome = some .success ∨ outcome = some .failed
  | _ => True

instance : DecidablePred Phase.mayEnd
  | .claimed _ _ => inferInstanceAs (Decidable (_ ≠ _))
  | .settled _ _ _ => inferInstanceAs (Decidable (_ -> _))
  | .idle | .waiting _ _ | .locked _ _ | .acting _ _ | .selected _ | .fresh _ _ | .fenced _ _ _
  | .begun _ | .finished _ | .asked _ _ | .undoing _ _ | .listed _ _ | .picked _ _ _
  | .expiring _ _ _ | .worked _ _ _ _ | .refused _ | .ended => isTrue trivial

/-- No undo run of a trash operation ends before it has recorded success or
failure. -/
def Settles (system : System) : SystemStep -> Prop
  | .stop run => (system.phases run).mayEnd
  | _ => True

instance (system : System) : DecidablePred (Settles system)
  | .stop run => inferInstanceAs (Decidable (system.phases run).mayEnd)
  | .other _ | .start _ _ _ | .acquire _ | .authorize _ _ | .select _ _ _ | .write _ | .fence _
  | .insert _ _ _ _ | .finish _ _ _ _ _ _ | .ask _ _ _ _ | .claim _ _ _ | .settle _ _ _ _
  | .list _ _ _ _ | .pick _ _ | .expire _ _ _ | .conclude _ _ _ => isTrue trivial

/-! ## The invariant -/

/-- The record goes back to an operation that was begun. -/
def Origin (log : List JournalEvent) (record : OperationRecord) : Prop :=
  ∃ born, .begun born ∈ log ∧ Descends born record

namespace Phase

/-- What a process remembers of an operation was begun. -/
def Traced (log : List JournalEvent) : Phase -> Prop
  | .asked call record | .undoing call record => Origin log record ∧ record.id = call.operationId
  | .claimed record claim | .settled record claim _ =>
      Origin log record ∧ Origin log claim ∧ claim.id = record.id
  | .picked _ copy _ | .expiring _ copy _ | .worked _ copy _ _ =>
      Origin log copy ∧ copy.action = .trash
  | _ => True

/-- The claim whose outcome a process has yet to record. -/
def owes : Phase -> Option OperationRecord
  | .claimed _ claim => some claim
  | .settled _ claim none | .settled _ claim (some .pending) | .settled _ claim (some .unknown) =>
      some claim
  | _ => none

theorem Traced.longer {log longer : List JournalEvent} {phase : Phase} (traced : phase.Traced log)
    (more : forall born, .begun born ∈ log -> .begun born ∈ longer) : phase.Traced longer := by
  have origin : forall record, Origin log record -> Origin longer record := by
    rintro record ⟨born, listed, descends⟩
    exact ⟨born, more born listed, descends⟩
  cases phase with
  | asked call record => exact ⟨origin record traced.1, traced.2⟩
  | undoing call record => exact ⟨origin record traced.1, traced.2⟩
  | claimed record claim => exact ⟨origin record traced.1, origin claim traced.2.1, traced.2.2⟩
  | settled record claim outcome =>
      exact ⟨origin record traced.1, origin claim traced.2.1, traced.2.2⟩
  | picked at_ copy rest => exact ⟨origin copy traced.1, traced.2⟩
  | expiring at_ copy rest => exact ⟨origin copy traced.1, traced.2⟩
  | worked at_ copy rest reached => exact ⟨origin copy traced.1, traced.2⟩
  | _ => trivial

end Phase

/-- The tokens are those of trash operations that were begun. -/
def TokensTraced (log : List JournalEvent) (tokens : Table (Uuid × Uuid) OperationRecord) : Prop :=
  forall account id token, tokens.find (account, id) = some token ->
    token.accountId = account ∧ token.id = id ∧ token.action = .trash ∧ Origin log token

structure ExpiryKept (system : System) : Prop where
  tokens : TokensTraced system.journal.log system.journal.store.trashExpiry
  memories : forall run, (system.phases run).Traced system.journal.log
  claimed : forall account id, .claimed account id ∈ system.history ->
    ∃ born, .begun born ∈ system.journal.log ∧ born.id = id
  owed : forall account id, UndoClaimed system.history account id ->
    system.journal.store.trashExpiry.find (account, id) = none ∨
      ∃ run claim, (system.phases run).owes = some claim ∧ claim.accountId = account ∧ claim.id = id
  safe : ExpirySafe system.history

/-! ## Events that are not about undo -/

section Neutral

variable {events history : List SystemEvent}

theorem undoClaimed_append (ranged : forall event, event ∈ events -> event.key ≠ none)
    {account id : Uuid} :
    UndoClaimed (events ++ history) account id ↔ UndoClaimed history account id := by
  induction events with
  | nil => exact Iff.rfl
  | cons event rest ih =>
      have tail := ih (fun other member => ranged other (List.mem_cons_of_mem event member))
      refine Iff.trans (since_cons_of_neither ?_ ?_) tail
      · intro claims
        cases event with
        | claimed owner item => exact ranged _ List.mem_cons_self rfl
        | _ => exact claims
      · intro fails
        cases event with
        | settled owner item status => exact ranged _ List.mem_cons_self rfl
        | _ => exact fails

theorem expirySafe_cons {event : SystemEvent} (safe : ExpirySafe history)
    (fine : forall account id, event = .expired account id -> ¬ UndoClaimed history account id) :
    ExpirySafe (event :: history) := by
  intro later account id earlier split
  rcases List.cons_eq_append_iff.mp split with ⟨_, here⟩ | ⟨rest, _, below⟩
  · cases here
    exact fine account id rfl
  · exact safe rest account id earlier below

theorem expirySafe_append (ranged : forall event, event ∈ events -> event.key ≠ none)
    (safe : ExpirySafe history) : ExpirySafe (events ++ history) := by
  induction events with
  | nil => exact safe
  | cons event rest ih =>
      refine expirySafe_cons (ih (fun other member =>
        ranged other (List.mem_cons_of_mem event member))) ?_
      intro account id same
      rw [same] at ranged
      exact absurd rfl (ranged _ List.mem_cons_self)

end Neutral

namespace ExpiryKept

variable {format : JournalFormat} {ids : Nat -> Uuid} {system after : System}

theorem initial (store : Store) : ExpiryKept (.initial store) where
  tokens := by
    intro account id token found
    cases found
  memories := fun _ => trivial
  claimed := fun _ _ member => absurd member List.not_mem_nil
  owed := fun _ _ since => absurd since not_since_nil
  safe := by
    intro later account id earlier split
    simp [System.initial] at split

/-- Records of one operation agree. -/
theorem same_operation (kept : System.Kept ids system) {first second : OperationRecord}
    (one : Origin system.journal.log first) (two : Origin system.journal.log second)
    (same : second.id = first.id) :
    second.root = first.root ∧ second.action = first.action ∧ second.accountId = first.accountId := by
  rcases one with ⟨born, listed, descends⟩
  rcases two with ⟨other, known, rest⟩
  have equal : other = born := kept.claims.unique other born known listed
    (rest.id.symm.trans (same.trans descends.id))
  subst equal
  have owner : second.accountId = first.accountId :=
    congrArg OperationKey.accountId (rest.key.trans descends.key.symm)
  refine ⟨?_, rest.action.trans descends.action.symm, owner⟩
  exact Prod.ext owner (rest.rootId.trans descends.rootId.symm)

/-- Operations of another kind have no token. -/
theorem untokened (kept : System.Kept ids system) (expiry : ExpiryKept system)
    {record : OperationRecord} (origin : Origin system.journal.log record)
    (other : record.action ≠ .trash) (account : Uuid) :
    system.journal.store.trashExpiry.find (account, record.id) = none := by
  cases found : system.journal.store.trashExpiry.find (account, record.id) with
  | none => rfl
  | some token =>
      rcases expiry.tokens account record.id token found with ⟨_, named, trashed, traced⟩
      rcases same_operation kept origin traced named with ⟨_, action, _⟩
      exact absurd (action.symm.trans trashed) other

/-- A step that records no outcome of an undo and expires nothing. -/
structure Calm (system after : System) : Prop where
  tokens : TokensTraced after.journal.log after.journal.store.trashExpiry
  old : forall account id,
    (after.journal.store.trashExpiry.find (account, id)).isSome = true ->
      (system.journal.store.trashExpiry.find (account, id)).isSome = true ∨
        forall born, .begun born ∈ system.journal.log -> born.id ≠ id
  memories : forall run, (after.phases run).Traced after.journal.log
  owes : forall run claim, (system.phases run).owes = some claim ->
    (after.phases run).owes = some claim ∨
      after.journal.store.trashExpiry.find (claim.accountId, claim.id) = none
  log : forall born, .begun born ∈ system.journal.log -> .begun born ∈ after.journal.log
  history : ∃ events, (forall event, event ∈ events -> event.key ≠ none) ∧
    after.history = events ++ system.history

theorem calm (expiry : ExpiryKept system) (calm : Calm system after) : ExpiryKept after := by
  rcases calm.history with ⟨events, ranged, history⟩
  exact {
    tokens := calm.tokens
    memories := calm.memories
    claimed := by
      intro account id member
      rw [history] at member
      rcases List.mem_append.mp member with here | before
      · exact absurd rfl (ranged _ here)
      · rcases expiry.claimed account id before with ⟨born, listed, named⟩
        exact ⟨born, calm.log born listed, named⟩
    owed := by
      intro account id since
      rw [history, undoClaimed_append ranged] at since
      cases found : after.journal.store.trashExpiry.find (account, id) with
      | none => exact Or.inl rfl
      | some token =>
          right
          have there : (after.journal.store.trashExpiry.find (account, id)).isSome = true := by
            rw [found]
            rfl
          rcases calm.old account id there with present | fresh
          · rcases expiry.owed account id since with absent | ⟨run, claim, owing, rfl, rfl⟩
            · rw [absent] at present
              cases present
            · rcases calm.owes run claim owing with still | gone
              · exact ⟨run, claim, still, rfl, rfl⟩
              · rw [gone] at found
                cases found
          · -- An operation that was never begun was never claimed.
            rcases since.started with ⟨event, member, started⟩
            cases event with
            | claimed owner item =>
                rcases expiry.claimed owner item member with ⟨born, listed, named⟩
                exact absurd (named.trans started.2) (fresh born listed)
            | _ => exact started.elim
    safe := by
      rw [history]
      exact expirySafe_append ranged expiry.safe }

/-- One process enters a phase; the tokens only get fewer. -/
theorem calm_enter (expiry : ExpiryKept system) {run : Nat} {phase : Phase}
    (phases : after.phases = Function.update system.phases run phase)
    (traced : phase.Traced after.journal.log)
    (owes : forall claim, (system.phases run).owes = some claim -> phase.owes = some claim ∨
      after.journal.store.trashExpiry.find (claim.accountId, claim.id) = none)
    (tokens : TokensTraced after.journal.log after.journal.store.trashExpiry)
    (old : forall account id,
      (after.journal.store.trashExpiry.find (account, id)).isSome = true ->
        (system.journal.store.trashExpiry.find (account, id)).isSome = true ∨
          forall born, .begun born ∈ system.journal.log -> born.id ≠ id)
    (log : forall born, .begun born ∈ system.journal.log -> .begun born ∈ after.journal.log)
    (history : ∃ events, (forall event, event ∈ events -> event.key ≠ none) ∧
      after.history = events ++ system.history) : Calm system after where
  tokens := tokens
  old := old
  memories := by
    intro other
    rw [phases]
    by_cases same : other = run
    · rw [same, Function.update_self]
      exact traced
    · rw [Function.update_of_ne same]
      exact (expiry.memories other).longer log
  owes := by
    intro other claim owing
    rw [phases]
    by_cases same : other = run
    · subst same
      rw [Function.update_self]
      exact owes claim owing
    · rw [Function.update_of_ne same]
      exact Or.inl owing
  log := log
  history := history

/-! ## What becomes of the tokens -/

theorem tokensTraced_longer {log longer : List JournalEvent}
    {tokens : Table (Uuid × Uuid) OperationRecord} (traced : TokensTraced log tokens)
    (more : forall born, .begun born ∈ log -> .begun born ∈ longer) :
    TokensTraced longer tokens := by
  intro account id token found
  rcases traced account id token found with ⟨owner, named, trashed, born, listed, descends⟩
  exact ⟨owner, named, trashed, born, more born listed, descends⟩

theorem tokensTraced_erase {log : List JournalEvent}
    {tokens : Table (Uuid × Uuid) OperationRecord} (traced : TokensTraced log tokens)
    (key : Uuid × Uuid) : TokensTraced log (tokens.erase key) := by
  intro account id token found
  by_cases same : (account, id) = key
  · rw [same, Table.find_erase_self] at found
    cases found
  · rw [Table.find_erase_of_ne same] at found
    exact traced account id token found

theorem tokensTraced_modify {log : List JournalEvent}
    {tokens : Table (Uuid × Uuid) OperationRecord} (traced : TokensTraced log tokens)
    {record : OperationRecord} (trashed : record.action = .trash) (origin : Origin log record) :
    TokensTraced log (tokens.modify (record.accountId, record.id) (fun _ => record)) := by
  intro account id token found
  by_cases same : (account, id) = (record.accountId, record.id)
  · cases same
    rw [Table.find_modify_self] at found
    rcases Option.map_eq_some_iff.mp found with ⟨_, _, rfl⟩
    exact ⟨rfl, rfl, trashed, origin⟩
  · rw [Table.find_modify_of_ne _ same] at found
    exact traced account id token found

/-- All tokens of the second table were in the first one. -/
def TokensOld (tokens later : Table (Uuid × Uuid) OperationRecord) : Prop :=
  forall key, (later.find key).isSome = true -> (tokens.find key).isSome = true

theorem tokensOld_absent {tokens later : Table (Uuid × Uuid) OperationRecord}
    (old : TokensOld tokens later) {key : Uuid × Uuid} (absent : tokens.find key = none) :
    later.find key = none := by
  cases found : later.find key with
  | none => rfl
  | some token =>
      have present := old key (by rw [found]; rfl)
      rw [absent] at present
      cases present

theorem tokensOld_erase (tokens : Table (Uuid × Uuid) OperationRecord) (key : Uuid × Uuid) :
    TokensOld tokens (tokens.erase key) := by
  intro other present
  by_cases same : other = key
  · rw [same, Table.find_erase_self] at present
    cases present
  · rw [Table.find_erase_of_ne same] at present
    exact present

theorem tokensOld_modify (tokens : Table (Uuid × Uuid) OperationRecord) (key : Uuid × Uuid)
    (change : OperationRecord -> OperationRecord) : TokensOld tokens (tokens.modify key change) := by
  intro other present
  by_cases same : other = key
  · rw [same, Table.find_modify_self, Option.isSome_map] at present
    rw [same]
    exact present
  · rw [Table.find_modify_of_ne _ same] at present
    exact present

/-- What finishing an operation does to the tokens. -/
theorem trashAfter_cases {log : List JournalEvent} {tokens : Table (Uuid × Uuid) OperationRecord}
    (traced : TokensTraced log tokens) {finished : OperationRecord} (origin : Origin log finished)
    (record : OperationRecord) :
    TokensTraced log (Store.trashAfter format finished record tokens) ∧
      TokensOld tokens (Store.trashAfter format finished record tokens) := by
  unfold Store.trashAfter Store.settleToken
  split
  · next trashed =>
      split
      · exact ⟨tokensTraced_erase traced _, tokensOld_erase _ _⟩
      · exact ⟨tokensTraced_modify traced trashed origin, tokensOld_modify _ _ _⟩
  · split
    · cases Store.namedTrash format record with
      | none => exact ⟨traced, fun _ => id⟩
      | some item => exact ⟨tokensTraced_erase traced _, tokensOld_erase _ _⟩
    · exact ⟨traced, fun _ => id⟩

theorem settledTokens_cases {log : List JournalEvent} {store : Store}
    (traced : TokensTraced log store.trashExpiry) (settled : OperationRecord) :
    TokensTraced log (Store.settledTokens store settled) ∧
      TokensOld store.trashExpiry (Store.settledTokens store settled) := by
  unfold Store.settledTokens
  split
  · exact ⟨tokensTraced_erase traced _, tokensOld_erase _ _⟩
  · exact ⟨traced, fun _ => id⟩

/-! ## Steps -/

theorem origin_row (kept : System.Kept ids system) {key : OperationKey} {record : OperationRecord}
    (found : system.journal.store.operations.find key = some record) :
    Origin system.journal.log record :=
  (kept.claims.rows key record found).born

theorem ranged_begun (run : Nat) (record : OperationRecord) (event : SystemEvent)
    (member : event ∈ System.rangeBegun run record) : event.key ≠ none := by
  unfold System.rangeBegun at member
  rcases Option.map_eq_some_iff.mp (Option.mem_toList.mp member) with ⟨offset, _, rfl⟩
  simp [SystemEvent.key]

theorem ranged_closed (run : Nat) (record : OperationRecord) (response : Option HelperResponse)
    (status : OperationStatus) (event : SystemEvent)
    (member : event ∈ System.rangeClosed run record response status) : event.key ≠ none := by
  unfold System.rangeClosed at member
  rcases Option.map_eq_some_iff.mp (Option.mem_toList.mp member) with ⟨offset, _, rfl⟩
  simp [SystemEvent.key]

theorem ranged_ended (run : Nat) (phase : Phase) (event : SystemEvent)
    (member : event ∈ System.rangeEnded run phase) : event.key ≠ none := by
  cases phase with
  | begun record =>
      rcases Option.map_eq_some_iff.mp (Option.mem_toList.mp member) with ⟨offset, _, rfl⟩
      simp [SystemEvent.key]
  | finished record =>
      rcases Option.map_eq_some_iff.mp (Option.mem_toList.mp member) with ⟨offset, _, rfl⟩
      simp [SystemEvent.key]
  | _ => exact absurd member List.not_mem_nil

/-- Entering a phase with the tokens as they are. -/
theorem calm_turn (expiry : ExpiryKept system) {run : Nat} {phase : Phase}
    (phases : after.phases = Function.update system.phases run phase)
    (traced : phase.Traced system.journal.log)
    (owes : forall claim, (system.phases run).owes = some claim -> phase.owes = some claim ∨
      system.journal.store.trashExpiry.find (claim.accountId, claim.id) = none)
    (tokens : after.journal.store.trashExpiry = system.journal.store.trashExpiry)
    (log : forall born, .begun born ∈ system.journal.log -> .begun born ∈ after.journal.log)
    (history : ∃ events, (forall event, event ∈ events -> event.key ≠ none) ∧
      after.history = events ++ system.history) : Calm system after := by
  refine expiry.calm_enter phases (traced.longer log) ?_ ?_ ?_ log history
  · rw [tokens]
    exact owes
  · rw [tokens]
    exact tokensTraced_longer expiry.tokens log
  · rw [tokens]
    exact fun _ _ => Or.inl

theorem silent : ∃ events : List SystemEvent,
    (forall event, event ∈ events -> event.key ≠ none) ∧ system.history = events ++ system.history :=
  ⟨[], fun _ member => absurd member List.not_mem_nil, rfl⟩

/-- Processes in these phases owe nothing. -/
theorem owes_of_plain {phase : Phase} (plain : phase.plain = true) : phase.owes = none := by
  cases phase with
  | claimed record claim => cases plain
  | settled record claim outcome => cases plain
  | _ => rfl

theorem owes_of_bare {phase : Phase} (bare : phase.bare = true) : phase.owes = none := by
  cases phase with
  | claimed record claim => cases bare
  | settled record claim outcome => cases bare
  | _ => rfl

theorem traced_of_plain {phase : Phase} (plain : phase.plain = true) (log : List JournalEvent) :
    phase.Traced log := by
  cases phase <;> trivial

/-- Phases with a lock and no operation, other than that of an undo run. -/
theorem traced_of_bare {phase : Phase} (bare : phase.bare = true)
    (other : forall call record, phase ≠ .undoing call record) (log : List JournalEvent) :
    phase.Traced log := by
  cases phase with
  | undoing call record => exact absurd rfl (other call record)
  | _ => trivial

/-- A free step may delete records and tokens of staged operations. -/
theorem free_tokens {state later : JournalState} {step : JournalStep} (free : step.free = true)
    (moves : JournalState.Moves format ids state step later) :
    later.store.trashExpiry = state.store.trashExpiry := by
  cases moves with
  | account op store tables => exact tables.trashExpiry
  | restore now actor store tables => exact tables.trashExpiry
  | idle | drew | drawEpoch | readEpoch | sweep | delete | cleanStaging | reviewStaging => rfl
  | _ => cases free

theorem admitted_traced {phase next : Phase} {key : RootKey} {log : List JournalEvent}
    (traced : phase.Traced log) (wants : phase.admitted = some (key, next)) :
    next.Traced log ∧ phase.owes = none := by
  cases phase with
  | waiting account request =>
      cases wants
      exact ⟨trivial, rfl⟩
  | asked call record =>
      cases wants
      exact ⟨traced, rfl⟩
  | picked at_ copy rest =>
      cases wants
      exact ⟨traced, rfl⟩
  | _ => cases wants

theorem insert_tokens {account : Uuid} {record : OperationRecord} {store kept : Store}
    {operations : Operations} {trash staging : Table (Uuid × Uuid) OperationRecord}
    {log : List JournalEvent} (traced : TokensTraced log store.trashExpiry)
    (inserted : Store.Inserted account record store kept operations trash staging) :
    TokensTraced (.begun record :: log) kept.trashExpiry := by
  have more := tokensTraced_longer traced
    (fun born (listed : .begun born ∈ log) => List.mem_cons_of_mem (.begun record) listed)
  intro owner id token found
  rw [inserted.stored] at found
  change trash.find (owner, id) = some token at found
  have tokens := inserted.trashTokens
  by_cases same : (owner, id) = (record.accountId, record.id)
  · by_cases trashed : record.action = .trash
    · have wanted : (record.action == .trash) = true := by simp [trashed]
      rw [wanted] at tokens
      cases same
      rw [tokens.own] at found
      cases found
      exact ⟨rfl, rfl, trashed, record, List.mem_cons_self, .refl record⟩
    · have unwanted : (record.action == .trash) = false := by simp [trashed]
      rw [unwanted] at tokens
      rw [tokens] at found
      exact more owner id token found
  · rw [tokens.other same] at found
    exact more owner id token found

theorem insert_old {account : Uuid} {record : OperationRecord} {store kept : Store}
    {operations : Operations} {trash staging : Table (Uuid × Uuid) OperationRecord}
    {log : List JournalEvent}
    (inserted : Store.Inserted account record store kept operations trash staging)
    (unborn : forall born, .begun born ∈ log -> born.id ≠ record.id) (owner id : Uuid)
    (present : (kept.trashExpiry.find (owner, id)).isSome = true) :
    (store.trashExpiry.find (owner, id)).isSome = true ∨
      forall born, .begun born ∈ log -> born.id ≠ id := by
  rw [inserted.stored] at present
  change (trash.find (owner, id)).isSome = true at present
  by_cases same : (owner, id) = (record.accountId, record.id)
  · cases same
    exact Or.inr unborn
  · rw [inserted.trashTokens.other same] at present
    exact Or.inl present

/-- The steps of a helper run that store a begun operation. -/
theorem insert_calm (expiry : ExpiryKept system) (kept : System.Kept ids system)
    (distinct : Function.Injective ids) {run : Nat} {account : Uuid} {record : OperationRecord}
    {store : Store} {operations : Operations} {trash staging : Table (Uuid × Uuid) OperationRecord}
    {actor : Account} {request : HelperRequest} {epoch : Uuid}
    (before : system.phases run = .fenced actor request epoch)
    (fresh : record.id = ids system.journal.drawn)
    (inserted : Store.Inserted account record system.journal.store store operations trash staging) :
    Calm system { system.enter run (.begun record) with
      journal := { system.journal with
        store := store
        drawn := system.journal.drawn + 1
        returned := record :: system.journal.returned
        log := .begun record :: system.journal.log }
      history := System.rangeBegun run record ++ system.history } := by
  have unborn : forall born, .begun born ∈ system.journal.log -> born.id ≠ record.id := by
    intro born listed same
    exact (kept.claims.drawn born listed).ne_latest distinct (same.trans fresh)
  refine expiry.calm_enter rfl trivial ?_ (insert_tokens expiry.tokens inserted)
    (insert_old inserted unborn) (fun _ => List.mem_cons_of_mem _)
    ⟨_, ranged_begun run record, rfl⟩
  intro claim owing
  rw [before] at owing
  cases owing

theorem finish_calm (expiry : ExpiryKept system) (kept : System.Kept ids system) {run : Nat}
    {config : JournalConfig} {record given finished : OperationRecord}
    {response : Option HelperResponse} {at_ : Nat} {store : Store}
    (before : system.phases run = .begun record)
    (done : system.journal.store.finishOperation format config given response at_ =
      .ok (finished, store)) :
    Calm system { system.enter run (.finished record) with
      journal := { system.journal with
        store := store, log := .finished finished :: system.journal.log }
      history := System.rangeClosed run record response finished.status ++ system.history } := by
  rcases Store.finishOperation_ok done with ⟨current, found, _, same, _, _, rfl⟩
  have origin : Origin system.journal.log finished := by
    rcases origin_row kept found with ⟨born, listed, descends⟩
    exact ⟨born, listed, descends.finished same⟩
  have tokens : TokensTraced system.journal.log
      (Store.trashAfter format finished given system.journal.store.trashExpiry) ∧ _ :=
    trashAfter_cases expiry.tokens origin given
  rcases tokens with ⟨traced, old⟩
  refine expiry.calm_enter rfl trivial ?_ ?_ ?_ (fun _ => List.mem_cons_of_mem _)
    ⟨_, ranged_closed run record response finished.status, rfl⟩
  · intro claim owing
    rw [before] at owing
    cases owing
  · exact tokensTraced_longer traced (fun _ => List.mem_cons_of_mem _)
  · exact fun account id present => Or.inl (old (account, id) present)

/-- An undo run claims an operation, and owes its outcome from then on. -/
theorem claim_kept (expiry : ExpiryKept system) (kept : System.Kept ids system) {run : Nat}
    {journal : JournalState} {call : UndoCall} {record current : OperationRecord}
    (before : system.phases run = .undoing call record)
    (found : system.journal.store.operations.find current.key = some current)
    (named : current.id = call.operationId)
    (tokens : journal.store.trashExpiry = system.journal.store.trashExpiry)
    (log : forall born, .begun born ∈ system.journal.log -> .begun born ∈ journal.log) :
    ExpiryKept { system.enter run (.claimed record (Store.claimedRecord current)) with
      journal := journal
      history := .claimed current.accountId current.id :: system.history } := by
  have memory := expiry.memories run
  rw [before] at memory
  rcases origin_row kept found with ⟨born, listed, descends⟩
  have claimed : Origin system.journal.log (Store.claimedRecord current) :=
    ⟨born, listed, descends.congr ⟨rfl, rfl, rfl, rfl, rfl, rfl⟩⟩
  have entered : Phase.Traced system.journal.log
      (.claimed record (Store.claimedRecord current)) :=
    ⟨memory.1, claimed, named.trans memory.2.symm⟩
  refine ⟨?_, ?_, ?_, ?_, ?_⟩
  · change TokensTraced journal.log journal.store.trashExpiry
    rw [tokens]
    exact tokensTraced_longer expiry.tokens log
  · intro other
    by_cases same : other = run
    · subst same
      simpa [System.enter] using entered.longer log
    · simpa [System.enter, Function.update_of_ne same] using (expiry.memories other).longer log
  · intro account id member
    rcases List.mem_cons.mp member with here | earlier
    · cases here
      exact ⟨born, log born listed, descends.id.symm⟩
    · rcases expiry.claimed account id earlier with ⟨other, known, called⟩
      exact ⟨other, log other known, called⟩
  · intro account id since
    change journal.store.trashExpiry.find (account, id) = none ∨ _
    rw [tokens]
    rcases since_cons.mp since with ⟨rfl, rfl⟩ | ⟨earlier, _⟩
    · exact Or.inr ⟨run, Store.claimedRecord current, by simp [System.enter, Phase.owes], rfl, rfl⟩
    · rcases expiry.owed account id earlier with absent | ⟨other, claim, owing, rest⟩
      · exact Or.inl absent
      · have apart : other ≠ run := by
          intro same
          rw [same, before] at owing
          cases owing
        refine Or.inr ⟨other, claim, ?_, rest⟩
        simpa [System.enter, Function.update_of_ne apart] using owing
  · exact expirySafe_cons expiry.safe (fun _ _ other => by cases other)

/-- `finish_undo` stores an outcome: a success takes the token away, a failure
ends the claim, and otherwise the outcome is still owed. -/
theorem settle_kept (expiry : ExpiryKept system) (kept : System.Kept ids system) {run now : Nat}
    {response : Option HelperResponse} {record claim current : OperationRecord}
    (before : system.phases run = .claimed record claim)
    (found : system.journal.store.operations.find claim.key = some current) :
    ExpiryKept { system.enter run (.settled record claim (some (Store.outcomeStatus response))) with
      journal := { system.journal with
        store := { system.journal.store with
          trashExpiry := Store.settledTokens system.journal.store
            (Store.settledRecord now response current)
          operations := system.journal.store.operations.replace
            (Store.settledRecord now response current) }
        log := .settled (Store.settledRecord now response current) :: system.journal.log }
      history := .settled current.accountId current.id (some (Store.outcomeStatus response)) ::
        system.history } := by
  have more : forall born, .begun born ∈ system.journal.log ->
      .begun born ∈ JournalEvent.settled (Store.settledRecord now response current) ::
        system.journal.log := fun _ => List.mem_cons_of_mem _
  have memory := expiry.memories run
  rw [before] at memory
  have key : current.key = claim.key := system.journal.store.operations.keyed _ _ found
  have owner : current.accountId = claim.accountId := congrArg OperationKey.accountId key
  have named : current.id = claim.id := congrArg OperationKey.id key
  rcases settledTokens_cases expiry.tokens (Store.settledRecord now response current) with
    ⟨traced, old⟩
  refine ⟨tokensTraced_longer traced more, ?_, ?_, ?_, ?_⟩
  · intro other
    by_cases same : other = run
    · subst same
      have entered : Phase.Traced system.journal.log
          (.settled record claim (some (Store.outcomeStatus response))) := memory
      simpa [System.enter] using entered.longer more
    · simpa [System.enter, Function.update_of_ne same] using (expiry.memories other).longer more
  · intro account id member
    rcases List.mem_cons.mp member with here | earlier
    · cases here
    · rcases expiry.claimed account id earlier with ⟨born, listed, called⟩
      exact ⟨born, more born listed, called⟩
  · intro account id since
    rcases since_cons.mp since with started | ⟨earlier, open_⟩
    · exact started.elim
    · rcases expiry.owed account id earlier with absent | ⟨other, owed, owing, rfl, rfl⟩
      · exact Or.inl (tokensOld_absent old absent)
      · by_cases same : other = run
        · subst same
          rw [before] at owing
          cases owing
          cases response with
          | none => exact Or.inr ⟨other, claim, by simp [System.enter, Phase.owes,
              Store.outcomeStatus], rfl, rfl⟩
          | some response =>
              by_cases success : response.success = true
              · left
                by_cases trashed : current.action = .trash
                · have erased : Store.settledTokens system.journal.store
                      (Store.settledRecord now (some response) current) =
                        system.journal.store.trashExpiry.erase (current.accountId, current.id) := by
                    simp [Store.settledTokens, Store.settledRecord, Store.outcomeStatus, success,
                      trashed]
                  change (Store.settledTokens _ _).find _ = none
                  rw [erased, owner, named]
                  exact Table.find_erase_self _ _
                · refine tokensOld_absent old ?_
                  rw [← named]
                  exact expiry.untokened kept (origin_row kept found) trashed _
              · refine absurd ⟨owner, named, ?_⟩ open_
                simp [Store.outcomeStatus, success]
        · refine Or.inr ⟨other, owed, ?_, rfl, rfl⟩
          simpa [System.enter, Function.update_of_ne same] using owing
  · exact expirySafe_cons expiry.safe (fun _ _ other => by cases other)

/-- Whoever owes the outcome of a claim holds the lock of its root. -/
theorem owes_locked (expiry : ExpiryKept system) (kept : System.Kept ids system) {run : Nat}
    {claim : OperationRecord} (owing : (system.phases run).owes = some claim) :
    Origin system.journal.log claim ∧ system.locks claim.root = some run := by
  have memory := expiry.memories run
  have locked := kept.locked run
  cases phase : system.phases run with
  | claimed record owed =>
      rw [phase] at owing memory locked
      cases owing
      rcases same_operation kept memory.2.1 memory.1 memory.2.2.symm with ⟨root, _, _⟩
      exact ⟨memory.2.1, locked _ (root ▸ rfl)⟩
  | settled record owed outcome =>
      rw [phase] at owing memory locked
      have same : owed = claim := by
        rcases outcome with _ | status
        · exact Option.some.inj owing
        · cases status <;> first | exact Option.some.inj owing | cases owing
      subst same
      rcases same_operation kept memory.2.1 memory.1 memory.2.2.symm with ⟨root, _, _⟩
      exact ⟨memory.2.1, locked _ (root ▸ rfl)⟩
  | _ =>
      rw [phase] at owing
      cases owing

/-- A worker with a token in front of it is alone on the root. -/
theorem unclaimed_of_expiring (expiry : ExpiryKept system) (kept : System.Kept ids system)
    {run at_ : Nat} {copy token : OperationRecord} {rest : List (Uuid × Uuid)}
    (before : system.phases run = .expiring at_ copy rest)
    (found : system.journal.store.trashExpiry.find (copy.accountId, copy.id) = some token) :
    ¬ UndoClaimed system.history copy.accountId copy.id := by
  intro since
  rcases expiry.owed copy.accountId copy.id since with absent | ⟨other, claim, owing, _, named⟩
  · rw [absent] at found
    cases found
  · have memory := expiry.memories run
    have locked := kept.locked run copy.root
    rw [before] at memory locked
    rcases expiry.owes_locked kept owing with ⟨origin, held⟩
    rcases same_operation kept memory.1 origin named with ⟨root, _, _⟩
    rw [root, locked rfl] at held
    cases held
    rw [before] at owing
    cases owing

theorem expire_kept (expiry : ExpiryKept system) (kept : System.Kept ids system)
    {run at_ : Nat} {copy token : OperationRecord} {rest : List (Uuid × Uuid)}
    (before : system.phases run = .expiring at_ copy rest)
    (found : system.journal.store.trashExpiry.find (copy.accountId, copy.id) = some token) :
    ExpiryKept { system.enter run (.worked at_ copy rest true) with
      history := .expired copy.accountId copy.id :: system.history } := by
  have memory := expiry.memories run
  rw [before] at memory
  have entered : ExpiryKept (system.enter run (.worked at_ copy rest true)) := by
    refine expiry.calm (expiry.calm_turn rfl memory ?_ rfl (fun _ => id) silent)
    intro claim owing
    rw [before] at owing
    cases owing
  refine ⟨entered.tokens, entered.memories, ?_, ?_, ?_⟩
  · intro account id member
    rcases List.mem_cons.mp member with here | earlier
    · cases here
    · exact entered.claimed account id earlier
  · intro account id since
    exact entered.owed account id ((since_cons_of_neither (fun h => h) (fun h => h)).mp since)
  · refine expirySafe_cons expiry.safe ?_
    intro account id same
    cases same
    exact expiry.unclaimed_of_expiring kept before found

/-- A process that ends owes nothing about a token. -/
theorem stop_kept (expiry : ExpiryKept system) (kept : System.Kept ids system) {run : Nat}
    (settles : Settles system (.stop run)) : ExpiryKept (system.stop run) := by
  refine expiry.calm (expiry.calm_turn rfl trivial ?_ rfl (fun _ => id)
    ⟨_, ranged_ended run (system.phases run), rfl⟩)
  intro claim owing
  right
  have memory := expiry.memories run
  change (system.phases run).mayEnd at settles
  cases phase : system.phases run with
  | claimed record owed =>
      rw [phase] at owing memory settles
      cases owing
      rw [memory.2.2]
      exact expiry.untokened kept memory.1 settles _
  | settled record owed outcome =>
      rw [phase] at owing memory settles
      have open_ : outcome ≠ some .success ∧ outcome ≠ some .failed := by
        refine ⟨?_, ?_⟩ <;> rintro rfl <;> cases owing
      have other : record.action ≠ .trash := by
        intro trashed
        rcases settles trashed with success | failed
        · exact open_.1 success
        · exact open_.2 failed
      have same : owed = claim := by
        rcases outcome with _ | status
        · exact Option.some.inj owing
        · cases status <;> first | exact Option.some.inj owing | cases owing
      subst same
      rw [memory.2.2]
      exact expiry.untokened kept memory.1 other _
  | _ =>
      rw [phase] at owing
      cases owing

/-- A cleanup lets go of the root and writes the result of the worker. -/
theorem conclude_calm (expiry : ExpiryKept system) {run at_ : Nat} {copy : OperationRecord}
    {rest : List (Uuid × Uuid)} {reached : Bool} {phase : Phase}
    (before : system.phases run = .worked at_ copy rest reached) (plain : phase.plain = true)
    (phases : after.phases = Function.update system.phases run phase)
    (tokens : TokensTraced system.journal.log after.journal.store.trashExpiry)
    (old : TokensOld system.journal.store.trashExpiry after.journal.store.trashExpiry)
    (log : forall born, .begun born ∈ system.journal.log -> .begun born ∈ after.journal.log)
    (history : after.history = system.history) : Calm system after := by
  refine expiry.calm_enter phases (traced_of_plain plain _) ?_ (tokensTraced_longer tokens log) ?_
    log ⟨[], fun _ member => absurd member List.not_mem_nil, history⟩
  · intro claim owing
    rw [before] at owing
    cases owing
  · exact fun account id present => Or.inl (old (account, id) present)

/-- What a step keeps, provided that an undo run does not end early. -/
theorem acts (expiry : ExpiryKept system) (kept : System.Kept ids system)
    (distinct : Function.Injective ids) {ends : Nat -> Prop}
    (acts : System.Acts format ids ends system after)
    (settles : forall run, ends run -> Settles system (.stop run)) :
    ExpiryKept after := by
  have owing : forall {run : Nat} {phase next : Phase} {claim : OperationRecord},
      system.phases run = phase -> phase.owes = none -> (system.phases run).owes = some claim ->
        next.owes = some claim ∨
          system.journal.store.trashExpiry.find (claim.accountId, claim.id) = none := by
    intro run phase next claim before free owed
    rw [before, free] at owed
    cases owed
  cases acts with
  | idle => exact expiry
  | free step journal unlocked moves =>
      have tokens := free_tokens unlocked moves
      refine expiry.calm ⟨?_, ?_, ?_, fun _ _ => Or.inl, moves.begun, silent⟩
      · change TokensTraced journal.log journal.store.trashExpiry
        rw [tokens]
        exact tokensTraced_longer expiry.tokens moves.begun
      · change forall account id, (journal.store.trashExpiry.find (account, id)).isSome = true -> _
        rw [tokens]
        exact fun _ _ => Or.inl
      · exact fun run => (expiry.memories run).longer moves.begun
  | turn run phase before plain =>
      exact expiry.calm (expiry.calm_turn rfl (traced_of_plain plain _)
        (fun _ => owing rfl (owes_of_plain before)) rfl (fun _ => id) silent)
  | acquire run key phase wants unheld =>
      rcases admitted_traced (expiry.memories run) wants with ⟨traced, free⟩
      exact expiry.calm (expiry.calm_turn rfl traced (fun _ => owing rfl free) rfl (fun _ => id)
        silent)
  | advance run phase step journal before bare same later known apart moves store log =>
      refine expiry.calm (expiry.calm_turn rfl (traced_of_bare bare apart _)
        (fun _ => owing rfl (owes_of_bare before)) store.2 ?_ silent)
      change forall born, _ -> _ ∈ journal.log
      rw [log]
      exact fun _ => id
  | select run config actor request offset at_ previous record before found accepted =>
      exact expiry.calm (expiry.calm_turn rfl trivial (fun _ => owing before rfl) rfl (fun _ => id)
        silent)
  | write run record before checked =>
      exact expiry.calm (expiry.calm_turn rfl trivial (fun _ => owing before rfl) rfl (fun _ => id)
        ⟨_, ranged_begun run record, rfl⟩)
  | insert run config ledger actor request epoch at_ record store before known made inserted =>
      rcases Store.insertRecord_ok inserted with ⟨_, _, _, effect⟩
      exact expiry.calm (expiry.insert_calm kept distinct before (made ▸ rfl) effect)
  | finish run config record logReserveBytes logStorage response at_ finished store before known
      done =>
      exact expiry.calm (expiry.finish_calm kept before done)
  | finishLost run record before =>
      exact expiry.calm (expiry.calm_turn rfl trivial (fun _ => owing before rfl) rfl (fun _ => id)
        silent)
  | ask run call record before found named =>
      exact expiry.calm (expiry.calm_turn rfl ⟨origin_row kept found, named⟩
        (fun _ => owing before rfl) rfl (fun _ => id) silent)
  | claim run config at_ call record caller row current before claims =>
      refine expiry.claim_kept kept before claims.found claims.named ?_
        (fun _ => List.mem_cons_of_mem _)
      rfl
  | settle run config now response record claim current before found pending =>
      exact expiry.settle_kept kept before found
  | settleLost run record claim before =>
      have memory := expiry.memories run
      rw [before] at memory
      refine expiry.calm (expiry.calm_turn rfl memory ?_ rfl (fun _ => id) silent)
      intro owed owes
      rw [before] at owes
      exact Or.inl owes
  | drop run at_ accountId id rest before =>
      refine expiry.calm (expiry.calm_enter rfl trivial ?_ ?_ ?_ (fun _ => List.mem_cons_of_mem _)
        silent)
      · intro claim owed
        rw [owes_of_plain before] at owed
        cases owed
      · exact tokensTraced_longer (tokensTraced_erase expiry.tokens _)
          (fun _ => List.mem_cons_of_mem _)
      · exact fun account item present => Or.inl (tokensOld_erase _ _ _ present)
  | pick run at_ copy rest before found =>
      rcases expiry.tokens _ _ copy found with ⟨_, _, trashed, origin⟩
      exact expiry.calm (expiry.calm_turn rfl ⟨origin, trashed⟩
        (fun _ => owing rfl (owes_of_plain before)) rfl (fun _ => id) silent)
  | expire run at_ copy token rest before found => exact expiry.expire_kept kept before found
  | unexpired run at_ copy rest before =>
      have memory := expiry.memories run
      rw [before] at memory
      exact expiry.calm (expiry.calm_turn rfl memory (fun _ => owing before rfl) rfl (fun _ => id)
        silent)
  | cleaned run at_ copy rest reached before =>
      exact expiry.calm (expiry.conclude_calm before rfl rfl (tokensTraced_erase expiry.tokens _)
        (tokensOld_erase _ _) (fun _ => List.mem_cons_of_mem _) rfl)
  | reviewed run at_ copy rest reached before =>
      have memory := expiry.memories run
      rw [before] at memory
      rcases memory with ⟨⟨born, listed, descends⟩, trashed⟩
      have origin : Origin system.journal.log (System.needsReview copy) :=
        ⟨born, listed, descends.congr ⟨rfl, rfl, rfl, rfl, rfl, rfl⟩⟩
      exact expiry.calm (expiry.conclude_calm before rfl rfl
        (tokensTraced_modify expiry.tokens trashed origin) (tokensOld_modify _ _ _) (fun _ => id) rfl)
  | overflow run at_ copy rest reached before =>
      exact expiry.calm (expiry.conclude_calm before rfl rfl expiry.tokens (fun _ => id) (fun _ => id)
        rfl)
  | stop run ending => exact expiry.stop_kept kept (settles run ending)

end ExpiryKept

/-- Over every run of the processes in which no undo run of a trash operation
ends before it has recorded success or failure: no cleanup gets as far as
`expire_trash` for an operation that was claimed, unless the undo is recorded to
have failed since. -/
theorem expiry_spares_claimed (env : Environment) (format : JournalFormat) (ids : Nat -> Uuid)
    (distinct : Function.Injective ids) (store : Store) (steps : List SystemStep)
    (settles : Runs.Each (System.step env format ids) Settles (.initial store) steps) :
    ExpirySafe (Runs.run (System.step env format ids) (.initial store) steps).history := by
  refine (Runs.invariant_each (fun system => System.Kept ids system ∧ ExpiryKept system) ?_
    ⟨.initial ids store, .initial store⟩ settles).2.safe
  rintro system step settles ⟨kept, expiry⟩
  have acts := System.step_acts env format ids kept.known step
  refine ⟨kept.acts distinct acts, expiry.acts kept distinct acts ?_⟩
  rintro run rfl
  exact settles

/-! ## A trash operation, an undo and a cleanup -/

namespace OneTrash

def lifecycle : LifecycleConfig := ⟨true, false, 1, 1, 10⟩

/-- A helper run moves a file to the trash. -/
def helperRun : List SystemStep :=
  [.other .drawEpoch, .start 0 actor (request .moveToTrash 7 "notes".toList), .acquire 0,
    .authorize 0 config, .fence 0, .insert 0 config ledger 1000,
    .finish 0 config 0 none (some (moved (ids 1))) 1001, .stop 0]

/-- An undo run claims the operation. -/
def undoRun : List SystemStep :=
  [.ask 1 ⟨.account 2 1, ids 1, digest⟩ config 1100, .acquire 1, .claim 1 config 1101]

/-- The worker could not put the file back. -/
def refusal : HelperResponse := ⟨false, none, 0, 0, none, .other⟩

/-- A cleanup run, more than an hour later. -/
def cleanupRun : List SystemStep :=
  [.list 2 config lifecycle 9000, .pick 2 lifecycle, .acquire 2, .expire 2 lifecycle 9001]

/-- The undo run fails and says so. -/
def settledRun : List SystemStep :=
  helperRun ++ undoRun ++ [.settle 1 config 1102 (some refusal), .stop 1] ++ cleanupRun

/-- The undo run dies after its claim. -/
def orphanedRun : List SystemStep := helperRun ++ undoRun ++ [.stop 1] ++ cleanupRun

def system (steps : List SystemStep) : System :=
  Runs.run (System.step environment format ids) (.initial store) steps

end OneTrash

open OneTrash in
theorem expiry_spares_claimed_failed :
    Function.Injective ids ∧
      (.expired 2 (ids 1) ∈ (system settledRun).history ∧
        .claimed 2 (ids 1) ∈ (system settledRun).history) ∧
      ExpirySafe (system settledRun).history := by
  refine ⟨ids_injective, by decide, ?_⟩
  refine expiry_spares_claimed environment format ids ids_injective store settledRun ?_
  decide

open OneTrash in
theorem orphaned_claim_expires : ¬ ExpirySafe (system orphanedRun).history := by
  have history : (system orphanedRun).history = [.expired 2 (ids 1), .claimed 2 (ids 1)] := by
    decide
  intro safe
  refine safe [] 2 (ids 1) [.claimed 2 (ids 1)] history ?_
  decide

end TealDrive
