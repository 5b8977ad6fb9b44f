import TealDrive.Library.History
import TealDrive.Accounts.UndoOnce

namespace TealDrive

open Outcome History

/-!
# Maintenance tokens

A token stands for something that may have to be cleaned up: a prepared result
that was not put in its place, or an item in the trash.  Here the tokens of
every reachable state are compared with the history of the run.  A staged
operation leaves something behind until it succeeds or is cleaned; a trash
operation until it fails or its item is restored, deleted, put back or cleaned.
-/

/-! ## What should be there -/

namespace JournalEvent

/-- A staged operation is begun. -/
def startsStaging (account id : Uuid) : JournalEvent -> Prop
  | .begun born => born.stagingPath.isSome = true ∧ born.accountId = account ∧ born.id = id
  | _ => False

def endsStaging (account id : Uuid) : JournalEvent -> Prop
  | .finished record => record.accountId = account ∧ record.id = id ∧ record.status = .success
  | .stagingCleaned owner cleaned => owner = account ∧ cleaned = id
  | _ => False

/-- A trash operation is begun. -/
def startsTrash (account id : Uuid) : JournalEvent -> Prop
  | .begun born => born.action = .trash ∧ born.accountId = account ∧ born.id = id
  | _ => False

/-- The trash item that a path leads to. -/
def deletedTrash (format : JournalFormat) (path : Text) : Option Uuid :=
  (Text.stripPrefix trashFiles path).bind format.parseId

/-- The trash operation failed, or its item was restored, deleted, put back or
cleaned. -/
def endsTrash (format : JournalFormat) (account id : Uuid) : JournalEvent -> Prop
  | .finished record =>
      record.accountId = account ∧
        (record.id = id ∧ record.status = .failed ∨
          record.status = .success ∧ record.action = .restore ∧
            Store.namedTrash format record = some id ∨
          record.status = .success ∧ record.action = .delete ∧
            deletedTrash format record.sourcePath.value = some id)
  | .settled record =>
      record.accountId = account ∧ record.id = id ∧ record.undoStatus = some .success
  | .trashCleaned owner cleaned => owner = account ∧ cleaned = id
  | _ => False

instance (account id : Uuid) : DecidablePred (startsTrash account id)
  | .begun _ => inferInstanceAs (Decidable (_ ∧ _))
  | .finished _ | .claimed _ | .settled _ | .restored | .trashCleaned _ _ | .stagingCleaned _ _ =>
      isFalse (fun started => started)

instance (format : JournalFormat) (account id : Uuid) : DecidablePred (endsTrash format account id)
  | .finished _ => inferInstanceAs (Decidable (_ ∧ _))
  | .settled _ => inferInstanceAs (Decidable (_ ∧ _))
  | .trashCleaned _ _ => inferInstanceAs (Decidable (_ ∧ _))
  | .begun _ | .claimed _ | .restored | .stagingCleaned _ _ => isFalse (fun ended => ended)

end JournalEvent

/-- A staged operation that neither succeeded nor was cleaned. -/
def StagingOutstanding (log : List JournalEvent) (account id : Uuid) : Prop :=
  Since (JournalEvent.startsStaging account id) (JournalEvent.endsStaging account id) log

/-- An item that should still be in the trash. -/
def TrashOutstanding (format : JournalFormat) (log : List JournalEvent) (account id : Uuid) : Prop :=
  Since (JournalEvent.startsTrash account id) (JournalEvent.endsTrash format account id) log

/-- The tokens are exactly those that should be there. -/
structure TokensTrack (format : JournalFormat) (state : JournalState) : Prop where
  staging : forall account id, (state.store.stagingExpiry.find (account, id)).isSome = true ↔
    StagingOutstanding state.log account id
  trash : forall account id, (state.store.trashExpiry.find (account, id)).isSome = true ↔
    TrashOutstanding format state.log account id

/-- No ordinary file is deleted whose path reads like the identifier of one of
the account's items in the trash. -/
def SparesTrash (format : JournalFormat) (state : JournalState) : JournalStep -> Prop
  | .finish _ record _ _ response _ =>
      record.action = .delete -> Store.outcomeStatus response = .success ->
        Text.stripPrefix trashFiles record.sourcePath.value = none ->
        forall id, format.parseId record.sourcePath.value = some id ->
          state.store.trashExpiry.find (record.accountId, id) = none
  | _ => True

/-! ## Where records come from -/

section Origins

variable {ids : Nat -> Uuid} {state : JournalState} {ends : JournalEvent -> Prop}
  {record : OperationRecord} {account : Uuid}

theorem trash_of_since (kept : ClaimsKept ids state)
    (origin : ∃ born, .begun born ∈ state.log ∧ Descends born record)
    (since : Since (JournalEvent.startsTrash account record.id) ends state.log) :
    record.action = .trash := by
  rcases origin with ⟨born, listed, descends⟩
  rcases since.started with ⟨event, member, started⟩
  cases event with
  | begun other =>
      rcases started with ⟨trashed, _, same⟩
      have equal := kept.unique other born member listed (same.trans descends.id)
      rw [descends.action, ← equal, trashed]
  | _ => exact absurd started id

theorem staged_of_since (kept : ClaimsKept ids state)
    (origin : ∃ born, .begun born ∈ state.log ∧ Descends born record)
    (since : Since (JournalEvent.startsStaging account record.id) ends state.log) :
    record.stagingPath.isSome = true := by
  rcases origin with ⟨born, listed, descends⟩
  rcases since.started with ⟨event, member, started⟩
  cases event with
  | begun other =>
      rcases started with ⟨staged, _, same⟩
      have equal := kept.unique other born member listed (same.trans descends.id)
      rw [descends.stagingPath, ← equal, staged]
  | _ => exact absurd started id

/-- Two records of one operation have one source. -/
theorem sourcePath_of_key (kept : ClaimsKept ids state) {other : OperationRecord}
    (origin : ∃ born, .begun born ∈ state.log ∧ Descends born record)
    (second : ∃ born, .begun born ∈ state.log ∧ Descends born other)
    (same : other.key = record.key) : other.sourcePath = record.sourcePath := by
  rcases origin with ⟨born, listed, descends⟩
  rcases second with ⟨first, known, rest⟩
  have equal := kept.unique first born known listed
    (rest.id.symm.trans ((congrArg OperationKey.id same).trans descends.id))
  rw [rest.sourcePath, descends.sourcePath, equal]

end Origins

/-! ## Single tokens -/

section Single

variable {tokens : Table (Uuid × Uuid) OperationRecord} {account id owner other : Uuid}

theorem isSome_erase :
    ((tokens.erase (owner, other)).find (account, id)).isSome = true ↔
      (tokens.find (account, id)).isSome = true ∧ ¬ (owner = account ∧ other = id) := by
  by_cases same : (account, id) = (owner, other)
  · cases same
    rw [Table.find_erase_self]
    simp
  · rw [Table.find_erase_of_ne same]
    have apart : ¬ (owner = account ∧ other = id) := by
      rintro ⟨rfl, rfl⟩
      exact same rfl
    simp [apart]

theorem isSome_modify {key : Uuid × Uuid} (change : OperationRecord -> OperationRecord)
    (found : Uuid × Uuid) :
    ((tokens.modify key change).find found).isSome = (tokens.find found).isSome := by
  by_cases same : found = key
  · subst same
    rw [Table.find_modify_self, Option.isSome_map]
  · rw [Table.find_modify_of_ne _ same]

theorem isSome_settleToken {gone : Bool} {record : OperationRecord} :
    ((Store.settleToken tokens gone record).find (account, id)).isSome = true ↔
      (tokens.find (account, id)).isSome = true ∧
        ¬ (gone = true ∧ record.accountId = account ∧ record.id = id) := by
  unfold Store.settleToken
  cases gone with
  | true => simpa using isSome_erase
  | false =>
      simp only [Bool.false_eq_true, if_false, false_and, not_false_eq_true, and_true]
      rw [isSome_modify]

end Single

/-! ## Steps -/

/-- Moving to the trash needs no staging. -/
theorem stagingPath_of_trash {format : JournalFormat} {actor : Account} {request : HelperRequest}
    {id epoch : Uuid} {at_ : Nat}
    (trashed : (newRecord format actor request id epoch at_).action = .trash) :
    (newRecord format actor request id epoch at_).stagingPath = none := by
  change request.command.action = .trash at trashed
  change stagingPath format request id = none
  unfold stagingPath
  cases command : request.command <;> simp_all [HelperCommand.action, HelperCommand.staged]

/-- What the comparison of tokens and history rests on. -/
structure TokensKept (format : JournalFormat) (ids : Nat -> Uuid) (state : JournalState) : Prop where
  claims : ClaimsKept ids state
  returned : forall record, record ∈ state.returned ->
    ∃ born, .begun born ∈ state.log ∧ Descends born record
  tracks : TokensTrack format state

namespace TokensTrack

variable {format : JournalFormat} {ids : Nat -> Uuid} {state after : JournalState}

/-- Steps that add no token, take none away, and log nothing about tokens. -/
theorem still (tracks : TokensTrack format state)
    (staging : forall key, (after.store.stagingExpiry.find key).isSome =
      (state.store.stagingExpiry.find key).isSome)
    (trash : forall key, (after.store.trashExpiry.find key).isSome =
      (state.store.trashExpiry.find key).isSome)
    (log : after.log = state.log ∨ ∃ event, after.log = event :: state.log ∧
      forall account id, ¬ event.startsStaging account id ∧ ¬ event.endsStaging account id ∧
        ¬ event.startsTrash account id ∧ ¬ event.endsTrash format account id) :
    TokensTrack format after := by
  rcases log with same | ⟨event, longer, silent⟩
  · refine ⟨?_, ?_⟩
    · intro account id
      rw [staging, same]
      exact tracks.staging account id
    · intro account id
      rw [trash, same]
      exact tracks.trash account id
  · refine ⟨?_, ?_⟩
    · intro account id
      rcases silent account id with ⟨start, finish, _, _⟩
      rw [staging, longer]
      exact (tracks.staging account id).trans (since_cons_of_neither start finish).symm
    · intro account id
      rcases silent account id with ⟨_, _, start, finish⟩
      rw [trash, longer]
      exact (tracks.trash account id).trans (since_cons_of_neither start finish).symm

/-- Steps that log an event, kind by kind. -/
theorem logged {event : JournalEvent}
    (log : after.log = event :: state.log)
    (staging : forall account id, (after.store.stagingExpiry.find (account, id)).isSome = true ↔
      event.startsStaging account id ∨
        StagingOutstanding state.log account id ∧ ¬ event.endsStaging account id)
    (trash : forall account id, (after.store.trashExpiry.find (account, id)).isSome = true ↔
      event.startsTrash account id ∨
        TrashOutstanding format state.log account id ∧ ¬ event.endsTrash format account id) :
    TokensTrack format after where
  staging := by
    intro account id
    rw [log]
    exact (staging account id).trans since_cons.symm
  trash := by
    intro account id
    rw [log]
    exact (trash account id).trans since_cons.symm

/-- Steps that log something else than a beginning. -/
theorem ended {event : JournalEvent} (log : after.log = event :: state.log)
    (other : forall born, event ≠ .begun born)
    (staging : forall account id, (after.store.stagingExpiry.find (account, id)).isSome = true ↔
      StagingOutstanding state.log account id ∧ ¬ event.endsStaging account id)
    (trash : forall account id, (after.store.trashExpiry.find (account, id)).isSome = true ↔
      TrashOutstanding format state.log account id ∧ ¬ event.endsTrash format account id) :
    TokensTrack format after := by
  refine .logged log ?_ ?_
  · intro account id
    have start : ¬ event.startsStaging account id := by
      cases event with
      | begun born => exact absurd rfl (other born)
      | _ => exact fun started => started
    rw [staging]
    simp [start]
  · intro account id
    have start : ¬ event.startsTrash account id := by
      cases event with
      | begun born => exact absurd rfl (other born)
      | _ => exact fun started => started
    rw [trash]
    simp [start]

theorem insert (tracks : TokensTrack format state) {account : Uuid} {record : OperationRecord}
    {store : Store} {operations : Operations}
    {trash staging : Table (Uuid × Uuid) OperationRecord}
    (plain : record.action = .trash -> record.stagingPath = none)
    (inserted : Store.Inserted account record state.store store operations trash staging)
    (stored : after.store = store) (log : after.log = .begun record :: state.log) :
    TokensTrack format after := by
  have trashTokens := inserted.trashTokens
  have stagingTokens := inserted.stagingTokens
  refine .logged log ?_ ?_
  · intro owner id
    have before := tracks.staging owner id
    rw [stored, inserted.stored]
    change (staging.find (owner, id)).isSome = true ↔ _
    by_cases same : (owner, id) = (record.accountId, record.id)
    · cases same
      by_cases staged : record.stagingPath.isSome = true
      · have other : record.action ≠ .trash := by
          intro trashed
          rw [plain trashed] at staged
          cases staged
        have wanted : (record.action != .trash && record.stagingPath.isSome) = true := by
          simp [other, staged]
        rw [wanted] at stagingTokens
        rw [stagingTokens.own]
        simp [JournalEvent.startsStaging, staged]
      · have unwanted : (record.action != .trash && record.stagingPath.isSome) = false := by
          simp [staged]
        rw [unwanted] at stagingTokens
        rw [stagingTokens]
        simpa [JournalEvent.startsStaging, JournalEvent.endsStaging, staged] using before
    · rw [stagingTokens.other same, before]
      have apart : ¬ JournalEvent.startsStaging owner id (.begun record) := by
        rintro ⟨_, rfl, rfl⟩
        exact same rfl
      simp [apart, JournalEvent.endsStaging]
  · intro owner id
    have before := tracks.trash owner id
    rw [stored, inserted.stored]
    change (trash.find (owner, id)).isSome = true ↔ _
    by_cases same : (owner, id) = (record.accountId, record.id)
    · cases same
      by_cases trashed : record.action = .trash
      · have wanted : (record.action == .trash) = true := by simp [trashed]
        rw [wanted] at trashTokens
        rw [trashTokens.own]
        simp [JournalEvent.startsTrash, trashed]
      · have unwanted : (record.action == .trash) = false := by simp [trashed]
        rw [unwanted] at trashTokens
        rw [trashTokens]
        simpa [JournalEvent.startsTrash, JournalEvent.endsTrash, trashed] using before
    · rw [trashTokens.other same, before]
      have apart : ¬ JournalEvent.startsTrash owner id (.begun record) := by
        rintro ⟨_, rfl, rfl⟩
        exact same rfl
      simp [apart, JournalEvent.endsTrash]

/-- A staging token goes when its operation succeeds. -/
theorem finish_staging (tracks : TokensTrack format state) (kept : ClaimsKept ids state)
    {finished : OperationRecord}
    (origin : ∃ born, .begun born ∈ state.log ∧ Descends born finished) (account id : Uuid) :
    ((Store.stagingAfter finished state.store.stagingExpiry).find (account, id)).isSome = true ↔
      StagingOutstanding state.log account id ∧
        ¬ JournalEvent.endsStaging account id (.finished finished) := by
  have before := tracks.staging account id
  unfold Store.stagingAfter
  split
  · rw [isSome_settleToken, before, decide_eq_true_iff]
    unfold JournalEvent.endsStaging
    tauto
  · next unstaged =>
      rw [before]
      refine ⟨fun since => ⟨since, ?_⟩, fun both => both.1⟩
      rintro ⟨_, rfl, _⟩
      exact unstaged (staged_of_since kept origin since)

/-- What a restore or a delete names is what it takes away, if the delete
spares the trash. -/
theorem retired_iff {finished : OperationRecord} {tokens : Table (Uuid × Uuid) OperationRecord}
    (succeeded : finished.status = .success)
    (either : finished.action = .delete ∨ finished.action = .restore)
    (spares : finished.action = .delete ->
      Text.stripPrefix trashFiles finished.sourcePath.value = none ->
      forall id, format.parseId finished.sourcePath.value = some id ->
        tokens.find (finished.accountId, id) = none) (account id : Uuid)
    (present : (tokens.find (account, id)).isSome = true) :
    JournalEvent.endsTrash format account id (.finished finished) ↔
      finished.accountId = account ∧ Store.namedTrash format finished = some id := by
  unfold JournalEvent.endsTrash JournalEvent.deletedTrash
  rcases either with deleted | restored
  · simp only [succeeded, deleted, reduceCtorEq, and_false, false_and, true_and, false_or]
    refine and_congr_right ?_
    intro own
    unfold Store.namedTrash
    cases stripped : Text.stripPrefix trashFiles finished.sourcePath.value with
    | some rest => simp
    | none =>
        simp only [Option.bind_none, Option.getD_none, reduceCtorEq, false_iff]
        intro named
        have gone := spares deleted stripped id named
        rw [own] at gone
        rw [gone] at present
        cases present
  · simp [succeeded, restored]

/-- A trash token goes when its operation fails, or its item is restored or
deleted. -/
theorem finish_trash (tracks : TokensTrack format state) (kept : ClaimsKept ids state)
    {finished record : OperationRecord}
    (origin : ∃ born, .begun born ∈ state.log ∧ Descends born finished)
    (source : Store.namedTrash format record = Store.namedTrash format finished)
    (spares : finished.status = .success -> finished.action = .delete ->
      Text.stripPrefix trashFiles finished.sourcePath.value = none ->
      forall id, format.parseId finished.sourcePath.value = some id ->
        state.store.trashExpiry.find (finished.accountId, id) = none) (account id : Uuid) :
    ((Store.trashAfter format finished record state.store.trashExpiry).find
        (account, id)).isSome = true ↔
      TrashOutstanding format state.log account id ∧
        ¬ JournalEvent.endsTrash format account id (.finished finished) := by
  have before := tracks.trash account id
  unfold Store.trashAfter
  split
  · next trashed =>
      rw [isSome_settleToken, before, decide_eq_true_iff]
      simp only [JournalEvent.endsTrash, trashed, reduceCtorEq, false_and, and_false, or_false]
      tauto
  · next other =>
      split
      · next retires =>
          rcases retires with ⟨succeeded, either⟩
          have named := fun present =>
            retired_iff succeeded either (spares succeeded) account id present
          rw [source]
          cases found : Store.namedTrash format finished with
          | none =>
              rw [before]
              refine ⟨fun since => ⟨since, ?_⟩, fun both => both.1⟩
              rw [named (before.mpr since), found]
              simp
          | some item =>
              rw [isSome_erase, before]
              refine and_congr_right ?_
              intro since
              rw [named (before.mpr since), found, Option.some.injEq]
      · next keeps =>
          rw [before]
          refine ⟨fun since => ⟨since, ?_⟩, fun both => both.1⟩
          rintro ⟨_, (⟨rfl, _⟩ | ⟨succeeded, restored, _⟩ | ⟨succeeded, deleted, _⟩)⟩
          · exact other (trash_of_since kept origin since)
          · exact keeps ⟨succeeded, Or.inr restored⟩
          · exact keeps ⟨succeeded, Or.inl deleted⟩

/-- A trash token goes when the operation is undone. -/
theorem settled_trash (tracks : TokensTrack format state) (kept : ClaimsKept ids state)
    {settled : OperationRecord}
    (origin : ∃ born, .begun born ∈ state.log ∧ Descends born settled) (account id : Uuid) :
    ((Store.settledTokens state.store settled).find (account, id)).isSome = true ↔
      TrashOutstanding format state.log account id ∧
        ¬ JournalEvent.endsTrash format account id (.settled settled) := by
  have before := tracks.trash account id
  unfold Store.settledTokens
  split
  · next undone =>
      rw [isSome_erase, before]
      simp only [JournalEvent.endsTrash, undone.2, and_true]
  · next keeps =>
      rw [before]
      refine ⟨fun since => ⟨since, ?_⟩, fun both => both.1⟩
      rintro ⟨_, rfl, succeeded⟩
      exact keeps ⟨trash_of_since kept origin since, succeeded⟩

end TokensTrack

namespace TokensKept

variable {format : JournalFormat} {ids : Nat -> Uuid} {state after : JournalState}

theorem initial (format : JournalFormat) (ids : Nat -> Uuid) (store : Store) :
    TokensKept format ids (.initial store) where
  claims := .initial ids store
  returned := fun _ member => absurd member List.not_mem_nil
  tracks := by
    constructor
    · intro account id
      exact iff_of_false Bool.false_ne_true not_since_nil
    · intro account id
      exact iff_of_false Bool.false_ne_true not_since_nil

/-- Records that were returned before still go back to a beginning. -/
theorem returned_of_log (kept : TokensKept format ids state)
    (log : forall event, event ∈ state.log -> event ∈ after.log) {record : OperationRecord}
    (member : record ∈ state.returned) :
    ∃ born, .begun born ∈ after.log ∧ Descends born record := by
  rcases kept.returned record member with ⟨born, listed, descends⟩
  exact ⟨born, log _ listed, descends⟩

theorem returned_moves (kept : TokensKept format ids state) {step : JournalStep}
    (moves : JournalState.Moves format ids state step after) (record : OperationRecord)
    (member : record ∈ after.returned) :
    ∃ born, .begun born ∈ after.log ∧ Descends born record := by
  cases moves with
  | write written checked =>
      rcases List.mem_cons.mp member with here | before
      · rw [here]
        exact (kept.claims.continued written checked).2
      · exact kept.returned record before
  | insert config ledger actor request epoch at_ begun store known made inserted =>
      rcases List.mem_cons.mp member with here | before
      · rw [here]
        exact ⟨begun, List.mem_cons_self, .refl begun⟩
      · exact kept.returned_of_log (fun _ => List.mem_cons_of_mem _) before
  | idle | drew | account | drawEpoch | readEpoch | read | sweep | delete | reviewTrash
  | reviewStaging => exact kept.returned record member
  | restore | finish | claim | finishUndo | cleanTrash | cleanStaging =>
      exact kept.returned_of_log (fun _ => List.mem_cons_of_mem _) member

/-- The helper hands back the record it was given, so what it names is what the
journal stored. -/
theorem finish (kept : TokensKept format ids state) {config : JournalConfig}
    {record finished : OperationRecord} {logReserveBytes : Nat} {logStorage : Option Text}
    {response : Option HelperResponse} {at_ : Nat} {store : Store}
    (spares : SparesTrash format state
      (.finish config record logReserveBytes logStorage response at_))
    (known : record ∈ state.returned)
    (done : state.store.finishOperation format config
      (JournalState.charged record logReserveBytes logStorage) response at_ = .ok (finished, store)) :
    TokensTrack format { state with store := store, log := .finished finished :: state.log } := by
  rcases Store.finishOperation_ok done with ⟨current, found, _, same, status, _, rfl⟩
  have stored := (kept.claims.rows _ _ found).born
  have origin : ∃ born, .begun born ∈ state.log ∧ Descends born finished := by
    rcases stored with ⟨born, listed, descends⟩
    exact ⟨born, listed, descends.finished same⟩
  have keyed : current.key = record.key := state.store.operations.keyed _ _ found
  have handed := kept.returned record known
  have source : finished.sourcePath = record.sourcePath :=
    same.sourcePath.trans (sourcePath_of_key kept.claims handed stored keyed)
  have action : finished.action = record.action := by
    rcases stored with ⟨born, listed, descends⟩
    rcases handed with ⟨first, begun, rest⟩
    have equal := kept.claims.unique first born begun listed
      (rest.id.symm.trans ((congrArg OperationKey.id keyed).symm.trans descends.id))
    rw [same.action, descends.action, rest.action, equal]
  have owner : finished.accountId = record.accountId :=
    same.accountId.trans (congrArg OperationKey.accountId keyed)
  refine .ended rfl (by simp) (kept.tracks.finish_staging kept.claims origin) ?_
  have named : Store.namedTrash format (JournalState.charged record logReserveBytes logStorage) =
      Store.namedTrash format finished := by
    unfold Store.namedTrash
    rw [source]
    rfl
  apply kept.tracks.finish_trash kept.claims origin named
  intro succeeded deleted
  rw [source, owner]
  exact spares (action.symm.trans deleted) (status.symm.trans succeeded)

theorem finishUndo (kept : TokensKept format ids state) {now : Nat} {current : OperationRecord}
    {key : OperationKey} {response : Option HelperResponse}
    (found : state.store.operations.find key = some current) :
    TokensTrack format { state with
      store := { state.store with
        trashExpiry := Store.settledTokens state.store (Store.settledRecord now response current)
        operations := state.store.operations.replace (Store.settledRecord now response current) }
      log := .settled (Store.settledRecord now response current) :: state.log } := by
  have origin : ∃ born, .begun born ∈ state.log ∧
      Descends born (Store.settledRecord now response current) := by
    rcases (kept.claims.rows _ _ found).born with ⟨born, listed, descends⟩
    exact ⟨born, listed, descends.congr ⟨rfl, rfl, rfl, rfl, rfl, rfl⟩⟩
  refine .ended rfl (by simp) ?_ (kept.tracks.settled_trash kept.claims origin)
  intro account id
  simpa [JournalEvent.endsStaging] using kept.tracks.staging account id

theorem cleanTrash (kept : TokensKept format ids state) (owner item : Uuid) :
    TokensTrack format (state.cleanTrash owner item) := by
  refine .ended rfl (by simp) ?_ ?_
  · intro account id
    change (state.store.stagingExpiry.find (account, id)).isSome = true ↔ _
    rw [kept.tracks.staging]
    simp [JournalEvent.endsStaging]
  · intro account id
    change ((state.store.trashExpiry.erase (owner, item)).find (account, id)).isSome = true ↔ _
    rw [isSome_erase, kept.tracks.trash]
    rfl

theorem cleanStaging (kept : TokensKept format ids state) (owner item : Uuid) :
    TokensTrack format (state.cleanStaging owner item) := by
  refine .ended rfl (by simp) ?_ ?_
  · intro account id
    change ((state.store.stagingExpiry.erase (owner, item)).find (account, id)).isSome = true ↔ _
    rw [isSome_erase, kept.tracks.staging]
    rfl
  · intro account id
    change (state.store.trashExpiry.find (account, id)).isSome = true ↔ _
    rw [kept.tracks.trash]
    simp [JournalEvent.endsTrash]

theorem tracks_moves (kept : TokensKept format ids state) {step : JournalStep}
    (spares : SparesTrash format state step)
    (moves : JournalState.Moves format ids state step after) : TokensTrack format after := by
  cases moves with
  | idle | drew | drawEpoch | readEpoch | read | write | sweep | delete =>
      exact kept.tracks.still (fun _ => rfl) (fun _ => rfl) (.inl rfl)
  | account op store tables epoch =>
      exact kept.tracks.still (fun _ => by rw [tables.stagingExpiry])
        (fun _ => by rw [tables.trashExpiry]) (.inl rfl)
  | restore now actor store tables epoch =>
      exact kept.tracks.still (fun _ => by rw [tables.stagingExpiry])
        (fun _ => by rw [tables.trashExpiry])
        (.inr ⟨_, rfl, fun _ _ => ⟨id, id, id, id⟩⟩)
  | insert config ledger actor request epoch at_ record store known made inserted =>
      rcases Store.insertRecord_ok inserted with ⟨_, _, _, effect⟩
      refine kept.tracks.insert ?_ effect rfl rfl
      rw [made]
      intro trashed
      exact stagingPath_of_trash trashed
  | finish config record logReserveBytes logStorage response at_ finished store known done =>
      exact kept.finish spares known done
  | claim config authority operationId expectedState at_ caller row record claims =>
      exact kept.tracks.still (fun _ => rfl) (fun _ => rfl)
        (.inr ⟨_, rfl, fun _ _ => ⟨id, id, id, id⟩⟩)
  | finishUndo config now record response current found => exact kept.finishUndo found
  | cleanTrash owner item => exact kept.cleanTrash owner item
  | cleanStaging owner item => exact kept.cleanStaging owner item
  | reviewTrash copy =>
      exact kept.tracks.still (fun _ => rfl) (fun key => isSome_modify _ key) (.inl rfl)
  | reviewStaging copy =>
      exact kept.tracks.still (fun key => isSome_modify _ key) (fun _ => rfl) (.inl rfl)

theorem moves (kept : TokensKept format ids state) (distinct : Function.Injective ids)
    {step : JournalStep} (spares : SparesTrash format state step)
    (moves : JournalState.Moves format ids state step after) : TokensKept format ids after :=
  ⟨kept.claims.moves distinct moves, kept.returned_moves moves, kept.tracks_moves spares moves⟩

end TokensKept

/-! ## Deleted records -/

theorem Store.TokensOf.isSome {wanted : Bool} {record : OperationRecord}
    {before after : Table (Uuid × Uuid) OperationRecord}
    (tokens : Store.TokensOf wanted record before after) {key : Uuid × Uuid}
    (present : (before.find key).isSome = true) : (after.find key).isSome = true := by
  by_cases same : key = (record.accountId, record.id)
  · subst same
    cases wanted with
    | true =>
        rw [tokens.own]
        rfl
    | false =>
        rw [tokens]
        exact present
  · rw [tokens.other same]
    exact present

/-- All tokens of the first store are in the second. -/
structure TokensRemain (store after : Store) : Prop where
  trash : forall key, (store.trashExpiry.find key).isSome = true ->
    (after.trashExpiry.find key).isSome = true
  staging : forall key, (store.stagingExpiry.find key).isSome = true ->
    (after.stagingExpiry.find key).isSome = true

/-- A step that deletes a record deletes no token. -/
theorem tokens_remain {format : JournalFormat} {ids : Nat -> Uuid} {state after : JournalState}
    {step : JournalStep} (moves : JournalState.Moves format ids state step after)
    {key : OperationKey} (present : (state.store.operations.find key).isSome = true)
    (gone : (after.store.operations.find key).isSome = false) :
    TokensRemain state.store after.store := by
  have stays : after.store.operations = state.store.operations -> False := by
    intro same
    rw [same, present] at gone
    cases gone
  have rewritten : forall record,
      after.store.operations = state.store.operations.replace record -> False := by
    intro record same
    rw [same, Register.isSome_find_replace, present] at gone
    cases gone
  cases moves with
  | insert config ledger actor request epoch at_ record store known made inserted =>
      rcases Store.insertRecord_ok inserted with ⟨_, _, _, effect⟩
      rw [effect.stored]
      exact ⟨fun _ => effect.trashTokens.isSome, fun _ => effect.stagingTokens.isSome⟩
  | delete => exact ⟨fun _ => id, fun _ => id⟩
  | account op store tables epoch => exact absurd tables.operations stays
  | restore now actor store tables epoch => exact absurd tables.operations stays
  | finish config record logReserveBytes logStorage response at_ finished store known done =>
      rcases Store.finishOperation_ok done with ⟨_, _, _, _, _, _, stored⟩
      exact absurd (stored ▸ rfl) (rewritten finished)
  | write record => exact absurd rfl (rewritten record)
  | claim => exact absurd rfl (rewritten _)
  | finishUndo => exact absurd rfl (rewritten _)
  | idle | drew | drawEpoch | readEpoch | read | sweep | cleanTrash | cleanStaging | reviewTrash
  | reviewStaging => exact absurd rfl stays

/-- In every state that is reached without deleting an ordinary file named like
an item in the trash, the tokens are exactly those of what is outstanding.
Whatever deletes a record leaves the tokens alone. -/
theorem tokens_track_outstanding (env : Environment) (format : JournalFormat) (ids : Nat -> Uuid)
    (distinct : Function.Injective ids) (store : Store) (steps : List JournalStep)
    (spares : Runs.Each (JournalState.step env format ids) (SparesTrash format) (.initial store)
      steps) :
    let final := Runs.run (JournalState.step env format ids) (.initial store) steps
    TokensTrack format final ∧
      forall step key, (final.store.operations.find key).isSome = true ->
        ((final.step env format ids step).store.operations.find key).isSome = false ->
        TokensRemain final.store (final.step env format ids step).store := by
  intro final
  have kept : TokensKept format ids final := by
    refine Runs.invariant_each (TokensKept format ids) ?_ (.initial format ids store) spares
    intro state step condition kept
    exact kept.moves distinct condition (state.step_moves env format ids step)
  refine ⟨kept.tracks, ?_⟩
  intro step key present gone
  exact tokens_remain (final.step_moves env format ids step) present gone

namespace OneTrash

/-- Something is deleted for good. -/
def deleting (path : Text) : List JournalStep :=
  [.insert config ledger actor (request .deletePermanently 8 path) (ids 0) 1100,
    .finish config
      (newRecord format actor (request .deletePermanently 8 path) (ids 2) (ids 0) 1100) 0 none
      (some ⟨true, none, 0, 0, none, .other⟩) 1101]

def after (steps : List JournalStep) : JournalState :=
  Runs.run (JournalState.step environment format ids) (.initial store) steps

/-- The item in the trash is deleted. -/
def emptied : List JournalStep := trashing ++ deleting (trashFiles ++ hyphenated (ids 1))

/-- A file is deleted that lies at the top and has the name of the item. -/
def namesake : List JournalStep := trashing ++ deleting (hyphenated (ids 1))

theorem emptied_spares :
    Runs.Each (JournalState.step environment format ids) (SparesTrash format) (.initial store)
      emptied := by
  refine ⟨trivial, trivial, trivial, ?_, trivial, ?_, trivial⟩
  · intro deleted
    cases deleted
  · intro _ _ ordinary
    have prefixed : Text.stripPrefix trashFiles (trashFiles ++ hyphenated (ids 1)) ≠ none := by
      decide
    exact absurd ordinary prefixed

end OneTrash

open OneTrash in
theorem tokens_track_emptied :
    Runs.Each (JournalState.step environment format ids) (SparesTrash format) (.initial store)
        emptied ∧
      (OneTrash.after trashing).store.trashExpiry.find (2, ids 1) ≠ none ∧
      (OneTrash.after emptied).store.trashExpiry.find (2, ids 1) = none ∧
      TokensTrack format (OneTrash.after emptied) := by
  refine ⟨emptied_spares, by decide, by decide, ?_⟩
  exact (tokens_track_outstanding environment format ids ids_injective store emptied
    emptied_spares).1

open OneTrash in
/-- The item is still in the trash, and its token is gone. -/
theorem namesake_loses_token : ¬ TokensTrack format (OneTrash.after namesake) := by
  intro tracks
  have outstanding : TrashOutstanding format (OneTrash.after namesake).log 2 (ids 1) := by
    unfold TrashOutstanding
    decide
  have present := (tracks.trash 2 (ids 1)).mpr outstanding
  have gone : (OneTrash.after namesake).store.trashExpiry.find (2, ids 1) = none := by
    decide
  rw [gone] at present
  cases present

end TealDrive
