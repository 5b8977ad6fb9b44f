import TealDrive.Accounts.JournalRuns

namespace TealDrive

open Outcome

/-!
# Every operation is undone at most once

A stored record always goes back to the record that was begun under its
identifier, and identifiers are drawn once.  A claim leaves a mark in the
record, and no step takes the mark away: the only write of an old copy is that
of a continued download, and a download cannot be claimed.  The epoch of a
record is the one read when it was begun, and a restore replaces the current
epoch by one that no record has.
-/

/-- The record goes back to the one that was begun. -/
structure Descends (born record : OperationRecord) : Prop where
  key : record.key = born.key
  action : record.action = born.action
  rootId : record.rootId = born.rootId
  sourcePath : record.sourcePath = born.sourcePath
  stagingPath : record.stagingPath = born.stagingPath
  undoEpoch : record.undoEpoch = born.undoEpoch

theorem Descends.refl (record : OperationRecord) : Descends record record :=
  ⟨rfl, rfl, rfl, rfl, rfl, rfl⟩

/-- A claim, an outcome of an undo and a continuation leave these fields
alone. -/
theorem Descends.congr {born record later : OperationRecord} (descends : Descends born record)
    (same : Descends record later) : Descends born later :=
  ⟨same.key.trans descends.key, same.action.trans descends.action,
    same.rootId.trans descends.rootId, same.sourcePath.trans descends.sourcePath,
    same.stagingPath.trans descends.stagingPath, same.undoEpoch.trans descends.undoEpoch⟩

theorem Descends.id {born record : OperationRecord} (descends : Descends born record) :
    record.id = born.id :=
  congrArg OperationKey.id descends.key

theorem Descends.finished {born current finished : OperationRecord}
    (descends : Descends born current) (same : Store.SameOperation current finished) :
    Descends born finished :=
  descends.congr ⟨same.key, same.action, same.rootId, same.sourcePath, same.stagingPath,
    same.undoEpoch⟩

/-- The identifier is one of those drawn so far. -/
def Drawn (ids : Nat -> Uuid) (drawn : Nat) (id : Uuid) : Prop := ∃ index, index < drawn ∧ id = ids index

theorem Drawn.later {ids : Nat -> Uuid} {drawn : Nat} {id : Uuid} (early : Drawn ids drawn id) :
    Drawn ids (drawn + 1) id := by
  rcases early with ⟨index, below, same⟩
  exact ⟨index, Nat.lt_succ_of_lt below, same⟩

theorem Drawn.latest (ids : Nat -> Uuid) (drawn : Nat) : Drawn ids (drawn + 1) (ids drawn) :=
  ⟨drawn, Nat.lt_succ_self drawn, rfl⟩

theorem Drawn.ne_latest {ids : Nat -> Uuid} (distinct : Function.Injective ids) {drawn : Nat}
    {id : Uuid} (early : Drawn ids drawn id) : id ≠ ids drawn := by
  rcases early with ⟨index, below, rfl⟩
  intro same
  exact Nat.ne_of_lt below (distinct same)

/-- Whether the event is a claim of the operation. -/
def JournalEvent.claims (id : Uuid) : JournalEvent -> Bool
  | .claimed call => call.operationId == id
  | _ => false

/-- Neither the beginning of an operation nor a claim. -/
def JournalEvent.plain : JournalEvent -> Bool
  | .begun _ | .claimed _ => false
  | _ => true

/-- A log with at most one plain event more. -/
inductive LogGrows (log : List JournalEvent) : List JournalEvent -> Prop where
  | same : LogGrows log log
  | event (event : JournalEvent) (plain : event.plain = true) : LogGrows log (event :: log)

namespace LogGrows

variable {log longer : List JournalEvent}

theorem begun (grows : LogGrows log longer) {born : OperationRecord} :
    .begun born ∈ longer ↔ .begun born ∈ log := by
  cases grows with
  | same => exact Iff.rfl
  | event event plain => cases event <;> simp_all [JournalEvent.plain]

theorem claimed (grows : LogGrows log longer) {call : ClaimCall} :
    .claimed call ∈ longer ↔ .claimed call ∈ log := by
  cases grows with
  | same => exact Iff.rfl
  | event event plain => cases event <;> simp_all [JournalEvent.plain]

theorem counts (grows : LogGrows log longer) (id : Uuid) :
    longer.countP (JournalEvent.claims id) = log.countP (JournalEvent.claims id) := by
  cases grows with
  | same => rfl
  | event event plain => cases event <;> simp_all [JournalEvent.plain, JournalEvent.claims]

end LogGrows

/-! ## Records and claims -/

/-- The record was begun, and if it was claimed it says so. -/
structure Traced (log : List JournalEvent) (record : OperationRecord) : Prop where
  born : ∃ born, .begun born ∈ log ∧ Descends born record
  marked : forall call, .claimed call ∈ log -> record.id = call.operationId ->
    record.undoStatus ≠ none

theorem Traced.grows {log longer : List JournalEvent} {record : OperationRecord}
    (traced : Traced log record) (grows : LogGrows log longer) : Traced longer record where
  born := by
    rcases traced.born with ⟨born, listed, descends⟩
    exact ⟨born, grows.begun.mpr listed, descends⟩
  marked := fun call listed => traced.marked call (grows.claimed.mp listed)

/-- Where the records come from, and what claims left in them. -/
structure ClaimsKept (ids : Nat -> Uuid) (state : JournalState) : Prop where
  rows : forall key record, state.store.operations.find key = some record ->
    Traced state.log record
  continued : forall record, record ∈ state.continued ->
    record.action = .download ∧ ∃ born, .begun born ∈ state.log ∧ Descends born record
  drawn : forall born, .begun born ∈ state.log -> Drawn ids state.drawn born.id
  unique : forall first second, .begun first ∈ state.log -> .begun second ∈ state.log ->
    first.id = second.id -> first = second
  claimed : forall call, .claimed call ∈ state.log ->
    ∃ born, .begun born ∈ state.log ∧ born.id = call.operationId ∧ born.action.undoable = true
  once : forall id, state.log.countP (JournalEvent.claims id) ≤ 1

namespace ClaimsKept

variable {ids : Nat -> Uuid} {state : JournalState}

theorem initial (ids : Nat -> Uuid) (store : Store) : ClaimsKept ids (.initial store) where
  rows := by
    intro key record found
    cases found
  continued := fun _ member => absurd member List.not_mem_nil
  drawn := fun _ member => absurd member List.not_mem_nil
  unique := fun _ _ member => absurd member List.not_mem_nil
  claimed := fun _ member => absurd member List.not_mem_nil
  once := fun _ => Nat.zero_le 1

/-- Steps that begin and claim nothing. -/
theorem plain (kept : ClaimsKept ids state) {after : JournalState}
    (grows : LogGrows state.log after.log) (drawn : state.drawn ≤ after.drawn)
    (continued : after.continued = state.continued)
    (rows : forall key record, after.store.operations.find key = some record ->
      Traced state.log record) : ClaimsKept ids after where
  rows := fun key record found => (rows key record found).grows grows
  continued := by
    intro record member
    rw [continued] at member
    rcases kept.continued record member with ⟨action, born, listed, descends⟩
    exact ⟨action, born, grows.begun.mpr listed, descends⟩
  drawn := by
    intro born listed
    rcases kept.drawn born (grows.begun.mp listed) with ⟨index, below, same⟩
    exact ⟨index, Nat.lt_of_lt_of_le below drawn, same⟩
  unique := fun first second one two =>
    kept.unique first second (grows.begun.mp one) (grows.begun.mp two)
  claimed := by
    intro call listed
    rcases kept.claimed call (grows.claimed.mp listed) with ⟨born, member, same⟩
    exact ⟨born, grows.begun.mpr member, same⟩
  once := by
    intro id
    rw [grows.counts id]
    exact kept.once id

/-- A rewritten record is traced when the new one is. -/
theorem replaced (kept : ClaimsKept ids state) {record : OperationRecord}
    (traced : Traced state.log record) {key : OperationKey} {found : OperationRecord}
    (located : (state.store.operations.replace record).find key = some found) :
    Traced state.log found := by
  by_cases same : key = record.key
  · subst same
    rw [Register.find_replace_self] at located
    rcases Option.map_eq_some_iff.mp located with ⟨_, _, rfl⟩
    exact traced
  · rw [Register.find_replace_of_ne same] at located
    exact kept.rows key found located

/-- A continued record is a download, and no download was ever claimed. -/
theorem traced_continued (kept : ClaimsKept ids state) {record : OperationRecord}
    (read : record ∈ state.continued) : Traced state.log record := by
  rcases kept.continued record read with ⟨download, born, listed, descends⟩
  refine ⟨⟨born, listed, descends⟩, ?_⟩
  intro call claimed named
  rcases kept.claimed call claimed with ⟨other, member, same, undoable⟩
  have equal : other = born := kept.unique other born member listed
    (same.trans (named.symm.trans descends.id))
  rw [equal, ← descends.action, download] at undoable
  cases undoable

theorem read (kept : ClaimsKept ids state) {format : JournalFormat} {config : JournalConfig}
    {actor : Account} {request : HelperRequest} {offset at_ : Nat}
    {previous record : OperationRecord}
    (found : state.store.previousRecord actor.id request.requestId = some previous)
    (accepted : Store.continuedRecord format config actor request offset at_ previous = .ok record) :
    ClaimsKept ids { state with continued := record :: state.continued } := by
  rcases Store.continuedRecord_ok accepted with ⟨_, _, _, download, _, _, rfl⟩
  rcases (kept.rows _ _ (Store.previousRecord_spec found).1).born with ⟨born, listed, descends⟩
  refine { kept with continued := ?_ }
  intro other member
  rcases List.mem_cons.mp member with here | before
  · rw [here]
    exact ⟨download, born, listed, descends.congr ⟨rfl, rfl, rfl, rfl, rfl, rfl⟩⟩
  · exact kept.continued other before

theorem insert (kept : ClaimsKept ids state) (distinct : Function.Injective ids)
    {account : Uuid} {record : OperationRecord} {store : Store} {operations : Operations}
    {trash staging : Table (Uuid × Uuid) OperationRecord} (fresh : record.id = ids state.drawn)
    (inserted : Store.Inserted account record state.store store operations trash staging) :
    ClaimsKept ids { state with
      store := store
      drawn := state.drawn + 1
      returned := record :: state.returned
      log := .begun record :: state.log } := by
  have unused : forall born, .begun born ∈ state.log -> born.id ≠ record.id := by
    intro born listed same
    exact (kept.drawn born listed).ne_latest distinct (same.trans fresh)
  have unclaimed : forall call, .claimed call ∈ state.log -> record.id ≠ call.operationId := by
    intro call claimed same
    rcases kept.claimed call claimed with ⟨born, listed, named, _⟩
    exact unused born listed (named.trans same.symm)
  refine ⟨?_, ?_, ?_, ?_, ?_, ?_⟩
  · intro key found located
    change store.operations.find key = some found at located
    rw [inserted.stored] at located
    by_cases same : key = record.key
    · subst same
      rw [Register.find_insert_self] at located
      cases located
      refine ⟨⟨record, List.mem_cons_self, .refl record⟩, ?_⟩
      intro call claimed named
      exact absurd named (unclaimed call (List.mem_of_ne_of_mem (by simp) claimed))
    · rw [Register.find_insert_of_ne same] at located
      rcases kept.rows key found (inserted.rotates.origin located) with
        ⟨⟨born, listed, descends⟩, marked⟩
      refine ⟨⟨born, List.mem_cons_of_mem _ listed, descends⟩, ?_⟩
      intro call claimed
      exact marked call (List.mem_of_ne_of_mem (by simp) claimed)
  · intro other member
    rcases kept.continued other member with ⟨action, born, listed, descends⟩
    exact ⟨action, born, List.mem_cons_of_mem _ listed, descends⟩
  · intro born listed
    rcases List.mem_cons.mp listed with here | before
    · cases here
      rw [fresh]
      exact .latest ids state.drawn
    · exact (kept.drawn born before).later
  · intro first second one two same
    rcases List.mem_cons.mp one with here | before
    · rcases List.mem_cons.mp two with there | earlier
      · cases here
        cases there
        rfl
      · cases here
        exact absurd same.symm (unused second earlier)
    · rcases List.mem_cons.mp two with there | earlier
      · cases there
        exact absurd same (unused first before)
      · exact kept.unique first second before earlier same
  · intro call claimed
    rcases kept.claimed call (List.mem_of_ne_of_mem (by simp) claimed) with ⟨born, listed, rest⟩
    exact ⟨born, List.mem_cons_of_mem _ listed, rest⟩
  · intro id
    have same : (JournalEvent.begun record :: state.log).countP (JournalEvent.claims id) =
        state.log.countP (JournalEvent.claims id) := by
      simp [JournalEvent.claims]
    exact same ▸ kept.once id

/-- A claim finds an unmarked record, so nobody claimed the operation before. -/
theorem claim (kept : ClaimsKept ids state) {config : JournalConfig} {authority : Authority}
    {operationId : Uuid} {expectedState : Text} {at_ : Nat} {caller : Uuid} {row : AccountRow}
    {record : OperationRecord}
    (claims : Store.Claims config (ids state.drawn) authority operationId expectedState at_
      state.store caller row record) :
    ClaimsKept ids { state with
      store := { state.store.ensureEpoch (ids state.drawn) with
        operations := state.store.operations.replace (Store.claimedRecord record) }
      drawn := state.drawn + 1
      log := .claimed ⟨state.store, config, ids state.drawn, authority, operationId,
        expectedState, at_⟩ :: state.log } := by
  have traced := kept.rows _ _ claims.found
  rcases traced.born with ⟨born, listed, descends⟩
  have undoable : born.action.undoable = true := by
    rw [← descends.action]
    exact claims.undoable
  have never : state.log.countP (JournalEvent.claims operationId) = 0 := by
    apply List.countP_eq_zero.mpr
    intro event member claimed
    cases event with
    | claimed call =>
        have named : call.operationId = operationId := by
          simpa [JournalEvent.claims] using claimed
        exact traced.marked call member (claims.named.trans named.symm) claims.unclaimed
    | _ => cases claimed
  refine ⟨?_, ?_, ?_, ?_, ?_, ?_⟩
  · intro key found located
    have marked : Traced state.log (Store.claimedRecord record) :=
      ⟨⟨born, listed, descends.congr ⟨rfl, rfl, rfl, rfl, rfl, rfl⟩⟩,
        fun _ _ _ unmarked => by cases unmarked⟩
    by_cases same : key = record.key
    · subst same
      have replaced : (state.store.operations.replace (Store.claimedRecord record)).find record.key =
          some found := located
      rw [show record.key = (Store.claimedRecord record).key from rfl,
        Register.find_replace_self] at replaced
      rcases Option.map_eq_some_iff.mp replaced with ⟨_, _, rfl⟩
      exact ⟨⟨born, List.mem_cons_of_mem _ listed, descends.congr ⟨rfl, rfl, rfl, rfl, rfl, rfl⟩⟩,
        fun _ _ _ unmarked => by cases unmarked⟩
    · have other : (state.store.operations.replace (Store.claimedRecord record)).find key =
          some found := located
      have apart : key ≠ (Store.claimedRecord record).key := same
      rw [Register.find_replace_of_ne apart] at other
      have keyed : found.key = key := state.store.operations.keyed key found other
      rcases kept.rows key found other with ⟨⟨first, known, rest⟩, marked⟩
      refine ⟨⟨first, List.mem_cons_of_mem _ known, rest⟩, ?_⟩
      intro call member named
      rcases List.mem_cons.mp member with here | before
      · -- Another row cannot have the identifier: both go back to one beginning.
        cases here
        have equal : first = born := kept.unique first born known listed
          (rest.id.symm.trans (named.trans (claims.named.symm.trans descends.id)))
        exact absurd (keyed.symm.trans (rest.key.trans (equal ▸ descends.key.symm))) same
      · exact marked call before named
  · intro other member
    rcases kept.continued other member with ⟨action, other, known, rest⟩
    exact ⟨action, other, List.mem_cons_of_mem _ known, rest⟩
  · intro other member
    exact (kept.drawn other (List.mem_of_ne_of_mem (by simp) member)).later
  · intro first second one two
    exact kept.unique first second (List.mem_of_ne_of_mem (by simp) one)
      (List.mem_of_ne_of_mem (by simp) two)
  · intro call member
    rcases List.mem_cons.mp member with here | before
    · cases here
      exact ⟨born, List.mem_cons_of_mem _ listed, descends.id.symm.trans claims.named, undoable⟩
    · rcases kept.claimed call before with ⟨other, known, rest⟩
      exact ⟨other, List.mem_cons_of_mem _ known, rest⟩
  · intro id
    by_cases same : operationId = id
    · subst same
      have once : forall event : JournalEvent,
          (event :: state.log).countP (JournalEvent.claims operationId) ≤ 1 := by
        intro event
        rw [List.countP_cons, never]
        split <;> simp
      exact once _
    · have other : forall call : ClaimCall, call.operationId = operationId ->
          (JournalEvent.claimed call :: state.log).countP (JournalEvent.claims id) =
            state.log.countP (JournalEvent.claims id) := by
        intro call named
        rw [List.countP_cons_of_neg]
        simpa [JournalEvent.claims, named] using same
      exact (other _ rfl).le.trans (kept.once id)

/-- Steps that leave the records alone. -/
theorem unchanged (kept : ClaimsKept ids state) {after : JournalState}
    (grows : LogGrows state.log after.log) (drawn : state.drawn ≤ after.drawn)
    (continued : after.continued = state.continued)
    (same : after.store.operations = state.store.operations) : ClaimsKept ids after := by
  apply kept.plain grows drawn continued
  intro key record found
  rw [same] at found
  exact kept.rows key record found

/-- Steps that rewrite one record. -/
theorem rewritten (kept : ClaimsKept ids state) {after : JournalState}
    (grows : LogGrows state.log after.log) (drawn : state.drawn ≤ after.drawn)
    (continued : after.continued = state.continued) {record : OperationRecord}
    (traced : Traced state.log record)
    (same : after.store.operations = state.store.operations.replace record) :
    ClaimsKept ids after := by
  apply kept.plain grows drawn continued
  intro key found located
  rw [same] at located
  exact kept.replaced traced located

/-- A finished record keeps the mark of the one it replaces. -/
theorem finish (kept : ClaimsKept ids state) {format : JournalFormat} {config : JournalConfig}
    {record finished : OperationRecord} {response : Option HelperResponse} {at_ : Nat}
    {store : Store}
    (done : state.store.finishOperation format config record response at_ = .ok (finished, store)) :
    ClaimsKept ids { state with store := store, log := .finished finished :: state.log } := by
  rcases Store.finishOperation_ok done with ⟨current, found, _, same, _, _, stored⟩
  rcases kept.rows _ _ found with ⟨⟨born, listed, descends⟩, marked⟩
  have traced : Traced state.log finished := by
    refine ⟨⟨born, listed, descends.finished same⟩, ?_⟩
    intro call claimed named
    rw [same.undoStatus]
    exact marked call claimed (same.id.symm.trans named)
  exact kept.rewritten (.event _ rfl) le_rfl rfl traced (stored ▸ rfl)

theorem finishUndo (kept : ClaimsKept ids state) {now : Nat} {current : OperationRecord}
    {key : OperationKey} {response : Option HelperResponse}
    (found : state.store.operations.find key = some current) :
    ClaimsKept ids { state with
      store := { state.store with
        trashExpiry := Store.settledTokens state.store (Store.settledRecord now response current)
        operations := state.store.operations.replace (Store.settledRecord now response current) }
      log := .settled (Store.settledRecord now response current) :: state.log } := by
  rcases kept.rows key current found with ⟨⟨born, listed, descends⟩, _⟩
  have traced : Traced state.log (Store.settledRecord now response current) :=
    ⟨⟨born, listed, descends.congr ⟨rfl, rfl, rfl, rfl, rfl, rfl⟩⟩,
      fun _ _ _ unmarked => by cases unmarked⟩
  exact kept.rewritten (.event _ rfl) le_rfl rfl traced rfl

theorem delete (kept : ClaimsKept ids state) (row : OperationKey × OperationRecord) :
    ClaimsKept ids { state with store := state.store.deleteExact row } := by
  refine kept.plain .same le_rfl rfl ?_
  intro key record found
  change (state.store.operations.filter _).find key = some record at found
  rw [Register.find_filter, Option.filter_eq_some_iff] at found
  exact kept.rows key record found.1

theorem moves (distinct : Function.Injective ids) (kept : ClaimsKept ids state)
    {format : JournalFormat} {step : JournalStep} {after : JournalState}
    (moves : JournalState.Moves format ids state step after) : ClaimsKept ids after := by
  cases moves with
  | idle => exact kept
  | drew => exact kept.unchanged .same (Nat.le_succ _) rfl rfl
  | account op store tables => exact kept.unchanged .same le_rfl rfl tables.operations
  | restore now actor store tables =>
      exact kept.unchanged (.event _ rfl) (Nat.le_succ _) rfl tables.operations
  | drawEpoch => exact kept.unchanged .same (Nat.le_succ _) rfl rfl
  | readEpoch => exact kept.unchanged .same le_rfl rfl rfl
  | read config actor request offset at_ previous record found accepted =>
      exact kept.read found accepted
  | write record checked =>
      exact kept.rewritten .same le_rfl rfl (kept.traced_continued checked) rfl
  | insert config ledger actor request epoch at_ record store known made inserted =>
      rcases Store.insertRecord_ok inserted with ⟨_, _, _, effect⟩
      exact kept.insert distinct (made ▸ rfl) effect
  | finish config record logReserveBytes logStorage response at_ finished store known done =>
      exact kept.finish done
  | sweep => exact kept.unchanged .same le_rfl rfl rfl
  | delete row => exact kept.delete row
  | claim config authority operationId expectedState at_ caller row record claims =>
      exact kept.claim claims
  | finishUndo config now record response current found => exact kept.finishUndo found
  | cleanTrash => exact kept.unchanged (.event _ rfl) le_rfl rfl rfl
  | cleanStaging => exact kept.unchanged (.event _ rfl) le_rfl rfl rfl
  | reviewTrash => exact kept.unchanged .same le_rfl rfl rfl
  | reviewStaging => exact kept.unchanged .same le_rfl rfl rfl

end ClaimsKept

/-! ## Epochs -/

/-- The operation was begun before a restore. -/
def Outlived (log : List JournalEvent) (born : OperationRecord) : Prop :=
  ∃ later earlier, log = later ++ .restored :: earlier ∧ .begun born ∈ earlier

theorem Outlived.begun {log : List JournalEvent} {born : OperationRecord}
    (outlived : Outlived log born) : .begun born ∈ log := by
  rcases outlived with ⟨later, earlier, rfl, member⟩
  exact List.mem_append_right _ (List.mem_cons_of_mem _ member)

/-- Only a restore outlives what was not outlived before. -/
theorem Outlived.before {event : JournalEvent} {log : List JournalEvent} {born : OperationRecord}
    (outlived : Outlived (event :: log) born) (other : event ≠ .restored) : Outlived log born := by
  rcases outlived with ⟨later, earlier, split, member⟩
  rcases List.cons_eq_append_iff.mp split with ⟨_, here⟩ | ⟨rest, _, below⟩
  · cases here
    exact absurd rfl other
  · exact ⟨rest, earlier, below, member⟩

/-- A claim of an operation that was begun earlier in the log, with no restore
in between. -/
def ProperClaim (earlier : List JournalEvent) (call : ClaimCall) : Prop :=
  ∃ caller row record born,
    Store.Claims call.config call.drawn call.authority call.operationId call.expectedState call.at_
      call.store caller row record ∧
    .begun born ∈ earlier ∧ Descends born record ∧ ¬ Outlived earlier born

/-- Which epochs the records may have, and what claims made of them. -/
structure EpochsKept (ids : Nat -> Uuid) (state : JournalState) : Prop where
  current : forall epoch, state.store.undoEpoch = some epoch -> Drawn ids state.drawn epoch
  known : forall epoch, epoch ∈ state.epochs -> Drawn ids state.drawn epoch
  begun : forall born, .begun born ∈ state.log ->
    ∃ epoch, born.undoEpoch = some epoch ∧ Drawn ids state.drawn epoch
  fenced : forall born, Outlived state.log born -> born.undoEpoch ≠ state.store.undoEpoch
  proper : forall later call earlier, state.log = later ++ .claimed call :: earlier ->
    ProperClaim earlier call

namespace EpochsKept

variable {ids : Nat -> Uuid} {state : JournalState}

theorem initial (ids : Nat -> Uuid) (store : Store) : EpochsKept ids (.initial store) where
  current := by
    intro epoch set
    cases set
  known := fun _ member => absurd member List.not_mem_nil
  begun := fun _ member => absurd member List.not_mem_nil
  fenced := fun _ outlived => absurd outlived.begun List.not_mem_nil
  proper := by
    intro later call earlier split
    have member : JournalEvent.claimed call ∈ (JournalState.initial store).log := by
      rw [split]
      simp
    exact absurd member List.not_mem_nil

/-- The current epoch stays, or one that was never drawn before takes its
place. -/
inductive Turns (ids : Nat -> Uuid) (state after : JournalState) : Prop where
  | same (epoch : after.store.undoEpoch = state.store.undoEpoch)
      (drawn : state.drawn ≤ after.drawn)
  | fresh (epoch : after.store.undoEpoch = some (ids state.drawn))
      (drawn : after.drawn = state.drawn + 1)

theorem Turns.drawn {after : JournalState} (turns : Turns ids state after) :
    state.drawn ≤ after.drawn := by
  cases turns with
  | same _ drawn => exact drawn
  | fresh _ drawn => omega

/-- `INSERT OR IGNORE` keeps an epoch that is there. -/
theorem Turns.ensured {after : JournalState}
    (epoch : after.store.undoEpoch = some (state.store.undoEpoch.getD (ids state.drawn)))
    (drawn : after.drawn = state.drawn + 1) : Turns ids state after := by
  cases before : state.store.undoEpoch with
  | none =>
      rw [before] at epoch
      exact .fresh epoch drawn
  | some current =>
      rw [before] at epoch
      exact .same (epoch.trans before.symm) (by omega)

theorem drawn_mono {drawn later : Nat} {id : Uuid} (early : Drawn ids drawn id)
    (more : drawn ≤ later) : Drawn ids later id := by
  rcases early with ⟨index, below, same⟩
  exact ⟨index, Nat.lt_of_lt_of_le below more, same⟩

/-- What was begun before has an epoch other than a fresh one. -/
theorem unlike_fresh (kept : EpochsKept ids state) (distinct : Function.Injective ids)
    {born : OperationRecord} (listed : .begun born ∈ state.log) :
    born.undoEpoch ≠ some (ids state.drawn) := by
  rcases kept.begun born listed with ⟨epoch, same, early⟩
  rw [same]
  intro equal
  exact early.ne_latest distinct (Option.some.inj equal)

theorem current_after (kept : EpochsKept ids state) {after : JournalState}
    (turns : Turns ids state after) (epoch : Uuid) (set : after.store.undoEpoch = some epoch) :
    Drawn ids after.drawn epoch := by
  cases turns with
  | same epoch drawn => exact drawn_mono (kept.current _ (epoch.symm.trans set)) drawn
  | fresh epoch drawn =>
      rw [epoch] at set
      cases set
      rw [drawn]
      exact .latest ids state.drawn

theorem fenced_after (kept : EpochsKept ids state) (distinct : Function.Injective ids)
    {after : JournalState} (turns : Turns ids state after) {born : OperationRecord}
    (outlived : Outlived state.log born) : born.undoEpoch ≠ after.store.undoEpoch := by
  cases turns with
  | same epoch _ =>
      rw [epoch]
      exact kept.fenced born outlived
  | fresh epoch _ =>
      rw [epoch]
      exact kept.unlike_fresh distinct outlived.begun

/-- Steps that log nothing. -/
theorem silent (kept : EpochsKept ids state) (distinct : Function.Injective ids)
    {after : JournalState} (turns : Turns ids state after) (log : after.log = state.log)
    (epochs : forall epoch, epoch ∈ after.epochs -> Drawn ids after.drawn epoch) :
    EpochsKept ids after where
  current := kept.current_after turns
  known := epochs
  begun := by
    intro born listed
    rw [log] at listed
    rcases kept.begun born listed with ⟨epoch, same, early⟩
    exact ⟨epoch, same, drawn_mono early turns.drawn⟩
  fenced := by
    intro born outlived
    rw [log] at outlived
    exact kept.fenced_after distinct turns outlived
  proper := by
    rw [log]
    exact kept.proper

/-- Steps that log one event. -/
theorem logged (kept : EpochsKept ids state) (distinct : Function.Injective ids)
    {after : JournalState} (turns : Turns ids state after) {event : JournalEvent}
    (log : after.log = event :: state.log) (epochs : after.epochs = state.epochs)
    (begun : forall born, event = .begun born ->
      ∃ epoch, born.undoEpoch = some epoch ∧ Drawn ids after.drawn epoch)
    (fenced : event = .restored -> after.store.undoEpoch = some (ids state.drawn))
    (proper : forall call, event = .claimed call -> ProperClaim state.log call) :
    EpochsKept ids after where
  current := kept.current_after turns
  known := by
    intro epoch member
    rw [epochs] at member
    exact drawn_mono (kept.known epoch member) turns.drawn
  begun := by
    intro born listed
    rw [log] at listed
    rcases List.mem_cons.mp listed with here | before
    · exact begun born here.symm
    · rcases kept.begun born before with ⟨epoch, same, early⟩
      exact ⟨epoch, same, drawn_mono early turns.drawn⟩
  fenced := by
    intro born outlived
    rw [log] at outlived
    by_cases restored : event = .restored
    · rw [fenced restored]
      have listed : .begun born ∈ state.log := by
        subst restored
        exact List.mem_of_ne_of_mem (by simp) outlived.begun
      exact kept.unlike_fresh distinct listed
    · exact kept.fenced_after distinct turns (outlived.before restored)
  proper := by
    intro later call earlier split
    rw [log] at split
    rcases List.cons_eq_append_iff.mp split with ⟨_, here⟩ | ⟨rest, _, below⟩
    · cases here
      exact proper call rfl
    · exact kept.proper rest call earlier below

/-- Steps that log an event that neither begins, claims nor restores. -/
theorem plain (kept : EpochsKept ids state) (distinct : Function.Injective ids)
    {after : JournalState} (turns : Turns ids state after) {event : JournalEvent}
    (log : after.log = event :: state.log) (epochs : after.epochs = state.epochs)
    (plain : event.plain = true) (other : event ≠ .restored) : EpochsKept ids after := by
  apply kept.logged distinct turns log epochs
  · intro born here
    rw [here] at plain
    cases plain
  · intro here
    exact absurd here other
  · intro call here
    rw [here] at plain
    cases plain

/-- The epoch a claim compares with is the current one, so no restore came
after the record was begun. -/
theorem proper_claim (kept : EpochsKept ids state) (distinct : Function.Injective ids)
    (claimsKept : ClaimsKept ids state) {config : JournalConfig} {authority : Authority}
    {operationId : Uuid} {expectedState : Text} {at_ : Nat} {caller : Uuid} {row : AccountRow}
    {record : OperationRecord}
    (claims : Store.Claims config (ids state.drawn) authority operationId expectedState at_
      state.store caller row record) :
    ProperClaim state.log
      ⟨state.store, config, ids state.drawn, authority, operationId, expectedState, at_⟩ := by
  rcases (claimsKept.rows _ _ claims.found).born with ⟨born, listed, descends⟩
  refine ⟨caller, row, record, born, claims, listed, descends, ?_⟩
  intro outlived
  have recorded : born.undoEpoch = some (state.store.undoEpoch.getD (ids state.drawn)) :=
    descends.undoEpoch.symm.trans claims.fenced
  cases current : state.store.undoEpoch with
  | none =>
      rw [current] at recorded
      exact kept.unlike_fresh distinct listed recorded
  | some epoch =>
      rw [current] at recorded
      exact kept.fenced born outlived (recorded.trans current.symm)

theorem moves (distinct : Function.Injective ids) (claimsKept : ClaimsKept ids state)
    (kept : EpochsKept ids state) {format : JournalFormat} {step : JournalStep}
    {after : JournalState} (moves : JournalState.Moves format ids state step after) :
    EpochsKept ids after := by
  have still : forall epoch, epoch ∈ state.epochs -> Drawn ids (state.drawn + 1) epoch :=
    fun epoch member => (kept.known epoch member).later
  cases moves with
  | idle => exact kept
  | drew => exact kept.silent distinct (.same rfl (Nat.le_succ _)) rfl still
  | account op store tables epoch => exact kept.silent distinct (.same epoch le_rfl) rfl kept.known
  | restore now actor store tables epoch =>
      refine kept.logged distinct (.fresh epoch rfl) rfl rfl ?_ ?_ ?_
      · intro born here
        cases here
      · intro _
        exact epoch
      · intro call here
        cases here
  | drawEpoch => exact kept.silent distinct (.ensured rfl rfl) rfl still
  | readEpoch =>
      refine kept.silent distinct (.same rfl le_rfl) rfl ?_
      intro epoch member
      rcases List.mem_append.mp member with here | before
      · exact kept.current epoch (Option.mem_toList.mp here)
      · exact kept.known epoch before
  | read => exact kept.silent distinct (.same rfl le_rfl) rfl kept.known
  | write => exact kept.silent distinct (.same rfl le_rfl) rfl kept.known
  | insert config ledger actor request epoch at_ record store known made inserted =>
      rcases Store.insertRecord_ok inserted with ⟨_, _, _, effect⟩
      have same : store.undoEpoch = state.store.undoEpoch := by
        rw [effect.stored]
      refine kept.logged distinct (.same same (Nat.le_succ _)) rfl rfl ?_ ?_ ?_
      · intro born here
        cases here
        exact ⟨epoch, made ▸ rfl, still epoch known⟩
      · intro here
        cases here
      · intro call here
        cases here
  | finish config record logReserveBytes logStorage response at_ finished store known done =>
      rcases Store.finishOperation_ok done with ⟨_, _, _, _, _, _, stored⟩
      exact kept.plain distinct (.same (stored ▸ rfl) le_rfl) rfl rfl rfl (by simp)
  | sweep => exact kept.silent distinct (.same rfl le_rfl) rfl kept.known
  | delete => exact kept.silent distinct (.same rfl le_rfl) rfl kept.known
  | claim config authority operationId expectedState at_ caller row record claims =>
      refine kept.logged distinct (.ensured rfl rfl) rfl rfl ?_ ?_ ?_
      · intro born here
        cases here
      · intro here
        cases here
      · intro call here
        cases here
        exact kept.proper_claim distinct claimsKept claims
  | finishUndo => exact kept.plain distinct (.same rfl le_rfl) rfl rfl rfl (by simp)
  | cleanTrash => exact kept.plain distinct (.same rfl le_rfl) rfl rfl rfl (by simp)
  | cleanStaging => exact kept.plain distinct (.same rfl le_rfl) rfl rfl rfl (by simp)
  | reviewTrash => exact kept.silent distinct (.same rfl le_rfl) rfl kept.known
  | reviewStaging => exact kept.silent distinct (.same rfl le_rfl) rfl kept.known

end EpochsKept

/-- Over every run, an operation is claimed at most once, and every claim is
made by the account of the operation, after its success, on the state it left,
in time, and before any restore. -/
theorem undone_at_most_once (env : Environment) (format : JournalFormat) (ids : Nat -> Uuid)
    (distinct : Function.Injective ids) (store : Store) (steps : List JournalStep) :
    let final := Runs.run (JournalState.step env format ids) (.initial store) steps
    (forall id, final.log.countP (JournalEvent.claims id) ≤ 1) ∧
      forall later call earlier, final.log = later ++ .claimed call :: earlier ->
        ∃ caller row record born,
          Store.Caller call.store call.authority caller row ∧
          call.store.operations.find record.key = some record ∧
          record.id = call.operationId ∧ record.accountId = caller ∧
          record.status = .success ∧
          record.after.map (fun state => state.digest) = some call.expectedState ∧
          call.at_ < record.createdAt +
            min (row.undoHours.getD call.config.undoMaxHours) call.config.undoMaxHours * 3600 ∧
          record.undoEpoch = some (call.store.undoEpoch.getD call.drawn) ∧
          .begun born ∈ earlier ∧ Descends born record ∧ ¬ Outlived earlier born := by
  intro final
  have kept : ClaimsKept ids final ∧ EpochsKept ids final := by
    apply Runs.invariant (fun state => ClaimsKept ids state ∧ EpochsKept ids state)
    · intro state step kept
      have moves := state.step_moves env format ids step
      exact ⟨kept.1.moves distinct moves, kept.2.moves distinct kept.1 moves⟩
    · exact ⟨.initial ids store, .initial ids store⟩
  refine ⟨kept.1.once, ?_⟩
  intro later call earlier split
  rcases kept.2.proper later call earlier split with
    ⟨caller, row, record, born, claims, listed, descends, current⟩
  exact ⟨caller, row, record, born, claims.calling, claims.found, claims.named, claims.own,
    claims.succeeded, claims.expected, claims.early, claims.fenced, listed, descends, current⟩

/-! ## One item moved to the trash and claimed -/

namespace OneTrash

def environment : Environment := ⟨⟨fun _ _ => .ok true⟩, fun _ => [], ⟨fun _ => 0⟩⟩

def hexDigits (id : Uuid) : Text :=
  List.replicate (32 - (Nat.toDigits 16 id).length) '0' ++ Nat.toDigits 16 id

/-- `Uuid::to_string`. -/
def hyphenated (id : Uuid) : Text :=
  "-".toList.intercalate [(hexDigits id).take 8, ((hexDigits id).drop 8).take 4,
    ((hexDigits id).drop 12).take 4, ((hexDigits id).drop 16).take 4, (hexDigits id).drop 20]

def hexValue (symbol : Char) : Nat :=
  if symbol.isDigit then symbol.toNat - 48 else symbol.toNat - 87

/-- `Uuid::parse_str`, for the two spellings without a frame. -/
def parse (text : Text) : Option Uuid :=
  let lower := text.toAsciiLowercase
  let id := (lower.filter (fun symbol => symbol != '-')).foldl
    (fun value symbol => value * 16 + hexValue symbol) 0
  if lower = hyphenated id ∨ lower = hexDigits id then some id else none

def format : JournalFormat := ⟨fun _ => 1000, hyphenated, parse⟩

def config : JournalConfig := ⟨true, 720, 24, 100, 1000, 16384⟩

def ids (index : Nat) : Uuid := index + 100

theorem ids_injective : Function.Injective ids := fun _ _ same => Nat.add_right_cancel same

def row : AccountRow :=
  ⟨⟨"ben".toList, 2000, 2000, "/home/ben".toList, .linux, .user, none, .active, true, 1, none,
    none, 0, 0, none, false⟩, none⟩

def store : Store := { Store.initial [] with accounts := ⟨[(2, row)], by decide⟩ }

def actor : Account := store.view 2 row

def request (command : HelperCommand) (requestId : Nat) (path : Text) : HelperRequest where
  requestId := requestId
  username := "ben".toList
  uid := 2000
  gid := 2000
  command := command
  rootId := ⟨"home".toList⟩
  relativePath := ⟨path⟩
  targetRelativePath := none
  limits := ⟨100, 1000, 1000, 1000⟩
  writeOptions := none
  chmodMode := none
  archiveSourcePaths := none

def digest : Text := List.replicate 64 'a'

def observed : FileState :=
  ⟨digest, [], [], .file, 0o644, 2000, 2000, 3, 1, 0, 0, 0, 0, some digest, none⟩

/-- The helper moved a file to the trash, and saw it before and after. -/
def moved (id : Uuid) : HelperResponse :=
  ⟨true, none, 0, 0, some ⟨none, none, some observed, some observed⟩, .trashEntry (hyphenated id)⟩

def ledger : Store.Ledger := fun _ _ => .ok ()

def trashed : OperationRecord :=
  newRecord format actor (request .moveToTrash 7 "notes".toList) (ids 1) (ids 0) 1000

/-- A file is moved to the trash. -/
def trashing : List JournalStep :=
  [.drawEpoch, .readEpoch,
    .insert config ledger actor (request .moveToTrash 7 "notes".toList) (ids 0) 1000,
    .finish config trashed 0 none (some (moved (ids 1))) 1001]

/-- It is claimed twice. -/
def claims : List JournalStep :=
  [.claim config (.account 2 1) (ids 1) digest 1100, .claim config (.account 2 1) (ids 1) digest 1101]

def final : JournalState :=
  Runs.run (JournalState.step environment format ids) (.initial store) (trashing ++ claims)

end OneTrash

open OneTrash in
theorem undone_at_most_once_twice :
    Function.Injective ids ∧ final.log.countP (JournalEvent.claims (ids 1)) = 1 ∧
      forall id, final.log.countP (JournalEvent.claims id) ≤ 1 := by
  refine ⟨ids_injective, by decide, ?_⟩
  exact (undone_at_most_once environment format ids ids_injective store (trashing ++ claims)).1

end TealDrive
