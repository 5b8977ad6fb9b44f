import TealDrive.Accounts.Processes

namespace TealDrive

open Outcome

/-!
# Ranged reads

A download in ranges is one record that several runs continue one after the
other.  Continuing it is a read, a check and a write outside any transaction, and
finishing a range is a transaction of its own; what keeps the two in step is the
lock of the root, which a run holds from before the read until its end.  Records
may be deleted at any time, but never come back, and an update of a deleted
record does nothing.
-/

/-! ## What the history says about a record -/

namespace SystemEvent

/-- The run of a range event. -/
def run : SystemEvent -> Option Nat
  | .begun run _ _ | .closed run _ _ _ _ | .ended run _ => some run
  | _ => none

/-- Whether the event begins a range in the given run. -/
def begins (run : Nat) : SystemEvent -> Bool
  | .begun other _ _ => other == run
  | _ => false

/-- Whether the event finishes a range in the given run. -/
def closes (run : Nat) : SystemEvent -> Bool
  | .closed other _ _ _ _ => other == run
  | _ => false

/-- Whether the event finishes a range in the given run with success. -/
def delivers (run : Nat) : SystemEvent -> Bool
  | .closed other _ _ _ status => other == run && status == .success
  | _ => false

/-- Where a range on the record was begun. -/
def beginning (record : OperationKey) : SystemEvent -> Option Nat
  | .begun _ key offset => if key = record then some offset else none
  | _ => none

/-- A range that was read and recorded. -/
def range (record : OperationKey) : SystemEvent -> Option (Nat × Nat)
  | .closed _ key offset length .success => if key = record then some (offset, length) else none
  | _ => none

end SystemEvent

/-- Where the first range of the record was begun. -/
def firstOffset (record : OperationKey) (history : List SystemEvent) : Option Nat :=
  (history.filterMap (SystemEvent.beginning record)).getLast?

/-- The recorded ranges, offset and length, the latest first. -/
def rangesOf (record : OperationKey) (history : List SystemEvent) : List (Nat × Nat) :=
  history.filterMap (SystemEvent.range record)

/-- Every range starts where the one before it ended. -/
def Contiguous (first : Nat) : List (Nat × Nat) -> Nat -> Prop
  | [], last => last = first
  | (offset, length) :: earlier, last => last = offset + length ∧ Contiguous first earlier offset

/-- The bytes of all recorded ranges. -/
def totalLength (ranges : List (Nat × Nat)) : Nat := (ranges.map Prod.snd).sum

theorem Contiguous.last_eq {first last : Nat} {ranges : List (Nat × Nat)}
    (contiguous : Contiguous first ranges last) : last = first + totalLength ranges := by
  induction ranges generalizing last with
  | nil => exact contiguous
  | cons range earlier ih =>
      rcases contiguous with ⟨ends, rest⟩
      rw [ends, ih rest]
      simp [totalLength]
      omega

/-- A run on the record is over without having recorded its range. -/
def Abandoned (record : OperationKey) (history : List SystemEvent) : Prop :=
  ∃ later run earlier, history = later ++ .ended run record :: earlier ∧
    forall event, event ∈ earlier -> event.delivers run = false

theorem abandoned_cons {record : OperationKey} {event : SystemEvent} {history : List SystemEvent} :
    Abandoned record (event :: history) ↔
      (∃ run, event = .ended run record ∧
        forall earlier, earlier ∈ history -> earlier.delivers run = false) ∨
      Abandoned record history := by
  constructor
  · rintro ⟨later, run, earlier, split, undelivered⟩
    rcases List.cons_eq_append_iff.mp split with ⟨_, here⟩ | ⟨rest, _, below⟩
    · cases here
      exact Or.inl ⟨run, rfl, undelivered⟩
    · exact Or.inr ⟨rest, run, earlier, below, undelivered⟩
  · rintro (⟨run, rfl, undelivered⟩ | ⟨later, run, earlier, rfl, undelivered⟩)
    · exact ⟨[], run, history, rfl, undelivered⟩
    · exact ⟨event :: later, run, earlier, rfl, undelivered⟩

/-- Nothing is begun on an abandoned record. -/
def NoneAfter (history : List SystemEvent) : Prop :=
  forall later run record earlier, history = later ++ .ended run record :: earlier ->
    (forall event, event ∈ earlier -> event.delivers run = false) ->
    forall other offset, .begun other record offset ∉ later

theorem NoneAfter.cons {event : SystemEvent} {history : List SystemEvent}
    (none : NoneAfter history)
    (fresh : forall run record offset, event = .begun run record offset ->
      ¬ Abandoned record history) : NoneAfter (event :: history) := by
  intro later run record earlier split undelivered other offset member
  rcases List.cons_eq_append_iff.mp split with ⟨empty, _⟩ | ⟨rest, longer, below⟩
  · rw [empty] at member
    exact absurd member List.not_mem_nil
  · rw [longer] at member
    rcases List.mem_cons.mp member with here | before
    · exact fresh other record offset here.symm ⟨rest, run, earlier, below, undelivered⟩
    · exact none rest run record earlier below undelivered other offset before

/-! ## Events that say nothing about ranges -/

section Neutral

variable {event : SystemEvent} {history : List SystemEvent}

theorem firstOffset_neutral (neutral : event.key = none) (record : OperationKey) :
    firstOffset record (event :: history) = firstOffset record history := by
  cases event <;> first | rfl | cases neutral

theorem rangesOf_neutral (neutral : event.key = none) (record : OperationKey) :
    rangesOf record (event :: history) = rangesOf record history := by
  cases event <;> first | rfl | cases neutral

theorem begins_neutral (neutral : event.key = none) (run : Nat) :
    (event :: history).countP (SystemEvent.begins run) =
      history.countP (SystemEvent.begins run) := by
  cases event <;> first | rfl | cases neutral

theorem closes_neutral (neutral : event.key = none) (run : Nat) :
    (event :: history).countP (SystemEvent.closes run) =
      history.countP (SystemEvent.closes run) := by
  cases event <;> first | rfl | cases neutral

theorem abandoned_neutral (neutral : event.key = none) {record : OperationKey} :
    Abandoned record (event :: history) ↔ Abandoned record history := by
  rw [abandoned_cons, or_iff_right]
  rintro ⟨run, rfl, _⟩
  cases neutral

theorem mem_of_key (neutral : event.key = none) {other : SystemEvent} {key : OperationKey}
    (about : other.key = some key) : other ∈ event :: history ↔ other ∈ history := by
  rw [List.mem_cons, or_iff_right]
  intro same
  rw [same, neutral] at about
  cases about

end Neutral

/-! ## Events of other records and runs -/

section Foreign

variable {event : SystemEvent} {history : List SystemEvent}

theorem firstOffset_foreign {record : OperationKey} (foreign : event.key ≠ some record) :
    firstOffset record (event :: history) = firstOffset record history := by
  cases event with
  | begun run key offset =>
      have apart : key ≠ record := fun same => foreign (congrArg some same)
      simp [firstOffset, SystemEvent.beginning, apart]
  | _ => rfl

theorem rangesOf_foreign {record : OperationKey} (foreign : event.key ≠ some record) :
    rangesOf record (event :: history) = rangesOf record history := by
  cases event with
  | closed run key offset length status =>
      have apart : key ≠ record := fun same => foreign (congrArg some same)
      cases status with
      | success => simp [rangesOf, SystemEvent.range, apart]
      | _ => rfl
  | _ => rfl

theorem begins_foreign {run : Nat} (foreign : event.run ≠ some run) : event.begins run = false := by
  cases event with
  | begun other key offset =>
      have apart : other ≠ run := fun same => foreign (congrArg some same)
      simp [SystemEvent.begins, apart]
  | _ => rfl

theorem closes_foreign {run : Nat} (foreign : event.run ≠ some run) : event.closes run = false := by
  cases event with
  | closed other key offset length status =>
      have apart : other ≠ run := fun same => foreign (congrArg some same)
      simp [SystemEvent.closes, apart]
  | _ => rfl

end Foreign

/-! ## The invariant -/

/-- What a helper run has in its hands. -/
inductive Work where
  | selected (record : OperationRecord)
  | begun (record : OperationRecord)
  | finished (record : OperationRecord)

namespace Work

def record : Work -> OperationRecord
  | .selected record | .begun record | .finished record => record

end Work

namespace Phase

def work : Phase -> Option Work
  | .selected record => some (.selected record)
  | .begun record => some (.begun record)
  | .finished record => some (.finished record)
  | _ => none

/-- The process has begun no range yet. -/
def early : Phase -> Bool
  | .begun _ => false
  | phase => phase.opened

theorem holds_of_work {phase : Phase} {work : Work} (working : phase.work = some work) :
    phase.holds = some work.record.root := by
  cases phase with
  | selected record =>
      cases working
      rfl
  | begun record =>
      cases working
      rfl
  | finished record =>
      cases working
      rfl
  | _ => cases working

theorem opened_of_early {phase : Phase} (early : phase.early = true) : phase.opened = true := by
  cases phase with
  | begun record => cases early
  | _ => exact early

end Phase

/-- The row of a record is gone, or it has the given status and got as far as
the record says. -/
def RowAgrees (operations : Operations) (record : OperationRecord)
    (allowed : OperationStatus -> Prop) : Prop :=
  forall current, operations.find record.key = some current ->
    allowed current.status ∧ current.rangeNextOffset = record.rangeNextOffset ∧
      current.bytesRead = record.bytesRead

/-- What a helper run relies on. -/
def WorkHolds (operations : Operations) (history : List SystemEvent) (run : Nat) : Work -> Prop
  | .selected record =>
      record.status = .pending ∧ record.rangeNextOffset.isSome = true ∧
        (firstOffset record.key history).isSome = true ∧
        RowAgrees operations record (fun status => status = .success)
  | .begun record =>
      RowAgrees operations record (fun status => status = .pending) ∧
        forall offset, record.rangeNextOffset = some offset ->
          .begun run record.key offset ∈ history
  | .finished record =>
      record.rangeNextOffset.isSome = true ->
        (forall event, event ∈ history -> event.delivers run = false) ->
        forall current, operations.find record.key = some current -> current.status ≠ .success

/-- A stored record has recorded exactly the ranges in the history. -/
def RowCounts (history : List SystemEvent) (record : OperationRecord) : Prop :=
  forall next, record.rangeNextOffset = some next ->
    ∃ first, firstOffset record.key history = some first ∧
      Contiguous first (rangesOf record.key history) next ∧
      record.bytesRead = totalLength (rangesOf record.key history)

structure RangesKept (system : System) : Prop where
  rows : forall key record, system.journal.store.operations.find key = some record ->
    RowCounts system.history record
  works : forall run work, (system.phases run).work = some work ->
    (∃ born, .begun born ∈ system.journal.log ∧ Descends born work.record) ∧
      WorkHolds system.journal.store.operations system.history run work
  chains : forall key first, firstOffset key system.history = some first ->
    ∃ last, Contiguous first (rangesOf key system.history) last
  origins : forall event key, event ∈ system.history -> event.key = some key ->
    ∃ born, .begun born ∈ system.journal.log ∧ born.key = key
  matched : forall run key offset length status,
    .closed run key offset length status ∈ system.history -> .begun run key offset ∈ system.history
  unbegun : forall run, (system.phases run).early = true ->
    system.history.countP (SystemEvent.begins run) = 0
  unclosed : forall run, (system.phases run).opened = true ->
    system.history.countP (SystemEvent.closes run) = 0
  begunOnce : forall run, system.history.countP (SystemEvent.begins run) ≤ 1
  closedOnce : forall run, system.history.countP (SystemEvent.closes run) ≤ 1
  abandoned : forall key, Abandoned key system.history ->
    (forall current, system.journal.store.operations.find key = some current ->
      current.status ≠ .success) ∧
    forall run work, (system.phases run).work = some work -> work.record.key ≠ key
  noneAfter : NoneAfter system.history

namespace RangesKept

variable {format : JournalFormat} {ids : Nat -> Uuid} {system after : System}

theorem initial (store : Store) : RangesKept (.initial store) where
  rows := by
    intro key record found
    cases found
  works := by
    intro run work working
    cases working
  chains := by
    intro key first begun
    cases begun
  origins := fun _ _ member => absurd member List.not_mem_nil
  matched := fun _ _ _ _ _ member => absurd member List.not_mem_nil
  unbegun := fun _ _ => rfl
  unclosed := fun _ _ => rfl
  begunOnce := fun _ => Nat.zero_le 1
  closedOnce := fun _ => Nat.zero_le 1
  abandoned := by
    rintro key ⟨later, run, earlier, split, _⟩
    simp [System.initial] at split
  noneAfter := by
    intro later run record earlier split
    simp [System.initial] at split

/-- Whoever has the lock of a record's root is the only one to work on it. -/
theorem alone (kept : System.Kept ids system) (ranges : RangesKept system) {run other : Nat}
    {record : OperationRecord} {work : Work}
    (origin : ∃ born, .begun born ∈ system.journal.log ∧ Descends born record)
    (held : (system.phases run).holds = some record.root)
    (working : (system.phases other).work = some work) (same : work.record.key = record.key) :
    other = run := by
  rcases origin with ⟨born, listed, descends⟩
  rcases (ranges.works other work working).1 with ⟨first, known, rest⟩
  have equal : first = born := kept.claims.unique first born known listed
    (rest.id.symm.trans ((congrArg OperationKey.id same).trans descends.id))
  have root : work.record.root = record.root := by
    unfold OperationRecord.root
    rw [rest.rootId, descends.rootId, equal]
    exact Prod.ext (congrArg OperationKey.accountId same) rfl
  have mine := kept.locked run _ held
  have theirs := kept.locked other _ (Phase.holds_of_work working)
  rw [root, mine] at theirs
  exact (Option.some.inj theirs).symm

theorem others_of_work (kept : System.Kept ids system) (ranges : RangesKept system) {run : Nat}
    {work : Work} (working : (system.phases run).work = some work) (other : Nat) (second : Work)
    (apart : other ≠ run) (theirs : (system.phases other).work = some second) :
    second.record.key ≠ work.record.key := by
  intro same
  exact apart (ranges.alone kept (ranges.works run work working).1 (Phase.holds_of_work working)
    theirs same)

/-- An event about something else. -/
theorem neutral (ranges : RangesKept system) (event : SystemEvent) (neutral : event.key = none) :
    RangesKept { system with history := event :: system.history } where
  rows := by
    intro key record found next ranged
    rw [firstOffset_neutral neutral, rangesOf_neutral neutral]
    exact ranges.rows key record found next ranged
  works := by
    intro run work working
    rcases ranges.works run work working with ⟨origin, holds⟩
    refine ⟨origin, ?_⟩
    cases work with
    | selected record =>
        refine ⟨holds.1, holds.2.1, ?_, holds.2.2.2⟩
        rw [firstOffset_neutral neutral]
        exact holds.2.2.1
    | begun record =>
        exact ⟨holds.1, fun offset start => List.mem_cons_of_mem _ (holds.2 offset start)⟩
    | finished record =>
        intro ranged undelivered
        exact holds ranged (fun other member => undelivered other (List.mem_cons_of_mem _ member))
  chains := by
    intro key first begun
    rw [firstOffset_neutral neutral] at begun
    rw [rangesOf_neutral neutral]
    exact ranges.chains key first begun
  origins := by
    intro other key member about
    exact ranges.origins other key ((mem_of_key neutral about).mp member) about
  matched := by
    intro run key offset length status member
    have before := (mem_of_key neutral rfl).mp member
    exact List.mem_cons_of_mem _ (ranges.matched run key offset length status before)
  unbegun := by
    intro run early
    rw [begins_neutral neutral]
    exact ranges.unbegun run early
  unclosed := by
    intro run opened
    rw [closes_neutral neutral]
    exact ranges.unclosed run opened
  begunOnce := by
    intro run
    rw [begins_neutral neutral]
    exact ranges.begunOnce run
  closedOnce := by
    intro run
    rw [closes_neutral neutral]
    exact ranges.closedOnce run
  abandoned := fun key dropped => ranges.abandoned key ((abandoned_neutral neutral).mp dropped)
  noneAfter := by
    apply ranges.noneAfter.cons
    intro run record offset same
    rw [same] at neutral
    cases neutral

/-- Rows that are the same, or say the same about ranges. -/
def RowsStay (operations later : Operations) : Prop :=
  forall key record, later.find key = some record ->
    ∃ old, operations.find key = some old ∧ record.key = old.key ∧ record.status = old.status ∧
      record.rangeNextOffset = old.rangeNextOffset ∧ record.bytesRead = old.bytesRead

theorem RowsStay.refl (operations : Operations) : RowsStay operations operations :=
  fun _ record found => ⟨record, found, rfl, rfl, rfl, rfl⟩

theorem RowsStay.filter (operations : Operations)
    (keep : OperationKey -> OperationRecord -> Bool) : RowsStay operations (operations.filter keep) := by
  intro key record found
  rw [Register.find_filter, Option.filter_eq_some_iff] at found
  exact ⟨record, found.1, rfl, rfl, rfl, rfl⟩

theorem RowsStay.replace {operations : Operations} {current changed : OperationRecord}
    {key : OperationKey} (found : operations.find key = some current)
    (named : changed.key = current.key) (status : changed.status = current.status)
    (next : changed.rangeNextOffset = current.rangeNextOffset)
    (read : changed.bytesRead = current.bytesRead) :
    RowsStay operations (operations.replace changed) := by
  have keyed : current.key = key := operations.keyed key current found
  intro other record located
  by_cases same : other = changed.key
  · subst same
    rw [Register.find_replace_self] at located
    rcases Option.map_eq_some_iff.mp located with ⟨_, _, rfl⟩
    refine ⟨current, ?_, named, status, next, read⟩
    rw [named, keyed]
    exact found
  · rw [Register.find_replace_of_ne same] at located
    exact ⟨record, located, rfl, rfl, rfl, rfl⟩

/-- A step that begins, finishes and ends no range.  Records may be deleted, and
what is said about undo may change. -/
structure Quiet (system after : System) : Prop where
  rows : RowsStay system.journal.store.operations after.journal.store.operations
  works : forall run work, (after.phases run).work = some work ->
    (system.phases run).work = some work
  opened : forall run, (after.phases run).opened = true -> (system.phases run).opened = true
  early : forall run, (after.phases run).early = true -> (system.phases run).early = true
  log : forall born, .begun born ∈ system.journal.log -> .begun born ∈ after.journal.log
  history : after.history = system.history

theorem rowAgrees_quiet {operations later : Operations} {record : OperationRecord}
    {allowed : OperationStatus -> Prop} (agrees : RowAgrees operations record allowed)
    (rows : forall current, later.find record.key = some current ->
      ∃ old, operations.find record.key = some old ∧ current.status = old.status ∧
        current.rangeNextOffset = old.rangeNextOffset ∧ current.bytesRead = old.bytesRead) :
    RowAgrees later record allowed := by
  intro current found
  rcases rows current found with ⟨old, before, status, next, read⟩
  rcases agrees old before with ⟨fine, offset, bytes⟩
  exact ⟨status ▸ fine, next.trans offset, read.trans bytes⟩

theorem quiet (ranges : RangesKept system) (quiet : Quiet system after) : RangesKept after where
  rows := by
    intro key record found next ranged
    rcases quiet.rows key record found with ⟨old, before, named, _, offset, bytes⟩
    rw [quiet.history, named, bytes]
    exact ranges.rows key old before next (offset.symm.trans ranged)
  works := by
    intro run work working
    rcases ranges.works run work (quiet.works run work working) with
      ⟨⟨born, listed, descends⟩, holds⟩
    refine ⟨⟨born, quiet.log born listed, descends⟩, ?_⟩
    have rows : forall current,
        after.journal.store.operations.find work.record.key = some current ->
        ∃ old, system.journal.store.operations.find work.record.key = some old ∧
          current.status = old.status ∧ current.rangeNextOffset = old.rangeNextOffset ∧
          current.bytesRead = old.bytesRead := by
      intro current found
      rcases quiet.rows _ current found with ⟨old, before, _, rest⟩
      exact ⟨old, before, rest⟩
    rw [quiet.history]
    cases work with
    | selected record =>
        exact ⟨holds.1, holds.2.1, holds.2.2.1, rowAgrees_quiet holds.2.2.2 rows⟩
    | begun record => exact ⟨rowAgrees_quiet holds.1 rows, holds.2⟩
    | finished record =>
        intro ranged undelivered current found
        rcases rows current found with ⟨old, before, status, _⟩
        rw [status]
        exact holds ranged undelivered old before
  chains := by
    rw [quiet.history]
    exact ranges.chains
  origins := by
    intro event key member about
    rw [quiet.history] at member
    rcases ranges.origins event key member about with ⟨born, listed, named⟩
    exact ⟨born, quiet.log born listed, named⟩
  matched := by
    rw [quiet.history]
    exact ranges.matched
  unbegun := by
    intro run early
    rw [quiet.history]
    exact ranges.unbegun run (quiet.early run early)
  unclosed := by
    intro run opened
    rw [quiet.history]
    exact ranges.unclosed run (quiet.opened run opened)
  begunOnce := by
    rw [quiet.history]
    exact ranges.begunOnce
  closedOnce := by
    rw [quiet.history]
    exact ranges.closedOnce
  abandoned := by
    intro key dropped
    rw [quiet.history] at dropped
    rcases ranges.abandoned key dropped with ⟨unsuccessful, unworked⟩
    constructor
    · intro current found
      rcases quiet.rows key current found with ⟨old, before, _, status, _⟩
      rw [status]
      exact unsuccessful old before
    · intro run work working
      exact unworked run work (quiet.works run work working)
  noneAfter := by
    rw [quiet.history]
    exact ranges.noneAfter

/-! ## Quiet steps -/

theorem rowsStay_free {state later : JournalState} {step : JournalStep} (free : step.free = true)
    (moves : JournalState.Moves format ids state step later) :
    RowsStay state.store.operations later.store.operations := by
  cases moves with
  | idle | drew | drawEpoch | readEpoch | sweep | cleanStaging | reviewStaging => exact .refl _
  | account op store tables =>
      change RowsStay _ store.operations
      rw [tables.operations]
      exact .refl _
  | restore now actor store tables =>
      change RowsStay _ store.operations
      rw [tables.operations]
      exact .refl _
  | delete row => exact .filter _ _
  | _ => cases free

/-- One process enters a phase in which it has no operation. -/
theorem quiet_enter {run : Nat} {phase : Phase}
    (phases : after.phases = Function.update system.phases run phase)
    (idle : phase.work = none) (later : phase.opened = true -> (system.phases run).early = true)
    (rows : RowsStay system.journal.store.operations after.journal.store.operations)
    (log : forall born, .begun born ∈ system.journal.log -> .begun born ∈ after.journal.log)
    (history : after.history = system.history) : Quiet system after where
  rows := rows
  works := by
    intro other work working
    rw [phases] at working
    by_cases same : other = run
    · rw [same, Function.update_self, idle] at working
      cases working
    · rw [Function.update_of_ne same] at working
      exact working
  opened := by
    intro other opened
    rw [phases] at opened
    by_cases same : other = run
    · rw [same, Function.update_self] at opened
      rw [same]
      exact Phase.opened_of_early (later opened)
    · rw [Function.update_of_ne same] at opened
      exact opened
  early := by
    intro other early
    rw [phases] at early
    by_cases same : other = run
    · rw [same, Function.update_self] at early
      rw [same]
      exact later (Phase.opened_of_early early)
    · rw [Function.update_of_ne same] at early
      exact early
  log := log
  history := history

theorem early_of_plain {phase : Phase} (plain : phase.plain = true) (opened : phase.opened = true) :
    phase.early = true := by
  cases phase with
  | begun record => cases plain
  | _ => exact opened

theorem early_of_bare {phase : Phase} (bare : phase.bare = true) (opened : phase.opened = true) :
    phase.early = true := by
  cases phase with
  | begun record => cases bare
  | _ => exact opened

theorem work_of_plain {phase : Phase} (plain : phase.plain = true) : phase.work = none := by
  cases phase with
  | selected record => cases plain
  | begun record => cases plain
  | finished record => cases plain
  | _ => rfl

theorem work_of_bare {phase : Phase} (bare : phase.bare = true) : phase.work = none := by
  cases phase with
  | selected record => cases bare
  | begun record => cases bare
  | finished record => cases bare
  | _ => rfl

/-- Taking the lock begins nothing. -/
theorem admitted_early {phase next : Phase} {key : RootKey}
    (wants : phase.admitted = some (key, next)) :
    next.work = none ∧ (next.opened = true -> phase.early = true) := by
  cases phase with
  | waiting account request =>
      cases wants
      exact ⟨rfl, fun _ => rfl⟩
  | asked call record =>
      cases wants
      exact ⟨rfl, fun opened => by cases opened⟩
  | picked at_ copy rest =>
      cases wants
      exact ⟨rfl, fun opened => by cases opened⟩
  | _ => cases wants

/-! ## Steps of one run on one record -/

/-- A run takes a step on a record. -/
structure Progress (run : Nat) (phase : Phase) (record : OperationKey) (event : Option SystemEvent)
    (system after : System) : Prop where
  phases : after.phases = Function.update system.phases run phase
  history : after.history = event.toList ++ system.history
  about : forall happened, event = some happened ->
    happened.key = some record ∧ happened.run = some run
  rowsOther : forall key row, key ≠ record ->
    after.journal.store.operations.find key = some row ->
      system.journal.store.operations.find key = some row
  rowsOwn : forall row, after.journal.store.operations.find record = some row ->
    RowCounts after.history row
  log : forall born, .begun born ∈ system.journal.log -> .begun born ∈ after.journal.log
  origin : ∃ born, .begun born ∈ after.journal.log ∧ born.key = record
  work : forall work, phase.work = some work -> work.record.key = record ∧
    (∃ born, .begun born ∈ after.journal.log ∧ Descends born work.record) ∧
    WorkHolds after.journal.store.operations after.history run work
  others : forall other work, other ≠ run -> (system.phases other).work = some work ->
    work.record.key ≠ record
  chain : forall first, firstOffset record after.history = some first ->
    ∃ last, Contiguous first (rangesOf record after.history) last
  matched : forall offset length status, event = some (.closed run record offset length status) ->
    .begun run record offset ∈ system.history
  opened : phase.opened = true -> (system.phases run).opened = true ∧
    forall happened, event = some happened -> happened.closes run = false
  early : phase.early = true -> (system.phases run).early = true ∧
    forall happened, event = some happened -> happened.begins run = false
  begins : forall happened, event = some happened -> happened.begins run = true ->
    (system.phases run).early = true
  closes : forall happened, event = some happened -> happened.closes run = true ->
    (system.phases run).opened = true
  unspoiled : ¬ Abandoned record system.history
  ended : event = some (.ended run record) ->
    (forall happened, happened ∈ system.history -> happened.delivers run = false) ->
    phase.work = none ∧ forall row, after.journal.store.operations.find record = some row ->
      row.status ≠ .success

namespace Progress

variable {run : Nat} {phase : Phase} {record : OperationKey} {event : Option SystemEvent}

theorem firstOffset_other (progress : Progress run phase record event system after)
    {key : OperationKey} (apart : key ≠ record) :
    firstOffset key after.history = firstOffset key system.history := by
  rw [progress.history]
  cases happened : event with
  | none => rfl
  | some happening =>
      refine firstOffset_foreign ?_
      rw [(progress.about happening happened).1]
      exact fun same => apart (Option.some.inj same).symm

theorem rangesOf_other (progress : Progress run phase record event system after)
    {key : OperationKey} (apart : key ≠ record) :
    rangesOf key after.history = rangesOf key system.history := by
  rw [progress.history]
  cases happened : event with
  | none => rfl
  | some happening =>
      refine rangesOf_foreign ?_
      rw [(progress.about happening happened).1]
      exact fun same => apart (Option.some.inj same).symm

theorem mem_history (progress : Progress run phase record event system after)
    {happened : SystemEvent} :
    happened ∈ after.history ↔ event = some happened ∨ happened ∈ system.history := by
  rw [progress.history, List.mem_append, Option.mem_toList]

/-- The phases of the other runs stay. -/
theorem phase_other (progress : Progress run phase record event system after) {other : Nat}
    (apart : other ≠ run) : after.phases other = system.phases other := by
  rw [progress.phases, Function.update_of_ne apart]

theorem phase_own (progress : Progress run phase record event system after) :
    after.phases run = phase := by
  rw [progress.phases, Function.update_self]

theorem count_other (progress : Progress run phase record event system after)
    (condition : SystemEvent -> Bool)
    (foreign : forall happened, event = some happened -> condition happened = false) :
    after.history.countP condition = system.history.countP condition := by
  rw [progress.history]
  cases happened : event with
  | none => rfl
  | some happening =>
      exact List.countP_cons_of_neg (by simp [foreign happening happened])

/-- A count that was zero grows to at most one. -/
theorem count_own (progress : Progress run phase record event system after)
    (condition : SystemEvent -> Bool) (most : system.history.countP condition ≤ 1)
    (first : forall happened, event = some happened -> condition happened = true ->
      system.history.countP condition = 0) : after.history.countP condition ≤ 1 := by
  by_cases counts : ∃ happened, event = some happened ∧ condition happened = true
  · rcases counts with ⟨happened, same, holds⟩
    rw [progress.history, same]
    change (happened :: system.history).countP condition ≤ 1
    rw [List.countP_cons_of_pos holds, first happened same holds]
  · rw [progress.count_other condition]
    · exact most
    · intro happened same
      by_contra otherwise
      exact counts ⟨happened, same, Bool.eq_true_of_not_eq_false otherwise⟩

theorem abandoned_after (progress : Progress run phase record event system after)
    {key : OperationKey} (dropped : Abandoned key after.history) :
    Abandoned key system.history ∨ key = record ∧ event = some (.ended run record) ∧
      forall happened, happened ∈ system.history -> happened.delivers run = false := by
  rw [progress.history] at dropped
  cases happened : event with
  | none =>
      rw [happened] at dropped
      exact Or.inl dropped
  | some happening =>
      rw [happened] at dropped
      rcases abandoned_cons.mp dropped with ⟨other, same, undelivered⟩ | before
      · have known := progress.about happening happened
        rw [same] at known
        rcases known with ⟨named, ran⟩
        cases named
        cases ran
        exact Or.inr ⟨rfl, congrArg some same, undelivered⟩
      · exact Or.inl before

theorem works (ranges : RangesKept system)
    (progress : Progress run phase record event system after) (other : Nat) (work : Work)
    (working : (after.phases other).work = some work) :
    (∃ born, .begun born ∈ after.journal.log ∧ Descends born work.record) ∧
      WorkHolds after.journal.store.operations after.history other work := by
  by_cases same : other = run
  · subst same
    rw [progress.phase_own] at working
    exact (progress.work work working).2
  · rw [progress.phase_other same] at working
    have apart := progress.others other work same working
    rcases ranges.works other work working with ⟨⟨born, listed, descends⟩, holds⟩
    refine ⟨⟨born, progress.log born listed, descends⟩, ?_⟩
    cases work with
    | selected selected =>
        refine ⟨holds.1, holds.2.1, ?_, fun current found => holds.2.2.2 current ?_⟩
        · change (firstOffset (Work.selected selected).record.key after.history).isSome = true
          rw [progress.firstOffset_other apart]
          exact holds.2.2.1
        · exact progress.rowsOther _ current apart found
    | begun begun =>
        refine ⟨fun current found => holds.1 current (progress.rowsOther _ current apart found), ?_⟩
        intro offset start
        exact progress.mem_history.mpr (Or.inr (holds.2 offset start))
    | finished finished =>
        intro ranged undelivered current found
        refine holds ranged ?_ current (progress.rowsOther _ current apart found)
        intro happened member
        exact undelivered happened (progress.mem_history.mpr (Or.inr member))

end Progress

/-- One run's step on one record keeps everything. -/
theorem progress {run : Nat} {phase : Phase} {record : OperationKey} {event : Option SystemEvent}
    (ranges : RangesKept system) (progress : Progress run phase record event system after) :
    RangesKept after where
  rows := by
    intro key row found
    by_cases same : key = record
    · rw [same] at found
      exact progress.rowsOwn row found
    · have named : row.key = key := after.journal.store.operations.keyed key row found
      intro next ranged
      rw [named, progress.firstOffset_other same, progress.rangesOf_other same, ← named]
      exact ranges.rows key row (progress.rowsOther key row same found) next ranged
  works := progress.works ranges
  chains := by
    intro key first begun
    by_cases same : key = record
    · subst same
      exact progress.chain first begun
    · rw [progress.firstOffset_other same] at begun
      rw [progress.rangesOf_other same]
      exact ranges.chains key first begun
  origins := by
    intro happened key member about
    rcases progress.mem_history.mp member with here | before
    · rw [(progress.about happened here).1] at about
      cases about
      exact progress.origin
    · rcases ranges.origins happened key before about with ⟨born, listed, named⟩
      exact ⟨born, progress.log born listed, named⟩
  matched := by
    intro other key offset length status member
    apply progress.mem_history.mpr
    rcases progress.mem_history.mp member with here | before
    · rcases progress.about _ here with ⟨named, ran⟩
      cases named
      cases ran
      exact Or.inr (progress.matched offset length status here)
    · exact Or.inr (ranges.matched other key offset length status before)
  unbegun := by
    intro other early
    by_cases same : other = run
    · subst same
      rw [progress.phase_own] at early
      rcases progress.early early with ⟨before, quiet⟩
      rw [progress.count_other _ quiet]
      exact ranges.unbegun other before
    · rw [progress.phase_other same] at early
      rw [progress.count_other]
      · exact ranges.unbegun other early
      · intro happened here
        refine begins_foreign ?_
        rw [(progress.about happened here).2]
        exact fun equal => same (Option.some.inj equal).symm
  unclosed := by
    intro other opened
    by_cases same : other = run
    · subst same
      rw [progress.phase_own] at opened
      rcases progress.opened opened with ⟨before, quiet⟩
      rw [progress.count_other _ quiet]
      exact ranges.unclosed other before
    · rw [progress.phase_other same] at opened
      rw [progress.count_other]
      · exact ranges.unclosed other opened
      · intro happened here
        refine closes_foreign ?_
        rw [(progress.about happened here).2]
        exact fun equal => same (Option.some.inj equal).symm
  begunOnce := by
    intro other
    refine progress.count_own _ (ranges.begunOnce other) ?_
    intro happened here begins
    by_cases same : other = run
    · subst same
      exact ranges.unbegun other (progress.begins happened here begins)
    · rw [begins_foreign] at begins
      · cases begins
      · rw [(progress.about happened here).2]
        exact fun equal => same (Option.some.inj equal).symm
  closedOnce := by
    intro other
    refine progress.count_own _ (ranges.closedOnce other) ?_
    intro happened here closes
    by_cases same : other = run
    · subst same
      exact ranges.unclosed other (progress.closes happened here closes)
    · rw [closes_foreign] at closes
      · cases closes
      · rw [(progress.about happened here).2]
        exact fun equal => same (Option.some.inj equal).symm
  abandoned := by
    intro key dropped
    rcases progress.abandoned_after dropped with before | ⟨rfl, here, undelivered⟩
    · have apart : key ≠ record := fun same => progress.unspoiled (same ▸ before)
      rcases ranges.abandoned key before with ⟨unsuccessful, unworked⟩
      constructor
      · intro current found
        exact unsuccessful current (progress.rowsOther key current apart found)
      · intro other work working
        by_cases same : other = run
        · subst same
          rw [progress.phase_own] at working
          rw [(progress.work work working).1]
          exact fun equal => apart equal.symm
        · rw [progress.phase_other same] at working
          exact unworked other work working
    · rcases progress.ended here undelivered with ⟨idle, unsuccessful⟩
      refine ⟨unsuccessful, ?_⟩
      intro other work working
      by_cases same : other = run
      · subst same
        rw [progress.phase_own, idle] at working
        cases working
      · rw [progress.phase_other same] at working
        exact progress.others other work same working
  noneAfter := by
    rw [progress.history]
    cases happened : event with
    | none => exact ranges.noneAfter
    | some happening =>
        apply ranges.noneAfter.cons
        intro other key offset same dropped
        have about := (progress.about happening happened).1
        rw [same] at about
        cases about
        exact progress.unspoiled dropped

theorem select_progress (kept : System.Kept ids system) (ranges : RangesKept system) {run : Nat}
    {config : JournalConfig} {actor : Account} {request : HelperRequest} {offset at_ : Nat}
    {previous record : OperationRecord} (before : system.phases run = .acting actor request)
    (found : system.journal.store.previousRecord actor.id request.requestId = some previous)
    (accepted : Store.continuedRecord format config actor request offset at_ previous = .ok record) :
    Progress run (.selected record) record.key none system
      { system.enter run (.selected record) with
        journal := { system.journal with continued := record :: system.journal.continued } } := by
  rcases Store.previousRecord_spec found with ⟨located, owner, _⟩
  rcases Store.continuedRecord_ok accepted with ⟨_, root, _, _, succeeded, next, same⟩
  have named : record.key = previous.key := by
    rw [same]
    rfl
  have origin : ∃ born, .begun born ∈ system.journal.log ∧ Descends born record := by
    rcases (kept.claims.rows _ _ located).born with ⟨born, listed, descends⟩
    refine ⟨born, listed, ?_⟩
    rw [same]
    exact descends.congr ⟨rfl, rfl, rfl, rfl, rfl, rfl⟩
  have held : (system.phases run).holds = some record.root := by
    rw [before, same]
    change some (actor.id, request.rootId) = some (previous.accountId, previous.rootId)
    rw [root, owner]
  rcases ranges.rows _ previous located offset next with ⟨first, begun, _, _⟩
  exact {
    phases := rfl
    history := rfl
    about := fun _ none => by cases none
    rowsOther := fun _ _ _ found => found
    rowsOwn := fun row found => ranges.rows _ row found
    log := fun _ => id
    origin := by
      rcases origin with ⟨born, listed, descends⟩
      exact ⟨born, listed, descends.key.symm⟩
    work := by
      intro work working
      cases working
      refine ⟨rfl, origin, ?_, ?_, ?_, ?_⟩
      · rw [same]
      · rw [same, next]
        rfl
      · change (firstOffset record.key system.history).isSome = true
        rw [named, begun]
        rfl
      · intro current there
        change system.journal.store.operations.find record.key = some current at there
        rw [named, located] at there
        cases there
        rw [same]
        exact ⟨succeeded, rfl, rfl⟩
    others := by
      intro other work apart working equal
      exact apart (ranges.alone kept origin held working equal)
    chain := ranges.chains record.key
    matched := fun _ _ _ none => by cases none
    opened := fun _ => ⟨by rw [before]; rfl, fun _ none => by cases none⟩
    early := fun _ => ⟨by rw [before]; rfl, fun _ none => by cases none⟩
    begins := fun _ none => by cases none
    closes := fun _ none => by cases none
    unspoiled := by
      intro dropped
      rw [named] at dropped
      exact (ranges.abandoned previous.key dropped).1 previous located succeeded
    ended := fun none => by cases none }

/-- Another beginning does not change where the first one was. -/
theorem firstOffset_begun {record : OperationKey} {history : List SystemEvent} {first : Nat}
    (begun : firstOffset record history = some first) (run offset : Nat) :
    firstOffset record (.begun run record offset :: history) = some first := by
  have added : SystemEvent.beginning record (.begun run record offset) = some offset :=
    if_pos rfl
  unfold firstOffset at begun ⊢
  rw [List.filterMap_cons_some added]
  cases earlier : history.filterMap (SystemEvent.beginning record) with
  | nil =>
      rw [earlier] at begun
      cases begun
  | cons head rest =>
      rw [earlier] at begun
      rw [List.getLast?_cons_cons]
      exact begun

theorem write_progress (kept : System.Kept ids system) (ranges : RangesKept system) {run : Nat}
    {record : OperationRecord} (before : system.phases run = .selected record) :
    Progress run (.begun record) record.key
      (record.rangeNextOffset.map (fun offset => .begun run record.key offset)) system
      { system.enter run (.begun record) with
        journal := { system.journal with
          store := system.journal.store.writeRecord record
          returned := record :: system.journal.returned }
        history := System.rangeBegun run record ++ system.history } := by
  have working : (system.phases run).work = some (.selected record) := by
    rw [before]
    rfl
  rcases ranges.works run _ working with ⟨origin, pending, ranged, begun, agrees⟩
  rcases Option.isSome_iff_exists.mp ranged with ⟨offset, start⟩
  rcases Option.isSome_iff_exists.mp begun with ⟨first, earliest⟩
  have history : System.rangeBegun run record ++ system.history =
      .begun run record.key offset :: system.history := by
    unfold System.rangeBegun
    rw [start]
    rfl
  rw [history]
  exact {
    phases := rfl
    history := by
      rw [start]
      rfl
    about := by
      intro happened same
      rw [start] at same
      cases same
      exact ⟨rfl, rfl⟩
    rowsOther := by
      intro key row apart found
      change (system.journal.store.operations.replace record).find key = some row at found
      rw [Register.find_replace_of_ne apart] at found
      exact found
    rowsOwn := by
      intro row found next ranged
      change (system.journal.store.operations.replace record).find record.key = some row at found
      rw [Register.find_replace_self] at found
      rcases Option.map_eq_some_iff.mp found with ⟨current, located, rfl⟩
      rcases agrees current located with ⟨_, offsets, bytes⟩
      have named : current.key = record.key :=
        system.journal.store.operations.keyed _ current located
      rcases ranges.rows _ current located next (offsets.trans ranged) with
        ⟨origin, beginning, contiguous, counted⟩
      rw [named] at beginning contiguous counted
      exact ⟨origin, firstOffset_begun beginning run offset, contiguous, bytes.symm.trans counted⟩
    log := fun _ => id
    origin := by
      rcases origin with ⟨born, listed, descends⟩
      exact ⟨born, listed, descends.key.symm⟩
    work := by
      intro work begins
      cases begins
      refine ⟨rfl, origin, ?_, ?_⟩
      · intro current found
        change (system.journal.store.operations.replace record).find record.key = some current
          at found
        rw [Register.find_replace_self] at found
        rcases Option.map_eq_some_iff.mp found with ⟨_, _, rfl⟩
        exact ⟨pending, rfl, rfl⟩
      · intro other same
        rw [start] at same
        cases same
        exact List.mem_cons_self
    others := ranges.others_of_work kept working
    chain := by
      intro origin beginning
      have same := firstOffset_begun earliest run offset
      rw [same] at beginning
      cases beginning
      exact ranges.chains record.key first earliest
    matched := by
      intro _ _ _ same
      rw [start] at same
      cases same
    opened := by
      intro _
      rw [before]
      refine ⟨rfl, ?_⟩
      intro happened same
      rw [start] at same
      cases same
      rfl
    early := fun early => by cases early
    begins := fun _ _ _ => by rw [before]; rfl
    closes := by
      intro happened same closes
      rw [start] at same
      cases same
      cases closes
    unspoiled := fun dropped => (ranges.abandoned record.key dropped).2 run _ working rfl
    ended := by
      intro same
      rw [start] at same
      cases same }

/-- Nothing happened on a record that was not begun. -/
theorem firstOffset_unknown {record : OperationKey} {history : List SystemEvent}
    (unknown : forall event, event ∈ history -> event.key ≠ some record) :
    firstOffset record history = none ∧ rangesOf record history = [] := by
  induction history with
  | nil => exact ⟨rfl, rfl⟩
  | cons event rest ih =>
      have foreign := unknown event List.mem_cons_self
      rw [firstOffset_foreign foreign, rangesOf_foreign foreign]
      exact ih (fun other member => unknown other (List.mem_cons_of_mem event member))

theorem firstOffset_first {record : OperationKey} {history : List SystemEvent}
    (unknown : firstOffset record history = none) (run offset : Nat) :
    firstOffset record (.begun run record offset :: history) = some offset := by
  have added : SystemEvent.beginning record (.begun run record offset) = some offset :=
    if_pos rfl
  unfold firstOffset at unknown ⊢
  rw [List.getLast?_eq_none_iff] at unknown
  rw [List.filterMap_cons_some added, unknown]
  rfl

theorem insert_progress (kept : System.Kept ids system) (distinct : Function.Injective ids)
    (ranges : RangesKept system) {run : Nat} {account : Uuid} {actor : Account}
    {request : HelperRequest} {epoch : Uuid} {at_ : Nat} {record : OperationRecord} {store : Store}
    {operations : Operations} {trash staging : Table (Uuid × Uuid) OperationRecord}
    (before : system.phases run = .fenced actor request epoch)
    (made : record = newRecord format actor request (ids system.journal.drawn) epoch at_)
    (inserted : Store.Inserted account record system.journal.store store operations trash staging) :
    Progress run (.begun record) record.key
      (record.rangeNextOffset.map (fun offset => .begun run record.key offset)) system
      { system.enter run (.begun record) with
        journal := { system.journal with
          store := store
          drawn := system.journal.drawn + 1
          returned := record :: system.journal.returned
          log := .begun record :: system.journal.log }
        history := System.rangeBegun run record ++ system.history } := by
  have named : record.id = ids system.journal.drawn := by
    rw [made]
    rfl
  have unborn : forall born, .begun born ∈ system.journal.log -> born.key ≠ record.key := by
    intro born listed same
    exact (kept.claims.drawn born listed).ne_latest distinct
      ((congrArg OperationKey.id same).trans named)
  have unknown : forall event, event ∈ system.history -> event.key ≠ some record.key := by
    intro event member about
    rcases ranges.origins event record.key member about with ⟨born, listed, same⟩
    exact unborn born listed same
  rcases firstOffset_unknown unknown with ⟨unbegun, unread⟩
  have stored : forall key, store.operations.find key = (operations.insert record).find key := by
    intro key
    rw [inserted.stored]
  have own : forall row, store.operations.find record.key = some row -> row = record := by
    intro row found
    rw [stored, Register.find_insert_self] at found
    exact (Option.some.inj found).symm
  exact {
    phases := rfl
    history := rfl
    about := by
      intro happened same
      rcases Option.map_eq_some_iff.mp same with ⟨offset, _, rfl⟩
      exact ⟨rfl, rfl⟩
    rowsOther := by
      intro key row apart found
      change store.operations.find key = some row at found
      rw [stored, Register.find_insert_of_ne apart] at found
      exact inserted.rotates.origin found
    rowsOwn := by
      intro row found next ranged
      have same := own row found
      subst same
      refine ⟨next, ?_, ?_, ?_⟩
      · change firstOffset row.key (System.rangeBegun run row ++ system.history) = some next
        unfold System.rangeBegun
        rw [ranged]
        exact firstOffset_first unbegun run next
      · change Contiguous next (rangesOf row.key (System.rangeBegun run row ++ system.history)) next
        unfold System.rangeBegun
        rw [ranged]
        change Contiguous next (rangesOf row.key system.history) next
        rw [unread]
        rfl
      · change row.bytesRead =
          totalLength (rangesOf row.key (System.rangeBegun run row ++ system.history))
        unfold System.rangeBegun
        rw [ranged]
        change row.bytesRead = totalLength (rangesOf row.key system.history)
        rw [unread, made]
        rfl
    log := fun _ => List.mem_cons_of_mem _
    origin := ⟨record, List.mem_cons_self, rfl⟩
    work := by
      intro work begins
      cases begins
      refine ⟨rfl, ⟨record, List.mem_cons_self, .refl record⟩, ?_, ?_⟩
      · intro current found
        rw [own current found]
        refine ⟨?_, rfl, rfl⟩
        rw [made]
        rfl
      · intro offset start
        change .begun run record.key offset ∈ System.rangeBegun run record ++ system.history
        unfold System.rangeBegun
        rw [start]
        exact List.mem_cons_self
    others := by
      intro other work _ working same
      rcases (ranges.works other work working).1 with ⟨born, listed, descends⟩
      exact unborn born listed (descends.key.symm.trans same)
    chain := by
      intro first beginning
      refine ⟨first, ?_⟩
      have unread : rangesOf record.key (System.rangeBegun run record ++ system.history) = [] := by
        unfold System.rangeBegun
        cases start : record.rangeNextOffset with
        | none => exact unread
        | some offset => exact unread
      change Contiguous first
        (rangesOf record.key (System.rangeBegun run record ++ system.history)) first
      rw [unread]
      rfl
    matched := by
      intro _ _ _ same
      rcases Option.map_eq_some_iff.mp same with ⟨offset, _, other⟩
      cases other
    opened := by
      intro _
      rw [before]
      refine ⟨rfl, ?_⟩
      intro happened same
      rcases Option.map_eq_some_iff.mp same with ⟨offset, _, rfl⟩
      rfl
    early := fun early => by cases early
    begins := fun _ _ _ => by rw [before]; rfl
    closes := by
      intro happened same closes
      rcases Option.map_eq_some_iff.mp same with ⟨offset, _, rfl⟩
      cases closes
    unspoiled := by
      rintro ⟨later, other, earlier, split, _⟩
      have member : .ended other record.key ∈ system.history := by
        rw [split]
        simp
      exact unknown _ member rfl
    ended := by
      intro same
      rcases Option.map_eq_some_iff.mp same with ⟨offset, _, other⟩
      cases other }

/-! ## Finishing a range -/

/-- What the outcome does to the row of a record, in terms of the history. -/
theorem rowCounts_finish {history : List SystemEvent} {current finished record : OperationRecord}
    {response : Option HelperResponse} (counts : RowCounts history current)
    (same : Store.SameOperation current finished)
    (status : finished.status = Store.outcomeStatus response)
    (advance : Store.RangeAdvance current response finished)
    (named : record.key = current.key) (start : current.rangeNextOffset = record.rangeNextOffset)
    (run : Nat) :
    RowCounts (System.rangeClosed run record response finished.status ++ history) finished := by
  intro next ranged
  have key : finished.key = current.key := same.key
  rw [key]
  cases advance with
  | unranged _ still =>
      rw [still] at ranged
      cases ranged
  | silent absent still read =>
      rw [still] at ranged
      rcases counts next ranged with ⟨first, begun, contiguous, counted⟩
      rw [status, absent]
      unfold System.rangeClosed
      rw [← start, ranged]
      exact ⟨first, begun, contiguous, read.trans counted⟩
  | failed offset unsuccessful begins still read =>
      rw [still] at ranged
      cases ranged
      rcases counts _ begins with ⟨first, begun, contiguous, counted⟩
      unfold System.rangeClosed
      rw [← start, begins]
      refine ⟨first, begun, ?_, ?_⟩
      · cases outcome : finished.status with
        | success => exact absurd outcome unsuccessful
        | _ => exact contiguous
      · cases outcome : finished.status with
        | success => exact absurd outcome unsuccessful
        | _ => exact read.trans counted
  | delivered offset total data reply begins answer succeeded payload ends read =>
      rw [ends] at ranged
      cases ranged
      rcases counts _ begins with ⟨first, begun, contiguous, counted⟩
      have length : deliveredLength response = data.length := by
        rw [answer]
        cases reply
        cases succeeded
        cases payload
        rfl
      have success : finished.status = .success := by
        rw [status, answer]
        exact if_pos succeeded
      have ranges : rangesOf current.key
          (System.rangeClosed run record response finished.status ++ history) =
          (offset, data.length) :: rangesOf current.key history := by
        unfold System.rangeClosed
        rw [← start, begins, success, length, named]
        exact List.filterMap_cons_some (if_pos rfl)
      refine ⟨first, ?_, ?_, ?_⟩
      · unfold System.rangeClosed
        rw [← start, begins]
        exact begun
      · rw [ranges]
        exact ⟨rfl, contiguous⟩
      · rw [ranges, read, counted]
        simp [totalLength]
        omega

/-- What is closed was begun, at the same offset. -/
theorem chain_closed {run : Nat} {record : OperationRecord} {response : Option HelperResponse}
    {status : OperationStatus} {history : List SystemEvent}
    (chains : forall first, firstOffset record.key history = some first ->
      ∃ last, Contiguous first (rangesOf record.key history) last)
    (next : forall first offset, firstOffset record.key history = some first ->
      record.rangeNextOffset = some offset -> status = .success ->
      Contiguous first (rangesOf record.key history) offset) (first : Nat)
    (begun : firstOffset record.key (System.rangeClosed run record response status ++ history) =
      some first) :
    ∃ last, Contiguous first
      (rangesOf record.key (System.rangeClosed run record response status ++ history)) last := by
  unfold System.rangeClosed at begun ⊢
  cases start : record.rangeNextOffset with
  | none =>
      rw [start] at begun
      exact chains first begun
  | some offset =>
      rw [start] at begun
      change firstOffset record.key history = some first at begun
      cases status with
      | success =>
          have ranges : rangesOf record.key
              (.closed run record.key offset (deliveredLength response) .success :: history) =
              (offset, deliveredLength response) :: rangesOf record.key history :=
            List.filterMap_cons_some (if_pos rfl)
          refine ⟨offset + deliveredLength response, ?_⟩
          change Contiguous first (rangesOf record.key
            (.closed run record.key offset (deliveredLength response) .success :: history)) _
          rw [ranges]
          exact ⟨rfl, next first offset begun start rfl⟩
      | _ => exact chains first begun

theorem finish_progress (kept : System.Kept ids system) (ranges : RangesKept system) {run : Nat}
    {config : JournalConfig} {record finished : OperationRecord} {logReserveBytes : Nat}
    {logStorage : Option Text} {response : Option HelperResponse} {at_ : Nat} {store : Store}
    (before : system.phases run = .begun record)
    (done : system.journal.store.finishOperation format config
      (JournalState.charged record logReserveBytes logStorage) response at_ = .ok (finished, store)) :
    Progress run (.finished record) record.key
      (record.rangeNextOffset.map (fun offset =>
        .closed run record.key offset (deliveredLength response) finished.status)) system
      { system.enter run (.finished record) with
        journal := { system.journal with
          store := store, log := .finished finished :: system.journal.log }
        history := System.rangeClosed run record response finished.status ++ system.history } := by
  have working : (system.phases run).work = some (.begun record) := by
    rw [before]
    rfl
  rcases ranges.works run _ working with ⟨origin, agrees, begun⟩
  rcases Store.finishOperation_ok done with ⟨current, found, pending, same, status, advance, stored⟩
  change system.journal.store.operations.find record.key = some current at found
  have named : record.key = current.key := (system.journal.store.operations.keyed _ _ found).symm
  have key : finished.key = record.key := same.key.trans named.symm
  rcases agrees current found with ⟨_, start, _⟩
  have counts := ranges.rows _ current found
  have row : store.operations.find record.key = some finished := by
    rw [stored]
    change (system.journal.store.operations.replace finished).find record.key = _
    rw [← key, Register.find_replace_self, key, found]
    rfl
  exact {
    phases := rfl
    history := rfl
    about := by
      intro happened equal
      rcases Option.map_eq_some_iff.mp equal with ⟨offset, _, rfl⟩
      exact ⟨rfl, rfl⟩
    rowsOther := by
      intro other changed apart there
      change store.operations.find other = some changed at there
      rw [stored] at there
      change (system.journal.store.operations.replace finished).find other = some changed at there
      rw [← key] at apart
      rw [Register.find_replace_of_ne apart] at there
      exact there
    rowsOwn := by
      intro changed there
      change store.operations.find record.key = some changed at there
      rw [row] at there
      cases there
      exact rowCounts_finish counts same status advance named start run
    log := fun _ => List.mem_cons_of_mem _
    origin := by
      rcases origin with ⟨born, listed, descends⟩
      exact ⟨born, List.mem_cons_of_mem _ listed, descends.key.symm⟩
    work := by
      intro work closes
      cases closes
      rcases origin with ⟨born, listed, descends⟩
      refine ⟨rfl, ⟨born, List.mem_cons_of_mem _ listed, descends⟩, ?_⟩
      intro ranged undelivered changed there
      change store.operations.find record.key = some changed at there
      rw [row] at there
      cases there
      intro success
      rcases Option.isSome_iff_exists.mp ranged with ⟨offset, begins⟩
      have member : SystemEvent.closed run record.key offset (deliveredLength response)
          finished.status ∈ System.rangeClosed run record response finished.status ++
            system.history := by
        unfold System.rangeClosed
        rw [begins]
        exact List.mem_cons_self
      have delivered := undelivered _ member
      simp [SystemEvent.delivers, success] at delivered
    others := ranges.others_of_work kept working
    chain := by
      refine chain_closed (ranges.chains record.key) ?_
      intro first offset beginning begins _
      rcases counts offset (start.trans begins) with ⟨origin, earliest, contiguous, _⟩
      rw [← named] at earliest contiguous
      rw [beginning] at earliest
      cases earliest
      exact contiguous
    matched := by
      intro offset length outcome equal
      rcases Option.map_eq_some_iff.mp equal with ⟨_, begins, event⟩
      cases event
      exact begun _ begins
    opened := fun opened => by cases opened
    early := fun early => by cases early
    begins := by
      intro happened equal begins
      rcases Option.map_eq_some_iff.mp equal with ⟨offset, _, rfl⟩
      cases begins
    closes := fun _ _ _ => by rw [before]; rfl
    unspoiled := fun dropped => (ranges.abandoned record.key dropped).2 run _ working rfl
    ended := by
      intro equal
      rcases Option.map_eq_some_iff.mp equal with ⟨offset, _, other⟩
      cases other }

/-- The outcome could not be stored. -/
theorem finishLost_progress (kept : System.Kept ids system) (ranges : RangesKept system)
    {run : Nat} {record : OperationRecord} (before : system.phases run = .begun record) :
    Progress run (.finished record) record.key none system
      (system.enter run (.finished record)) := by
  have working : (system.phases run).work = some (.begun record) := by
    rw [before]
    rfl
  rcases ranges.works run _ working with ⟨origin, agrees, begun⟩
  exact {
    phases := rfl
    history := rfl
    about := fun _ none => by cases none
    rowsOther := fun _ _ _ found => found
    rowsOwn := fun row found => ranges.rows _ row found
    log := fun _ => id
    origin := by
      rcases origin with ⟨born, listed, descends⟩
      exact ⟨born, listed, descends.key.symm⟩
    work := by
      intro work closes
      cases closes
      refine ⟨rfl, origin, ?_⟩
      intro _ _ current found
      rw [(agrees current found).1]
      decide
    others := ranges.others_of_work kept working
    chain := ranges.chains record.key
    matched := fun _ _ _ none => by cases none
    opened := fun opened => by cases opened
    early := fun early => by cases early
    begins := fun _ none => by cases none
    closes := fun _ none => by cases none
    unspoiled := fun dropped => (ranges.abandoned record.key dropped).2 run _ working rfl
    ended := fun none => by cases none }

/-- A run is over that had begun a range, whether or not it recorded it. -/
theorem stop_progress (kept : System.Kept ids system) (ranges : RangesKept system) {run : Nat}
    {record : OperationRecord}
    (before : system.phases run = .begun record ∨ system.phases run = .finished record) :
    Progress run .ended record.key
      (record.rangeNextOffset.map (fun _ => .ended run record.key)) system (system.stop run) := by
  have ended : System.rangeEnded run (system.phases run) =
      (record.rangeNextOffset.map (fun _ => SystemEvent.ended run record.key)).toList := by
    rcases before with begun | finished
    · rw [begun]
      rfl
    · rw [finished]
      rfl
  have working : ∃ work, (system.phases run).work = some work ∧ work.record = record := by
    rcases before with begun | finished
    · exact ⟨.begun record, by rw [begun]; rfl, rfl⟩
    · exact ⟨.finished record, by rw [finished]; rfl, rfl⟩
  rcases working with ⟨work, working, same⟩
  have neutral : forall key, firstOffset key (system.stop run).history =
      firstOffset key system.history ∧
      rangesOf key (system.stop run).history = rangesOf key system.history := by
    intro key
    unfold System.stop
    rw [ended]
    cases record.rangeNextOffset with
    | none => exact ⟨rfl, rfl⟩
    | some offset => exact ⟨rfl, rfl⟩
  exact {
    phases := rfl
    history := by
      unfold System.stop
      rw [ended]
    about := by
      intro happened equal
      rcases Option.map_eq_some_iff.mp equal with ⟨offset, _, rfl⟩
      exact ⟨rfl, rfl⟩
    rowsOther := fun _ _ _ found => found
    rowsOwn := by
      intro row found next ranged
      rw [(neutral row.key).1, (neutral row.key).2]
      exact ranges.rows _ row found next ranged
    log := fun _ => id
    origin := by
      rcases (ranges.works run work working).1 with ⟨born, listed, descends⟩
      exact ⟨born, listed, same ▸ descends.key.symm⟩
    work := fun _ none => by cases none
    others := same ▸ ranges.others_of_work kept working
    chain := by
      rw [(neutral record.key).1, (neutral record.key).2]
      exact ranges.chains record.key
    matched := by
      intro _ _ _ equal
      rcases Option.map_eq_some_iff.mp equal with ⟨offset, _, other⟩
      cases other
    opened := fun opened => by cases opened
    early := fun early => by cases early
    begins := by
      intro happened equal begins
      rcases Option.map_eq_some_iff.mp equal with ⟨offset, _, rfl⟩
      cases begins
    closes := by
      intro happened equal closes
      rcases Option.map_eq_some_iff.mp equal with ⟨offset, _, rfl⟩
      cases closes
    unspoiled := fun dropped => (ranges.abandoned record.key dropped).2 run work working (same ▸ rfl)
    ended := by
      intro equal undelivered
      rcases Option.map_eq_some_iff.mp equal with ⟨offset, start, _⟩
      refine ⟨rfl, ?_⟩
      intro row found
      rcases before with begun | finished
      · rcases ranges.works run (.begun record) (by rw [begun]; rfl) with ⟨_, agrees, _⟩
        rw [(agrees row found).1]
        decide
      · rcases ranges.works run (.finished record) (by rw [finished]; rfl) with ⟨_, holds⟩
        exact holds (by rw [start]; rfl) undelivered row found }

/-! ## Runs -/

/-- A process that ends without having begun anything. -/
theorem quiet_stop {run : Nat} (idle : System.rangeEnded run (system.phases run) = []) :
    Quiet system (system.stop run) := by
  refine quiet_enter rfl rfl (fun opened => by cases opened) (.refl _) (fun _ => id) ?_
  unfold System.stop
  rw [idle]
  rfl

theorem acts (kept : System.Kept ids system) (distinct : Function.Injective ids)
    (ranges : RangesKept system) {ends : Nat -> Prop}
    (acts : System.Acts format ids ends system after) :
    RangesKept after := by
  cases acts with
  | idle => exact ranges
  | free step journal unlocked moves =>
      exact ranges.quiet ⟨rowsStay_free unlocked moves, fun _ _ => id, fun _ => id, fun _ => id,
        moves.begun, rfl⟩
  | turn run phase before plain later =>
      exact ranges.quiet (quiet_enter rfl (work_of_plain plain)
        (fun opened => early_of_plain before (later opened)) (.refl _) (fun _ => id) rfl)
  | acquire run key phase wants unheld =>
      exact ranges.quiet (quiet_enter rfl (admitted_early wants).1 (admitted_early wants).2
        (.refl _) (fun _ => id) rfl)
  | advance run phase step journal before bare same later known apart moves store log =>
      refine ranges.quiet (quiet_enter rfl (work_of_bare bare)
        (fun opened => early_of_bare before (later opened)) ?_ moves.begun rfl)
      change RowsStay _ journal.store.operations
      rw [store.1]
      exact .refl _
  | select run config actor request offset at_ previous record before found accepted =>
      exact ranges.progress (ranges.select_progress kept before found accepted)
  | write run record before checked =>
      exact ranges.progress (ranges.write_progress kept before)
  | insert run config ledger actor request epoch at_ record store before known made inserted =>
      rcases Store.insertRecord_ok inserted with ⟨_, _, _, effect⟩
      exact ranges.progress (ranges.insert_progress kept distinct before made effect)
  | finish run config record logReserveBytes logStorage response at_ finished store before known
      done =>
      exact ranges.progress (ranges.finish_progress kept before done)
  | finishLost run record before =>
      exact ranges.progress (ranges.finishLost_progress kept before)
  | ask run call record before found =>
      exact ranges.quiet (quiet_enter rfl rfl (fun opened => by cases opened) (.refl _)
        (fun _ => id) rfl)
  | claim run config at_ call record caller row current before claims =>
      have moved := ranges.neutral (.claimed current.accountId current.id) rfl
      refine moved.quiet (quiet_enter rfl rfl (fun opened => by cases opened) ?_
        (fun _ => List.mem_cons_of_mem _) rfl)
      exact .replace claims.found rfl rfl rfl rfl
  | settle run config now response record claim current before found pending =>
      have moved := ranges.neutral (.settled current.accountId current.id
        (some (Store.outcomeStatus response))) rfl
      refine moved.quiet (quiet_enter rfl rfl (fun opened => by cases opened) ?_
        (fun _ => List.mem_cons_of_mem _) rfl)
      exact .replace found rfl rfl rfl rfl
  | settleLost run record claim before =>
      exact ranges.quiet (quiet_enter rfl rfl (fun opened => by cases opened) (.refl _)
        (fun _ => id) rfl)
  | drop run at_ accountId id rest before =>
      exact ranges.quiet (quiet_enter rfl rfl (fun opened => by cases opened) (.refl _)
        (fun _ => List.mem_cons_of_mem _) rfl)
  | pick run at_ copy rest before found =>
      exact ranges.quiet (quiet_enter rfl rfl (fun opened => by cases opened) (.refl _)
        (fun _ => id) rfl)
  | expire run at_ copy token rest before found =>
      have moved := ranges.neutral (.expired copy.accountId copy.id) rfl
      exact moved.quiet (quiet_enter rfl rfl (fun opened => by cases opened) (.refl _)
        (fun _ => id) rfl)
  | unexpired run at_ copy rest before =>
      exact ranges.quiet (quiet_enter rfl rfl (fun opened => by cases opened) (.refl _)
        (fun _ => id) rfl)
  | cleaned run at_ copy rest reached before =>
      exact ranges.quiet (quiet_enter rfl rfl (fun opened => by cases opened) (.refl _)
        (fun _ => List.mem_cons_of_mem _) rfl)
  | reviewed run at_ copy rest reached before =>
      exact ranges.quiet (quiet_enter rfl rfl (fun opened => by cases opened) (.refl _)
        (fun _ => id) rfl)
  | overflow run at_ copy rest reached before =>
      exact ranges.quiet (quiet_enter rfl rfl (fun opened => by cases opened) (.refl _)
        (fun _ => id) rfl)
  | stop run =>
      cases before : system.phases run with
      | begun record => exact ranges.progress (ranges.stop_progress kept (.inl before))
      | finished record => exact ranges.progress (ranges.stop_progress kept (.inr before))
      | _ => exact ranges.quiet (quiet_stop (by rw [before]; rfl))

end RangesKept

/-- Over every run of the processes: the ranges recorded on one record follow
each other without gap or overlap, every begun range is finished at most once
and as it was begun, every stored record has counted exactly the recorded
ranges, and nothing is begun on a record once a run on it ended without
recording its range. -/
theorem ranges_journaled (env : Environment) (format : JournalFormat) (ids : Nat -> Uuid)
    (distinct : Function.Injective ids) (store : Store) (steps : List SystemStep) :
    let final := Runs.run (System.step env format ids) (.initial store) steps
    (forall key first, firstOffset key final.history = some first ->
      ∃ last, Contiguous first (rangesOf key final.history) last) ∧
    (forall run, final.history.countP (SystemEvent.begins run) ≤ 1 ∧
      final.history.countP (SystemEvent.closes run) ≤ 1) ∧
    (forall run key offset length status,
      .closed run key offset length status ∈ final.history ->
        .begun run key offset ∈ final.history) ∧
    (forall key record next, final.journal.store.operations.find key = some record ->
      record.rangeNextOffset = some next ->
      ∃ first, firstOffset key final.history = some first ∧ first ≤ next ∧
        record.bytesRead = next - first ∧
        record.bytesRead = totalLength (rangesOf key final.history)) ∧
    forall later run key earlier, final.history = later ++ .ended run key :: earlier ->
      (forall event, event ∈ earlier -> event.delivers run = false) ->
      forall other offset, .begun other key offset ∉ later := by
  intro final
  have kept : System.Kept ids final ∧ RangesKept final := by
    apply Runs.invariant (fun system => System.Kept ids system ∧ RangesKept system)
    · intro system step kept
      have acts := System.step_acts env format ids kept.1.known step
      exact ⟨kept.1.acts distinct acts, kept.2.acts kept.1 distinct acts⟩
    · exact ⟨.initial ids store, .initial store⟩
  rcases kept with ⟨_, ranges⟩
  refine ⟨ranges.chains, fun run => ⟨ranges.begunOnce run, ranges.closedOnce run⟩, ranges.matched,
    ?_, ranges.noneAfter⟩
  intro key record next found ranged
  have named : record.key = key := final.journal.store.operations.keyed key record found
  rcases ranges.rows key record found next ranged with ⟨first, begun, contiguous, counted⟩
  rw [named] at begun contiguous counted
  have length := contiguous.last_eq
  exact ⟨first, begun, by omega, by omega, counted⟩

namespace OneTrash

/-- A range of a file is asked for. -/
def rangeRequest (offset : Nat) : HelperRequest :=
  { request .readFileRange 11 "film".toList with writeOptions := some ⟨none, none, [], offset, false⟩ }

def rangeRead (offset : Nat) (data : List UInt8) : HelperResponse :=
  ⟨true, none, data.length, 0, none, .fileRange 5 offset data⟩

/-- Two processes read a file of five bytes, one after the other. -/
def download : List SystemStep :=
  [.start 1 actor (rangeRequest 0), .start 2 actor (rangeRequest 3), .acquire 1, .acquire 2,
    .authorize 1 config, .select 1 config 1000, .other .drawEpoch, .fence 1,
    .insert 1 config ledger 1000, .finish 1 config 0 none (some (rangeRead 0 [1, 2, 3])) 1001,
    .stop 1, .acquire 2, .authorize 2 config, .select 2 config 1010, .write 2,
    .finish 2 config 0 none (some (rangeRead 3 [4, 5])) 1011, .stop 2]

def downloaded : System := Runs.run (System.step environment format ids) (.initial store) download

def downloadKey : OperationKey := ⟨2, 1000, ids 1⟩

end OneTrash

open OneTrash in
theorem ranges_journaled_download :
    Function.Injective ids ∧ firstOffset downloadKey downloaded.history = some 0 ∧
      rangesOf downloadKey downloaded.history = [(3, 2), (0, 3)] ∧
      (∃ last, Contiguous 0 (rangesOf downloadKey downloaded.history) last) ∧
      forall run, downloaded.history.countP (SystemEvent.closes run) ≤ 1 := by
  have begun : firstOffset downloadKey downloaded.history = some 0 := by
    decide
  have journaled := ranges_journaled environment format ids ids_injective store download
  refine ⟨ids_injective, begun, by decide, ?_, ?_⟩
  · exact journaled.1 downloadKey 0 begun
  · exact fun run => (journaled.2.1 run).2

end TealDrive
