import TealDrive.Library.History
import TealDrive.Accounts.UndoOnce

namespace TealDrive

open Outcome

/-!
# Retention and rotation of the journal

Records are deleted in three places: retention drops what is too old when a new
operation begins, rotation makes room for one record when the journal is full,
and the collector deletes old records on its own.  What each of them takes is
said once; that none of it could still be undone then follows from the time
limits of the configuration.
-/

/-! ## Bounds -/

/-- What the proofs use of a valid configuration. -/
theorem limits_of_valid {config : JournalConfig} (valid : config.valid = true) :
    0 < config.maxEntriesPerAccount ∧ 0 < config.maxTotalEntries ∧
      config.undoMaxHours ≤ config.retentionHours := by
  simp only [JournalConfig.valid, within, Bool.and_eq_true, decide_eq_true_iff] at valid
  omega

theorem past_undo {created undo retention at_ now : Nat} (old : created + retention * 3600 < at_)
    (early : at_ ≤ now) (longer : undo ≤ retention) : created + undo * 3600 < now :=
  calc created + undo * 3600
      ≤ created + retention * 3600 := Nat.add_le_add_left (Nat.mul_le_mul_right 3600 longer) created
    _ < at_ := old
    _ ≤ now := early

/-- How many records an account has. -/
def recordsOf (operations : Operations) (account : Uuid) : Nat :=
  operations.table.count (fun key _ => key.ofAccount account)

/-- Neither an account nor everybody together has too many records. -/
structure WithinLimits (config : JournalConfig) (operations : Operations) : Prop where
  account : forall account, recordsOf operations account ≤ config.maxEntriesPerAccount
  total : operations.table.size ≤ config.maxTotalEntries

namespace WithinLimits

variable {config : JournalConfig} {operations : Operations}

theorem filter (within : WithinLimits config operations)
    (keep : OperationKey -> OperationRecord -> Bool) :
    WithinLimits config (operations.filter keep) where
  account := fun account =>
    (Table.count_filter_le operations.table keep _).trans (within.account account)
  total := (List.length_filter_le _ _).trans within.total

theorem replace (within : WithinLimits config operations) (record : OperationRecord) :
    WithinLimits config (operations.replace record) where
  account := by
    intro account
    refine Nat.le_trans (Nat.le_of_eq ?_) (within.account account)
    unfold recordsOf Register.replace Table.modify
    exact Table.count_map operations.table
      (fun other value => if other = record.key then record else value) (fun _ _ => rfl)
  total := by
    refine Nat.le_trans (Nat.le_of_eq ?_) within.total
    exact List.length_map _

theorem insert (within : WithinLimits config operations) {record : OperationRecord}
    (absent : operations.find record.key = none)
    (few : recordsOf operations record.accountId < config.maxEntriesPerAccount)
    (room : operations.table.size < config.maxTotalEntries) :
    WithinLimits config (operations.insert record) where
  account := by
    intro account
    have counted := Table.count_insert_of_absent record
      (fun key _ => key.ofAccount account) absent
    have before := within.account account
    change (operations.table.insert record.key record).count _ ≤ _
    rw [counted]
    change recordsOf operations account + _ ≤ _
    by_cases own : record.accountId = account
    · subst own
      split <;> omega
    · have foreign : record.key.ofAccount account = false := by
        simpa [OperationKey.ofAccount, OperationRecord.key] using own
      rw [foreign]
      simpa using before
  total := by
    change (operations.table.insert record.key record).size ≤ _
    rw [Table.size_insert_of_absent record absent]
    exact room

end WithinLimits

namespace Store

variable {config : JournalConfig} {ledger : Ledger} {actor : Account} {store after : Store}
  {at_ : Nat}

theorem removeEach_within {rows : List (OperationKey × OperationRecord)}
    (within : WithinLimits config store.operations)
    (done : store.removeEach ledger actor rows = .ok after) :
    WithinLimits config after.operations := by
  induction rows generalizing store with
  | nil =>
      cases done
      exact within
  | cons row rest ih =>
      simp only [removeEach, bind_eq_ok] at done
      rcases done with ⟨removed, one, others⟩
      refine ih ?_ others
      rw [removeRecord_ok one]
      exact within.filter _

theorem dropExpired_within (within : WithinLimits config store.operations)
    (done : store.dropExpired config ledger actor at_ = .ok after) :
    WithinLimits config after.operations := by
  simp only [dropExpired, bind_eq_ok] at done
  rcases done with ⟨_, _, removed⟩
  exact removeEach_within within removed

/-- One record less, if it belongs to the account. -/
theorem count_erase_own {operations : Operations} {key : OperationKey} {record : OperationRecord}
    (found : operations.find key = some record) :
    recordsOf (operations.erase key) key.accountId + 1 = recordsOf operations key.accountId ∧
      (operations.erase key).table.size + 1 = operations.table.size := by
  unfold recordsOf
  rw [Table.size_eq_count, Table.size_eq_count, Table.count_eq_total, Table.count_eq_total,
    Table.count_eq_total, Table.count_eq_total]
  constructor
  · have removed := Table.total_erase
      (fun other (_ : OperationRecord) => if other.ofAccount key.accountId then 1 else 0) found
    change (operations.table.erase key).total _ + 1 = _
    simpa [OperationKey.ofAccount] using removed
  · exact Table.total_erase (fun _ _ => 1) found

/-- Rotation leaves room for one record of the account. -/
theorem rotate_room (valid : config.valid = true) (within : WithinLimits config store.operations)
    (done : store.rotate config ledger actor at_ = .ok after) :
    WithinLimits config after.operations ∧
      recordsOf after.operations actor.id < config.maxEntriesPerAccount ∧
      after.operations.table.size < config.maxTotalEntries := by
  rcases limits_of_valid valid with ⟨some_, someTotal, _⟩
  have most := within.account actor.id
  have all := within.total
  unfold rotate at done
  split at done
  · simp only [bind_eq_ok, okOr_eq_ok] at done
    rcases done with ⟨_, _, oldest, chosen, removed⟩
    rcases Table.selectFirst_spec chosen with ⟨found, condition⟩
    simp only [OperationKey.ofAccount, Bool.and_eq_true, beq_iff_eq] at condition
    rcases count_erase_own found with ⟨own, everybody⟩
    rw [condition.1.1] at own
    rw [removeRecord_ok removed]
    refine ⟨within.filter _, ?_, ?_⟩
    · change recordsOf (store.operations.erase oldest.1) actor.id < _
      omega
    · change (store.operations.erase oldest.1).table.size < _
      omega
  · next free =>
      cases done
      unfold recordsOf
      refine ⟨within, ?_, ?_⟩
      · omega
      · omega

theorem insertRecord_within {record : OperationRecord} (valid : config.valid = true)
    (own : record.accountId = actor.id) (within : WithinLimits config store.operations)
    (done : store.insertRecord config ledger actor record at_ = .ok after) :
    WithinLimits config after.operations := by
  simp only [insertRecord, bind_eq_ok, refuse_eq_ok] at done
  rcases done with ⟨kept, dropped, rotated, turned, _, absent, tokens⟩
  rcases rotate_room valid (dropExpired_within within dropped) turned with ⟨still, few, room⟩
  rcases addTokens_ok tokens with ⟨_, _, _, _, same⟩
  rw [same]
  exact still.insert (by simpa using absent) (own ▸ few) room

/-! ## What is deleted -/

/-- A row of the first store that the second one has no more. -/
structure Lost (store after : Store) (key : OperationKey) (record : OperationRecord) : Prop where
  before : store.operations.find key = some record
  gone : after.operations.find key = none

theorem removeEach_lost {rows : List (OperationKey × OperationRecord)} {key : OperationKey}
    {record : OperationRecord} (done : store.removeEach ledger actor rows = .ok after)
    (lost : Lost store after key record) : ∃ row, row ∈ rows ∧ row.1 = key := by
  induction rows generalizing store with
  | nil =>
      cases done
      cases lost.before.symm.trans lost.gone
  | cons row rest ih =>
      simp only [removeEach, bind_eq_ok] at done
      rcases done with ⟨removed, one, others⟩
      have erased := removeRecord_ok one
      subst erased
      by_cases same : row.1 = key
      · exact ⟨row, List.mem_cons_self, same⟩
      · have still : Lost { store with operations := store.operations.erase row.1 } after key record :=
          ⟨(Register.find_erase_of_ne (Ne.symm same)).trans lost.before, lost.gone⟩
        rcases ih others still with ⟨other, member, found⟩
        exact ⟨other, List.mem_cons_of_mem row member, found⟩

/-- Retention drops old records only. -/
theorem dropExpired_lost {key : OperationKey} {record : OperationRecord}
    (done : store.dropExpired config ledger actor at_ = .ok after)
    (lost : Lost store after key record) :
    record.createdAt + config.retentionHours * 3600 < at_ := by
  simp only [dropExpired, bind_eq_ok] at done
  rcases done with ⟨_, _, removed⟩
  rcases removeEach_lost removed lost with ⟨row, member, rfl⟩
  rcases Table.select_spec member with ⟨found, condition⟩
  have same : row.2 = record := Option.some.inj (found.symm.trans lost.before)
  simp only [Bool.and_eq_true, decide_eq_true_iff] at condition
  rw [← same]
  omega

/-- Rotation takes a settled record that cannot be undone. -/
theorem rotate_lost {key : OperationKey} {record : OperationRecord}
    (done : store.rotate config ledger actor at_ = .ok after)
    (lost : Lost store after key record) :
    (record.status = .success ∨ record.status = .failed) ∧
      (record.action.undoable = false ∨
        record.createdAt + config.undoMaxHours * 3600 < at_) := by
  unfold rotate at done
  split at done
  · simp only [bind_eq_ok, okOr_eq_ok] at done
    rcases done with ⟨_, _, oldest, chosen, removed⟩
    have erased := removeRecord_ok removed
    subst erased
    rcases Table.selectFirst_spec chosen with ⟨found, condition⟩
    have same : oldest.1 = key := by
      by_contra different
      have stays := (Register.find_erase_of_ne (Ne.symm different)).trans lost.before
      cases stays.symm.trans lost.gone
    subst same
    have equal : oldest.2 = record := Option.some.inj (found.symm.trans lost.before)
    simp only [Bool.and_eq_true, Bool.or_eq_true, beq_iff_eq, Bool.not_eq_true',
      decide_eq_true_iff] at condition
    rw [← equal]
    rcases condition with ⟨⟨_, settled⟩, stale | old⟩
    · exact ⟨settled, Or.inl stale⟩
    · exact ⟨settled, Or.inr (by omega)⟩
  · cases done
    cases lost.before.symm.trans lost.gone

/-- The two ways a new record displaces an old one. -/
theorem insertRecord_lost {inserted : OperationRecord} {key : OperationKey}
    {record : OperationRecord}
    (done : store.insertRecord config ledger actor inserted at_ = .ok after)
    (lost : Lost store after key record) :
    record.createdAt + config.retentionHours * 3600 < at_ ∨
      record.action.undoable = false ∨
        record.createdAt + config.undoMaxHours * 3600 < at_ := by
  simp only [insertRecord, bind_eq_ok, refuse_eq_ok] at done
  rcases done with ⟨kept, dropped, rotated, turned, _, _, tokens⟩
  rcases addTokens_ok tokens with ⟨_, _, _, _, same⟩
  have gone : rotated.operations.find key = none := by
    have absent := lost.gone
    rw [same] at absent
    change (rotated.operations.insert inserted).find key = none at absent
    by_cases own : key = inserted.key
    · subst own
      rw [Register.find_insert_self] at absent
      cases absent
    · rw [Register.find_insert_of_ne own] at absent
      exact absent
  cases middle : kept.operations.find key with
  | none => exact Or.inl (dropExpired_lost dropped ⟨lost.before, middle⟩)
  | some other =>
      rcases dropExpired_ok dropped with ⟨fewer, rotates, sameStore⟩
      have before : store.operations.find key = some other := by
        apply rotates.origin
        rw [sameStore] at middle
        exact middle
      have equal : other = record := Option.some.inj (before.symm.trans lost.before)
      subst equal
      exact Or.inr (rotate_lost turned ⟨middle, gone⟩).2

end Store

/-! ## Runs -/

/-- The configuration a step uses. -/
def JournalStep.config? : JournalStep -> Option JournalConfig
  | .read config _ _ _ _ | .insert config _ _ _ _ _ | .finish config _ _ _ _ _ | .sweep config _
  | .claim config _ _ _ _ | .finishUndo config _ _ _ => some config
  | _ => none

/-- What the clock said when a step read it. -/
def JournalStep.time? : JournalStep -> Option Nat
  | .read _ _ _ _ at_ | .insert _ _ _ _ _ at_ | .finish _ _ _ _ _ at_ | .sweep _ at_
  | .claim _ _ _ _ at_ | .finishUndo _ at_ _ _ => some at_
  | _ => none

/-- A step with the given configuration, taken before some time. -/
structure JournalStep.Timely (config : JournalConfig) (now : Nat) (step : JournalStep) : Prop where
  config : forall used, step.config? = some used -> used = config
  time : forall at_, step.time? = some at_ -> at_ ≤ now

/-- The limits hold, and what the collector found is old. -/
structure JournalKept (config : JournalConfig) (now : Nat) (state : JournalState) : Prop where
  within : WithinLimits config state.store.operations
  expired : forall row, row ∈ state.expired ->
    row.2.createdAt + config.retentionHours * 3600 < now

namespace JournalKept

variable {config : JournalConfig} {now : Nat} {state after : JournalState}

theorem initial (config : JournalConfig) (now : Nat) (store : Store) :
    JournalKept config now (.initial store) where
  within := ⟨fun _ => Nat.zero_le _, Nat.zero_le _⟩
  expired := fun _ member => absurd member List.not_mem_nil

theorem moves {format : JournalFormat} {ids : Nat -> Uuid} {step : JournalStep}
    (valid : config.valid = true) (kept : JournalKept config now state)
    (timely : step.Timely config now)
    (moves : JournalState.Moves format ids state step after) : JournalKept config now after := by
  cases moves with
  | idle | drew | drawEpoch | readEpoch | read | cleanTrash | cleanStaging | reviewTrash
  | reviewStaging => exact ⟨kept.within, kept.expired⟩
  | account op store tables =>
      refine ⟨?_, kept.expired⟩
      change WithinLimits config store.operations
      rw [tables.operations]
      exact kept.within
  | restore now actor store tables =>
      refine ⟨?_, kept.expired⟩
      change WithinLimits config store.operations
      rw [tables.operations]
      exact kept.within
  | write record => exact ⟨kept.within.replace record, kept.expired⟩
  | insert used ledger actor request epoch at_ record store known made inserted =>
      have same : used = config := timely.config used rfl
      subst same
      exact ⟨Store.insertRecord_within valid (made ▸ rfl) kept.within inserted, kept.expired⟩
  | finish used record logReserveBytes logStorage response at_ finished store known done =>
      rcases Store.finishOperation_ok done with ⟨_, _, _, _, _, _, rfl⟩
      exact ⟨kept.within.replace finished, kept.expired⟩
  | sweep used at_ rows found =>
      refine ⟨kept.within, ?_⟩
      have same : used = config := timely.config used rfl
      subst same
      have early : at_ ≤ now := timely.time at_ rfl
      simp only [Store.expiredOperations, bind_eq_ok, pure_eq_ok] at found
      rcases found with ⟨_, _, _, _, rfl⟩
      intro row member
      rcases List.mem_append.mp member with here | before
      · have condition := (Table.select_spec here).2
        rw [decide_eq_true_iff] at condition
        omega
      · exact kept.expired row before
  | delete row => exact ⟨kept.within.filter _, kept.expired⟩
  | claim => exact ⟨kept.within.replace _, kept.expired⟩
  | finishUndo => exact ⟨kept.within.replace _, kept.expired⟩

/-- Whatever a step deletes is too old to be undone, or cannot be undone. -/
theorem lost {format : JournalFormat} {ids : Nat -> Uuid} {step : JournalStep}
    (valid : config.valid = true) (kept : JournalKept config now state)
    (timely : step.Timely config now)
    (moves : JournalState.Moves format ids state step after) {key : OperationKey}
    {record : OperationRecord} (lost : Store.Lost state.store after.store key record) :
    record.action.undoable = false ∨ record.createdAt + config.undoMaxHours * 3600 < now := by
  have longer := (limits_of_valid valid).2.2
  have stays : after.store.operations = state.store.operations -> False := by
    intro same
    have gone := lost.gone
    rw [same, lost.before] at gone
    cases gone
  have rewritten : forall record,
      after.store.operations = state.store.operations.replace record -> False := by
    intro record same
    have gone := congrArg Option.isSome lost.gone
    rw [same, Register.isSome_find_replace, lost.before] at gone
    cases gone
  cases moves with
  | insert used ledger actor request epoch at_ inserted store known made done =>
      have same : used = config := timely.config used rfl
      subst same
      have early : at_ ≤ now := timely.time at_ rfl
      rcases Store.insertRecord_lost done lost with old | fixed | old
      · exact Or.inr (past_undo old early longer)
      · exact Or.inl fixed
      · exact Or.inr (past_undo old early le_rfl)
  | delete row listed =>
      have old := kept.expired row listed
      have gone := lost.gone
      change (state.store.operations.filter _).find key = none at gone
      rw [Register.find_filter, lost.before] at gone
      have exact_ : key = row.1 ∧ record = row.2 := by
        simpa [Option.filter] using gone
      rw [exact_.2]
      exact Or.inr (past_undo old le_rfl longer)
  | account op store tables epoch => exact absurd tables.operations stays
  | restore at_ actor store tables epoch => exact absurd tables.operations stays
  | finish used record logReserveBytes logStorage response at_ finished store known done =>
      rcases Store.finishOperation_ok done with ⟨_, _, _, _, _, _, stored⟩
      exact absurd (stored ▸ rfl) (rewritten finished)
  | write record => exact absurd rfl (rewritten record)
  | claim => exact absurd rfl (rewritten _)
  | finishUndo => exact absurd rfl (rewritten _)
  | idle | drew | drawEpoch | readEpoch | read | sweep | cleanTrash | cleanStaging | reviewTrash
  | reviewStaging => exact absurd rfl stays

end JournalKept

/-- The preferences of an account that chose some hours, or none. -/
def chosenPreferences (config : JournalConfig) (hours : Option Nat) (revision : Nat) :
    Store.UndoPreferences :=
  ⟨hours, min (hours.getD config.undoMaxHours) config.undoMaxHours, config.undoMaxHours, revision⟩

/-- A record that is past the time limit cannot be undone, whatever hours the
account chose. -/
theorem unavailable_of_lost {config : JournalConfig} {record : OperationRecord} {now : Nat}
    (unfit : record.action.undoable = false ∨ record.createdAt + config.undoMaxHours * 3600 < now)
    (hours : Option Nat) (revision : Nat) (epoch : Uuid) :
    (candidate record (chosenPreferences config hours revision) epoch now).available = false := by
  by_contra otherwise
  have available := Bool.eq_true_of_not_eq_false otherwise
  rcases Store.candidate_available available with ⟨_, undoable, _, _, early⟩
  rcases unfit with fixed | old
  · rw [fixed] at undoable
    cases undoable
  · have fewer : (chosenPreferences config hours revision).effectiveHours ≤ config.undoMaxHours :=
      Nat.min_le_right _ _
    have late := past_undo old le_rfl fewer
    exact absurd (Nat.lt_trans early late) (Nat.lt_irrefl _)

/-- With one valid configuration and a clock that does not go back, so that it is
never later than now before the last step, the journal stays within its limits,
no step deletes a record that could still be undone now, and rotation takes
settled records only. -/
theorem undoable_history_kept (env : Environment) (format : JournalFormat) (ids : Nat -> Uuid)
    (config : JournalConfig) (valid : config.valid = true) (store : Store)
    (steps : List JournalStep) (now : Nat)
    (timely : forall step, step ∈ steps -> step.Timely config now) :
    let final := Runs.run (JournalState.step env format ids) (.initial store) steps
    WithinLimits config final.store.operations ∧
      (forall step, step.Timely config now -> forall key record,
        Store.Lost final.store (final.step env format ids step).store key record ->
        forall hours revision epoch,
          (candidate record (chosenPreferences config hours revision) epoch now).available = false) ∧
      forall ledger actor at_ kept rotated,
        final.store.dropExpired config ledger actor at_ = .ok kept ->
        kept.rotate config ledger actor at_ = .ok rotated ->
        forall key record, Store.Lost kept rotated key record ->
          record.status ≠ .pending ∧ record.status ≠ .unknown := by
  intro final
  have kept : JournalKept config now final := by
    refine Runs.invariant_each (JournalKept config now) ?_ (.initial config now store)
      (Runs.each_of_forall timely _)
    intro state step condition kept
    exact kept.moves valid condition (state.step_moves env format ids step)
  refine ⟨kept.within, ?_, ?_⟩
  · intro step condition key record lost hours revision epoch
    exact unavailable_of_lost
      (kept.lost valid condition (final.step_moves env format ids step) lost) hours revision epoch
  · intro ledger actor at_ kept rotated _ turned key record lost
    rcases (Store.rotate_lost turned lost).1 with success | failed
    · rw [success]
      exact ⟨by decide, by decide⟩
    · rw [failed]
      exact ⟨by decide, by decide⟩

namespace OneTrash

/-- Another operation begins a month later. -/
def later : JournalStep :=
  .insert config ledger actor (request .createFolder 9 "new".toList) (ids 0) 3000000

def month : JournalState := Runs.run (JournalState.step environment format ids) (.initial store) trashing

theorem trashing_timely : forall step, step ∈ trashing -> step.Timely config 3000000 := by
  have used : forall step, step ∈ trashing ->
      step.config?.all (fun other => decide (other = config)) = true ∧
        step.time?.all (fun at_ => decide (at_ ≤ 3000000)) = true := by
    decide
  intro step member
  rcases used step member with ⟨same, early⟩
  constructor
  · intro other read
    rw [read] at same
    simpa using same
  · intro at_ read
    rw [read] at early
    simpa using early

end OneTrash

open OneTrash in
theorem undoable_history_kept_month :
    WithinLimits config month.store.operations ∧
      ∃ record, Store.Lost month.store (month.step environment format ids later).store trashed.key
          record ∧ record.status = .success ∧ record.action = .trash ∧
        forall hours revision epoch,
          (candidate record (chosenPreferences config hours revision) epoch 3000000).available =
            false := by
  have kept := undoable_history_kept environment format ids config (by decide) store trashing 3000000
    trashing_timely
  refine ⟨kept.1, ?_⟩
  have found : ((month.store.operations.find trashed.key).any (fun record =>
      decide (record.status = .success ∧ record.action = .trash))) = true := by
    decide
  rcases (Option.any_eq_true _ _).mp found with ⟨record, present, settled⟩
  rw [decide_eq_true_iff] at settled
  have gone : (month.step environment format ids later).store.operations.find trashed.key = none := by
    decide
  have lost : Store.Lost month.store (month.step environment format ids later).store trashed.key
      record := ⟨present, gone⟩
  have timely : later.Timely config 3000000 :=
    ⟨fun _ used => (Option.some.inj used).symm, fun _ read => (Option.some.inj read).ge⟩
  exact ⟨record, lost, settled.1, settled.2, kept.2.1 later timely trashed.key record lost⟩

end TealDrive
