import TealDrive.Helper.Writing

namespace TealDrive

open Outcome

/-!
# A writer with a budget

An archive is written with seeks: the writer comes back to a header and fills it
in.  A count of the bytes that were written would count such a header twice, so
the writer that bounds a file keeps the position instead, and refuses a write
that would end beyond the bound.

How much of a write the kernel takes, and which calls fail, is an argument of
each call.
-/

/-! ## Files that are open -/

/-- `SeekFrom`. -/
inductive SeekFrom where
  | start (offset : Nat)
  | fromEnd (offset : Int)
  | current (offset : Int)

structure OpenFile where
  bytes : List UInt8
  position : Nat

namespace OpenFile

/-- Where a seek leads. -/
def target (file : OpenFile) : SeekFrom -> Int
  | .start offset => offset
  | .fromEnd offset => file.bytes.length + offset
  | .current offset => file.position + offset

/-- `write(2)`.  The kernel takes as much as it answers, and a gap before what is
written reads as zeros. -/
def write (taken : Except IoError Nat) (file : OpenFile) (bytes : List UInt8) :
    OpenFile × Except IoError Nat :=
  match taken with
  | .error error => (file, .error error)
  | .ok most =>
      match bytes.take most with
      | [] => (file, .ok 0)
      | first :: rest =>
          (⟨Splice.overwrite 0 file.bytes file.position (first :: rest),
            file.position + (first :: rest).length⟩, .ok (first :: rest).length)

/-- `lseek(2)`. -/
def seek (fault : Option IoError) (file : OpenFile) (place : SeekFrom) :
    OpenFile × Except IoError Nat :=
  match fault with
  | some error => (file, .error error)
  | none =>
      if 0 ≤ file.target place ∧ file.target place ≤ i64Max then
        ({ file with position := (file.target place).toNat }, .ok (file.target place).toNat)
      else (file, .error .EINVAL)

end OpenFile

/-! ## The writer -/

structure BudgetWriter (W : Type) where
  inner : W
  limit : Nat
  position : Nat

namespace BudgetWriter

section Wrapped

variable {W : Type}

/-- `BudgetWriter::new`. -/
def new (budget : Option Nat) (inner : W) : BudgetWriter W := ⟨inner, budget.getD u64Max, 0⟩

/-- `BudgetWriter::write`. -/
def write (write : W -> List UInt8 -> W × Except IoError Nat) (cancelled : Option IoError)
    (writer : BudgetWriter W) (bytes : List UInt8) : BudgetWriter W × Except IoError Nat :=
  match cancelled with
  | some error => (writer, .error error)
  | none =>
      if bytes.length > writer.limit - writer.position then (writer, .error .ENOSPC)
      else
        match write writer.inner bytes with
        | (inner, .error error) => ({ writer with inner := inner }, .error error)
        | (inner, .ok count) =>
            ({ writer with inner := inner, position := writer.position + count }, .ok count)

/-- `BudgetWriter::seek`. -/
def seek (seek : W -> SeekFrom -> W × Except IoError Nat) (writer : BudgetWriter W)
    (place : SeekFrom) : BudgetWriter W × Except IoError Nat :=
  match seek writer.inner place with
  | (inner, .error error) => ({ writer with inner := inner }, .error error)
  | (inner, .ok position) => ({ writer with inner := inner, position := position }, .ok position)

end Wrapped

end BudgetWriter

/-! ## Calls of a file -/

/-- A call of a writer, and what the kernel makes of it. -/
inductive FileCall where
  | write (bytes : List UInt8) (cancelled : Option IoError) (taken : Except IoError Nat)
  | seek (place : SeekFrom) (fault : Option IoError)
  | flush (fault : Option IoError)

namespace FileCall

/-- A flush answers no number. -/
def flushed (fault : Option IoError) : Except IoError Nat := (fault.map Except.error).getD (.ok 0)

/-- What a call does to the file itself. -/
def plain (file : OpenFile) : FileCall -> OpenFile × Except IoError Nat
  | .write bytes _ taken => file.write taken bytes
  | .seek place fault => file.seek fault place
  | .flush fault => (file, flushed fault)

/-- What the writer finds when it asks, before a write, whether its request is
cancelled. -/
def cancelled : FileCall -> Option IoError
  | .write _ cancelled _ => cancelled
  | .seek _ _ | .flush _ => none

/-- What a call does to the file when a cancelled one is not made. -/
def attempted (file : OpenFile) (call : FileCall) : OpenFile × Except IoError Nat :=
  match call.cancelled with
  | some error => (file, .error error)
  | none => call.plain file

/-- What a call does through the writer. -/
def budgeted (writer : BudgetWriter OpenFile) :
    FileCall -> BudgetWriter OpenFile × Except IoError Nat
  | .write bytes cancelled taken => writer.write (OpenFile.write taken) cancelled bytes
  | .seek place fault => writer.seek (OpenFile.seek fault) place
  | .flush fault => (writer, flushed fault)

/-- A write that would end beyond the limit. -/
def Exceeds (limit : Nat) (file : OpenFile) : FileCall -> Prop
  | .write bytes cancelled _ =>
      cancelled = none ∧ bytes ≠ [] ∧ limit < file.position + bytes.length
  | .seek _ _ | .flush _ => False

def attemptedStep (file : OpenFile) (call : FileCall) : OpenFile := (call.attempted file).1

def budgetedStep (writer : BudgetWriter OpenFile) (call : FileCall) : BudgetWriter OpenFile :=
  (call.budgeted writer).1

/-- The answers to the calls of a run. -/
def attemptedAnswers (file : OpenFile) (calls : List FileCall) : List (Except IoError Nat) :=
  (Runs.visits attemptedStep file calls).map (fun visit => (visit.2.attempted visit.1).2)

def budgetedAnswers (writer : BudgetWriter OpenFile) (calls : List FileCall) :
    List (Except IoError Nat) :=
  (Runs.visits budgetedStep writer calls).map (fun visit => (visit.2.budgeted visit.1).2)

end FileCall

/-! ## What a call does -/

/-- A write moves the position by what it answers, and lengthens the file no
further than to the new position. -/
theorem OpenFile.write_ok {file after : OpenFile} {taken : Except IoError Nat}
    {bytes : List UInt8} {count : Nat} (done : file.write taken bytes = (after, .ok count)) :
    after.position = file.position + count ∧ count ≤ bytes.length ∧
      (count = 0 -> after = file) ∧
      after.bytes.length ≤ max file.bytes.length (file.position + count) := by
  unfold OpenFile.write at done
  split at done
  · cases done
  · next most =>
      split at done
      · cases done
        exact ⟨rfl, Nat.zero_le _, fun _ => rfl, Nat.le_max_left _ _⟩
      · next first rest some_ =>
          cases done
          have short : (first :: rest).length ≤ bytes.length := by
            rw [← some_, List.length_take]
            exact Nat.min_le_right _ _
          refine ⟨rfl, short, fun none_ => absurd none_ (Nat.succ_ne_zero _), ?_⟩
          simp only [Splice.overwrite, List.length_append, List.length_take, List.length_replicate,
            List.length_drop]
          omega

theorem OpenFile.write_error {file after : OpenFile} {taken : Except IoError Nat}
    {bytes : List UInt8} {error : IoError}
    (failed : file.write taken bytes = (after, .error error)) : after = file := by
  unfold OpenFile.write at failed
  split at failed
  · cases failed
    rfl
  · split at failed <;> cases failed

/-- A seek moves the position to what it answers. -/
theorem OpenFile.seek_ok {file after : OpenFile} {fault : Option IoError} {place : SeekFrom}
    {position : Nat} (done : file.seek fault place = (after, .ok position)) :
    after = { file with position := position } := by
  unfold OpenFile.seek at done
  split at done
  · cases done
  · split at done <;> cases done
    rfl

theorem OpenFile.seek_error {file after : OpenFile} {fault : Option IoError} {place : SeekFrom}
    {error : IoError} (failed : file.seek fault place = (after, .error error)) : after = file := by
  unfold OpenFile.seek at failed
  split at failed
  · cases failed
    rfl
  · split at failed <;> cases failed
    rfl

namespace FileCall

variable {writer : BudgetWriter OpenFile} {call : FileCall} {file : OpenFile} {limit initial : Nat}
  {calls : List FileCall}

/-- A cancelled call does nothing. -/
theorem budgeted_of_cancelled {error : IoError} (stopped : call.cancelled = some error) :
    call.budgeted writer = (writer, .error error) := by
  cases call with
  | write bytes cancelled taken =>
      have same : cancelled = some error := stopped
      rw [same]
      rfl
  | seek place fault => cases stopped
  | flush fault => cases stopped

/-- What would end beyond the limit is refused, and nothing is done. -/
theorem budgeted_of_exceeds (position : writer.position = writer.inner.position)
    (exceeds : call.Exceeds writer.limit writer.inner) :
    call.budgeted writer = (writer, .error .ENOSPC) := by
  cases call with
  | write bytes cancelled taken =>
      rcases exceeds with ⟨rfl, some_, beyond⟩
      have long := List.length_pos_iff.mpr some_
      have refused : bytes.length > writer.limit - writer.position := by omega
      unfold budgeted BudgetWriter.write
      dsimp only
      rw [if_pos refused]
  | seek place fault => exact exceeds.elim
  | flush fault => exact exceeds.elim

/-- Everything else is attempted. -/
theorem budgeted_of_fits (position : writer.position = writer.inner.position)
    (fits : ¬ call.Exceeds writer.limit writer.inner) :
    call.budgeted writer =
      (⟨(call.attempted writer.inner).1, writer.limit, (call.attempted writer.inner).1.position⟩,
        (call.attempted writer.inner).2) := by
  rcases writer with ⟨inner, limit, place⟩
  dsimp only at position fits ⊢
  subst position
  cases call with
  | write bytes cancelled taken =>
      unfold budgeted attempted FileCall.cancelled plain BudgetWriter.write
      cases cancelled with
      | some error => rfl
      | none =>
          have room : ¬ bytes.length > limit - inner.position := by
            intro long
            apply fits
            refine ⟨rfl, ?_, by omega⟩
            rintro rfl
            exact absurd long (Nat.not_lt_zero _)
          dsimp only
          rw [if_neg room]
          rcases written : inner.write taken bytes with ⟨after, error | count⟩
          · rw [OpenFile.write_error written]
          · dsimp only
            rw [(OpenFile.write_ok written).1]
  | seek place fault =>
      unfold budgeted attempted FileCall.cancelled plain BudgetWriter.seek
      dsimp only
      rcases moved : inner.seek fault place with ⟨after, error | reached⟩
      · rw [OpenFile.seek_error moved]
      · rw [OpenFile.seek_ok moved]
  | flush fault => rfl

/-- A call that fits leaves the file within the limit. -/
theorem length_attempted (fits : ¬ call.Exceeds limit file) :
    (call.attempted file).1.bytes.length ≤ max limit file.bytes.length := by
  cases call with
  | write bytes cancelled taken =>
      unfold attempted FileCall.cancelled plain
      cases cancelled with
      | some error => exact Nat.le_max_right _ _
      | none =>
          dsimp only
          rcases written : file.write taken bytes with ⟨after, error | count⟩
          · rw [OpenFile.write_error written]
            exact Nat.le_max_right _ _
          · rcases OpenFile.write_ok written with ⟨_, short, same, longer⟩
            by_cases nothing : bytes = []
            · subst nothing
              rw [same (Nat.le_zero.mp short)]
              exact Nat.le_max_right _ _
            · have room : file.position + bytes.length ≤ limit := by
                by_contra beyond
                exact fits ⟨rfl, nothing, Nat.lt_of_not_le beyond⟩
              dsimp only
              omega
  | seek place fault =>
      unfold attempted FileCall.cancelled plain
      dsimp only
      rcases moved : file.seek fault place with ⟨after, error | reached⟩
      · rw [OpenFile.seek_error moved]
        exact Nat.le_max_right _ _
      · rw [OpenFile.seek_ok moved]
        exact Nat.le_max_right _ _
  | flush fault => exact Nat.le_max_right _ _

/-- A writer that stands where its file stands, and has kept to its limit. -/
structure KeepsBudget (limit initial : Nat) (writer : BudgetWriter OpenFile) : Prop where
  kept : writer.limit = limit
  position : writer.position = writer.inner.position
  length : writer.inner.bytes.length ≤ max limit initial

theorem KeepsBudget.step (keeps : KeepsBudget limit initial writer) (call : FileCall) :
    KeepsBudget limit initial (budgetedStep writer call) := by
  unfold budgetedStep
  by_cases exceeds : call.Exceeds writer.limit writer.inner
  · rw [budgeted_of_exceeds keeps.position exceeds]
    exact keeps
  · rw [budgeted_of_fits keeps.position exceeds]
    refine ⟨keeps.kept, rfl, ?_⟩
    have grown := length_attempted exceeds
    rw [keeps.kept] at grown
    exact grown.trans (max_le (Nat.le_max_left _ _) keeps.length)

/-- While everything fits, the writer does what is done to the file. -/
theorem run_of_fits
    (fits : forall visit, visit ∈ Runs.visits attemptedStep file calls ->
      ¬ visit.2.Exceeds limit visit.1) :
    Runs.run budgetedStep ⟨file, limit, file.position⟩ calls =
        ⟨Runs.run attemptedStep file calls, limit, (Runs.run attemptedStep file calls).position⟩ ∧
      budgetedAnswers ⟨file, limit, file.position⟩ calls = attemptedAnswers file calls := by
  induction calls generalizing file with
  | nil => exact ⟨rfl, rfl⟩
  | cons call rest ih =>
      have here : ¬ call.Exceeds limit file := fits (file, call) List.mem_cons_self
      have done := @budgeted_of_fits ⟨file, limit, file.position⟩ call rfl here
      have next : budgetedStep ⟨file, limit, file.position⟩ call =
          ⟨attemptedStep file call, limit, (attemptedStep file call).position⟩ := by
        unfold budgetedStep
        rw [done]
        rfl
      rcases ih (fun visit visited => fits visit (List.mem_cons_of_mem _ visited)) with
        ⟨reached, answered⟩
      constructor
      · change Runs.run budgetedStep (budgetedStep _ call) rest = _
        rw [next, reached]
        rfl
      · change (call.budgeted _).2 :: budgetedAnswers (budgetedStep _ call) rest =
          (call.attempted file).2 :: attemptedAnswers (attemptedStep file call) rest
        rw [next, answered, done]

end FileCall

open FileCall in
/-- However a file is written and seeked through a writer with a budget, it does
not grow beyond the budget.  A cancelled write is not made.  Any other call is
refused by the writer exactly when it would end beyond the budget, and does what
it does to the file itself when it is not, so that what is written twice counts
once. -/
theorem budget_kept_across_seeks (budget : Option Nat) (file : OpenFile)
    (start : file.position = 0) (calls : List FileCall) :
    (Runs.run budgetedStep (BudgetWriter.new budget file) calls).inner.bytes.length ≤
        max (budget.getD u64Max) file.bytes.length ∧
      (forall visit, visit ∈ Runs.visits budgetedStep (BudgetWriter.new budget file) calls ->
        (forall error, visit.2.cancelled = some error ->
          visit.2.budgeted visit.1 = (visit.1, .error error)) ∧
        (visit.2.Exceeds (budget.getD u64Max) visit.1.inner ->
          visit.2.budgeted visit.1 = (visit.1, .error .ENOSPC)) ∧
        (visit.2.cancelled = none -> ¬ visit.2.Exceeds (budget.getD u64Max) visit.1.inner ->
          (visit.2.budgeted visit.1).1.inner = (visit.2.plain visit.1.inner).1 ∧
          (visit.2.budgeted visit.1).2 = (visit.2.plain visit.1.inner).2)) ∧
      ((forall visit, visit ∈ Runs.visits attemptedStep file calls ->
          ¬ visit.2.Exceeds (budget.getD u64Max) visit.1) ->
        (Runs.run budgetedStep (BudgetWriter.new budget file) calls).inner =
            Runs.run attemptedStep file calls ∧
          budgetedAnswers (BudgetWriter.new budget file) calls = attemptedAnswers file calls) := by
  have fresh : KeepsBudget (budget.getD u64Max) file.bytes.length (BudgetWriter.new budget file) :=
    ⟨rfl, start.symm, Nat.le_max_right _ _⟩
  refine ⟨?_, ?_, ?_⟩
  · exact (Runs.invariant (KeepsBudget (budget.getD u64Max) file.bytes.length)
      (fun _ call keeps => keeps.step call) fresh calls).length
  · intro visit visited
    have keeps := Runs.holds_of_visits (KeepsBudget (budget.getD u64Max) file.bytes.length)
      (fun _ call keeps => keeps.step call) fresh visited
    rw [← keeps.kept]
    refine ⟨?_, ?_, ?_⟩
    · intro error stopped
      exact budgeted_of_cancelled stopped
    · exact budgeted_of_exceeds keeps.position
    · intro going fits
      have done : visit.2.attempted visit.1.inner = visit.2.plain visit.1.inner := by
        unfold attempted
        rw [going]
      rw [budgeted_of_fits keeps.position fits, done]
      exact ⟨rfl, rfl⟩
  · intro fits
    have same : BudgetWriter.new budget file = ⟨file, budget.getD u64Max, file.position⟩ := by
      rw [start]
      rfl
    rw [same]
    rcases run_of_fits fits with ⟨reached, answered⟩
    exact ⟨by rw [reached], answered⟩

namespace OneBudget

/-- A header of two bytes, two bytes of data, the header again, and a write that
comes after the request is cancelled. -/
def calls : List FileCall :=
  [.write [0, 0] none (.ok 2), .write [3, 4] none (.ok 2), .seek (.start 0) none,
    .write [8, 9] none (.ok 2), .write [1] (some .other) (.ok 1)]

end OneBudget

open FileCall OneBudget in
/-- Six bytes are written within a budget of four. -/
theorem budget_kept_across_seeks_header :
    (Runs.run budgetedStep (BudgetWriter.new (some 4) ⟨[], 0⟩) calls).inner = ⟨[8, 9, 3, 4], 2⟩ ∧
      budgetedAnswers (BudgetWriter.new (some 4) ⟨[], 0⟩) calls =
        [.ok 2, .ok 2, .ok 0, .ok 2, .error .other] := by
  refine (budget_kept_across_seeks (some 4) ⟨[], 0⟩ rfl calls).2.2 ?_
  have visited : Runs.visits attemptedStep ⟨[], 0⟩ calls =
      [(⟨[], 0⟩, .write [0, 0] none (.ok 2)), (⟨[0, 0], 2⟩, .write [3, 4] none (.ok 2)),
        (⟨[0, 0, 3, 4], 4⟩, .seek (.start 0) none),
        (⟨[0, 0, 3, 4], 0⟩, .write [8, 9] none (.ok 2)),
        (⟨[8, 9, 3, 4], 2⟩, .write [1] (some .other) (.ok 1))] := by rfl
  rw [visited]
  simp [Exceeds]

end TealDrive
