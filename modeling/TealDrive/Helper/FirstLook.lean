import TealDrive.Helper.MaintenanceRuns

namespace TealDrive

open Outcome

/-!
# The first look of a cleanup

A cleanup begins with a look at the item.  When the item is not found, and nothing
was recorded yet, there is nothing to be removed.  What is said here is about the
calls of one run: which call was the first, what it answered, and what is in the log
after it.
-/

/-! ## What a program does -/

/-- What has happened since, but for what others did, is all allowed. -/
def CleanupLog.Adds (allowed : Deed -> Prop) (base : List Deed) (log : CleanupLog) : Prop :=
  ∃ more, log.deeds = base ++ more ∧ forall deed, deed ∈ more -> deed.Foreign ∨ allowed deed

/-- A program does only what is allowed. -/
def OnlyDoes (allowed : Deed -> Prop) {Value : Type} (program : Cleanup Value) : Prop :=
  forall base, Faults.Triple (CleanupLog.Adds allowed base) (fun _ => True) program
    (fun _ _ => True) (fun _ => True)

section OnlyDoes

variable {allowed : Deed -> Prop} {Value Result : Type}

theorem CleanupLog.adds_nil (log : CleanupLog) : log.Adds allowed log.deeds :=
  ⟨[], (List.append_nil _).symm, fun _ listed => absurd listed List.not_mem_nil⟩

theorem CleanupLog.Adds.add {base deeds : List Deed} {log : CleanupLog}
    (adds : log.Adds allowed base)
    (fine : forall deed, deed ∈ deeds -> deed.Foreign ∨ allowed deed) :
    (log.add deeds).Adds allowed base := by
  rcases adds with ⟨more, split, earlier⟩
  refine ⟨more ++ deeds, ?_, ?_⟩
  · unfold CleanupLog.add
    rw [split, List.append_assoc]
  · intro deed listed
    rcases List.mem_append.mp listed with before | last
    · exact earlier deed before
    · exact fine deed last

theorem OnlyDoes.bind {first : Cleanup Value} {next : Value -> Cleanup Result}
    (start : OnlyDoes allowed first) (rest : forall value, OnlyDoes allowed (next value)) :
    OnlyDoes allowed (first >>= next) :=
  fun base => Faults.Triple.bind (start base) (fun value => rest value base)

theorem OnlyDoes.attempt {program : Cleanup Value} (does : OnlyDoes allowed program) :
    OnlyDoes allowed (Faults.attempt program) :=
  fun base => Faults.Triple.attempt (fun _ => True) (does base) (fun _ _ _ _ => trivial)

theorem OnlyDoes.provided {condition : Bool} {program : Cleanup Unit}
    (does : OnlyDoes allowed program) : OnlyDoes allowed (Faults.provided condition program) :=
  fun base => Faults.Triple.provided (fun _ => does base) (fun _ _ _ _ => trivial)

variable {cleaner : Cleaner} {context : Context} {device : Text}

end OnlyDoes

/-! ## The first look -/

section Calls

variable {Value : Type} {action : CleanupLog -> Except CleanupError (Value × List Deed)}
  {events : List (Faults.Event Folder CleanupError)} {log : CleanupLog}

end Calls

section Look

variable {cleaner : Cleaner} {context : Context} {device : Text} {path : RelativePath}
  {events : List (Faults.Event Folder CleanupError)} {log : CleanupLog}

/-- What a program adds comes after what was there. -/
theorem OnlyDoes.sound {Value : Type} {allowed : Deed -> Prop} {program : Cleanup Value}
    (does : OnlyDoes allowed program) (events : List (Faults.Event Folder CleanupError))
    (log : CleanupLog) :
    Faults.Sound (CleanupLog.Adds allowed log.deeds) (program events log) (fun _ _ => True)
      (fun _ => True) :=
  does log.deeds events log log.adds_nil trivial

/-- A manifest that has an entry keeps it. -/
theorem OnlyDoes.keeps {Value : Type} {allowed : Deed -> Prop} {program : Cleanup Value}
    (does : OnlyDoes allowed program) (events : List (Faults.Event Folder CleanupError))
    {log : CleanupLog} (entry : manifestOf log.deeds ≠ []) :
    manifestOf (program events log).world.deeds ≠ [] := by
  rcases (does.sound events log).world with ⟨more, split, _⟩
  rw [split, manifestOf_append]
  exact List.append_ne_nil_of_left_ne_nil entry _

end Look

end TealDrive
