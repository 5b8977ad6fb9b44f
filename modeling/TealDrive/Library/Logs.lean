import Mathlib.Data.List.Infix

/-!
# Logs whose entries are justified

A log lists what happened, the oldest entry first.  A warrant says of an entry
what must have happened before it.  A log is justified when every entry had its
warrant at the time it was written.
-/

namespace Logs

universe u

variable {Entry : Type u} {warrant : List Entry -> Entry -> Prop} {log : List Entry}

/-- Every entry is warranted by the ones before it. -/
def Justified (warrant : List Entry -> Entry -> Prop) (log : List Entry) : Prop :=
  forall earlier entry later, log = earlier ++ entry :: later -> warrant earlier entry

theorem justified_nil : Justified warrant [] := by
  intro earlier entry later split
  exact absurd split.symm (List.append_ne_nil_of_right_ne_nil earlier (List.cons_ne_nil entry later))

theorem justified_concat {entry : Entry} :
    Justified warrant (log ++ [entry]) ↔ Justified warrant log ∧ warrant log entry := by
  constructor
  · intro justified
    refine ⟨?_, justified log entry [] rfl⟩
    intro earlier other later split
    refine justified earlier other (later ++ [entry]) ?_
    rw [split, List.append_assoc, List.cons_append]
  · rintro ⟨justified, warranted⟩ earlier other later split
    rcases List.eq_nil_or_concat later with none | ⟨front, last, some⟩
    · rw [none] at split
      rcases List.append_inj' split rfl with ⟨same, final⟩
      rw [← same, ← List.cons.inj final |>.1]
      exact warranted
    · rw [some, List.concat_eq_append, ← List.cons_append, ← List.append_assoc] at split
      rcases List.append_inj' split rfl with ⟨same, _⟩
      exact justified earlier other front same

/-- What was in the log earlier is justified too. -/
theorem Justified.front {earlier later : List Entry}
    (justified : Justified warrant (earlier ++ later)) : Justified warrant earlier := by
  intro first entry rest split
  apply justified first entry (rest ++ later)
  rw [split, List.append_assoc, List.cons_append]

/-- An entry that is in the log had its warrant. -/
theorem Justified.of_mem (justified : Justified warrant log) {entry : Entry} (member : entry ∈ log) :
    ∃ earlier, earlier <+: log ∧ warrant earlier entry := by
  rcases List.append_of_mem member with ⟨earlier, later, split⟩
  exact ⟨earlier, ⟨entry :: later, split.symm⟩, justified earlier entry later split⟩

end Logs
