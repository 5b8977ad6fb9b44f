import TealDrive.Library.Runs

/-!
# Histories

A history lists the events of a run, the newest first.  `Since` says that one
kind of event happened and none of another kind since then.  `Each` restricts a
run to operations that satisfy a condition in the state they are taken in.
-/

namespace History

universe u

variable {Event : Type u} (starts ends : Event -> Prop)

/-- Something started and did not end since. -/
def Since (log : List Event) : Prop :=
  ∃ later event earlier, log = later ++ event :: earlier ∧ starts event ∧
    forall other, other ∈ later -> ¬ ends other

variable {starts ends}

theorem not_since_nil : ¬ Since starts ends [] := by
  rintro ⟨later, event, earlier, split, _⟩
  simp at split

theorem since_cons {event : Event} {log : List Event} :
    Since starts ends (event :: log) ↔ starts event ∨ Since starts ends log ∧ ¬ ends event := by
  constructor
  · rintro ⟨later, start, earlier, split, started, open_⟩
    rcases List.cons_eq_append_iff.mp split with ⟨_, here⟩ | ⟨rest, longer, below⟩
    · cases here
      exact Or.inl started
    · subst longer
      refine Or.inr ⟨⟨rest, start, earlier, below, started, ?_⟩, open_ event List.mem_cons_self⟩
      intro other member
      exact open_ other (List.mem_cons_of_mem event member)
  · rintro (started | ⟨⟨later, start, earlier, split, started, open_⟩, continues⟩)
    · exact ⟨[], event, log, rfl, started, fun _ member => absurd member List.not_mem_nil⟩
    · refine ⟨event :: later, start, earlier, by rw [split]; rfl, started, ?_⟩
      intro other member
      rcases List.mem_cons.mp member with here | before
      · rw [here]
        exact continues
      · exact open_ other before

/-- What is still going on did start. -/
theorem Since.started {log : List Event} (since : Since starts ends log) :
    ∃ event, event ∈ log ∧ starts event := by
  rcases since with ⟨later, event, earlier, rfl, started, _⟩
  exact ⟨event, by simp, started⟩

/-- An event that neither starts nor ends anything changes nothing. -/
theorem since_cons_of_neither {event : Event} {log : List Event} (start : ¬ starts event)
    (finish : ¬ ends event) : Since starts ends (event :: log) ↔ Since starts ends log := by
  rw [since_cons]
  simp [start, finish]

instance decidableSince [DecidablePred starts] [DecidablePred ends] :
    DecidablePred (Since starts ends)
  | [] => isFalse not_since_nil
  | _ :: log =>
      have : Decidable (Since starts ends log) := decidableSince log
      decidable_of_iff _ since_cons.symm

/-- Events of no concern may be left out or put back. -/
theorem since_filter {keep : Event -> Bool} {log : List Event}
    (begins : forall event, starts event -> keep event = true)
    (finishes : forall event, ends event -> keep event = true) :
    Since starts ends (log.filter keep) ↔ Since starts ends log := by
  induction log with
  | nil => rfl
  | cons event log ih =>
      cases kept : keep event with
      | true =>
          rw [List.filter_cons_of_pos kept, since_cons, since_cons, ih]
      | false =>
          have start : ¬ starts event := by
            intro started
            rw [begins event started] at kept
            cases kept
          have finish : ¬ ends event := by
            intro ended
            rw [finishes event ended] at kept
            cases kept
          rw [List.filter_cons_of_neg (by simp [kept]), since_cons_of_neither start finish, ih]

/-- Every event stands in a relation to what came before it. -/
def Throughout (justified : Event -> List Event -> Prop) : List Event -> Prop
  | [] => True
  | event :: log => justified event log ∧ Throughout justified log

theorem Throughout.split {justified : Event -> List Event -> Prop} {log : List Event}
    (throughout : Throughout justified log) {later earlier : List Event} {event : Event}
    (parts : log = later ++ event :: earlier) : justified event earlier := by
  induction later generalizing log with
  | nil =>
      subst parts
      exact throughout.1
  | cons first rest ih =>
      subst parts
      exact ih throughout.2 rfl

end History

namespace Runs

universe u v

variable {State : Type u} {Operation : Type v} (step : State -> Operation -> State)

/-- Every operation of the run satisfies a condition in the state before it. -/
def Each (condition : State -> Operation -> Prop) : State -> List Operation -> Prop
  | _, [] => True
  | state, operation :: rest =>
      condition state operation ∧ Each condition (step state operation) rest

instance decidableEach (condition : State -> Operation -> Prop)
    [forall state, DecidablePred (condition state)] (state : State) :
    DecidablePred (Each step condition state)
  | [] => isTrue trivial
  | operation :: rest =>
      have : Decidable (Each step condition (step state operation) rest) :=
        decidableEach condition (step state operation) rest
      inferInstanceAs (Decidable (_ ∧ _))

variable {step}

/-- What every operation that satisfies the condition preserves, a run of such
operations preserves. -/
theorem invariant_each (holds : State -> Prop) {condition : State -> Operation -> Prop}
    (kept : forall state operation, condition state operation -> holds state ->
      holds (step state operation))
    {state : State} (initial : holds state) {operations : List Operation}
    (each : Each step condition state operations) : holds (run step state operations) := by
  induction operations generalizing state with
  | nil => exact initial
  | cons first rest ih => exact ih (kept state first each.1 initial) each.2

theorem each_append {condition : State -> Operation -> Prop} {state : State}
    {first second : List Operation} :
    Each step condition state (first ++ second) ↔
      Each step condition state first ∧ Each step condition (run step state first) second := by
  induction first generalizing state with
  | nil => exact ⟨fun later => ⟨trivial, later⟩, fun both => both.2⟩
  | cons operation rest ih =>
      constructor
      · rintro ⟨here, later⟩
        rcases ih.mp later with ⟨middle, last⟩
        exact ⟨⟨here, middle⟩, last⟩
      · rintro ⟨⟨here, middle⟩, last⟩
        exact ⟨here, ih.mpr ⟨middle, last⟩⟩

/-- A condition on the operations alone. -/
theorem each_of_forall {condition : Operation -> Prop} {operations : List Operation}
    (all : forall operation, operation ∈ operations -> condition operation) (state : State) :
    Each step (fun _ => condition) state operations := by
  induction operations generalizing state with
  | nil => trivial
  | cons first rest ih =>
      refine ⟨all first List.mem_cons_self, ?_⟩
      exact ih (fun operation member => all operation (List.mem_cons_of_mem first member)) _

end Runs
