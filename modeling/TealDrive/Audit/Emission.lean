import TealDrive.Audit.Rotation
import TealDrive.Library.Runs

namespace TealDrive

namespace Audit

open Runs

/-!
# What a run of emits keeps

Archives are numbered without a gap as long as no emit stops between its first
change of the directory and its last.  Then retention cuts files off the old
end and nothing else goes.  An emit that does stop there leaves its archives
where they were moved to, and the next one moves them again, until they are
out of the configured range although no line was written.
-/

/-- The names of the log itself. -/
def Name.OfLog : Name -> Prop
  | .live => True
  | .archive index => 0 < index

/-! ## The condition on one emit -/

/-- Retention does not remove an archive and leave an older one, and no call
fails after an archive has been renamed.

* The clock is not behind the last time a file was written.
* A pass that fails has reached everything older than what it removed.
* The archives move from the oldest to the newest.  Once one that is left by
  the pass has moved, the rest of the chain works, and so does the pass at
  the end.
* A log that cannot be replaced can be renamed back. -/
structure Careful (sink : Sink) (calls : Calls) : Prop where
  clock : forall name file, sink.files.find name = some file -> file.modified ≤ calls.now
  sweeps : sink.SweepsDown calls false
  shifts : forall index older file, 0 < index -> index < older ->
    sink.files.find (.archive older) = some file -> Unpruned sink calls older file ->
    calls.Shifts index
  ends : forall older file, 0 < older -> sink.files.find (.archive older) = some file ->
    Unpruned sink calls older file ->
    calls.fails .inspectFirst = false ∧ calls.fails .retire = false ∧ calls.fails .publish = false
  restores : calls.fails .publish = true -> calls.fails .restore = false
  finishes : calls.Finishes true

/-! ## One emit -/

/-- All that an emit can do to a log in order. -/
inductive Emission (sink : Sink) (stack : Stack) (calls : Calls) (line : Line) : Outcome -> Prop where
  | refused {after : Sink} {kept : List LogFile} {operation : Operation}
      (order : InOrder after ⟨stack.live, kept⟩) (config : after.config = sink.config)
      (trimmed : Trimmed sink.config calls.now stack.archives kept) :
      Emission sink stack calls line (after, .error operation)
  | appended {after : Sink} {kept : List LogFile}
      (order : InOrder after ⟨stack.live.append line calls.now, kept⟩)
      (config : after.config = sink.config)
      (trimmed : Trimmed sink.config calls.now stack.archives kept)
      (fits : stack.live.size = 0 ∨
        stack.live.size + (line.length + 1) ≤ sink.config.maxFileBytes) :
      Emission sink stack calls line (after, .ok ())
  | rotated {after : Sink} {kept : List LogFile}
      (order : InOrder after ⟨⟨[line], calls.now⟩, kept⟩) (config : after.config = sink.config)
      (trimmed : Trimmed sink.config calls.now (stack.live :: stack.archives) kept) :
      Emission sink stack calls line (after, .ok ())

theorem Shows.write {sink : Sink} {stack : Stack} (shows_ : Shows sink stack) (line : Line)
    (now : Nat) : Shows (sink.write line now) ⟨stack.live.append line now, stack.archives⟩ := by
  have wrote : sink.write line now =
      { sink with files := sink.files.modify .live (fun file => file.append line now) } := by
    unfold Sink.write
    rw [shows_.open_]
  rw [wrote]
  refine ⟨shows_.open_, ?_, ?_⟩
  · refine (Table.find_modify_self _).trans ?_
    rw [shows_.live]
    rfl
  · intro position
    exact (Table.find_modify_of_ne _ Name.noConfusion).trans (shows_.archives position)

theorem write_config (sink : Sink) (line : Line) (now : Nat) :
    (sink.write line now).config = sink.config ∧
      (sink.write line now).lastPrune = sink.lastPrune := by
  unfold Sink.write
  cases sink.file <;> exact ⟨rfl, rfl⟩

/-- A line written now comes after everything in the log. -/
theorem Stack.Ordered.touch {live other : LogFile} {archives : List LogFile}
    (ordered : Stack.Ordered ⟨live, archives⟩) (later : live.modified ≤ other.modified) :
    Stack.Ordered ⟨other, archives⟩ := by
  have pairs := List.pairwise_cons.mp ordered
  refine List.pairwise_cons.mpr ⟨?_, pairs.2⟩
  exact fun older member => Nat.le_trans (pairs.1 older member) later

/-- Emitting on a log in order. -/
theorem emit_emission {sink : Sink} {stack : Stack} {calls : Calls} (order : InOrder sink stack)
    (careful : Careful sink calls) (line : Line) :
    Emission sink stack calls line (sink.emit calls line) := by
  have clock : stack.live.modified ≤ calls.now := careful.clock .live _ order.shows_.live
  unfold Sink.emit
  cases render : calls.fails .render with
  | true =>
      rw [attempt_of_fails render]
      exact .refused order rfl (Trimmed.refl _ _ _)
  | false =>
  rw [attempt_of_works render]
  rcases prune_inOrder order careful.sweeps with ⟨kept, pruned, config, trimmed, complete⟩
  rcases pass : sink.prune calls false with ⟨swept, result⟩
  rw [pass] at pruned config complete
  cases result with
  | error operation =>
      rw [andThen_error]
      exact .refused pruned config trimmed
  | ok _ =>
  rw [andThen_ok]
  rcases complete rfl with ⟨small, remaining⟩
  cases measure : calls.fails .measure with
  | true =>
      rw [attempt_of_fails measure]
      exact .refused pruned config trimmed
  | false =>
  rw [attempt_of_works measure]
  have held : swept.heldSize = stack.live.size := by
    unfold Sink.heldSize
    rw [pruned.shows_.held]
    rfl
  cases full : swept.full line with
  | false =>
      rw [if_neg (by decide), andThen_ok]
      have same := write_config swept line calls.now
      refine .appended ⟨pruned.shows_.write line calls.now, pruned.ordered.touch clock, ?_⟩
        (same.1.trans config) trimmed ?_
      · rw [same.1, same.2]
        exact pruned.bounded
      · unfold Sink.full at full
        rw [held, config, Bool.and_eq_false_iff, decide_eq_false_iff_not, decide_eq_false_iff_not]
          at full
        omega
  | true =>
      rw [if_pos rfl]
      have unpruned : forall position : Nat, position < kept.length ->
          ∃ file, sink.files.find (.archive (position + 1)) = some file ∧
            Unpruned sink calls (position + 1) file := by
        intro position inside
        rcases remaining position _ (List.getElem?_eq_getElem inside) with ⟨found, stays⟩
        exact ⟨_, (order.shows_.archives position).trans found, stays⟩
      have rotates : calls.Rotates kept.length := by
        refine ⟨?_, ?_, careful.restores, careful.finishes⟩
        · intro index positive below
          rcases unpruned index below with ⟨file, found, stays⟩
          exact careful.shifts index (index + 1) file positive (Nat.lt_succ_self index) found stays
        · intro some_
          rcases unpruned 0 some_ with ⟨file, found, stays⟩
          exact careful.ends 1 file Nat.one_pos found stays
      rw [← config] at small
      rcases rotate_spec pruned.shows_ pruned.ordered small clock rotates with
        ⟨after, operation, failed, back, sameConfig, samePrune⟩ |
        ⟨after, final, done, turned, sameConfig, ordered, cut, few⟩
      · rw [failed, andThen_error]
        refine .refused ⟨back, pruned.ordered, ?_⟩ (sameConfig.trans config) trimmed
        rw [sameConfig, samePrune]
        exact pruned.bounded
      · rw [done, andThen_ok]
        have same := write_config after line calls.now
        rw [config] at sameConfig cut few
        refine .rotated ⟨turned.write line calls.now, ordered.touch (Nat.le_refl _), ?_⟩
          (same.1.trans sameConfig) (trimmed.rotated order.ordered cut)
        intro _
        rw [same.1, sameConfig]
        exact few

/-! ## What one emit keeps -/

theorem size_append (file : LogFile) (line : Line) (now : Nat) :
    (file.append line now).size = file.size + (line.length + 1) := by
  unfold LogFile.size LogFile.append
  rw [List.map_append, List.sum_append]
  rfl

theorem lines_of_size {file : LogFile} (empty : file.size = 0) : file.lines = [] := by
  unfold LogFile.size at empty
  cases lines : file.lines with
  | nil => rfl
  | cons line rest =>
      rw [lines, List.map_cons, List.sum_cons] at empty
      omega

theorem Shows.length_indices {sink : Sink} {stack : Stack} (shows_ : Shows sink stack) :
    sink.indices.length = stack.archives.length := by
  have numbers : sink.indices.Perm (List.range' 1 stack.archives.length) := by
    refine (List.perm_ext_iff_of_nodup (nodup_indices sink) List.nodup_range').mpr ?_
    intro index
    rw [shows_.mem_indices, List.mem_range'_1]
    omega
  rw [numbers.length_eq, List.length_range']

theorem Shows.mem_iff {sink : Sink} {stack : Stack} (shows_ : Shows sink stack) {file : LogFile} :
    (∃ name, name.OfLog ∧ sink.files.find name = some file) ↔
      file ∈ stack.live :: stack.archives := by
  constructor
  · rintro ⟨name, ofLog, found⟩
    cases name with
    | live =>
        rw [shows_.live] at found
        cases found
        exact List.mem_cons_self
    | archive index =>
        cases index with
        | zero => exact absurd ofLog (Nat.lt_irrefl 0)
        | succ position =>
            rw [shows_.archives] at found
            exact List.mem_cons_of_mem _ (List.mem_of_getElem? found)
  · intro member
    rcases List.mem_cons.mp member with here | there
    · rw [here]
      exact ⟨.live, trivial, shows_.live⟩
    · rcases List.mem_iff_getElem?.mp there with ⟨position, found⟩
      exact ⟨.archive (position + 1), Nat.succ_pos position, (shows_.archives position).trans found⟩

/-- Why a file may go: enough archives stay, which are all newer, or it is
older than the configured retention. -/
def Retired (before : Sink) (calls : Calls) (after : Sink) (file : LogFile) : Prop :=
  before.config.maxArchives ≤ after.indices.length ∨ expired before.config calls.now file = true

/-- The line of an emit, if it was written. -/
def Outcome.written (outcome : Outcome) (line : Line) : List Line :=
  match outcome.2 with
  | .ok () => [line]
  | .error _ => []

/-- What an emit owes to the log.

* Reading gives what was there and the new line, in order, except for whole
  files at the old end that retention let go.
* An emit that fails leaves every file under its name, except for those.
* The file that was written fits, or holds this line alone. -/
structure Keeps (before : Sink) (calls : Calls) (line : Line) : Prop where
  lines : ∃ gone : List LogFile,
    before.reading ++ (before.emit calls line).written line =
      gone.flatMap LogFile.lines ++ (before.emit calls line).1.reading ∧
    forall file, file ∈ gone -> (∃ name, Name.OfLog name ∧ before.files.find name = some file) ∧
      Retired before calls (before.emit calls line).1 file
  refused : forall operation, (before.emit calls line).2 = .error operation ->
    forall name, Name.OfLog name ->
      (before.emit calls line).1.files.find name = before.files.find name ∨
      (before.emit calls line).1.files.find name = none ∧
        ∃ file, before.files.find name = some file ∧
          Retired before calls (before.emit calls line).1 file
  fits : (before.emit calls line).2 = .ok () ->
    ∃ file, (before.emit calls line).1.files.find .live = some file ∧
      (file.size ≤ before.config.maxFileBytes ∨ file.lines = [line])

theorem reading_of_split {live : LogFile} {archives kept gone : List LogFile}
    (split : archives = kept ++ gone) :
    Stack.reading ⟨live, archives⟩ =
      gone.reverse.flatMap LogFile.lines ++ Stack.reading ⟨live, kept⟩ := by
  unfold Stack.reading
  rw [split, List.reverse_append, List.flatMap_append, List.append_assoc]

theorem reading_append (live : LogFile) (archives : List LogFile) (line : Line) (now : Nat) :
    Stack.reading ⟨live.append line now, archives⟩ = Stack.reading ⟨live, archives⟩ ++ [line] := by
  unfold Stack.reading LogFile.append
  rw [List.append_assoc]

theorem reading_push (stack : Stack) (line : Line) (now : Nat) :
    Stack.reading ⟨⟨[line], now⟩, stack.live :: stack.archives⟩ = stack.reading ++ [line] := by
  unfold Stack.reading
  rw [List.reverse_cons, List.flatMap_append]
  simp

section Kept

variable {sink after : Sink} {stack : Stack} {calls : Calls} {line : Line} {kept : List LogFile}

theorem InOrder.retired {before : List LogFile} {live : LogFile}
    (order : InOrder after ⟨live, kept⟩) (trimmed : Trimmed sink.config calls.now before kept) :
    ∃ gone, before = kept ++ gone ∧ forall file, file ∈ gone -> Retired sink calls after file := by
  rcases trimmed with ⟨gone, split, why⟩
  refine ⟨gone, split, fun file member => ?_⟩
  rcases why file member with old | enough
  · exact Or.inr old
  · left
    rw [order.shows_.length_indices]
    exact enough

/-- The accounting of an emit, from the stacks before and after it. -/
theorem lines_of_stacks (order : InOrder sink stack) {other : LogFile}
    (final : InOrder after ⟨other, kept⟩) {before : List LogFile} {new : List Line}
    (trimmed : Trimmed sink.config calls.now before kept)
    (read : stack.reading ++ new = Stack.reading ⟨other, before⟩)
    (part : forall file, file ∈ before -> file ∈ stack.live :: stack.archives) :
    ∃ gone : List LogFile,
      sink.reading ++ new = gone.flatMap LogFile.lines ++ after.reading ∧
      forall file, file ∈ gone -> (∃ name, Name.OfLog name ∧ sink.files.find name = some file) ∧
        Retired sink calls after file := by
  rcases final.retired trimmed with ⟨gone, split, why⟩
  refine ⟨gone.reverse, ?_, ?_⟩
  · rw [order.shows_.reading, final.shows_.reading, read]
    exact reading_of_split split
  · intro file member
    rw [List.mem_reverse] at member
    refine ⟨order.shows_.mem_iff.mpr (part file ?_), why file member⟩
    rw [split]
    exact List.mem_append_right kept member

theorem refused_of_stacks (order : InOrder sink stack) (final : InOrder after ⟨stack.live, kept⟩)
    (trimmed : Trimmed sink.config calls.now stack.archives kept) {name : Name}
    (ofLog : name.OfLog) :
    after.files.find name = sink.files.find name ∨
    after.files.find name = none ∧
      ∃ file, sink.files.find name = some file ∧ Retired sink calls after file := by
  rcases final.retired trimmed with ⟨gone, split, why⟩
  cases name with
  | live => exact Or.inl (final.shows_.live.trans order.shows_.live.symm)
  | archive index =>
      cases index with
      | zero => exact absurd ofLog (Nat.lt_irrefl 0)
      | succ position =>
          rw [final.shows_.archives, order.shows_.archives, split]
          rcases Nat.lt_or_ge position kept.length with few | beyond
          · exact Or.inl (List.getElem?_append_left few).symm
          · rw [List.getElem?_eq_none beyond, List.getElem?_append_right beyond]
            cases found : gone[position - kept.length]? with
            | none => exact Or.inl rfl
            | some file => exact Or.inr ⟨rfl, file, rfl, why file (List.mem_of_getElem? found)⟩

end Kept

/-- A careful emit on a log in order. -/
theorem emit_keeps {sink : Sink} {stack : Stack} {calls : Calls} {line : Line}
    (order : InOrder sink stack) {outcome : Outcome}
    (emission : Emission sink stack calls line outcome) (ran : sink.emit calls line = outcome) :
    Keeps sink calls line := by
  cases emission with
  | refused final config trimmed =>
      refine ⟨?_, ?_, ?_⟩
      · rw [ran]
        refine lines_of_stacks order final trimmed (List.append_nil _) ?_
        exact fun file member => List.mem_cons_of_mem _ member
      · intro operation failed name ofLog
        rw [ran]
        exact refused_of_stacks order final trimmed ofLog
      · intro done
        rw [ran] at done
        cases done
  | appended final config trimmed fits =>
      refine ⟨?_, ?_, ?_⟩
      · rw [ran]
        refine lines_of_stacks order final trimmed (reading_append _ _ line calls.now).symm ?_
        exact fun file member => List.mem_cons_of_mem _ member
      · intro operation failed
        rw [ran] at failed
        cases failed
      · intro _
        rw [ran]
        refine ⟨_, final.shows_.live, ?_⟩
        rcases fits with empty | small
        · right
          unfold LogFile.append
          rw [lines_of_size empty]
          rfl
        · left
          rw [size_append]
          exact small
  | rotated final config trimmed =>
      refine ⟨?_, ?_, ?_⟩
      · rw [ran]
        refine lines_of_stacks order final trimmed (reading_push stack line calls.now).symm ?_
        exact fun file member => member
      · intro operation failed
        rw [ran] at failed
        cases failed
      · intro _
        rw [ran]
        exact ⟨_, final.shows_.live, Or.inr rfl⟩

/-! ## Runs -/

inductive Event where
  | emit (calls : Calls) (line : Line)
  | apply (config : AuditConfig)

def Sink.step (sink : Sink) : Event -> Sink
  | .emit calls line => (sink.emit calls line).1
  | .apply config => sink.apply config

/-- The lines whose emits succeeded. -/
def emitted : Sink -> List Event -> List Line
  | _, [] => []
  | sink, .emit calls line :: rest =>
      (sink.emit calls line).written line ++ emitted (sink.step (.emit calls line)) rest
  | sink, .apply config :: rest => emitted (sink.step (.apply config)) rest

def Sink.Orderly (sink : Sink) : Prop := ∃ stack, InOrder sink stack

/-- Every emit of the run meets the condition in the state it starts from. -/
def CarefulRun (start : Sink) (events : List Event) : Prop :=
  forall earlier calls line later, events = earlier ++ .emit calls line :: later ->
    Careful (run Sink.step start earlier) calls

/-- No file of the log is larger than the bound, unless it is one line. -/
def Sink.Within (sink : Sink) (bound : Nat) : Prop :=
  forall name file, Name.OfLog name -> sink.files.find name = some file ->
    file.size ≤ bound ∨ file.lines.length ≤ 1

theorem CarefulRun.head {start : Sink} {calls : Calls} {line : Line} {rest : List Event}
    (careful : CarefulRun start (.emit calls line :: rest)) : Careful start calls :=
  careful [] calls line rest rfl

theorem CarefulRun.tail {start : Sink} {first : Event} {rest : List Event}
    (careful : CarefulRun start (first :: rest)) : CarefulRun (start.step first) rest := by
  intro earlier calls line later split
  apply careful (first :: earlier) calls line later
  rw [split]
  rfl

theorem Emission.orderly {sink : Sink} {stack : Stack} {calls : Calls} {line : Line}
    {outcome : Outcome} (emission : Emission sink stack calls line outcome) :
    outcome.1.Orderly := by
  cases emission with
  | refused order => exact ⟨_, order⟩
  | appended order => exact ⟨_, order⟩
  | rotated order => exact ⟨_, order⟩

theorem InOrder.apply {sink : Sink} {stack : Stack} (order : InOrder sink stack)
    (config : AuditConfig) : InOrder (sink.apply config) stack :=
  ⟨⟨order.shows_.open_, order.shows_.live, order.shows_.archives⟩, order.ordered,
    fun complete => nomatch complete⟩

/-- The log stays in order along a careful run. -/
theorem orderly_run {start : Sink} {events : List Event} (orderly : start.Orderly)
    (careful : CarefulRun start events) : (run Sink.step start events).Orderly := by
  induction events generalizing start with
  | nil => exact orderly
  | cons first rest ih =>
      rcases orderly with ⟨stack, order⟩
      refine ih ?_ careful.tail
      cases first with
      | emit calls line => exact (emit_emission order careful.head line).orderly
      | apply config => exact ⟨stack, order.apply config⟩

theorem CarefulRun.earlier {start : Sink} {earlier later : List Event}
    (careful : CarefulRun start (earlier ++ later)) : CarefulRun start earlier := by
  intro before calls line after split
  apply careful before calls line (after ++ later)
  rw [split, List.append_assoc]
  rfl

/-- Reading at the end of a run gives the lines of the start and of the run,
less what was dropped at the old end. -/
theorem reading_run {start : Sink} {events : List Event} (orderly : start.Orderly)
    (careful : CarefulRun start events) :
    ∃ dropped : List LogFile, start.reading ++ emitted start events =
      dropped.flatMap LogFile.lines ++ (run Sink.step start events).reading := by
  induction events generalizing start with
  | nil => exact ⟨[], List.append_nil _⟩
  | cons first rest ih =>
      rcases orderly with ⟨stack, order⟩
      cases first with
      | emit calls line =>
          have emission := emit_emission order careful.head line
          rcases (emit_keeps order emission rfl).lines with ⟨gone, split, _⟩
          rcases ih emission.orderly careful.tail with ⟨dropped, later⟩
          refine ⟨gone ++ dropped, ?_⟩
          calc
            start.reading ++ emitted start (.emit calls line :: rest) =
                (start.reading ++ (start.emit calls line).written line) ++
                  emitted (start.emit calls line).1 rest := (List.append_assoc _ _ _).symm
            _ = gone.flatMap LogFile.lines ++
                  ((start.emit calls line).1.reading ++ emitted (start.emit calls line).1 rest) := by
                rw [split, List.append_assoc]
            _ = _ := by
                rw [later, List.flatMap_append, List.append_assoc]
                rfl
      | apply config =>
          rcases ih ⟨stack, order.apply config⟩ careful.tail with ⟨dropped, later⟩
          refine ⟨dropped, ?_⟩
          rw [order.shows_.reading, ← (order.apply config).shows_.reading]
          exact later

/-! ## The size of files -/

theorem Shows.within_iff {sink : Sink} {stack : Stack} (shows_ : Shows sink stack) {bound : Nat} :
    sink.Within bound ↔ forall file, file ∈ stack.live :: stack.archives ->
      file.size ≤ bound ∨ file.lines.length ≤ 1 := by
  constructor
  · intro within file member
    rcases shows_.mem_iff.mpr member with ⟨name, ofLog, found⟩
    exact within name file ofLog found
  · intro small name file ofLog found
    exact small file (shows_.mem_iff.mp ⟨name, ofLog, found⟩)

theorem Trimmed.subset {config : AuditConfig} {now : Nat} {before after : List LogFile}
    (trimmed : Trimmed config now before after) {file : LogFile} (member : file ∈ after) :
    file ∈ before := by
  rcases trimmed with ⟨gone, split, _⟩
  rw [split]
  exact List.mem_append_left gone member

theorem emit_within {sink : Sink} {stack : Stack} {calls : Calls} {line : Line} {bound : Nat}
    {outcome : Outcome} (order : InOrder sink stack)
    (emission : Emission sink stack calls line outcome) (within : sink.Within bound)
    (allowed : sink.config.maxFileBytes ≤ bound) :
    outcome.1.Within bound ∧ outcome.1.config = sink.config := by
  have small := order.shows_.within_iff.mp within
  cases emission with
  | refused final config trimmed =>
      refine ⟨final.shows_.within_iff.mpr fun file member => small file ?_, config⟩
      rcases List.mem_cons.mp member with here | there
      · rw [here]
        exact List.mem_cons_self
      · exact List.mem_cons_of_mem _ (trimmed.subset there)
  | appended final config trimmed fits =>
      refine ⟨final.shows_.within_iff.mpr fun file member => ?_, config⟩
      rcases List.mem_cons.mp member with here | there
      · rw [here]
        rcases fits with empty | fits
        · right
          unfold LogFile.append
          rw [lines_of_size empty]
          exact Nat.le_refl 1
        · left
          rw [size_append]
          exact Nat.le_trans fits allowed
      · exact small file (List.mem_cons_of_mem _ (trimmed.subset there))
  | rotated final config trimmed =>
      refine ⟨final.shows_.within_iff.mpr fun file member => ?_, config⟩
      rcases List.mem_cons.mp member with here | there
      · rw [here]
        exact Or.inr (Nat.le_refl 1)
      · exact small file (trimmed.subset there)

theorem within_run {start : Sink} {events : List Event} {bound : Nat} (orderly : start.Orderly)
    (careful : CarefulRun start events) (within : start.Within bound)
    (allowed : start.config.maxFileBytes ≤ bound)
    (applied : forall config, Event.apply config ∈ events -> config.maxFileBytes ≤ bound) :
    (run Sink.step start events).Within bound := by
  induction events generalizing start with
  | nil => exact within
  | cons first rest ih =>
      rcases orderly with ⟨stack, order⟩
      have later : forall config, Event.apply config ∈ rest -> config.maxFileBytes ≤ bound :=
        fun config member => applied config (List.mem_cons_of_mem first member)
      cases first with
      | emit calls line =>
          have emission := emit_emission order careful.head line
          rcases emit_within order emission within allowed with ⟨small, same⟩
          refine ih emission.orderly careful.tail small ?_ later
          change (start.emit calls line).1.config.maxFileBytes ≤ bound
          rw [same]
          exact allowed
      | apply config =>
          exact ih ⟨stack, order.apply config⟩ careful.tail within
            (applied config List.mem_cons_self) later

/-! ## The log over a run -/

/-- A new log. -/
theorem opened_inOrder (config : AuditConfig) (now : Nat) :
    InOrder (Sink.opened config now) ⟨⟨[], now⟩, []⟩ := by
  refine ⟨⟨rfl, Table.find_insert_self _ _ _, fun position => ?_⟩, List.pairwise_singleton _ _,
    fun complete => nomatch complete⟩
  exact Table.find_insert_of_ne _ Name.noConfusion

/-- Starting from a log in order, every emit of a careful run keeps the log,
reading gives all lines in order without duplicates down to a point at the old
end, and no file outgrows the bounds configured along the run. -/
theorem audit_lines_kept {start : Sink} {events : List Event} (orderly : start.Orderly)
    (careful : CarefulRun start events) :
    (forall earlier calls line later, events = earlier ++ .emit calls line :: later ->
      Keeps (run Sink.step start earlier) calls line) ∧
    (∃ dropped : List LogFile, start.reading ++ emitted start events =
      dropped.flatMap LogFile.lines ++ (run Sink.step start events).reading) ∧
    (forall bound, start.Within bound -> start.config.maxFileBytes ≤ bound ->
      (forall config, Event.apply config ∈ events -> config.maxFileBytes ≤ bound) ->
      (run Sink.step start events).Within bound) := by
  refine ⟨?_, reading_run orderly careful, fun bound => within_run orderly careful⟩
  intro earlier calls line later split
  have before : CarefulRun start earlier := by
    rw [split] at careful
    exact careful.earlier
  rcases orderly_run orderly before with ⟨stack, order⟩
  have here := careful earlier calls line later split
  exact emit_keeps order (emit_emission order here line) rfl

/-- An emit is careful when nothing fails and the clock has not gone back. -/
theorem careful_of_works {sink : Sink} {calls : Calls}
    (works : forall operation, calls.fails operation = false)
    (clock : forall row, row ∈ sink.files.rows -> row.2.modified ≤ calls.now) :
    Careful sink calls where
  clock name file found := clock (name, file) (Table.find_eq_some_iff.mp found)
  sweeps := Calls.Finishes.sweepsDown ⟨works _, fun _ => works _, fun _ => works _,
    fun _ => works _, works _⟩ sink
  shifts _ _ _ _ _ _ _ := ⟨works _, works _, works _⟩
  ends _ _ _ _ _ := ⟨works _, works _, works _⟩
  restores fails := absurd fails (by rw [works]; decide)
  finishes := ⟨works _, fun _ => works _, fun _ => works _, fun _ => works _, works _⟩

def smallLog : AuditConfig := ⟨none, none, 1024, 2, none⟩

def longLine (byte : UInt8) : Line := List.replicate 1000 byte

/-- All clocks at 0, and the directory listed as it is stored. -/
def callsThat (fails : Operation -> Bool) : Calls :=
  ⟨0, 0, id, fun _ => List.Perm.refl _, fails⟩

def emitLong (byte : UInt8) : Event := .emit (callsThat fun _ => false) (longLine byte)

/-- The log with its two archives full. -/
def fullLog : Sink :=
  run Sink.step (Sink.opened smallLog 0) [emitLong 1, emitLong 2, emitLong 3]

theorem full_log_kept :
    ∃ dropped : List LogFile, (Sink.opened smallLog 0).reading ++
        emitted (Sink.opened smallLog 0) [emitLong 1, emitLong 2, emitLong 3] =
      dropped.flatMap LogFile.lines ++ fullLog.reading := by
  refine (audit_lines_kept ⟨_, opened_inOrder smallLog 0⟩ ?_).2.1
  intro earlier calls line later split
  have clocks : forall count, count < 3 -> forall row,
      row ∈ (run Sink.step (Sink.opened smallLog 0)
        ([emitLong 1, emitLong 2, emitLong 3].take count)).files.rows -> row.2.modified ≤ 0 := by
    decide +kernel
  have member : Event.emit calls line ∈ [emitLong 1, emitLong 2, emitLong 3] := by
    rw [split]
    exact List.mem_append_right earlier List.mem_cons_self
  have same : calls = callsThat (fun _ => false) := by
    simp only [emitLong, List.mem_cons, Event.emit.injEq, List.not_mem_nil, or_false] at member
    rcases member with first | second | third
    · exact first.1
    · exact second.1
    · exact third.1
  have front : [emitLong 1, emitLong 2, emitLong 3].take earlier.length = earlier := by
    rw [split, List.take_left]
  have lengths : 3 = earlier.length + (later.length + 1) := by
    rw [← List.length_cons, ← List.length_append, ← split]
    rfl
  rw [same]
  apply careful_of_works (fun _ => rfl)
  have small := clocks earlier.length (by omega)
  rw [front] at small
  exact small

/-- The log has not been renamed when the chain ends, but its archives have. -/
def interrupted : Calls := callsThat (fun operation => operation == .retire)

def movedLog : Sink := fullLog.step (.emit interrupted (longLine 4))

/-- An emit fails after the archives have moved up, and so does the next one:
it removes the oldest archive, which no retention lets go. -/
theorem interrupted_emits_lose_an_archive :
    (fullLog.emit interrupted (longLine 4)).2 = .error .retire ∧
      ¬ Keeps fullLog interrupted (longLine 4) ∧
      (movedLog.emit interrupted (longLine 4)).2 = .error .retire ∧
      movedLog.reading = [longLine 1, longLine 2, longLine 3] ∧
      (movedLog.emit interrupted (longLine 4)).1.reading = [longLine 2, longLine 3] ∧
      ¬ Keeps movedLog interrupted (longLine 4) := by
  have failed : (fullLog.emit interrupted (longLine 4)).2 = .error .retire := by decide +kernel
  have again : (movedLog.emit interrupted (longLine 4)).2 = .error .retire := by decide +kernel
  have before : movedLog.reading = [longLine 1, longLine 2, longLine 3] := by decide +kernel
  have after : (movedLog.emit interrupted (longLine 4)).1.reading = [longLine 2, longLine 3] := by
    decide +kernel
  refine ⟨failed, ?_, again, before, after, ?_⟩
  · intro keeps
    have stood : fullLog.files.find (.archive 2) = some ⟨[longLine 1], 0⟩ := by decide +kernel
    have moved : (fullLog.emit interrupted (longLine 4)).1.files.find (.archive 2) =
        some ⟨[longLine 2], 0⟩ := by
      decide +kernel
    rcases keeps.refused _ failed (.archive 2) Nat.two_pos with same | gone
    · rw [moved, stood] at same
      revert same
      decide
    · rw [moved] at gone
      exact nomatch gone.1
  · intro keeps
    have silent : (movedLog.emit interrupted (longLine 4)).written (longLine 4) = [] := by
      decide +kernel
    have few : (movedLog.emit interrupted (longLine 4)).1.indices.length = 1 := by decide +kernel
    rcases keeps.lines with ⟨gone, split, why⟩
    have lost : gone.flatMap LogFile.lines = [longLine 1] := by
      rw [before, silent, after] at split
      have sides : [longLine 1] ++ [longLine 2, longLine 3] =
          gone.flatMap LogFile.lines ++ [longLine 2, longLine 3] := split
      exact (List.append_cancel_right sides).symm
    have member : longLine 1 ∈ gone.flatMap LogFile.lines := by
      rw [lost]
      exact List.mem_cons_self
    rcases List.mem_flatMap.mp member with ⟨file, among, _⟩
    rcases (why file among).2 with enough | old
    · rw [few] at enough
      revert enough
      decide +kernel
    · have young : expired movedLog.config interrupted.now file = false := by
        have endless : movedLog.config.effectiveRetentionHours = none := by decide +kernel
        unfold expired
        rw [endless]
        rfl
      rw [young] at old
      cases old

end Audit

end TealDrive
