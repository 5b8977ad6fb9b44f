import TealDrive.Audit.Pruning

namespace TealDrive

namespace Audit

/-!
# Rotation of a log in order

The archives move up one by one from the bottom, so that a hole travels from
below the stack to index 1, where the log goes.  Before the first archive has
moved a failure leaves everything in place.  After that the chain has to reach
its end.
-/

/-! ## Renames -/

theorem rename_works {sink : Sink} {calls : Calls} {operation : Operation} {source target : Name}
    {file : LogFile} (works : calls.fails operation = false)
    (found : sink.files.find source = some file) :
    sink.rename calls operation source target =
      ({ sink with
          files := (sink.files.erase source).insert target file
          file := sink.file.renamed source target (sink.files.find target) }, .ok ()) := by
  unfold Sink.rename
  rw [attempt_of_works works, found]

theorem rename_fails {sink : Sink} {calls : Calls} {operation : Operation} {source target : Name}
    (fails : calls.fails operation = true) :
    sink.rename calls operation source target = (sink, .error operation) := by
  unfold Sink.rename
  rw [attempt_of_fails fails]

theorem archive_ne {first second : Nat} (different : first ≠ second) :
    Name.archive first ≠ Name.archive second :=
  fun same => different (Name.archive.inj same)

theorem find_renamed {files : Table Name LogFile} {source target other : Name} {file : LogFile}
    (notTarget : other ≠ target) :
    ((files.erase source).insert target file).find other =
      if other = source then none else files.find other := by
  rw [Table.find_insert_of_ne file notTarget]
  by_cases same : other = source
  · rw [if_pos same, same]
    exact Table.find_erase_self files source
  · rw [if_neg same]
    exact Table.find_erase_of_ne same

/-! ## The chain -/

/-- The stack with its archives from a position on moved down by one, so that
the place at that position is free. -/
structure Opened (sink : Sink) (stack : Stack) (hole : Nat) : Prop where
  open_ : sink.file = .named .live
  live : sink.files.find .live = some stack.live
  above : forall position, position < hole ->
    sink.files.find (.archive (position + 1)) = stack.archives[position]?
  free : sink.files.find (.archive (hole + 1)) = none
  below : forall position, hole ≤ position ->
    sink.files.find (.archive (position + 2)) = stack.archives[position]?

theorem Shows.opened {sink : Sink} {stack : Stack} (shows_ : Shows sink stack) {hole : Nat}
    (under : stack.archives.length ≤ hole) : Opened sink stack hole := by
  refine ⟨shows_.open_, shows_.live, fun position _ => shows_.archives position, ?_, ?_⟩
  · rw [shows_.archives]
    exact List.getElem?_eq_none under
  · intro position beyond
    rw [shows_.archives, List.getElem?_eq_none (by omega), List.getElem?_eq_none (by omega)]

/-- One step of the chain: the archive above the hole moves into it. -/
theorem Opened.shift {sink : Sink} {stack : Stack} {hole : Nat} {file : LogFile} {calls : Calls}
    (opened : Opened sink stack (hole + 1)) (found : stack.archives[hole]? = some file)
    (works : calls.fails (.shift (hole + 1)) = false) :
    ∃ after, sink.rename calls (.shift (hole + 1)) (.archive (hole + 1)) (.archive (hole + 2)) =
        (after, .ok ()) ∧
      Opened after stack hole ∧ after.config = sink.config ∧ after.lastPrune = sink.lastPrune := by
  have there := (opened.above hole (Nat.lt_succ_self hole)).trans found
  refine ⟨_, rename_works works there, ⟨?_, ?_, ?_, ?_, ?_⟩, rfl, rfl⟩
  · change sink.file.renamed _ _ _ = _
    rw [opened.open_]
    rfl
  · refine (find_renamed Name.noConfusion).trans ?_
    rw [if_neg Name.noConfusion]
    exact opened.live
  · intro position low
    refine (find_renamed (archive_ne (by omega))).trans ?_
    rw [if_neg (archive_ne (by omega))]
    exact opened.above position (Nat.lt_succ_of_lt low)
  · refine (find_renamed (archive_ne (by omega))).trans ?_
    exact if_pos rfl
  · intro position high
    rcases Nat.lt_or_eq_of_le high with strictly | same
    · refine (find_renamed (archive_ne (by omega))).trans ?_
      rw [if_neg (archive_ne (by omega))]
      exact opened.below position strictly
    · rw [← same, found]
      exact Table.find_insert_self _ _ _

/-- The calls of the chain for one index all work. -/
def Calls.Shifts (calls : Calls) (index : Nat) : Prop :=
  calls.fails (.inspectSource index) = false ∧ calls.fails (.inspectTarget index) = false ∧
    calls.fails (.shift index) = false

/-- The chain from a hole upwards, when none of its calls fails. -/
theorem shiftArchives_runs {sink : Sink} {stack : Stack} {calls : Calls} {hole : Nat}
    (opened : Opened sink stack hole) (inside : hole ≤ stack.archives.length)
    (works : forall index, 0 < index -> index ≤ hole -> calls.Shifts index) :
    ∃ after, Sink.shiftArchives calls hole sink = (after, .ok ()) ∧ Opened after stack 0 ∧
      after.config = sink.config ∧ after.lastPrune = sink.lastPrune := by
  induction hole generalizing sink with
  | zero => exact ⟨sink, rfl, opened, rfl, rfl⟩
  | succ hole ih =>
      rcases works (hole + 1) (Nat.succ_pos hole) (Nat.le_refl _) with ⟨source, target, rename⟩
      have found := List.getElem?_eq_getElem inside
      have there := (opened.above hole (Nat.lt_succ_self hole)).trans found
      rcases opened.shift found rename with ⟨middle, moved, next, config, prune⟩
      rcases ih next (Nat.le_of_lt inside)
          (fun index positive low => works index positive (Nat.le_succ_of_le low)) with
        ⟨after, ran, done, sameConfig, samePrune⟩
      refine ⟨after, ?_, done, sameConfig.trans config, samePrune.trans prune⟩
      unfold Sink.shiftArchives
      rw [attempt_of_works source, there]
      simp only
      rw [attempt_of_works target, moved, andThen_ok]
      exact ran

/-- The chain from below the stack: a failure before the first archive moves
changes nothing, and from there the chain runs to its end. -/
theorem shiftArchives_spec {sink : Sink} {stack : Stack} {calls : Calls} {top : Nat}
    (shows_ : Shows sink stack) (under : stack.archives.length ≤ top)
    (works : forall index, 0 < index -> index < stack.archives.length -> calls.Shifts index) :
    (∃ operation, Sink.shiftArchives calls top sink = (sink, .error operation)) ∨
    ∃ after, Sink.shiftArchives calls top sink = (after, .ok ()) ∧ Opened after stack 0 ∧
      after.config = sink.config ∧ after.lastPrune = sink.lastPrune := by
  induction top with
  | zero => exact Or.inr ⟨sink, rfl, shows_.opened under, rfl, rfl⟩
  | succ top ih =>
      unfold Sink.shiftArchives
      cases source : calls.fails (.inspectSource (top + 1)) with
      | true => exact Or.inl ⟨_, attempt_of_fails source⟩
      | false =>
      rw [attempt_of_works source]
      rcases Nat.lt_or_eq_of_le under with strictly | last
      · have absent : sink.files.find (.archive (top + 1)) = none := by
          rw [shows_.archives]
          exact List.getElem?_eq_none (Nat.le_of_lt_succ strictly)
        rw [absent]
        exact ih (Nat.le_of_lt_succ strictly)
      · have found := List.getElem?_eq_getElem (by omega : top < stack.archives.length)
        have there := (shows_.archives top).trans found
        rw [there]
        simp only
        cases target : calls.fails (.inspectTarget (top + 1)) with
        | true => exact Or.inl ⟨_, attempt_of_fails target⟩
        | false =>
        rw [attempt_of_works target]
        cases rename : calls.fails (.shift (top + 1)) with
        | true =>
            rw [rename_fails rename, andThen_error]
            exact Or.inl ⟨_, rfl⟩
        | false =>
            rcases (shows_.opened under).shift found rename with ⟨middle, moved, next, config, prune⟩
            rw [moved, andThen_ok]
            rcases shiftArchives_runs next (by omega)
                (fun index positive low => works index positive (by omega)) with
              ⟨after, ran, done, sameConfig, samePrune⟩
            exact Or.inr ⟨after, ran, done, sameConfig.trans config, samePrune.trans prune⟩

/-! ## The pass at the end -/

/-- None of the calls of a pass fails. -/
structure Calls.Finishes (calls : Calls) (force : Bool) : Prop where
  readDir : calls.fails (.readDir force) = false
  entry : forall index, calls.fails (.entry force index) = false
  metadata : forall index, calls.fails (.metadata force index) = false
  remove : forall index, calls.fails (.remove force index) = false
  endOfDir : calls.fails (.endOfDir force) = false

theorem Calls.Finishes.scan {calls : Calls} {force : Bool} (finishes : calls.Finishes force)
    (sink : Sink) {listing : List Nat} (once : listing.Nodup)
    (present : forall index, index ∈ listing ->
      ∃ file, sink.files.find (.archive index) = some file) :
    (Sink.scan calls force listing sink).2 = .ok () ∧ sink.visits calls force listing = listing := by
  induction listing generalizing sink with
  | nil =>
      unfold Sink.scan
      rw [attempt_of_works finishes.endOfDir]
      exact ⟨rfl, rfl⟩
  | cons index rest ih =>
      rw [List.nodup_cons] at once
      rcases present index List.mem_cons_self with ⟨file, found⟩
      have later : forall other, other ∈ rest ->
          ∃ file, sink.files.find (.archive other) = some file :=
        fun other member => present other (List.mem_cons_of_mem index member)
      unfold Sink.scan Sink.visits
      rw [attempt_of_works (finishes.entry index), attempt_of_works (finishes.metadata index),
        finishes.entry, finishes.metadata, finishes.remove, found]
      simp only [Bool.or_self, Bool.false_eq_true, if_false, Bool.and_false]
      cases old : due sink.config calls.now index file with
      | false =>
          rw [if_neg (by decide)]
          have kept := ih sink once.2 later
          exact ⟨kept.1, by rw [kept.2]⟩
      | true =>
          rw [if_pos rfl, attempt_of_works (finishes.remove index)]
          have still : forall other, other ∈ rest ->
              ∃ file, (sink.unlink index file).files.find (.archive other) = some file := by
            intro other member
            rcases later other member with ⟨value, there⟩
            refine ⟨value, (Table.find_erase_of_ne (archive_ne ?_)).trans there⟩
            intro same
            rw [same] at member
            exact once.1 member
          have removed := ih (sink.unlink index file) once.2 still
          rw [visits_unlink once.1] at removed
          exact ⟨removed.1, by rw [removed.2]⟩

theorem Calls.Finishes.sweepsDown {calls : Calls} {force : Bool} (finishes : calls.Finishes force)
    (sink : Sink) : sink.SweepsDown calls force := by
  have arranged := calls.arranged sink.indices
  have once : (calls.arrange sink.indices).Nodup := arranged.nodup_iff.mpr (nodup_indices sink)
  intro index file older found removed listed below
  rw [(finishes.scan sink once (fun index member =>
    (mem_indices_iff.mp (arranged.mem_iff.mp member)).2)).2, arranged.mem_iff]
  exact listed

/-- A pass that does not fail leaves a log in order with nothing due. -/
theorem Calls.Finishes.prune {calls : Calls} (finishes : calls.Finishes true) {sink : Sink}
    {stack : Stack} (shows_ : Shows sink stack) (ordered : stack.Ordered) :
    ∃ after kept, sink.prune calls true = (after, .ok ()) ∧ Pruned sink after calls stack kept ∧
      kept.length ≤ sink.config.maxArchives := by
  have arranged := calls.arranged sink.indices
  have once : (calls.arrange sink.indices).Nodup := arranged.nodup_iff.mpr (nodup_indices sink)
  have completes := finishes.scan sink once (fun index member =>
    (mem_indices_iff.mp (arranged.mem_iff.mp member)).2)
  rcases scan_pruned shows_ ordered (finishes.sweepsDown sink) with ⟨kept, pruned, _, settled⟩
  rw [prune_passes (Or.inl rfl), attempt_of_works finishes.readDir]
  rcases scan : Sink.scan calls true (calls.arrange sink.indices) sink with ⟨after, result⟩
  rw [scan] at pruned settled completes
  have done : result = .ok () := completes.1
  rw [done] at settled ⊢
  refine ⟨_, kept, rfl, ⟨⟨?_, ?_, ?_⟩, pruned.config, pruned.trimmed⟩, (settled rfl).length_le⟩
  · exact pruned.shows_.open_
  · exact pruned.shows_.live
  · exact pruned.shows_.archives

/-! ## Rotation -/

/-- What a rotation of a log with the given number of archives relies on: from
the first rename on, nothing fails, except that the log may be named back when
it alone has been renamed. -/
structure Calls.Rotates (calls : Calls) (archives : Nat) : Prop where
  shifts : forall index, 0 < index -> index < archives -> calls.Shifts index
  ends : 0 < archives -> calls.fails .inspectFirst = false ∧ calls.fails .retire = false ∧
    calls.fails .publish = false
  restores : calls.fails .publish = true -> calls.fails .restore = false
  finishes : calls.Finishes true

/-- The log has moved to index 1, and its name is free. -/
theorem Opened.retire {sink : Sink} {stack : Stack} {calls : Calls} (opened : Opened sink stack 0)
    (works : calls.fails .retire = false) :
    ∃ after, sink.rename calls .retire .live (.archive 1) = (after, .ok ()) ∧
      after.file = .named (.archive 1) ∧ after.files.find .live = none ∧
      (forall position,
        after.files.find (.archive (position + 1)) = (stack.live :: stack.archives)[position]?) ∧
      after.config = sink.config ∧ after.lastPrune = sink.lastPrune := by
  refine ⟨_, rename_works works opened.live, ?_, ?_, ?_, rfl, rfl⟩
  · change sink.file.renamed _ _ _ = _
    rw [opened.open_]
    rfl
  · exact (find_renamed Name.noConfusion).trans (if_pos rfl)
  · intro position
    cases position with
    | zero => exact Table.find_insert_self _ _ _
    | succ position =>
        refine (find_renamed (archive_ne (by omega))).trans ?_
        rw [if_neg Name.noConfusion]
        exact opened.below position (Nat.zero_le _)

/-- A log without archives gets its name back. -/
theorem restore_shows {sink : Sink} {stack : Stack} {calls : Calls} (bare : stack.archives = [])
    (works : calls.fails .restore = false) (open_ : sink.file = .named (.archive 1))
    (archives : forall position,
      sink.files.find (.archive (position + 1)) = (stack.live :: stack.archives)[position]?) :
    ∃ after, sink.restore calls = (after, .error .publish) ∧ Shows after stack ∧
      after.config = sink.config ∧ after.lastPrune = sink.lastPrune := by
  unfold Sink.restore
  rw [rename_works works (archives 0)]
  refine ⟨_, rfl, ⟨?_, ?_, ?_⟩, rfl, rfl⟩
  · change sink.file.renamed _ _ _ = _
    rw [open_]
    rfl
  · exact Table.find_insert_self _ _ _
  · intro position
    refine (find_renamed Name.noConfusion).trans ?_
    rw [bare]
    cases position with
    | zero => exact if_pos rfl
    | succ position =>
        rw [if_neg (archive_ne (by omega)), archives, bare]
        rfl

/-- A new file takes the log's name. -/
theorem publish_shows {sink : Sink} {archives : List LogFile} (now : Nat)
    (named : forall position : Nat, sink.files.find (.archive (position + 1)) = archives[position]?) :
    Shows (sink.publish now) ⟨⟨[], now⟩, archives⟩ := by
  refine ⟨rfl, Table.find_insert_self _ _ _, ?_⟩
  intro position
  exact (Table.find_insert_of_ne _ Name.noConfusion).trans (named position)

theorem Opened.shows_ {sink : Sink} {stack : Stack} (opened : Opened sink stack 0)
    (bare : stack.archives = []) : Shows sink stack := by
  refine ⟨opened.open_, opened.live, ?_⟩
  intro position
  cases position with
  | zero =>
      rw [opened.free, bare]
      rfl
  | succ position =>
      rw [opened.below position (Nat.zero_le _), bare]
      rfl

theorem Stack.Ordered.push {stack : Stack} (ordered : stack.Ordered) {now : Nat}
    (clock : stack.live.modified ≤ now) :
    Stack.Ordered ⟨⟨[], now⟩, stack.live :: stack.archives⟩ := by
  refine List.pairwise_cons.mpr ⟨?_, ordered⟩
  intro older member
  rcases List.mem_cons.mp member with here | there
  · rw [here]
    exact clock
  · exact Nat.le_trans ((List.pairwise_cons.mp ordered).1 older there) clock

theorem rotate_spec {sink : Sink} {stack : Stack} {calls : Calls} (shows_ : Shows sink stack)
    (ordered : stack.Ordered) (few : stack.archives.length ≤ sink.config.maxArchives)
    (clock : stack.live.modified ≤ calls.now) (rotates : calls.Rotates stack.archives.length) :
    (∃ after operation, sink.rotate calls = (after, .error operation) ∧ Shows after stack ∧
      after.config = sink.config ∧ after.lastPrune = sink.lastPrune) ∨
    ∃ after kept, sink.rotate calls = (after, .ok ()) ∧ Shows after ⟨⟨[], calls.now⟩, kept⟩ ∧
      after.config = sink.config ∧ Stack.Ordered ⟨⟨[], calls.now⟩, kept⟩ ∧
      Trimmed sink.config calls.now (stack.live :: stack.archives) kept ∧
      kept.length ≤ sink.config.maxArchives := by
  unfold Sink.rotate
  cases flush : calls.fails .flush with
  | true => exact Or.inl ⟨sink, _, attempt_of_fails flush, shows_, rfl, rfl⟩
  | false =>
  rw [attempt_of_works flush]
  cases temporary : calls.fails .openTemporary with
  | true => exact Or.inl ⟨sink, _, attempt_of_fails temporary, shows_, rfl, rfl⟩
  | false =>
  rw [attempt_of_works temporary]
  rcases shiftArchives_spec shows_ few rotates.shifts with
    ⟨operation, failed⟩ | ⟨shifted, moved, opened, config, prune⟩
  · rw [failed]
    exact Or.inl ⟨sink, operation, rfl, shows_, rfl, rfl⟩
  rw [moved, andThen_ok]
  -- With an archive the rest works, and without one nothing has been renamed.
  have bare_of_fails : calls.fails .inspectFirst = true ∨ calls.fails .retire = true ∨
      calls.fails .publish = true -> stack.archives = [] := by
    intro fails
    by_contra some_
    rcases rotates.ends (List.length_pos_of_ne_nil some_) with ⟨first, retire, publish⟩
    rw [first, retire, publish] at fails
    simp at fails
  cases first : calls.fails .inspectFirst with
  | true =>
      rw [attempt_of_fails first]
      exact Or.inl ⟨shifted, _, rfl, opened.shows_ (bare_of_fails (Or.inl first)), config, prune⟩
  | false =>
  rw [attempt_of_works first]
  cases retire : calls.fails .retire with
  | true =>
      rw [rename_fails retire, andThen_error]
      have bare := bare_of_fails (Or.inr (Or.inl retire))
      exact Or.inl ⟨shifted, _, rfl, opened.shows_ bare, config, prune⟩
  | false =>
  rcases opened.retire retire with ⟨retired, renamed, open_, _, archives, sameConfig, samePrune⟩
  rw [renamed, andThen_ok]
  cases publish : calls.fails .publish with
  | true =>
      have bare := bare_of_fails (Or.inr (Or.inr publish))
      rcases restore_shows bare (rotates.restores publish) open_ archives with
        ⟨after, restored, back, backConfig, backPrune⟩
      rw [if_pos rfl, restored]
      exact Or.inl ⟨after, _, rfl, back, backConfig.trans (sameConfig.trans config),
        backPrune.trans (samePrune.trans prune)⟩
  | false =>
      rw [if_neg (by decide)]
      have published := publish_shows calls.now archives
      have order := ordered.push clock
      rcases rotates.finishes.prune published order with ⟨after, kept, done, pruned, small⟩
      have same : (retired.publish calls.now).config = sink.config := sameConfig.trans config
      rw [same] at small
      have trimmed := pruned.trimmed
      rw [same] at trimmed
      exact Or.inr ⟨after, kept, done, pruned.shows_, pruned.config.trans same,
        pruned.trimmed.ordered order, trimmed, small⟩

end Audit

end TealDrive
