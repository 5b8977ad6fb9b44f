import TealDrive.Audit.Log

namespace TealDrive

namespace Audit

/-!
# The log as a stack of files

A log in order is the file being written and, under it, the archives from the
newest to the oldest, numbered from 1 without a gap.  On such a log a pruning
pass drops files from the bottom, and a rotation pushes a new file on top, as
long as nothing is interrupted halfway.
-/

/-! ## Outcomes -/

theorem attempt_of_fails {sink : Sink} {calls : Calls} {operation : Operation} {next : Outcome}
    (fails : calls.fails operation = true) :
    sink.attempt calls operation next = (sink, .error operation) := by
  unfold Sink.attempt
  rw [if_pos fails]

theorem attempt_of_works {sink : Sink} {calls : Calls} {operation : Operation} {next : Outcome}
    (works : calls.fails operation = false) : sink.attempt calls operation next = next := by
  unfold Sink.attempt
  rw [works]
  rfl

@[simp] theorem andThen_ok (sink : Sink) (next : Sink -> Outcome) :
    Outcome.andThen (sink, .ok ()) next = next sink := rfl

@[simp] theorem andThen_error (sink : Sink) (operation : Operation) (next : Sink -> Outcome) :
    Outcome.andThen (sink, .error operation) next = (sink, .error operation) := rfl

/-! ## Stacks -/

/-- The open log and its archives, newest first. -/
structure Stack where
  live : LogFile
  archives : List LogFile

def Stack.reading (stack : Stack) : List Line :=
  stack.archives.reverse.flatMap LogFile.lines ++ stack.live.lines

/-- No file was written after a newer one. -/
def Stack.Ordered (stack : Stack) : Prop :=
  (stack.live :: stack.archives).Pairwise (fun newer older => older.modified ≤ newer.modified)

/-- The directory holds the files of a stack, and the writer the one on top. -/
structure Shows (sink : Sink) (stack : Stack) : Prop where
  open_ : sink.file = .named .live
  live : sink.files.find .live = some stack.live
  archives : forall index, sink.files.find (.archive (index + 1)) = stack.archives[index]?

theorem Shows.held {sink : Sink} {stack : Stack} (shows_ : Shows sink stack) :
    sink.held = some stack.live := by
  unfold Sink.held
  rw [shows_.open_]
  exact shows_.live

theorem index_eq_some_iff {name : Name} {index : Nat} :
    name.index = some index ↔ index ≠ 0 ∧ name = .archive index := by
  cases name with
  | live => simp [Name.index]
  | archive other =>
      change (if other = 0 then none else some other) = some index ↔ _
      by_cases zero : other = 0
      · rw [if_pos zero]
        simp only [reduceCtorEq, Name.archive.injEq, false_iff]
        rintro ⟨nonzero, same⟩
        exact nonzero (same.symm.trans zero)
      · rw [if_neg zero]
        simp only [Option.some.injEq, Name.archive.injEq]
        constructor
        · intro same
          exact ⟨fun none_ => zero (same.trans none_), same⟩
        · exact And.right

theorem mem_indices_iff {sink : Sink} {index : Nat} :
    index ∈ sink.indices ↔ index ≠ 0 ∧ ∃ file, sink.files.find (.archive index) = some file := by
  unfold Sink.indices
  rw [List.mem_filterMap]
  constructor
  · rintro ⟨name, member, recognised⟩
    rcases index_eq_some_iff.mp recognised with ⟨nonzero, same⟩
    rcases List.mem_map.mp member with ⟨row, listed, named⟩
    refine ⟨nonzero, row.2, Table.find_eq_some_iff.mpr ?_⟩
    rw [← same, ← named]
    exact listed
  · rintro ⟨nonzero, file, found⟩
    exact ⟨.archive index, List.mem_map_of_mem (Table.find_eq_some_iff.mp found),
      index_eq_some_iff.mpr ⟨nonzero, rfl⟩⟩

theorem Shows.mem_indices {sink : Sink} {stack : Stack} (shows_ : Shows sink stack) {index : Nat} :
    index ∈ sink.indices ↔ 0 < index ∧ index ≤ stack.archives.length := by
  rw [mem_indices_iff]
  cases index with
  | zero => simp
  | succ position =>
      rw [shows_.archives position]
      simp only [ne_eq, Nat.add_eq_zero_iff, Nat.succ_ne_self, and_false, not_false_eq_true,
        true_and, Nat.zero_lt_succ]
      rw [← Option.isSome_iff_exists, isSome_getElem?]
      omega

theorem nodup_indices (sink : Sink) : sink.indices.Nodup := by
  apply List.Nodup.filterMap _ sink.files.unique
  intro first second index ofFirst ofSecond
  rw [(index_eq_some_iff.mp ofFirst).2, (index_eq_some_iff.mp ofSecond).2]

/-! ## Reading -/

theorem Shows.archived {sink : Sink} {stack : Stack} (shows_ : Shows sink stack) (count : Nat) :
    sink.archived count = ((stack.archives.take count).reverse).flatMap LogFile.lines := by
  induction count with
  | zero => rfl
  | succ position ih =>
      unfold Sink.archived
      rw [ih]
      unfold Sink.linesOf
      rw [shows_.archives position, List.take_add_one, List.reverse_append, List.flatMap_append]
      cases stack.archives[position]? with
      | none => rfl
      | some file => simp

theorem le_foldr_max {numbers : List Nat} {number : Nat} (member : number ∈ numbers) :
    number ≤ numbers.foldr max 0 := by
  induction numbers with
  | nil => cases member
  | cons first rest ih =>
      rw [List.foldr_cons]
      rcases List.mem_cons.mp member with here | there
      · rw [here]
        exact Nat.le_max_left _ _
      · exact Nat.le_trans (ih there) (Nat.le_max_right _ _)

theorem Shows.reading {sink : Sink} {stack : Stack} (shows_ : Shows sink stack) :
    sink.reading = stack.reading := by
  have whole : stack.archives.take (sink.indices.foldr max 0) = stack.archives := by
    apply List.take_of_length_le
    cases count : stack.archives.length with
    | zero => exact Nat.zero_le _
    | succ position =>
        apply le_foldr_max
        exact shows_.mem_indices.mpr ⟨Nat.succ_pos _, by omega⟩
  unfold Sink.reading Stack.reading
  rw [shows_.archived, whole]
  unfold Sink.linesOf
  rw [shows_.live]
  rfl

/-! ## A pruning pass -/

/-- The archives a pass gets through before a call fails. -/
def Sink.visits (sink : Sink) (calls : Calls) (force : Bool) : List Nat -> List Nat
  | [] => []
  | index :: rest =>
      if calls.fails (.entry force index) || calls.fails (.metadata force index) then []
      else
        match sink.files.find (.archive index) with
        | none => []
        | some file =>
            if due sink.config calls.now index file && calls.fails (.remove force index) then []
            else index :: Sink.visits sink calls force rest

theorem visits_sublist (sink : Sink) (calls : Calls) (force : Bool) (listing : List Nat) :
    forall index, index ∈ sink.visits calls force listing -> index ∈ listing := by
  induction listing with
  | nil =>
      intro index member
      exact member
  | cons first rest ih =>
      intro index member
      unfold Sink.visits at member
      split at member
      · cases member
      · split at member
        · cases member
        · split at member
          · cases member
          · rcases List.mem_cons.mp member with here | there
            · rw [here]
              exact List.mem_cons_self
            · exact List.mem_cons_of_mem first (ih index there)

/-- A removal elsewhere does not change how far a pass gets. -/
theorem visits_unlink {sink : Sink} {calls : Calls} {force : Bool} {index : Nat} {file : LogFile}
    {listing : List Nat} (absent : index ∉ listing) :
    (sink.unlink index file).visits calls force listing = sink.visits calls force listing := by
  induction listing with
  | nil => rfl
  | cons first rest ih =>
      have other : Name.archive first ≠ Name.archive index := by
        intro same
        cases same
        exact absent List.mem_cons_self
      have same : (sink.unlink index file).files.find (.archive first) =
          sink.files.find (.archive first) := Table.find_erase_of_ne other
      have later := ih (fun member => absent (List.mem_cons_of_mem first member))
      unfold Sink.visits
      rw [same, later]
      rfl

/-- What a pass that got through the given archives has done. -/
structure Scanned (sink after : Sink) (now : Nat) (visited : List Nat) : Prop where
  config : after.config = sink.config
  lastPrune : after.lastPrune = sink.lastPrune
  open_ : sink.file = .named .live -> after.file = .named .live
  live : after.files.find .live = sink.files.find .live
  archives : forall index, after.files.find (.archive index) =
    if index ∈ visited then
      (sink.files.find (.archive index)).filter (fun file => !due sink.config now index file)
    else sink.files.find (.archive index)

theorem Scanned.nothing (sink : Sink) (now : Nat) : Scanned sink sink now [] :=
  ⟨rfl, rfl, fun held => held, rfl, fun _ => (if_neg List.not_mem_nil).symm⟩

theorem Scanned.keep {sink after : Sink} {now index : Nat} {file : LogFile} {visited : List Nat}
    (scanned : Scanned sink after now visited)
    (found : sink.files.find (.archive index) = some file)
    (young : due sink.config now index file = false) :
    Scanned sink after now (index :: visited) := by
  refine ⟨scanned.config, scanned.lastPrune, scanned.open_, scanned.live, ?_⟩
  intro other
  rw [scanned.archives other]
  by_cases same : other = index
  · subst same
    rw [found, if_pos List.mem_cons_self]
    have kept : (some file).filter (fun file => !due sink.config now other file) = some file := by
      simp [young]
    rw [kept, ite_self]
  · simp [same]

theorem Scanned.remove {sink after : Sink} {now index : Nat} {file : LogFile} {visited : List Nat}
    (scanned : Scanned (sink.unlink index file) after now visited)
    (found : sink.files.find (.archive index) = some file)
    (old : due sink.config now index file = true) (once : index ∉ visited) :
    Scanned sink after now (index :: visited) := by
  refine ⟨scanned.config, scanned.lastPrune, ?_, ?_, ?_⟩
  · intro held
    apply scanned.open_
    unfold Sink.unlink
    rw [held]
    rfl
  · rw [scanned.live]
    exact Table.find_erase_of_ne (fun clash => nomatch clash)
  · intro other
    rw [scanned.archives other]
    by_cases same : other = index
    · subst same
      rw [if_neg once, if_pos List.mem_cons_self, found]
      have gone : (sink.unlink other file).files.find (.archive other) = none :=
        Table.find_erase_self _ _
      rw [gone, Option.filter_some, old]
      rfl
    · have kept : (sink.unlink index file).files.find (.archive other) =
          sink.files.find (.archive other) := by
        apply Table.find_erase_of_ne
        intro clash
        cases clash
        exact same rfl
      rw [kept]
      by_cases member : other ∈ visited
      · rw [if_pos member, if_pos (List.mem_cons_of_mem index member)]
        rfl
      · rw [if_neg member, if_neg]
        intro again
        rcases List.mem_cons.mp again with here | there
        · exact same here
        · exact member there

theorem scan_scanned (calls : Calls) (force : Bool) (sink : Sink) {listing : List Nat}
    (once : listing.Nodup) :
    Scanned sink (Sink.scan calls force listing sink).1 calls.now
      (sink.visits calls force listing) ∧
    ((Sink.scan calls force listing sink).2 = .ok () ->
      sink.visits calls force listing = listing) := by
  induction listing generalizing sink with
  | nil =>
      have unchanged : (Sink.scan calls force [] sink).1 = sink := by
        unfold Sink.scan Sink.attempt
        split <;> rfl
      refine ⟨?_, fun _ => rfl⟩
      rw [unchanged]
      exact Scanned.nothing sink calls.now
  | cons index rest ih =>
      rw [List.nodup_cons] at once
      unfold Sink.scan Sink.visits
      cases atEntry : calls.fails (.entry force index) with
      | true =>
          rw [attempt_of_fails atEntry]
          exact ⟨Scanned.nothing sink calls.now, fun done => nomatch done⟩
      | false =>
      rw [attempt_of_works atEntry]
      cases atMetadata : calls.fails (.metadata force index) with
      | true =>
          rw [attempt_of_fails atMetadata]
          exact ⟨Scanned.nothing sink calls.now, fun done => nomatch done⟩
      | false =>
      rw [attempt_of_works atMetadata]
      cases found : sink.files.find (.archive index) with
      | none => exact ⟨Scanned.nothing sink calls.now, fun done => nomatch done⟩
      | some file =>
      simp only [Bool.or_self, Bool.false_eq_true, if_false]
      cases old : due sink.config calls.now index file with
      | false =>
          have later := ih sink once.2
          simp only [Bool.false_and, Bool.false_eq_true, if_false]
          refine ⟨later.1.keep found old, fun done => ?_⟩
          rw [later.2 done]
      | true =>
          rw [if_pos rfl, Bool.true_and]
          cases atRemove : calls.fails (.remove force index) with
          | true =>
              rw [attempt_of_fails atRemove, if_pos rfl]
              exact ⟨Scanned.nothing sink calls.now, fun done => nomatch done⟩
          | false =>
              rw [attempt_of_works atRemove, if_neg (by decide)]
              have later := ih (sink.unlink index file) once.2
              rw [visits_unlink once.1] at later
              refine ⟨later.1.remove found old ?_, fun done => ?_⟩
              · intro again
                exact once.1 (visits_sublist sink calls force rest index again)
              · rw [later.2 done]

/-! ## Retention -/

/-- Files that went were under all that stayed, and each of them was over age
or had the configured number of archives above it. -/
def Trimmed (config : AuditConfig) (now : Nat) (before after : List LogFile) : Prop :=
  ∃ gone, before = after ++ gone ∧
    forall file, file ∈ gone -> expired config now file = true ∨ config.maxArchives ≤ after.length

theorem Trimmed.refl (config : AuditConfig) (now : Nat) (files : List LogFile) :
    Trimmed config now files files :=
  ⟨[], (List.append_nil files).symm, fun _ member => nomatch member⟩

theorem expired_of_older {config : AuditConfig} {now : Nat} {newer older : LogFile}
    (order : older.modified ≤ newer.modified) (old : expired config now newer = true) :
    expired config now older = true := by
  unfold expired at old ⊢
  rw [Option.any_eq_true_iff_get] at old ⊢
  rcases old with ⟨present, long⟩
  refine ⟨present, ?_⟩
  rw [decide_eq_true_eq] at long ⊢
  omega

/-- A second pass over the files a first one left, after a rotation has put the
log on top, trims the whole. -/
theorem Trimmed.rotated {config : AuditConfig} {now : Nat} {live : LogFile}
    {archives first second : List LogFile}
    (ordered : (live :: archives).Pairwise (fun newer older => older.modified ≤ newer.modified))
    (before : Trimmed config now archives first)
    (after : Trimmed config now (live :: first) second) :
    Trimmed config now (live :: archives) second := by
  rcases before with ⟨early, splitEarly, whyEarly⟩
  rcases after with ⟨late, splitLate, whyLate⟩
  have whole : live :: archives = second ++ (late ++ early) := by
    rw [splitEarly, ← List.cons_append, splitLate, List.append_assoc]
  refine ⟨late ++ early, whole, ?_⟩
  intro file member
  rcases List.mem_append.mp member with isLate | isEarly
  · exact whyLate file isLate
  · rcases whyEarly file isEarly with old | many
    · exact Or.inl old
    · rcases Nat.lt_or_ge second.length config.maxArchives with few | enough
      · -- Fewer stayed than were there, so the second pass dropped an expired
        -- file, and this one is older.
        have lengths := congrArg List.length splitLate
        rw [List.length_cons, List.length_append] at lengths
        cases late with
        | nil =>
            rw [List.length_nil] at lengths
            omega
        | cons top rest =>
            rcases whyLate top List.mem_cons_self with old | enough
            · rw [whole, List.pairwise_append] at ordered
              have inner := (List.pairwise_append.mp ordered.2.1).2.2
              exact Or.inl (expired_of_older (inner top List.mem_cons_self file isEarly) old)
            · omega
      · exact Or.inr enough

/-- A property of positions that passes from each to those before it holds on
an initial segment. -/
theorem exists_cut {holds : Nat -> Prop} (bound : Nat)
    (down : forall lower upper, lower ≤ upper -> upper < bound -> holds upper -> holds lower) :
    ∃ count, count ≤ bound ∧ forall position, position < bound -> (holds position ↔ position < count) := by
  induction bound with
  | zero => exact ⟨0, Nat.le_refl 0, fun position low => absurd low (Nat.not_lt_zero position)⟩
  | succ top ih =>
      by_cases last : holds top
      · refine ⟨top + 1, Nat.le_refl _, fun position low => ⟨fun _ => low, fun _ => ?_⟩⟩
        exact down position top (Nat.le_of_lt_succ low) (Nat.lt_succ_self top) last
      · rcases ih (fun lower upper below low => down lower upper below (Nat.lt_succ_of_lt low)) with
          ⟨count, small, cut⟩
        refine ⟨count, Nat.le_succ_of_le small, fun position low => ?_⟩
        rcases Nat.lt_succ_iff_lt_or_eq.mp low with below | here
        · exact cut position below
        · rw [here]
          exact ⟨fun held => absurd held last, fun few => absurd few (by omega)⟩

/-- The pass gets to the archive, and finds it due. -/
def Sink.Removes (sink : Sink) (calls : Calls) (force : Bool) (index : Nat) (file : LogFile) : Prop :=
  index ∈ sink.visits calls force (calls.arrange sink.indices) ∧
    due sink.config calls.now index file = true

/-- The pass gets to everything older than what it removes. -/
def Sink.SweepsDown (sink : Sink) (calls : Calls) (force : Bool) : Prop :=
  forall index file older, sink.files.find (.archive index) = some file ->
    sink.Removes calls force index file -> older ∈ sink.indices -> index < older ->
    older ∈ sink.visits calls force (calls.arrange sink.indices)

theorem Stack.Ordered.modified_le {stack : Stack} (ordered : stack.Ordered) {low high : Nat}
    {newer older : LogFile} (below : low < high) (ofLow : stack.archives[low]? = some newer)
    (ofHigh : stack.archives[high]? = some older) : older.modified ≤ newer.modified := by
  have archives := (List.pairwise_cons.mp ordered).2
  rcases List.getElem?_eq_some_iff.mp ofLow with ⟨lowFits, atLow⟩
  rcases List.getElem?_eq_some_iff.mp ofHigh with ⟨highFits, atHigh⟩
  have pair := List.pairwise_iff_getElem.mp archives low high lowFits highFits below
  rw [atLow, atHigh] at pair
  exact pair

section Pass

variable {sink : Sink} {calls : Calls} {force : Bool} {stack : Stack}

/-- A pass over a log in order removes with an archive all the older ones. -/
theorem removes_older (shows_ : Shows sink stack) (ordered : stack.Ordered)
    (sweeps : sink.SweepsDown calls force) {low high : Nat} {newer older : LogFile}
    (below : low < high) (ofLow : stack.archives[low]? = some newer)
    (ofHigh : stack.archives[high]? = some older)
    (removed : sink.Removes calls force (low + 1) newer) :
    sink.Removes calls force (high + 1) older := by
  have found := (shows_.archives low).trans ofLow
  have fits := (List.getElem?_eq_some_iff.mp ofHigh).1
  have listed : high + 1 ∈ sink.indices := shows_.mem_indices.mpr ⟨Nat.succ_pos _, fits⟩
  refine ⟨sweeps (low + 1) newer (high + 1) found removed listed (by omega), ?_⟩
  have old := removed.2
  unfold due at old ⊢
  rw [Bool.or_eq_true, decide_eq_true_eq] at old ⊢
  rcases old with beyond | aged
  · exact Or.inl (by omega)
  · exact Or.inr (expired_of_older (ordered.modified_le below ofLow ofHigh) aged)

/-- So it cuts the stack at one place. -/
theorem exists_kept (shows_ : Shows sink stack) (ordered : stack.Ordered)
    (sweeps : sink.SweepsDown calls force) :
    ∃ count, count ≤ stack.archives.length ∧ forall position file,
      stack.archives[position]? = some file ->
        (sink.Removes calls force (position + 1) file ↔ count ≤ position) := by
  have down : forall lower upper, lower ≤ upper -> upper < stack.archives.length ->
      (forall file, stack.archives[upper]? = some file ->
        ¬ sink.Removes calls force (upper + 1) file) ->
      (forall file, stack.archives[lower]? = some file ->
        ¬ sink.Removes calls force (lower + 1) file) := by
    intro lower upper below fits stayed newer ofLow removed
    rcases Nat.lt_or_eq_of_le below with strictly | same
    · have ofHigh := List.getElem?_eq_getElem fits
      exact stayed _ ofHigh (removes_older shows_ ordered sweeps strictly ofLow ofHigh removed)
    · rw [same] at ofLow removed
      exact stayed newer ofLow removed
  rcases exists_cut stack.archives.length down with ⟨count, fits, cut⟩
  refine ⟨count, fits, fun position file found => ?_⟩
  have inside := (List.getElem?_eq_some_iff.mp found).1
  constructor
  · intro removed
    by_contra few
    exact (cut position inside).mpr (by omega) file found removed
  · intro beyond
    by_contra stayed
    have few : position < count := by
      apply (cut position inside).mp
      intro other same
      rw [found] at same
      cases same
      exact stayed
    omega

/-- The files that a pass leaves when it cuts the stack at the given place. -/
theorem Scanned.shows_take {after : Sink} {count : Nat}
    (scanned : Scanned sink after calls.now
      (sink.visits calls force (calls.arrange sink.indices)))
    (shows_ : Shows sink stack)
    (cut : forall position file, stack.archives[position]? = some file ->
      (sink.Removes calls force (position + 1) file ↔ count ≤ position)) :
    Shows after ⟨stack.live, stack.archives.take count⟩ := by
  refine ⟨scanned.open_ shows_.open_, ?_, ?_⟩
  · rw [scanned.live]
    exact shows_.live
  · intro position
    rw [scanned.archives, shows_.archives, List.getElem?_take]
    cases found : stack.archives[position]? with
    | none => simp
    | some file =>
        by_cases few : position < count
        · rw [if_pos few]
          have stayed : ¬ sink.Removes calls force (position + 1) file := by
            rw [cut position file found]
            omega
          by_cases member : position + 1 ∈ sink.visits calls force (calls.arrange sink.indices)
          · have young : due sink.config calls.now (position + 1) file = false :=
              Bool.eq_false_iff.mpr (fun old => stayed ⟨member, old⟩)
            rw [if_pos member, Option.filter_some, young]
            rfl
          · rw [if_neg member]
        · rw [if_neg few]
          have gone := (cut position file found).mpr (Nat.le_of_not_lt few)
          rw [if_pos gone.1, Option.filter_some, gone.2]
          rfl

/-- What goes below the cut went for its age, unless enough archives stay. -/
theorem trimmed_take (ordered : stack.Ordered) {count : Nat} (fits : count ≤ stack.archives.length)
    (cut : forall position file, stack.archives[position]? = some file ->
      (sink.Removes calls force (position + 1) file ↔ count ≤ position)) :
    Trimmed sink.config calls.now stack.archives (stack.archives.take count) := by
  refine ⟨stack.archives.drop count, (List.take_append_drop count _).symm, ?_⟩
  intro file member
  rw [List.length_take_of_le fits]
  rcases Nat.lt_or_ge count sink.config.maxArchives with few | enough
  · left
    rcases List.mem_iff_getElem?.mp member with ⟨offset, found⟩
    rw [List.getElem?_drop] at found
    have inside := (List.getElem?_eq_some_iff.mp found).1
    have ofFirst := List.getElem?_eq_getElem (by omega : count < stack.archives.length)
    have old := ((cut count _ ofFirst).mpr (Nat.le_refl count)).2
    unfold due at old
    rw [Bool.or_eq_true, decide_eq_true_eq] at old
    have aged := old.resolve_left (by omega)
    cases offset with
    | zero =>
        rw [Nat.add_zero, ofFirst] at found
        cases found
        exact aged
    | succ more => exact expired_of_older (ordered.modified_le (by omega) ofFirst found) aged
  · exact Or.inr enough

/-- What a pass leaves of a log in order. -/
structure Pruned (sink after : Sink) (calls : Calls) (stack : Stack) (kept : List LogFile) : Prop where
  shows_ : Shows after ⟨stack.live, kept⟩
  config : after.config = sink.config
  trimmed : Trimmed sink.config calls.now stack.archives kept

/-- No archive is due. -/
def Settled (config : AuditConfig) (now : Nat) (archives : List LogFile) : Prop :=
  forall position file, archives[position]? = some file -> due config now (position + 1) file = false

theorem Settled.length_le {config : AuditConfig} {now : Nat} {archives : List LogFile}
    (settled : Settled config now archives) : archives.length ≤ config.maxArchives := by
  by_contra many
  have last : archives.length - 1 < archives.length := by omega
  have young := settled _ _ (List.getElem?_eq_getElem last)
  unfold due at young
  rw [Bool.or_eq_false_iff, decide_eq_false_iff_not] at young
  omega

theorem scan_pruned (shows_ : Shows sink stack) (ordered : stack.Ordered)
    (sweeps : sink.SweepsDown calls force) :
    ∃ kept,
      Pruned sink (Sink.scan calls force (calls.arrange sink.indices) sink).1 calls stack kept ∧
      (Sink.scan calls force (calls.arrange sink.indices) sink).1.lastPrune = sink.lastPrune ∧
      ((Sink.scan calls force (calls.arrange sink.indices) sink).2 = .ok () ->
        Settled sink.config calls.now kept) := by
  have arranged := calls.arranged sink.indices
  have once : (calls.arrange sink.indices).Nodup := arranged.nodup_iff.mpr (nodup_indices sink)
  rcases scan_scanned calls force sink once with ⟨scanned, complete⟩
  rcases exists_kept shows_ ordered sweeps with ⟨count, fits, cut⟩
  refine ⟨stack.archives.take count, ⟨scanned.shows_take shows_ cut, scanned.config,
    trimmed_take ordered fits cut⟩, scanned.lastPrune, ?_⟩
  intro done position file found
  rw [List.getElem?_take] at found
  split at found
  · next few =>
      have inside := (List.getElem?_eq_some_iff.mp found).1
      have member : position + 1 ∈ sink.visits calls force (calls.arrange sink.indices) := by
        rw [complete done, arranged.mem_iff]
        exact shows_.mem_indices.mpr ⟨Nat.succ_pos _, inside⟩
      have stayed : ¬ sink.Removes calls force (position + 1) file := by
        rw [cut position file found]
        omega
      exact Bool.eq_false_iff.mpr (fun old => stayed ⟨member, old⟩)
  · cases found

end Pass

/-! ## The invariant -/

/-- A log in order, with no more archives than configured once a pass has
completed under the configuration. -/
structure InOrder (sink : Sink) (stack : Stack) : Prop where
  shows_ : Shows sink stack
  ordered : stack.Ordered
  bounded : sink.lastPrune.isSome = true -> stack.archives.length ≤ sink.config.maxArchives

theorem Trimmed.length_le {config : AuditConfig} {now : Nat} {before after : List LogFile}
    (trimmed : Trimmed config now before after) : after.length ≤ before.length := by
  rcases trimmed with ⟨gone, split, _⟩
  rw [split, List.length_append]
  exact Nat.le_add_right _ _

theorem Trimmed.ordered {config : AuditConfig} {now : Nat} {stack : Stack} {kept : List LogFile}
    (trimmed : Trimmed config now stack.archives kept) (ordered : stack.Ordered) :
    Stack.Ordered ⟨stack.live, kept⟩ := by
  rcases trimmed with ⟨gone, split, _⟩
  unfold Stack.Ordered at ordered ⊢
  rw [split, ← List.cons_append] at ordered
  exact (List.pairwise_append.mp ordered).1

/-- Why an archive is still there after the pass at the start of an emit. -/
def Unpruned (sink : Sink) (calls : Calls) (index : Nat) (file : LogFile) : Prop :=
  sink.recentlyPruned calls = true ∨ due sink.config calls.now index file = false

theorem prune_skips {sink : Sink} {calls : Calls} (recent : sink.recentlyPruned calls = true) :
    sink.prune calls false = (sink, .ok ()) := by
  unfold Sink.prune
  rw [recent]
  rfl

theorem prune_passes {sink : Sink} {calls : Calls} {force : Bool}
    (pass : force = true ∨ sink.recentlyPruned calls = false) :
    sink.prune calls force =
      sink.attempt calls (.readDir force)
        ((Sink.scan calls force (calls.arrange sink.indices) sink).andThen (fun sink =>
          ({ sink with lastPrune := some calls.instant }, .ok ()))) := by
  unfold Sink.prune
  rcases pass with forced | stale
  · rw [forced]
    rfl
  · rw [stale, Bool.and_false]
    rfl

theorem prune_inOrder {sink : Sink} {calls : Calls} {stack : Stack} (order : InOrder sink stack)
    (sweeps : sink.SweepsDown calls false) :
    ∃ kept, InOrder (sink.prune calls false).1 ⟨stack.live, kept⟩ ∧
      (sink.prune calls false).1.config = sink.config ∧
      Trimmed sink.config calls.now stack.archives kept ∧
      ((sink.prune calls false).2 = .ok () -> kept.length ≤ sink.config.maxArchives ∧
        forall position file, kept[position]? = some file ->
          stack.archives[position]? = some file ∧ Unpruned sink calls (position + 1) file) := by
  cases recent : sink.recentlyPruned calls with
  | true =>
      rw [prune_skips recent]
      refine ⟨stack.archives, order, rfl, Trimmed.refl _ _ _, fun _ => ⟨?_, ?_⟩⟩
      · apply order.bounded
        unfold Sink.recentlyPruned at recent
        cases last : sink.lastPrune with
        | none =>
            rw [last] at recent
            cases recent
        | some time => rfl
      · exact fun position file found => ⟨found, Or.inl recent⟩
  | false =>
      rw [prune_passes (Or.inr recent)]
      cases atDir : calls.fails (.readDir false) with
      | true =>
          rw [attempt_of_fails atDir]
          exact ⟨stack.archives, order, rfl, Trimmed.refl _ _ _, fun done => nomatch done⟩
      | false =>
          rw [attempt_of_works atDir]
          rcases scan_pruned order.shows_ order.ordered sweeps with ⟨kept, pruned, same, settled⟩
          have rest := pruned.trimmed.ordered order.ordered
          have part : forall (position : Nat) (file : LogFile), kept[position]? = some file ->
              stack.archives[position]? = some file := by
            rcases pruned.trimmed with ⟨gone, split, _⟩
            intro position file found
            rw [split, List.getElem?_append_left (List.getElem?_eq_some_iff.mp found).1]
            exact found
          rcases scan : Sink.scan calls false (calls.arrange sink.indices) sink with ⟨after, result⟩
          rw [scan] at pruned same settled
          refine ⟨kept, ?_⟩
          cases result with
          | error operation =>
              refine ⟨⟨pruned.shows_, rest, ?_⟩, pruned.config, pruned.trimmed,
                fun done => nomatch done⟩
              intro complete
              rw [andThen_error, same] at complete
              rw [andThen_error, pruned.config]
              exact Nat.le_trans pruned.trimmed.length_le (order.bounded complete)
          | ok _ =>
              have young := settled rfl
              refine ⟨⟨⟨pruned.shows_.open_, pruned.shows_.live, pruned.shows_.archives⟩, rest, ?_⟩,
                pruned.config, pruned.trimmed, fun _ => ⟨young.length_le, ?_⟩⟩
              · intro _
                rw [andThen_ok, pruned.config]
                exact young.length_le
              · exact fun position file found =>
                  ⟨part position file found, Or.inr (young position file found)⟩

end Audit

end TealDrive
