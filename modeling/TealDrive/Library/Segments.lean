import Mathlib.Data.List.DropRight

namespace Segments

/-!
# Separated texts and their named segments

A text over an arbitrary alphabet is read as a sequence of segments between
occurrences of one separator.  Some segments are *dull*: they name nothing
and a reader skips them.  The names of a text are its other segments, and the
normal form of a text joins exactly those names by single separators.

The point of the module is that a reader of names cannot tell a text from
its normal form, whereas a reader of the raw last segment can.  The lemmas
say how names behave under concatenation, under splitting at the last
separator, and under trimming separators from the two ends.
-/

variable {Symbol : Type} [DecidableEq Symbol]

/-- The segments of a text that are not dull, in their original order. -/
def names (separator : Symbol) (dull : List Symbol -> Bool) (text : List Symbol) :
    List (List Symbol) :=
  (text.splitOn separator).filter (fun segment => !dull segment)

/-- Join segments by single separators. -/
def join (separator : Symbol) (segments : List (List Symbol)) : List Symbol :=
  [separator].intercalate segments

/-- The text that spells the same names without any dull segment. -/
def normalize (separator : Symbol) (dull : List Symbol -> Bool) (text : List Symbol) :
    List Symbol :=
  join separator (names separator dull text)

/-- Split at the last separator, when there is one. -/
def rsplitOnce (separator : Symbol) : List Symbol -> Option (List Symbol × List Symbol)
  | [] => none
  | symbol :: rest =>
      match rsplitOnce separator rest with
      | some (before, after) => some (symbol :: before, after)
      | none => if symbol = separator then some ([], rest) else none

/-- The segment after the last separator, or the whole text. -/
def lastSegment (separator : Symbol) (text : List Symbol) : List Symbol :=
  match rsplitOnce separator text with
  | some (_, after) => after
  | none => text

/-- Remove every leading and every trailing occurrence of a symbol. -/
def trimMatches (symbol : Symbol) (text : List Symbol) : List Symbol :=
  (text.dropWhile (fun head => head == symbol)).rdropWhile (fun last => last == symbol)

variable {separator : Symbol} {dull : List Symbol -> Bool}

/-! ## Segments contain no separator -/

theorem separator_not_mem_of_mem_splitOn {text segment : List Symbol}
    (member : segment ∈ text.splitOn separator) : separator ∉ segment := by
  induction text generalizing segment with
  | nil =>
      rw [List.splitOn_nil, List.mem_singleton] at member
      rw [member]
      exact List.not_mem_nil
  | cons symbol rest ih =>
      rw [List.splitOn_cons_eq_if_modifyHead] at member
      by_cases same : symbol = separator
      · rw [if_pos (beq_iff_eq.mpr same)] at member
        rcases List.mem_cons.mp member with empty | later
        · rw [empty]
          exact List.not_mem_nil
        · exact ih later
      · rw [if_neg (fun equal => same (beq_iff_eq.mp equal))] at member
        cases pieces : rest.splitOn separator with
        | nil => exact absurd pieces (List.splitOn_ne_nil separator rest)
        | cons first others =>
            rw [pieces, List.modifyHead_cons] at member
            rcases List.mem_cons.mp member with extended | later
            · rw [extended]
              intro found
              rcases List.mem_cons.mp found with here | deeper
              · exact same here.symm
              · exact ih (pieces ▸ List.mem_cons_self) deeper
            · exact ih (pieces ▸ List.mem_cons_of_mem first later)

theorem separator_not_mem_of_mem_names {text segment : List Symbol}
    (member : segment ∈ names separator dull text) : separator ∉ segment :=
  separator_not_mem_of_mem_splitOn (List.mem_filter.mp member).1

theorem not_dull_of_mem_names {text segment : List Symbol}
    (member : segment ∈ names separator dull text) : dull segment = false := by
  have kept := (List.mem_filter.mp member).2
  simpa using kept

omit [DecidableEq Symbol] in
theorem mem_join {segments : List (List Symbol)} {symbol : Symbol}
    (member : symbol ∈ join separator segments) :
    symbol = separator ∨ ∃ segment, segment ∈ segments ∧ symbol ∈ segment := by
  induction segments with
  | nil => cases member
  | cons first others ih =>
      cases others with
      | nil =>
          have single : join separator [first] = first := List.intercalate_singleton
          exact Or.inr ⟨first, List.mem_singleton_self first, single ▸ member⟩
      | cons second rest =>
          unfold join at member
          rw [List.intercalate_cons_cons, List.mem_append, List.mem_append,
            List.mem_singleton] at member
          rcases member with (here | between) | later
          · exact Or.inr ⟨first, List.mem_cons_self, here⟩
          · exact Or.inl between
          · rcases ih later with same | ⟨segment, present, inside⟩
            · exact Or.inl same
            · exact Or.inr ⟨segment, List.mem_cons_of_mem first present, inside⟩

theorem mem_of_mem_names {text segment : List Symbol} {symbol : Symbol}
    (member : segment ∈ names separator dull text) (inside : symbol ∈ segment) :
    symbol ∈ text := by
  have whole : [separator].intercalate (text.splitOn separator) = text :=
    List.intercalate_splitOn separator
  rw [← whole]
  have piece := (List.mem_filter.mp member).1
  generalize text.splitOn separator = pieces at piece
  induction pieces with
  | nil => cases piece
  | cons first others ih =>
      cases others with
      | nil =>
          rw [List.intercalate_singleton]
          exact List.mem_singleton.mp piece ▸ inside
      | cons second rest =>
          rw [List.intercalate_cons_cons, List.mem_append, List.mem_append]
          rcases List.mem_cons.mp piece with here | later
          · exact Or.inl (Or.inl (here ▸ inside))
          · exact Or.inr (ih later)

/-! ## Names of composite texts -/

theorem names_append (before after : List Symbol) :
    names separator dull (before ++ separator :: after) =
      names separator dull before ++ names separator dull after := by
  unfold names
  rw [List.splitOn_append_cons_self, List.filter_append]

theorem names_nil (empty : dull [] = true) : names separator dull [] = [] := by
  simp [names, empty]

theorem names_of_separator_not_mem {text : List Symbol} (absent : separator ∉ text) :
    names separator dull text = if dull text then [] else [text] := by
  unfold names
  rw [List.splitOn_eq_singleton absent]
  cases isDull : dull text <;> simp [isDull]

theorem names_cons_separator (empty : dull [] = true) (text : List Symbol) :
    names separator dull (separator :: text) = names separator dull text := by
  have split : names separator dull ([] ++ separator :: text) =
      names separator dull [] ++ names separator dull text := names_append [] text
  rw [names_nil empty] at split
  exact split

theorem names_concat_separator (empty : dull [] = true) (text : List Symbol) :
    names separator dull (text ++ [separator]) = names separator dull text := by
  rw [names_append, names_nil empty, List.append_nil]

theorem names_trimMatches (empty : dull [] = true) (text : List Symbol) :
    names separator dull (trimMatches separator text) = names separator dull text := by
  have leading : forall text, names separator dull
      (text.dropWhile (fun head => head == separator)) = names separator dull text := by
    intro text
    induction text with
    | nil => rfl
    | cons symbol rest ih =>
        by_cases same : symbol = separator
        · subst same
          rw [List.dropWhile_cons_of_pos (by simp), ih, names_cons_separator empty]
        · rw [List.dropWhile_cons_of_neg (by simpa using same)]
  have trailing : forall text, names separator dull
      (text.rdropWhile (fun last => last == separator)) = names separator dull text := by
    intro text
    induction text using List.reverseRecOn with
    | nil => rfl
    | append_singleton rest symbol ih =>
        by_cases same : symbol = separator
        · subst same
          rw [List.rdropWhile_concat_pos _ _ _ (by simp), ih, names_concat_separator empty]
        · rw [List.rdropWhile_concat_neg _ _ _ (by simpa using same)]
  unfold trimMatches
  rw [trailing, leading]

/-! ## The normal form spells the same names -/

theorem splitOn_join {segments : List (List Symbol)} (nonempty : segments ≠ [])
    (clean : forall segment, segment ∈ segments -> separator ∉ segment) :
    (join separator segments).splitOn separator = segments :=
  List.splitOn_intercalate separator clean nonempty

theorem names_join (empty : dull [] = true) {segments : List (List Symbol)}
    (clean : forall segment, segment ∈ segments -> separator ∉ segment)
    (named : forall segment, segment ∈ segments -> dull segment = false) :
    names separator dull (join separator segments) = segments := by
  cases segments with
  | nil => exact names_nil empty
  | cons first others =>
      unfold names
      rw [splitOn_join (List.cons_ne_nil first others) clean]
      apply List.filter_eq_self.mpr
      intro segment member
      rw [named segment member]
      rfl

theorem names_normalize (empty : dull [] = true) (text : List Symbol) :
    names separator dull (normalize separator dull text) = names separator dull text :=
  names_join empty (fun _ member => separator_not_mem_of_mem_names member)
    (fun _ member => not_dull_of_mem_names member)

theorem normalize_normalize (empty : dull [] = true) (text : List Symbol) :
    normalize separator dull (normalize separator dull text) = normalize separator dull text :=
  congrArg (join separator) (names_normalize empty text)

/-! ## Splitting at the last separator -/

theorem rsplitOnce_of_not_mem {text : List Symbol} (absent : separator ∉ text) :
    rsplitOnce separator text = none := by
  induction text with
  | nil => rfl
  | cons symbol rest ih =>
      have different : symbol ≠ separator := fun same => absent (same ▸ List.mem_cons_self)
      have later := ih (fun member => absent (List.mem_cons_of_mem symbol member))
      simp only [rsplitOnce, later, if_neg different]

theorem rsplitOnce_append {before after : List Symbol} (absent : separator ∉ after) :
    rsplitOnce separator (before ++ separator :: after) = some (before, after) := by
  induction before with
  | nil => simp only [List.nil_append, rsplitOnce, rsplitOnce_of_not_mem absent, if_true]
  | cons symbol rest ih => simp only [List.cons_append, rsplitOnce, ih]

theorem rsplitOnce_eq_none {text : List Symbol}
    (unsplit : rsplitOnce separator text = none) : separator ∉ text := by
  induction text with
  | nil => exact List.not_mem_nil
  | cons symbol rest ih =>
      unfold rsplitOnce at unsplit
      cases later : rsplitOnce separator rest with
      | some parts => rw [later] at unsplit; cases unsplit
      | none =>
          rw [later] at unsplit
          by_cases same : symbol = separator
          · rw [if_pos same] at unsplit; cases unsplit
          · intro member
            rcases List.mem_cons.mp member with here | there
            · exact same here.symm
            · exact ih later there

theorem rsplitOnce_eq_some {text before after : List Symbol}
    (split : rsplitOnce separator text = some (before, after)) :
    text = before ++ separator :: after ∧ separator ∉ after := by
  induction text generalizing before with
  | nil => cases split
  | cons symbol rest ih =>
      unfold rsplitOnce at split
      cases later : rsplitOnce separator rest with
      | some parts =>
          rcases parts with ⟨inner, last⟩
          rw [later] at split
          cases split
          have found := ih later
          exact ⟨by rw [List.cons_append, ← found.1], found.2⟩
      | none =>
          rw [later] at split
          by_cases same : symbol = separator
          · rw [if_pos same] at split
            cases split
            exact ⟨by rw [same, List.nil_append], rsplitOnce_eq_none later⟩
          · rw [if_neg same] at split
            cases split

/-- A text is its names up to the last separator followed by the name of its
last segment, when that segment is not dull. -/
theorem names_eq_of_rsplitOnce {text before after : List Symbol}
    (split : rsplitOnce separator text = some (before, after)) :
    names separator dull text =
      names separator dull before ++ (if dull after then [] else [after]) := by
  have parts := rsplitOnce_eq_some split
  rw [parts.1, names_append, names_of_separator_not_mem parts.2]

omit [DecidableEq Symbol] in
/-- Texts that end at the first separator. -/
theorem append_separator_injective {first second behind others : List Symbol}
    (one : separator ∉ first) (two : separator ∉ second)
    (same : first ++ separator :: behind = second ++ separator :: others) :
    first = second ∧ behind = others := by
  induction first generalizing second with
  | nil =>
      cases second with
      | nil => exact ⟨rfl, (List.cons.inj same).2⟩
      | cons symbol rest =>
          have here : separator = symbol := (List.cons.inj same).1
          exact absurd (here ▸ List.mem_cons_self) two
  | cons symbol rest ih =>
      cases second with
      | nil =>
          have here : symbol = separator := (List.cons.inj same).1
          exact absurd (here ▸ List.mem_cons_self) one
      | cons other further =>
          rcases List.cons.inj same with ⟨here, later⟩
          rcases ih (fun member => one (List.mem_cons_of_mem _ member))
            (fun member => two (List.mem_cons_of_mem _ member)) later with ⟨names, rests⟩
          rw [here, names]
          exact ⟨rfl, rests⟩

omit [DecidableEq Symbol] in
theorem join_append {first second : List (List Symbol)} (before : first ≠ []) (after : second ≠ []) :
    join separator (first ++ second) = join separator first ++ separator :: join separator second := by
  induction first with
  | nil => exact absurd rfl before
  | cons segment others ih =>
      unfold join at ih ⊢
      rw [List.cons_append, List.intercalate_cons_of_ne_nil (by simp [after])]
      cases others with
      | nil => simp [List.intercalate]
      | cons next rest =>
          rw [ih (List.cons_ne_nil next rest),
            List.intercalate_cons_of_ne_nil (List.cons_ne_nil next rest)]
          simp only [List.append_assoc]

omit [DecidableEq Symbol] in
theorem join_concat {segments : List (List Symbol)} (nonempty : segments ≠ [])
    (last : List Symbol) :
    join separator (segments ++ [last]) = join separator segments ++ separator :: last := by
  rw [join_append nonempty (List.cons_ne_nil last [])]
  simp [join, List.intercalate]

/-- One spelling continues another after a separator exactly when its names
continue the other's names. -/
theorem join_separator_prefix_iff {first second : List (List Symbol)} (empty : dull [] = true)
    (named : forall segment, segment ∈ first ++ second -> separator ∉ segment ∧ dull segment = false)
    (nonempty : first ≠ []) :
    join separator first ++ [separator] <+: join separator second ↔
      first <+: second ∧ first ≠ second := by
  have spelled : forall {segments : List (List Symbol)}, segments ⊆ first ++ second ->
      names separator dull (join separator segments) = segments := fun {segments} inside =>
    names_join empty (fun segment member => (named segment (inside member)).1)
      (fun segment member => (named segment (inside member)).2)
  constructor
  · rintro ⟨rest, whole⟩
    rw [List.append_assoc, List.singleton_append] at whole
    have parts : names separator dull (join separator first ++ separator :: rest) =
        names separator dull (join separator first) ++ names separator dull rest :=
      names_append _ _
    rw [whole, spelled (List.subset_append_right first second),
      spelled (List.subset_append_left first second)] at parts
    refine ⟨⟨_, parts.symm⟩, ?_⟩
    intro same
    have longer := congrArg List.length whole
    rw [same, List.length_append, List.length_cons] at longer
    omega
  · rintro ⟨⟨rest, whole⟩, different⟩
    have more : rest ≠ [] := by
      intro none
      rw [none, List.append_nil] at whole
      exact different whole
    rw [← whole, join_append nonempty more]
    exact ⟨join separator rest, by simp⟩

/-- The last segment of a joined text is its last segment. -/
theorem lastSegment_join_concat (segments : List (List Symbol)) {last : List Symbol}
    (clean : separator ∉ last) : lastSegment separator (join separator (segments ++ [last])) = last := by
  unfold lastSegment
  cases segments with
  | nil =>
      have whole : join separator ([] ++ [last]) = last := List.intercalate_singleton
      rw [whole, rsplitOnce_of_not_mem clean]
  | cons first others =>
      rw [join_concat (List.cons_ne_nil first others), rsplitOnce_append clean]

/-- A normal form keeps the raw last segment exactly when that segment was a
name.  This is the only place where a raw reader and a reader of names agree
without normalizing first. -/
theorem lastSegment_normalize_of_not_dull {text : List Symbol}
    (named : dull (lastSegment separator text) = false) :
    lastSegment separator (normalize separator dull text) = lastSegment separator text := by
  unfold normalize
  cases split : rsplitOnce separator text with
  | none =>
      have whole : lastSegment separator text = text := by simp only [lastSegment, split]
      have absent := rsplitOnce_eq_none split
      rw [whole] at named ⊢
      have single : names separator dull text = [] ++ [text] := by
        rw [names_of_separator_not_mem absent, named]
        rfl
      rw [single]
      exact lastSegment_join_concat [] absent
  | some parts =>
      rcases parts with ⟨before, after⟩
      have final : lastSegment separator text = after := by simp only [lastSegment, split]
      rw [final] at named ⊢
      rw [names_eq_of_rsplitOnce split, named]
      exact lastSegment_join_concat _ (rsplitOnce_eq_some split).2

end Segments
