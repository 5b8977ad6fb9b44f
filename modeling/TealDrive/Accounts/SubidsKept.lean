import TealDrive.Accounts.Subids

namespace TealDrive

open Outcome

/-!
# Reserved ranges

The loop over the ranges never leaves 32 bits, so it computes the gaps exactly.  A
published file is the old one with a line for every gap: it reads as the old ranges
and the gaps, unless these are more than a file may have.  Then it is refused from
then on.
-/

/-! ## Lines -/

namespace Text

theorem lines_append (before after : Text) :
    lines (before ++ '\n' :: after) = (before.splitOn '\n').map stripReturn ++ lines after := by
  unfold lines
  rw [List.splitOn_append_cons_self]
  dsimp only
  rw [List.dropLast_append_of_ne_nil (List.splitOn_ne_nil _ _),
    List.getLast?_append_of_ne_nil _ (List.splitOn_ne_nil _ _), List.map_append, List.append_assoc]

theorem lines_nil : lines [] = [] := rfl

/-- A line ends at its line feed. -/
theorem lines_cons {line : Text} (plain : '\n' ∉ line) (after : Text) :
    lines (line ++ '\n' :: after) = stripReturn line :: lines after := by
  rw [lines_append, List.splitOn_eq_singleton plain]
  rfl

/-- The lines behind terminated lines are lines of their own. -/
theorem lines_terminated (before after : Text) :
    lines ((before ++ ['\n']) ++ after) = lines (before ++ ['\n']) ++ lines after := by
  rw [List.append_assoc, List.singleton_append, lines_append, lines_append, lines_nil,
    List.append_nil]

theorem stripReturn_of_ne {line : Text} (plain : line.getLast? ≠ some '\r') :
    stripReturn line = line := by
  unfold stripReturn stripSuffix
  rw [if_neg]
  · rfl
  · intro ends
    rcases List.isSuffixOf_iff_suffix.mp ends with ⟨front, rfl⟩
    exact plain List.getLast?_concat

theorem stripReturn_concat (line : Text) : stripReturn (line ++ ['\r']) = line := by
  unfold stripReturn stripSuffix
  rw [if_pos (List.isSuffixOf_iff_suffix.mpr (List.suffix_append line ['\r']))]
  simp

end Text

namespace Subids

/-! ## Gaps without wrapping -/

theorem missingFrom_eq {max next : Nat} {ranges : List (Nat × Nat)} (small : max < 2 ^ 32)
    (valid : forall range, range ∈ ranges -> range.1 ≤ max ∧ range.2 ≤ max) :
    missingFrom max next ranges = gapsFrom max next ranges := by
  induction ranges generalizing next with
  | nil =>
      unfold missingFrom gapsFrom
      split
      · next left => rw [Nat.mod_eq_of_lt (Nat.lt_of_le_of_lt left small)]
      · rfl
  | cons range rest ih =>
      rcases range with ⟨start, end_⟩
      have bounds := valid (start, end_) List.mem_cons_self
      have beyond : (end_ + 1) % 2 ^ 64 = end_ + 1 := Nat.mod_eq_of_lt (by dsimp only at bounds; omega)
      unfold missingFrom gapsFrom
      rw [beyond, ih (fun other member => valid other (List.mem_cons_of_mem _ member))]
      dsimp only at bounds ⊢
      split
      · have from_ : next % 2 ^ 32 = next := Nat.mod_eq_of_lt (by omega)
        have to_ : (start + 2 ^ 32 - 1) % 2 ^ 32 = start - 1 := by omega
        rw [from_, to_]
      · rfl

theorem missing_eq {min max : Nat} {ranges : List Range} (ordered : min ≤ max)
    (small : max < 2 ^ 32) (valid : forall range, range ∈ ranges -> range.start ≤ range.end_) :
    missing min max ranges = gapsBetween min max (ranges.map Range.span) := by
  refine missingFrom_eq small ?_
  intro segment member
  have bounds := occupied_valid ordered (fun range inside => by
    rcases List.mem_map.mp inside with ⟨origin, present, rfl⟩
    exact valid origin present) member
  exact bounds.2

theorem missing_tidy {min max : Nat} {ranges : List Range} (ordered : min ≤ max)
    (small : max < 2 ^ 32) (valid : forall range, range ∈ ranges -> range.start ≤ range.end_) :
    Tidy (missing min max ranges) := by
  rw [missing_eq ordered small valid]
  apply gapsBetween_tidy ordered
  intro range inside
  rcases List.mem_map.mp inside with ⟨origin, present, rfl⟩
  exact valid origin present

theorem covered_missing {min max : Nat} {ranges : List Range} (ordered : min ≤ max)
    (small : max < 2 ^ 32) (valid : forall range, range ∈ ranges -> range.start ≤ range.end_)
    (number : Nat) :
    Covered (missing min max ranges) number ↔
      min ≤ number ∧ number ≤ max ∧ ¬ Covered (ranges.map Range.span) number := by
  rw [missing_eq ordered small valid]
  apply covered_gapsBetween ordered
  intro range inside
  rcases List.mem_map.mp inside with ⟨origin, present, rfl⟩
  exact valid origin present

/-! ## Reading lines -/

/-- Every line reads as the range beside it. -/
abbrev Reads (lines : List Text) (ranges : List Range) : Prop :=
  List.Forall₂ (fun line range => parseLine line = .ok range) lines ranges

theorem Reads.unique {lines : List Text} {first second : List Range} (left : Reads lines first)
    (right : Reads lines second) : first = second := by
  induction left generalizing second with
  | nil =>
      cases right
      rfl
  | cons here later ih =>
      cases right with
      | cons there others =>
          cases here.symm.trans there
          rw [ih others]

theorem parseFrom_ok {ranges result : List Range} {lines : List Text}
    (few : ranges.length ≤ maxRanges) :
    parseFrom ranges lines = .ok result ↔
      ∃ more, Reads lines more ∧ result = ranges ++ more ∧ result.length ≤ maxRanges := by
  induction lines generalizing ranges with
  | nil =>
      constructor
      · intro same
        cases same
        exact ⟨[], .nil, (List.append_nil _).symm, few⟩
      · rintro ⟨more, none, rfl, _⟩
        cases none
        rw [List.append_nil]
        rfl
  | cons line rest ih =>
      unfold parseFrom
      rw [bind_eq_ok]
      constructor
      · rintro ⟨_, room, parsed⟩
        rw [refuse_eq_ok, decide_eq_false_iff_not, Nat.not_le] at room
        rcases bind_eq_ok.mp parsed with ⟨range, here, later⟩
        rcases (ih (by rw [List.length_append, List.length_singleton]; exact room)).mp later with
          ⟨more, reads, rfl, bounded⟩
        exact ⟨range :: more, .cons here reads, by simp, bounded⟩
      · rintro ⟨more, reads, rfl, bounded⟩
        cases reads with
        | @cons _ range _ others here later =>
            have room : ranges.length < maxRanges := by
              rw [List.length_append, List.length_cons] at bounded
              omega
            refine ⟨(), ?_, bind_eq_ok.mpr ⟨range, here, ?_⟩⟩
            · rw [refuse_eq_ok, decide_eq_false_iff_not, Nat.not_le]
              exact room
            · refine (ih (by rw [List.length_append, List.length_singleton]; exact room)).mpr
                ⟨others, later, by simp, bounded⟩

theorem parse_ok {value : Text} {ranges : List Range} :
    parse value = .ok ranges ↔
      Reads (value.lines.filter relevant) ranges ∧ ranges.length ≤ maxRanges := by
  unfold parse
  rw [parseFrom_ok (Nat.zero_le _)]
  constructor
  · rintro ⟨more, reads, rfl, bounded⟩
    exact ⟨reads, bounded⟩
  · rintro ⟨reads, bounded⟩
    exact ⟨ranges, reads, rfl, bounded⟩

/-! ## One line -/

theorem parseLine_ok {line : Text} {range : Range} (parsed : parseLine line = .ok range) :
    ∃ owner start count : Text, line.splitOn ':' = [owner, start, count] ∧
      (∃ number, parseU32 count = some number) ∧
      1 ≤ range.start ∧ range.start ≤ range.end_ ∧ range.end_ < 2 ^ 32 - 1 := by
  unfold parseLine at parsed
  split at parsed
  · next owner start count fields =>
      simp only [bind_eq_ok, refuse_eq_ok, okOr_eq_ok, pure_eq_ok] at parsed
      rcases parsed with ⟨_, _, first, _, number, read, _, positive, _, small, _, inside, rfl⟩
      refine ⟨owner, start, count, fields, ⟨number, read⟩, ?_⟩
      simp only [beq_eq_false_iff_ne, decide_eq_false_iff_not, Bool.or_eq_false_iff] at positive small inside
      dsimp only
      omega
  · cases parsed

theorem parseLine_valid {line : Text} {range : Range} (parsed : parseLine line = .ok range) :
    1 ≤ range.start ∧ range.start ≤ range.end_ ∧ range.end_ < 2 ^ 32 - 1 := by
  rcases parseLine_ok parsed with ⟨_, _, _, _, _, valid⟩
  exact valid

theorem Reads.valid {lines : List Text} {ranges : List Range} (reads : Reads lines ranges) :
    forall range, range ∈ ranges ->
      1 ≤ range.start ∧ range.start ≤ range.end_ ∧ range.end_ < 2 ^ 32 - 1 := by
  induction reads with
  | nil => exact fun range member => absurd member List.not_mem_nil
  | cons here later ih =>
      intro range member
      rcases List.mem_cons.mp member with rfl | other
      · exact parseLine_valid here
      · exact ih range other

theorem isDigit_of_parseUsize {text : Text} {number : Nat} (read : parseUsize text = some number)
    {symbol : Char} (member : symbol ∈ text) : symbol = '+' ∨ symbol.isDigit = true := by
  unfold parseUsize at read
  dsimp only at read
  generalize taken : (if text.head? = some '+' then text.tail else text) = digits at read
  by_cases valid : digits ≠ [] ∧ digits.all (fun symbol => symbol.isDigit) = true ∧
      Nat.ofDigitChars 10 digits 0 < 2 ^ 64
  · have all := List.all_eq_true.mp valid.2.1
    by_cases signed : text.head? = some '+'
    · rw [if_pos signed] at taken
      rcases List.head?_eq_some_iff.mp signed with ⟨rest, rfl⟩
      rcases List.mem_cons.mp member with plus | later
      · exact Or.inl plus
      · exact Or.inr (all symbol (taken ▸ later))
    · rw [if_neg signed] at taken
      exact Or.inr (all symbol (taken ▸ member))
  · rw [if_neg valid] at read
    cases read

theorem not_parseUsize_nil : parseUsize [] = none := by decide

/-- A line with a carriage return at its end reads as no range. -/
theorem not_parseLine_return (line : Text) (range : Range) :
    parseLine (line ++ ['\r']) ≠ .ok range := by
  intro parsed
  rcases parseLine_ok parsed with ⟨owner, start, count, fields, ⟨number, read⟩, _⟩
  have whole : [':'].intercalate ((line ++ ['\r']).splitOn ':') = line ++ ['\r'] :=
    List.intercalate_splitOn ':'
  rw [fields] at whole
  have joined : (owner ++ ':' :: start ++ [':']) ++ count = line ++ ['\r'] := by
    simpa [List.intercalate] using whole
  have read := (Option.filter_eq_some_iff.mp read).1
  have filled : count ≠ [] := by
    rintro rfl
    rw [not_parseUsize_nil] at read
    cases read
  have ends : count.getLast? = some '\r' := by
    rw [← List.getLast?_append_of_ne_nil (owner ++ ':' :: start ++ [':']) filled, joined,
      List.getLast?_concat]
  rcases isDigit_of_parseUsize read (List.mem_of_getLast? ends) with sign | digit
  · cases sign
  · exact absurd digit (by decide)

theorem trim_eq_nil_iff {line : Text} :
    line.trim = [] ↔ forall symbol, symbol ∈ line -> Text.isWhiteSpace symbol = true := by
  unfold Text.trim
  rw [List.rdropWhile_eq_nil_iff]
  constructor
  · intro blank symbol member
    by_cases space : Text.isWhiteSpace symbol = true
    · exact space
    · have kept := List.takeWhile_append_dropWhile (p := Text.isWhiteSpace) (l := line)
      rw [← kept] at member
      rcases List.mem_append.mp member with front | back
      · exact (List.mem_takeWhile_imp front)
      · exact blank symbol back
  · intro blank symbol member
    exact blank symbol (List.dropWhile_subset _ member)

/-- A carriage return at its end does not make a line relevant. -/
theorem relevant_return {line : Text} (relevant_ : relevant line = true) :
    relevant (line ++ ['\r']) = true := by
  unfold relevant at relevant_ ⊢
  rw [Bool.and_eq_true, bne_iff_ne, bne_iff_ne] at relevant_ ⊢
  rcases relevant_ with ⟨visible, uncommented⟩
  have some_ : ∃ symbol, symbol ∈ line ∧ ¬ Text.isWhiteSpace symbol = true := by
    by_contra all
    apply visible
    apply trim_eq_nil_iff.mpr
    intro symbol member
    by_contra space
    exact all ⟨symbol, member, space⟩
  constructor
  · intro blank
    rcases some_ with ⟨symbol, member, dark⟩
    exact dark (trim_eq_nil_iff.mp blank symbol (List.mem_append_left _ member))
  · intro comment
    apply uncommented
    rcases some_ with ⟨symbol, member, dark⟩
    have left : line.dropWhile Text.isWhiteSpace ≠ [] := by
      intro none
      exact dark (List.dropWhile_eq_nil_iff.mp none symbol member)
    unfold Text.trimStart at comment ⊢
    rw [List.dropWhile_append, if_neg (by simpa using left), List.head?_append_of_ne_nil _ left] at comment
    exact comment

/-! ## The lines of gaps -/

theorem not_mem_digits {number : Nat} {symbol : Char} (other : symbol.isDigit = false) :
    symbol ∉ Nat.toDigits 10 number := by
  intro member
  rw [Nat.isDigit_of_mem_toDigits (by decide) (by decide) member] at other
  cases other

theorem parseU32_digits {number : Nat} (small : number < 2 ^ 32) :
    parseU32 (Nat.toDigits 10 number) = some number := by
  unfold parseU32
  rw [parseUsize_toDigits (by omega), Option.filter_some, if_pos (decide_eq_true small)]

theorem splitOn_gapLine (gap : Nat × Nat) :
    (gapLine gap).splitOn ':' =
      ["0".toList, Nat.toDigits 10 gap.1, Nat.toDigits 10 (gap.2 - gap.1 + 1)] := by
  have shape : gapLine gap = "0".toList ++ ':' :: (Nat.toDigits 10 gap.1 ++
      ':' :: Nat.toDigits 10 (gap.2 - gap.1 + 1)) := rfl
  rw [shape, List.splitOn_append_cons_self_of_not_mem (by decide),
    List.splitOn_append_cons_self_of_not_mem (not_mem_digits (by decide)),
    List.splitOn_eq_singleton (not_mem_digits (by decide))]

/-- The range that the line of a gap gives to root. -/
def gapRange (gap : Nat × Nat) : Range := ⟨gap.1, gap.2, true⟩

theorem parseLine_gapLine {gap : Nat × Nat} (low : 1 ≤ gap.1) (filled : gap.1 ≤ gap.2)
    (high : gap.2 < 2 ^ 32 - 1) : parseLine (gapLine gap) = .ok (gapRange gap) := by
  have count : gap.2 - gap.1 + 1 - 1 = gap.2 - gap.1 := rfl
  have owner : ("0".toList == [] || decide (Text.len "0".toList > 256) ||
      "0".toList.any Text.isWhiteSpace) = false := by decide
  have root : ("0".toList == "root".toList || "0".toList == "0".toList) = true := by decide
  unfold parseLine
  rw [splitOn_gapLine]
  dsimp only
  rw [parseU32_digits (by omega), parseU32_digits (by omega), owner, root]
  simp only [refuse, okOr, count, Bool.false_eq_true, if_false, bind, Except.bind, pure, Except.pure]
  rw [if_neg (by simp), if_neg (by rw [decide_eq_true_eq]; omega),
    if_neg (by simp only [Bool.or_eq_true, beq_iff_eq]; omega)]
  have stop : gap.1 + (gap.2 - gap.1) = gap.2 := Nat.add_sub_of_le filled
  rw [stop]
  rfl

theorem relevant_gapLine (gap : Nat × Nat) : relevant (gapLine gap) = true := by
  have shape : gapLine gap = '0' :: ':' :: (Nat.toDigits 10 gap.1 ++
      ':' :: Nat.toDigits 10 (gap.2 - gap.1 + 1)) := rfl
  unfold relevant
  rw [Bool.and_eq_true, bne_iff_ne, bne_iff_ne, shape]
  constructor
  · intro blank
    exact absurd (trim_eq_nil_iff.mp blank '0' List.mem_cons_self) (by decide)
  · unfold Text.trimStart
    rw [List.dropWhile_cons_of_neg (by decide), List.head?_cons]
    decide

theorem mem_gapLine {gap : Nat × Nat} {symbol : Char} (member : symbol ∈ gapLine gap) :
    symbol = ':' ∨ symbol.isDigit = true := by
  unfold gapLine at member
  rcases List.mem_append.mp member with owner | numbers
  · have either : symbol = '0' ∨ symbol = ':' := by simpa using owner
    rcases either with rfl | rfl
    · exact Or.inr (by decide)
    · exact Or.inl rfl
  · rcases List.mem_append.mp numbers with start | rest
    · exact Or.inr (Nat.isDigit_of_mem_toDigits (by decide) (by decide) start)
    · rcases List.mem_cons.mp rest with rfl | count
      · exact Or.inl rfl
      · exact Or.inr (Nat.isDigit_of_mem_toDigits (by decide) (by decide) count)

theorem not_mem_gapLine {gap : Nat × Nat} {symbol : Char} (different : symbol ≠ ':')
    (other : symbol.isDigit = false) : symbol ∉ gapLine gap := by
  intro member
  rcases mem_gapLine member with colon | digit
  · exact different colon
  · rw [digit] at other
    cases other

/-- Lines that are terminated one by one are read back. -/
theorem lines_joined {lines : List Text}
    (plain : forall line, line ∈ lines -> '\n' ∉ line ∧ line.getLast? ≠ some '\r') :
    Text.lines (lines.flatMap (fun line => line ++ ['\n'])) = lines := by
  induction lines with
  | nil => rfl
  | cons line rest ih =>
      have here := plain line List.mem_cons_self
      rw [List.flatMap_cons, List.append_assoc, List.singleton_append, Text.lines_cons here.1,
        ih (fun other member => plain other (List.mem_cons_of_mem line member)),
        Text.stripReturn_of_ne here.2]

theorem lines_gaps (gaps : List (Nat × Nat)) :
    Text.lines (gaps.flatMap (fun gap => gapLine gap ++ ['\n'])) = gaps.map gapLine := by
  rw [← List.flatMap_map (f := gapLine) (g := fun line => line ++ ['\n'])]
  apply lines_joined
  intro line member
  rcases List.mem_map.mp member with ⟨gap, _, rfl⟩
  exact ⟨not_mem_gapLine (by decide) (by decide), fun last =>
    not_mem_gapLine (by decide) (by decide) (List.mem_of_getLast? last)⟩

theorem reads_gaps {gaps : List (Nat × Nat)}
    (valid : forall gap, gap ∈ gaps -> 1 ≤ gap.1 ∧ gap.1 ≤ gap.2 ∧ gap.2 < 2 ^ 32 - 1) :
    Reads ((gaps.map gapLine).filter relevant) (gaps.map gapRange) := by
  induction gaps with
  | nil => exact .nil
  | cons gap rest ih =>
      rcases valid gap List.mem_cons_self with ⟨low, filled, high⟩
      rw [List.map_cons, List.filter_cons_of_pos (relevant_gapLine gap)]
      exact .cons (parseLine_gapLine low filled high)
        (ih (fun other member => valid other (List.mem_cons_of_mem gap member)))

/-! ## The lines of the old file -/

theorem Reads.append {first second : List Text} {left right : List Range}
    (front : Reads first left) (back : Reads second right) :
    Reads (first ++ second) (left ++ right) := by
  induction front with
  | nil => exact back
  | cons here _ ih => exact .cons here ih

theorem Reads.of_mem {lines : List Text} {ranges : List Range} (reads : Reads lines ranges)
    {line : Text} (member : line ∈ lines) : ∃ range, parseLine line = .ok range := by
  induction reads with
  | nil => cases member
  | cons here _ ih =>
      rcases List.mem_cons.mp member with rfl | later
      · exact ⟨_, here⟩
      · exact ih later

theorem terminated_cases (content : Text) :
    (terminated content = [] ∨ ∃ before, terminated content = before ++ ['\n']) ∧
      (terminated content = content ∨ terminated content = content ++ ['\n']) := by
  unfold terminated
  split
  · exact ⟨Or.inr ⟨content, rfl⟩, Or.inr rfl⟩
  · next closed =>
      refine ⟨?_, Or.inl rfl⟩
      by_cases empty : content = []
      · exact Or.inl empty
      · have last : content.getLast? = some '\n' := by
          by_contra open_
          exact closed ⟨empty, open_⟩
        rcases List.getLast?_eq_some_iff.mp last with ⟨before, rfl⟩
        exact Or.inr ⟨before, rfl⟩

theorem lines_extend (content after : Text) :
    Text.lines (terminated content ++ after) =
      Text.lines (terminated content) ++ Text.lines after := by
  rcases (terminated_cases content).1 with empty | ⟨before, closed⟩
  · rw [empty]
    rfl
  · rw [closed]
    exact Text.lines_terminated before after

/-- A line feed at the end changes at most the last line, and no line that reads. -/
theorem Reads.terminated {content : Text} {ranges : List Range}
    (reads : Reads ((Text.lines content).filter relevant) ranges) :
    Reads ((Text.lines (Subids.terminated content)).filter relevant) ranges := by
  rcases (terminated_cases content).2 with same | closed
  · rw [same]
    exact reads
  · rw [closed, Text.lines_append, Text.lines_nil, List.append_nil]
    unfold Text.lines at reads
    dsimp only at reads
    rcases List.eq_nil_or_concat (content.splitOn '\n') with none | ⟨front, last, pieces⟩
    · exact absurd none (List.splitOn_ne_nil _ _)
    · rw [List.concat_eq_append] at pieces
      rw [pieces] at reads ⊢
      rw [List.dropLast_concat, List.getLast?_concat, List.filter_append] at reads
      rw [List.map_append, List.filter_append]
      suffices same : ([last].map Text.stripReturn).filter relevant =
          ((some last).filter (fun last => last != [])).toList.filter relevant by
        rw [same]
        exact reads
      have blank : relevant [] = false := by decide
      by_cases empty : last = []
      · subst empty
        decide
      · have kept : ((some last).filter (fun last => last != [])).toList = [last] := by
          rw [Option.filter_some, if_pos (by simpa using empty)]
          rfl
        rw [kept] at reads ⊢
        rcases List.eq_nil_or_concat last with none | ⟨body, symbol, whole⟩
        · exact absurd none empty
        · by_cases return_ : symbol = '\r'
          · rw [List.concat_eq_append, return_] at whole
            subst whole
            have hidden : relevant (body ++ ['\r']) = false := by
              apply Bool.eq_false_of_not_eq_true
              intro shown
              rcases reads.of_mem (List.mem_append_right _
                (List.mem_filter.mpr ⟨List.mem_singleton_self _, shown⟩)) with ⟨range, parsed⟩
              exact not_parseLine_return body range parsed
            have shorter : relevant body = false := by
              apply Bool.eq_false_of_not_eq_true
              intro shown
              rw [relevant_return shown] at hidden
              cases hidden
            rw [List.map_singleton, Text.stripReturn_concat, List.filter_singleton,
              List.filter_singleton, hidden, shorter]
            rfl
          · have plain : last.getLast? ≠ some '\r' := by
              rw [whole, List.concat_eq_append, List.getLast?_concat]
              exact fun same => return_ (Option.some.inj same)
            rw [List.map_singleton, Text.stripReturn_of_ne plain]

/-! ## The published file -/

theorem prefix_terminated (content : Text) : content <+: terminated content := by
  rcases (terminated_cases content).2 with same | closed
  · rw [same]
  · rw [closed]
    exact List.prefix_append _ _

section Extended

variable {content : Text} {ranges : List Range} {min max : Nat}

theorem parse_valid (parsed : parse content = .ok ranges) :
    forall range, range ∈ ranges ->
      1 ≤ range.start ∧ range.start ≤ range.end_ ∧ range.end_ < 2 ^ 32 - 1 :=
  (parse_ok.mp parsed).1.valid

theorem missing_valid (parsed : parse content = .ok ranges) (low : 1 ≤ min) (ordered : min ≤ max)
    (high : max < 2 ^ 32 - 1) {gap : Nat × Nat} (member : gap ∈ missing min max ranges) :
    1 ≤ gap.1 ∧ gap.1 ≤ gap.2 ∧ gap.2 < 2 ^ 32 - 1 := by
  have valid := fun range inside => (parse_valid parsed range inside).2.1
  have filled := (missing_tidy ordered (by omega) valid).filled gap member
  have starts := (covered_missing ordered (by omega) valid gap.1).mp
    ⟨gap, member, Nat.le_refl _, filled⟩
  have ends := (covered_missing ordered (by omega) valid gap.2).mp
    ⟨gap, member, filled, Nat.le_refl _⟩
  omega

/-- The new text reads as the old ranges and the gaps, if it reads at all. -/
theorem parse_extend (parsed : parse content = .ok ranges) (low : 1 ≤ min) (ordered : min ≤ max)
    (high : max < 2 ^ 32 - 1) {result : List Range} :
    parse (extend content (missing min max ranges)) = .ok result ↔
      result = ranges ++ (missing min max ranges).map gapRange ∧
        ranges.length + (missing min max ranges).length ≤ maxRanges := by
  have old := (parse_ok.mp parsed).1.terminated
  have new := @reads_gaps (missing min max ranges)
    (fun gap member => missing_valid parsed low ordered high member)
  have whole : Reads ((extend content (missing min max ranges)).lines.filter relevant)
      (ranges ++ (missing min max ranges).map gapRange) := by
    unfold extend
    rw [lines_extend, lines_gaps, List.filter_append]
    exact old.append new
  rw [parse_ok]
  constructor
  · rintro ⟨reads, few⟩
    have same := reads.unique whole
    subst same
    refine ⟨rfl, ?_⟩
    rw [List.length_append, List.length_map] at few
    exact few
  · rintro ⟨rfl, few⟩
    refine ⟨whole, ?_⟩
    rw [List.length_append, List.length_map]
    exact few

theorem span_gapRanges (gaps : List (Nat × Nat)) :
    (gaps.map gapRange).map Range.span = gaps := by
  rw [List.map_map]
  exact List.map_id gaps

/-- With the gaps filled, nothing is missing. -/
theorem covered_filled (parsed : parse content = .ok ranges) (ordered : min ≤ max)
    (high : max < 2 ^ 32 - 1) {number : Nat} (from_ : min ≤ number) (to_ : number ≤ max) :
    Covered ((ranges ++ (missing min max ranges).map gapRange).map Range.span) number := by
  have valid := fun range inside => (parse_valid parsed range inside).2.1
  rw [List.map_append, span_gapRanges]
  by_cases old : Covered (ranges.map Range.span) number
  · rcases old with ⟨range, member, holds⟩
    exact ⟨range, List.mem_append_left _ member, holds⟩
  · rcases (covered_missing ordered (by omega) valid number).mpr ⟨from_, to_, old⟩ with
      ⟨gap, member, holds⟩
    exact ⟨gap, List.mem_append_right _ member, holds⟩

theorem missing_filled (parsed : parse content = .ok ranges) (low : 1 ≤ min) (ordered : min ≤ max)
    (high : max < 2 ^ 32 - 1) :
    missing min max (ranges ++ (missing min max ranges).map gapRange) = [] := by
  have valid : forall range, range ∈ ranges ++ (missing min max ranges).map gapRange ->
      range.start ≤ range.end_ := by
    intro range inside
    rcases List.mem_append.mp inside with old | new
    · exact (parse_valid parsed range old).2.1
    · rcases List.mem_map.mp new with ⟨gap, member, rfl⟩
      exact (missing_valid parsed low ordered high member).2.1
  apply List.eq_nil_iff_forall_not_mem.mpr
  intro gap member
  have filled := (missing_tidy ordered (by omega) valid).filled gap member
  rcases (covered_missing ordered (by omega) valid gap.1).mp ⟨gap, member, Nat.le_refl _, filled⟩
    with ⟨from_, to_, free⟩
  exact free (covered_filled parsed ordered high from_ to_)

end Extended

/-- What is asked of a published file: it reads, begins with the old one, leaves
nothing of the interval to others, and is not replaced the next time. -/
structure Renewed (old : Text) (min max : Nat) (file : SubidFile) : Prop where
  reads : ∃ content ranges, file.content = some content ∧ old <+: content ∧
    parse content = .ok ranges ∧
    (forall number, min ≤ number -> number ≤ max -> Covered (ranges.map Range.span) number) ∧
    missing min max ranges = [] ∧
    forall publication, reserve true (some file) min max publication = (.ok ranges, none)

/-- A file is published only where the old one could be read. -/
theorem reserve_published {trusted : Bool} {file : Option SubidFile} {min max : Nat}
    {publication : Publication} {published : SubidFile}
    (publishes : (reserve trusted file min max publication).2 = some published) :
    ∃ content mode gid ranges, lookup trusted file = .ok (content, mode, gid) ∧
      parse content = .ok ranges ∧ missing min max ranges ≠ [] ∧
      (extend content (missing min max ranges)).len ≤ maxBytes ∧
      published = ⟨true, 0, 1, mode, gid, some (extend content (missing min max ranges))⟩ := by
  unfold reserve at publishes
  cases found : lookup trusted file with
  | error error =>
      rw [found] at publishes
      cases publishes
  | ok looked =>
      rcases looked with ⟨content, mode, gid⟩
      rw [found] at publishes
      dsimp only at publishes
      cases parsed : parse content with
      | error error =>
          rw [parsed] at publishes
          cases publishes
      | ok ranges =>
          rw [parsed] at publishes
          dsimp only at publishes
          split at publishes
          · cases publishes
          · next gaps =>
              split at publishes
              · cases publishes
              · next fits =>
                  cases publication with
                  | failed => cases publishes
                  | renamed synced =>
                      cases publishes
                      exact ⟨content, mode, gid, ranges, rfl, parsed, gaps, Nat.not_lt.mp fits, rfl⟩

/-- Nobody but root may write the file, before and after. -/
theorem lookup_mode {trusted : Bool} {file : Option SubidFile} {content : Text} {mode gid : Nat}
    (found : lookup trusted file = .ok (content, mode, gid)) :
    mode &&& 0o022 = 0 ∧ mode &&& 0o777 = mode := by
  cases file with
  | none =>
      cases found
      decide
  | some file =>
      simp only [lookup, bind_eq_ok, refuse_eq_ok, pure_eq_ok] at found
      rcases found with ⟨_, owned, _, _, _, _, same⟩
      cases same
      have safe : file.mode &&& 0o022 = 0 := by
        simp only [Bool.or_eq_false_iff, bne_eq_false_iff_eq] at owned
        exact owned.2
      constructor
      · rw [Nat.and_assoc, Nat.and_comm 0o777, ← Nat.and_assoc, safe, Nat.zero_and]
      · rw [Nat.and_assoc, Nat.and_self]

/-- The gaps between the ranges of a file are the numbers that no range covers, and
a reservation publishes the old lines followed by one line for each gap.  It does
so exactly when the file has room for these lines. -/
theorem reserved_ranges_kept (min max : Nat) :
    (forall ranges : List Range, min ≤ max -> max < 2 ^ 32 ->
      (forall range, range ∈ ranges -> range.start ≤ range.end_ ∧ range.end_ < 2 ^ 32) ->
      Tidy (missing min max ranges) ∧
        missing min max ranges = gapsBetween min max (ranges.map Range.span) ∧
        forall number, Covered (missing min max ranges) number ↔
          min ≤ number ∧ number ≤ max ∧ ¬ Covered (ranges.map Range.span) number) ∧
      (forall blocked : List (Nat × Nat), min ≤ max -> max < 2 ^ 32 ->
        (forall range, range ∈ blocked -> range.1 ≤ range.2 ∧ range.2 < 2 ^ 32) ->
        Tidy (freeSegments min max blocked) ∧
          freeSegments min max blocked = gapsBetween min max blocked ∧
          forall number, Covered (freeSegments min max blocked) number ↔
            min ≤ number ∧ number ≤ max ∧ ¬ Covered blocked number) ∧
      forall (trusted : Bool) (file : Option SubidFile) (publication : Publication)
        (published : SubidFile), 1 ≤ min -> min ≤ max -> max < 2 ^ 32 - 1 ->
        (reserve trusted file min max publication).2 = some published ->
        ∃ content mode gid ranges, lookup trusted file = .ok (content, mode, gid) ∧
          parse content = .ok ranges ∧
          (Renewed content min max published ↔
            ranges.length + (missing min max ranges).length ≤ maxRanges) := by
  refine ⟨?_, ?_, ?_⟩
  · intro ranges ordered small valid
    have filled := fun range inside => (valid range inside).1
    exact ⟨missing_tidy ordered small filled, missing_eq ordered small filled,
      covered_missing ordered small filled⟩
  · intro blocked ordered small valid
    have filled : forall range, range ∈ blocked.map (fun range => (⟨range.1, range.2, false⟩ : Range)) ->
        range.start ≤ range.end_ := by
      intro range inside
      rcases List.mem_map.mp inside with ⟨origin, present, rfl⟩
      exact (valid origin present).1
    have spans : (blocked.map (fun range => (⟨range.1, range.2, false⟩ : Range))).map Range.span =
        blocked := by
      rw [List.map_map]
      exact List.map_id blocked
    have same := missing_eq ordered small filled
    have covers := covered_missing ordered small filled
    rw [spans] at same covers
    exact ⟨missing_tidy ordered small filled, same, covers⟩
  · intro trusted file publication published low ordered high publishes
    rcases reserve_published publishes with ⟨content, mode, gid, ranges, found, parsed, _, fits, rfl⟩
    refine ⟨content, mode, gid, ranges, found, parsed, ?_⟩
    constructor
    · rintro ⟨_, result, same, _, again, _⟩
      cases same
      exact ((parse_extend parsed low ordered high).mp again).2
    · intro few
      have again := (parse_extend parsed low ordered high).mpr ⟨rfl, few⟩
      have filled := missing_filled parsed low ordered high
      refine ⟨⟨_, _, rfl, ?_, again, fun number => covered_filled parsed ordered high, filled, ?_⟩⟩
      · exact (prefix_terminated content).trans (List.prefix_append _ _)
      · intro publication
        have modes := lookup_mode found
        have looked : lookup true (some ⟨true, 0, 1, mode, gid,
            some (extend content (missing min max ranges))⟩) =
              .ok (extend content (missing min max ranges), mode, gid) := by
          simp [lookup, SubidFile.read, refuse, modes.1, modes.2, Nat.not_lt.mpr fits, bind,
            Except.bind, pure, Except.pure]
        unfold reserve
        rw [looked]
        dsimp only
        rw [again]
        dsimp only
        rw [if_pos filled]

/-! ## A full file -/

namespace OneFile

def line : Text := "a:1:1".toList

def range : Range := ⟨1, 1, false⟩

/-- As many lines as a file may have. -/
def content : Text := (List.replicate maxRanges line).flatMap (fun line => line ++ ['\n'])

def file : SubidFile := ⟨true, 0, 1, 0o644, 0, some content⟩

theorem parse_content : parse content = .ok (List.replicate maxRanges range) := by
  have lines : Text.lines content = List.replicate maxRanges line := by
    apply lines_joined
    intro other member
    rw [List.eq_of_mem_replicate member]
    decide
  have shown : relevant line = true := by decide
  rw [parse_ok, lines, List.filter_replicate_of_pos shown, List.length_replicate]
  refine ⟨?_, Nat.le_refl _⟩
  exact List.forall₂_iff_get.mpr ⟨by simp, fun index first second => by
    rw [List.get_eq_getElem, List.get_eq_getElem, List.getElem_replicate, List.getElem_replicate]
    rfl⟩

theorem missing_content : missing 2 2 (List.replicate maxRanges range) = [(2, 2)] := by
  have none_ : occupied 2 2 ((List.replicate maxRanges range).map Range.span) = [] := by
    unfold occupied
    rw [List.map_replicate, List.filter_replicate_of_neg (by decide)]
    rfl
  unfold missing
  rw [none_]
  rfl

theorem len_append (first second : Text) : Text.len (first ++ second) = first.len + second.len := by
  unfold Text.len
  rw [List.map_append, List.sum_append]

theorem len_replicate (count : Nat) (line : Text) :
    Text.len ((List.replicate count line).flatMap (fun line => line ++ ['\n'])) =
      count * (line.len + 1) := by
  induction count with
  | zero => exact (Nat.zero_mul _).symm
  | succ count ih =>
      rw [List.replicate_succ, List.flatMap_cons, len_append, ih, len_append, Nat.succ_mul,
        Nat.add_comm]
      rfl

theorem len_terminated_le (content : Text) :
    Text.len (terminated content) ≤ Text.len content + 1 := by
  rcases (terminated_cases content).2 with same | closed
  · rw [same]
    exact Nat.le_succ _
  · rw [closed, len_append]
    exact Nat.le_refl _

theorem len_extend : Text.len (extend content [(2, 2)]) ≤ maxBytes := by
  have size : Text.len content = maxRanges * 6 := len_replicate maxRanges line
  have more := len_terminated_le content
  have added : Text.len ([(2, 2)].flatMap (fun gap => gapLine gap ++ ['\n'])) = 6 := by decide
  unfold extend
  rw [len_append, added]
  unfold maxRanges at size
  unfold maxBytes
  omega

/-- The file that is published. -/
def published : SubidFile := ⟨true, 0, 1, 0o644, 0, some (extend content [(2, 2)])⟩

theorem lookup_file {extended : Text} (fits : extended.len ≤ maxBytes) :
    lookup true (some ⟨true, 0, 1, 0o644, 0, some extended⟩) = .ok (extended, 0o644, 0) := by
  simp [lookup, SubidFile.read, refuse, Nat.not_lt.mpr fits, bind, Except.bind, pure, Except.pure]

theorem len_content : Text.len content ≤ maxBytes := by
  have size : Text.len content = maxRanges * 6 := len_replicate maxRanges line
  rw [size]
  decide

/-- A file with gaps is published again when the new text is short enough. -/
theorem reserve_renamed {text : Text} {ranges : List Range} {min max : Nat}
    (fits : text.len ≤ maxBytes) (parsed : parse text = .ok ranges)
    (gaps : missing min max ranges ≠ [])
    (short : Text.len (extend text (missing min max ranges)) ≤ maxBytes) :
    (reserve true (some ⟨true, 0, 1, 0o644, 0, some text⟩) min max (.renamed true)).2 =
      some ⟨true, 0, 1, 0o644, 0, some (extend text (missing min max ranges))⟩ := by
  unfold reserve
  rw [lookup_file fits]
  dsimp only
  rw [parsed]
  dsimp only
  rw [if_neg gaps, if_neg (Nat.not_lt.mpr short)]

/-- A file that cannot be read is left alone. -/
theorem reserve_unreadable {text : Text} {min max : Nat} (fits : text.len ≤ maxBytes)
    (unreadable : forall ranges, parse text ≠ .ok ranges) (publication : Publication) :
    ∃ error, reserve true (some ⟨true, 0, 1, 0o644, 0, some text⟩) min max publication =
      (.error error, none) := by
  unfold reserve
  rw [lookup_file fits]
  dsimp only
  cases parsed : parse text with
  | error error => exact ⟨error, rfl⟩
  | ok ranges => exact absurd parsed (unreadable ranges)

theorem reserve_file :
    (reserve true (some file) 2 2 (.renamed true)).2 = some published := by
  have short : Text.len (extend content (missing 2 2 (List.replicate maxRanges range))) ≤
      maxBytes := by
    rw [missing_content]
    exact len_extend
  have renamed := reserve_renamed len_content parse_content
    (missing_content ▸ List.cons_ne_nil _ _) short
  rw [missing_content] at renamed
  exact renamed

end OneFile

open OneFile in
/-- A file that could be read is replaced by one that cannot, whatever becomes of
later attempts. -/
theorem full_file_refused :
    parse content = .ok (List.replicate maxRanges range) ∧
      (reserve true (some file) 2 2 (.renamed true)).2 = some published ∧
      ¬ Renewed content 2 2 published ∧
      forall publication, ∃ error, reserve true (some published) 2 2 publication =
        (.error error, none) := by
  have unreadable : forall result, parse (extend content [(2, 2)]) ≠ .ok result := by
    intro result again
    rw [← missing_content] at again
    have few := ((parse_extend parse_content (by decide) (by decide) (by decide)).mp again).2
    rw [missing_content, List.length_replicate] at few
    exact absurd few (by decide)
  refine ⟨parse_content, reserve_file, ?_, ?_⟩
  · rintro ⟨text, result, same, _, again, _⟩
    have here : extend content [(2, 2)] = text := Option.some.inj same
    exact unreadable result (here ▸ again)
  · exact reserve_unreadable len_extend unreadable

open OneFile in
theorem reserved_ranges_kept_full :
    ∃ content mode gid ranges, lookup true (some file) = .ok (content, mode, gid) ∧
      parse content = .ok ranges ∧
      (Renewed content 2 2 published ↔
        ranges.length + (missing 2 2 ranges).length ≤ maxRanges) :=
  (reserved_ranges_kept 2 2).2.2 true (some file) (.renamed true) published (by decide) (by decide)
    (by decide) reserve_file

end Subids

end TealDrive
