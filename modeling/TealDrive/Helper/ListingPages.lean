import TealDrive.Helper.Listing

namespace TealDrive

open Outcome

/-!
# The pages of a listing

The pages of a listing are cut out of one sorted list, so they cover it without
gap or repetition, whatever the sort.  What can go wrong is the list.  The sort
by time compares decimal texts, in which `999999999` comes after `1000000000`,
and a time before 1970 has no text; the list is in the order that was asked for
exactly when the texts of every two entries compare as their times do.  And the
list can be read at all only if the entries lie below the configured path of
the root as it is written.
-/

namespace Listing

/-- An entry of the directory with what `lstat` says about it. -/
abbrev Found := Text × Metadata

/-- The order that a request asks for.  Sizes and times are compared as
numbers, and only a regular file has a size. -/
def InOrder (sort : SortMode) (first second : Found) : Prop :=
  let size := fun found : Found => if found.2.kind = .file then found.2.len else 0
  match sort with
  | .nameAsc => first.1 ≤ second.1
  | .nameDesc => second.1 ≤ first.1
  | .modifiedAsc => first.2.seconds ≤ second.2.seconds
  | .modifiedDesc => second.2.seconds ≤ first.2.seconds
  | .sizeAsc => size first ≤ size second
  | .sizeDesc => size second ≤ size first
  | .typeAsc => fileKindOrder first.2.kind ≤ fileKindOrder second.2.kind
  | .typeDesc => fileKindOrder second.2.kind ≤ fileKindOrder first.2.kind

/-- The texts of two times compare as the times do.  When the texts are the
same or both absent, the entry that comes first in the directory stays first. -/
def TimesCompare (sort : SortMode) (first second : Found) : Prop :=
  let text := fun found : Found => Context.modifiedText found.2.seconds
  match sort with
  | .modifiedAsc =>
      if textBefore (text first) (text second) then first.2.seconds ≤ second.2.seconds
      else second.2.seconds ≤ first.2.seconds
  | .modifiedDesc =>
      if textBefore (text second) (text first) then second.2.seconds ≤ first.2.seconds
      else first.2.seconds ≤ second.2.seconds
  | _ => True

instance (sort : SortMode) (first second : Found) : Decidable (TimesCompare sort first second) :=
  match sort with
  | .modifiedAsc => inferInstanceAs (Decidable (ite _ _ _))
  | .modifiedDesc => inferInstanceAs (Decidable (ite _ _ _))
  | .nameAsc | .nameDesc | .sizeAsc | .sizeDesc | .typeAsc | .typeDesc => .isTrue ⟨⟩

/-- A listing is delivered page by page: a reader comes to an end, and has then
seen every wanted entry once and in order; each page tells how many there are
and whether any are still to come. -/
def Delivered (fetch : Option Text -> Except Refusal HelperDirectoryList) (sort : SortMode)
    (shown : Found -> HelperDirectoryEntry) (wanted : List Found) : Prop :=
  ∃ (pages : List HelperDirectoryList) (arranged : List Found),
    Pages.Followed fetch HelperDirectoryList.nextCursor none pages ∧
      arranged.Perm wanted ∧ arranged.Pairwise (InOrder sort) ∧
      pages.flatMap HelperDirectoryList.entries = arranged.map shown ∧
      forall before page after, pages = before ++ page :: after ->
        page.totalEstimate = some wanted.length ∧
          (page.hasMore = true ↔
            ((before ++ [page]).flatMap HelperDirectoryList.entries).length < wanted.length)

end Listing

/-! ## One page -/

section Page

variable {entries : List HelperDirectoryEntry} {limit offset : Nat}

theorem parseUsize_toDigits {number : Nat} (small : number < 2 ^ 64) :
    parseUsize (Nat.toDigits 10 number) = some number := by
  have digits : forall symbol, symbol ∈ Nat.toDigits 10 number -> symbol.isDigit = true := by
    intro symbol member
    exact Nat.isDigit_of_mem_toDigits (by decide) (by decide) member
  have unsigned : (Nat.toDigits 10 number).head? ≠ some '+' := by
    intro sign
    have digit := digits '+' (List.mem_of_head? sign)
    exact absurd digit (by decide)
  simp only [parseUsize, if_neg unsigned, Nat.ofDigitChars_ten_toDigits]
  exact if_pos ⟨Nat.toDigits_ne_nil, List.all_eq_true.mpr digits, small⟩

theorem parseCursorOffset_offsetCursor {number : Nat} (small : number < 2 ^ 64) :
    parseCursorOffset (some (offsetCursor number)) = some number := by
  have stripped : Text.stripPrefix cursorPrefix (offsetCursor number) =
      some (Nat.toDigits 10 number) := by
    have before : cursorPrefix.isPrefixOf (offsetCursor number) = true :=
      List.isPrefixOf_iff_prefix.mpr (List.prefix_append _ _)
    rw [Text.stripPrefix, if_pos before, offsetCursor, List.drop_left]
  simp only [parseCursorOffset, stripped, Option.bind_eq_bind, Option.bind_some]
  exact parseUsize_toDigits small

theorem pageAt_hasMore :
    (Context.pageAt entries limit offset).hasMore = true ↔ offset + limit < entries.length := by
  simp only [Context.pageAt, decide_eq_true_eq, List.length_take, List.length_drop]
  omega

theorem pageAt_entries :
    (Context.pageAt entries limit offset).entries = (entries.drop offset).take limit := by
  simp only [Context.pageAt]
  split
  · rw [List.take_take, Nat.min_eq_left (Nat.le_succ limit)]
  · rename_i short
    simp only [decide_eq_true_eq, List.length_take, List.length_drop] at short
    rw [List.take_of_length_le (by simp only [List.length_drop]; omega),
      List.take_of_length_le (by simp only [List.length_drop]; omega)]

theorem pageAt_nextCursor :
    (Context.pageAt entries limit offset).nextCursor =
      if offset + limit < entries.length then some (offsetCursor (offset + limit)) else none := by
  by_cases more : offset + limit < entries.length
  · have full : (Context.pageAt entries limit offset).entries.length = limit := by
      rw [pageAt_entries, List.length_take, List.length_drop]
      omega
    have same : (Context.pageAt entries limit offset).nextCursor =
        if (Context.pageAt entries limit offset).hasMore = true then
          some (offsetCursor (offset + (Context.pageAt entries limit offset).entries.length))
        else none := rfl
    rw [same, if_pos (pageAt_hasMore.mpr more), full, if_pos more]
  · have same : (Context.pageAt entries limit offset).nextCursor =
        if (Context.pageAt entries limit offset).hasMore = true then
          some (offsetCursor (offset + (Context.pageAt entries limit offset).entries.length))
        else none := rfl
    rw [same, if_neg (fun further => more (pageAt_hasMore.mp further)), if_neg more]

end Page

/-! ## All pages -/

section AllPages

variable {entries : List HelperDirectoryEntry} {limit : Nat}
  {fetch : Option Text -> Except Refusal HelperDirectoryList}

/-- The offset that a cursor stands for. -/
def offsetOf (cursor : Option Text) : Nat :=
  (parseCursorOffset cursor).getD 0

/-- A cursor that a page carries stands for the place behind the page. -/
theorem next_offset (small : entries.length < 2 ^ 64) {offset : Nat} {later : Text}
    (next : (Context.pageAt entries limit offset).nextCursor = some later) :
    offset + limit < entries.length ∧ offsetOf (some later) = offset + limit := by
  rw [pageAt_nextCursor] at next
  split at next
  · rename_i more
    cases next
    refine ⟨more, ?_⟩
    rw [offsetOf, parseCursorOffset_offsetCursor (by omega)]
    rfl
  · cases next

/-- A reader comes to the end of a list that is cut into pages. -/
theorem exists_pages (small : entries.length < 2 ^ 64) (positive : 0 < limit)
    (fetched : forall cursor, fetch cursor = .ok (Context.pageAt entries limit (offsetOf cursor))) :
    ∃ pages, Pages.Followed fetch HelperDirectoryList.nextCursor none pages := by
  apply Pages.exists_followed (fun _ => True) (fun cursor => entries.length - offsetOf cursor)
  · intro cursor _
    refine ⟨_, fetched cursor, ?_⟩
    intro later next
    rcases next_offset small next with ⟨more, place⟩
    refine ⟨⟨⟩, ?_⟩
    rw [place]
    omega
  · exact ⟨⟩

/-- The pages from a cursor on hold what lies behind its offset. -/
theorem pages_entries (small : entries.length < 2 ^ 64)
    (fetched : forall cursor, fetch cursor = .ok (Context.pageAt entries limit (offsetOf cursor)))
    {cursor : Option Text} {pages : List HelperDirectoryList}
    (followed : Pages.Followed fetch HelperDirectoryList.nextCursor cursor pages) :
    pages.flatMap HelperDirectoryList.entries = entries.drop (offsetOf cursor) := by
  refine Pages.Followed.items_eq (fun _ => True) (fun cursor => entries.drop (offsetOf cursor)) ?_
    followed ⟨⟩
  intro cursor page _ here
  rw [fetched cursor] at here
  cases here
  constructor
  · intro last
    have ends : ¬ offsetOf cursor + limit < entries.length := by
      intro more
      rw [pageAt_nextCursor, if_pos more] at last
      cases last
    rw [pageAt_entries, List.take_of_length_le (by rw [List.length_drop]; omega)]
  · intro later next
    rcases next_offset small next with ⟨_, place⟩
    refine ⟨⟨⟩, ?_⟩
    rw [pageAt_entries, place, ← List.drop_drop, List.take_append_drop]

/-- Each page tells how many entries there are and whether more come. -/
theorem pages_agree (small : entries.length < 2 ^ 64)
    (fetched : forall cursor, fetch cursor = .ok (Context.pageAt entries limit (offsetOf cursor)))
    {pages before after : List HelperDirectoryList} {page : HelperDirectoryList}
    (followed : Pages.Followed fetch HelperDirectoryList.nextCursor none pages)
    (split : pages = before ++ page :: after) :
    page.totalEstimate = some entries.length ∧
      (page.hasMore = true ↔
        ((before ++ [page]).flatMap HelperDirectoryList.entries).length < entries.length) := by
  have total : entries.length =
      ((before ++ [page]).flatMap HelperDirectoryList.entries).length +
        (after.flatMap HelperDirectoryList.entries).length := by
    have whole := pages_entries small fetched followed
    have parts : before ++ page :: after = (before ++ [page]) ++ after := by simp
    have start : offsetOf none = 0 := rfl
    rw [split, parts, List.flatMap_append, start, List.drop_zero] at whole
    rw [← List.length_append, whole]
  rcases followed.split split with ⟨cursor, here, behind⟩
  rw [fetched cursor] at here
  cases here
  refine ⟨rfl, ?_⟩
  rw [pageAt_hasMore]
  rcases behind with ⟨last, none⟩ | ⟨later, next, rest⟩
  · have ends : ¬ offsetOf cursor + limit < entries.length := by
      intro more
      rw [pageAt_nextCursor, if_pos more] at last
      cases last
    rw [none, List.flatMap_nil, List.length_nil] at total
    omega
  · rcases next_offset small next with ⟨more, place⟩
    have remaining := pages_entries small fetched rest
    rw [remaining, place, List.length_drop] at total
    omega

end AllPages

/-! ## What is collected -/

section Collected

variable (context : Context) (files : FileSystem) (directory : List Text) (root : AllowedRoot)
  (options : HelperListDirectoryOptions)

/-- The entries that are looked at. -/
def Considered (names : List (Option Text)) (name : Text) : Prop :=
  some name ∈ names ∧ Context.passesOver root options.includeHidden name = false

/-- What the listing says about an entry, given where it lies below the root. -/
def entryAt (place : Text -> List Text) : Option Text -> Option HelperDirectoryEntry
  | none => none
  | some name =>
      if Context.passesOver root options.includeHidden name then none
      else
        match files.symlinkMetadata (directory ++ [name]) with
        | .ok metadata => context.listedEntry root options.filter (place name) name metadata
        | .error _ => none

/-- The place of an entry as the code computes it. -/
def strippedPlace (name : Text) : List Text :=
  (directory ++ [name]).drop (segmentNames root.basePath).length

/-- The collection succeeds when every entry that is looked at can be read and
lies below the configured path as it is written. -/
theorem collectLoop_eq_ok_iff {names : List (Option Text)} {items : List HelperDirectoryEntry} :
    context.collectLoop files directory root options.filter options.includeHidden
        (names.map .ok) = .ok items ↔
      (forall name, Considered root options names name ->
        (∃ metadata, files.symlinkMetadata (directory ++ [name]) = .ok metadata) ∧
          segmentNames root.basePath <+: directory ++ [name]) ∧
        items = names.filterMap
          (entryAt context files directory root options (strippedPlace directory root)) := by
  induction names generalizing items with
  | nil =>
      simp only [List.map_nil, Context.collectLoop, Except.ok.injEq, List.filterMap_nil]
      constructor
      · intro nothing
        refine ⟨?_, nothing.symm⟩
        rintro name ⟨member, _⟩
        cases member
      · rintro ⟨_, nothing⟩
        exact nothing.symm
  | cons entry rest ih =>
      cases entry with
      | none =>
          simp only [List.map_cons, Context.collectLoop, bind_eq_ok, Except.ok.injEq,
            exists_eq_left', ih, Considered, List.mem_cons, reduceCtorEq, false_or,
            List.filterMap_cons, entryAt]
      | some name =>
          simp only [List.map_cons, Context.collectLoop, bind_eq_ok, Except.ok.injEq,
            exists_eq_left']
          cases passed : Context.passesOver root options.includeHidden name with
          | true =>
              have skipped : forall other, Considered root options (some name :: rest) other ↔
                  Considered root options rest other := by
                intro other
                constructor
                · rintro ⟨member, seen⟩
                  rcases List.mem_cons.mp member with same | later
                  · cases same
                    rw [passed] at seen
                    cases seen
                  · exact ⟨later, seen⟩
                · rintro ⟨member, seen⟩
                  exact ⟨List.mem_cons_of_mem _ member, seen⟩
              simp only [if_true, ih, skipped, List.filterMap_cons, entryAt, passed]
          | false =>
              have parted : forall fact : Text -> Prop,
                  (forall other, Considered root options (some name :: rest) other -> fact other) ↔
                    fact name ∧ forall other, Considered root options rest other -> fact other := by
                intro fact
                constructor
                · intro all
                  exact ⟨all name ⟨List.mem_cons_self, passed⟩, fun other seen =>
                    all other ⟨List.mem_cons_of_mem _ seen.1, seen.2⟩⟩
                · rintro ⟨here, later⟩ other ⟨member, seen⟩
                  rcases List.mem_cons.mp member with same | there
                  · cases same
                    exact here
                  · exact later other ⟨there, seen⟩
              simp only [Bool.false_eq_true, if_false, bind_eq_ok, ih, parted, pure_eq_ok,
                Context.collectEntry, refuse_eq_ok, Bool.not_eq_false', List.isPrefixOf_iff_prefix,
                List.filterMap_cons, entryAt, passed]
              constructor
              · rintro ⟨_, ⟨metadata, read, _, below, rfl⟩, _, ⟨others, rfl⟩, rfl⟩
                refine ⟨⟨⟨⟨metadata, read⟩, below⟩, others⟩, ?_⟩
                rw [read]
                simp only [strippedPlace]
                cases context.listedEntry root options.filter _ name metadata <;> rfl
              · rintro ⟨⟨⟨⟨metadata, read⟩, below⟩, others⟩, rfl⟩
                refine ⟨_, ⟨metadata, read, ⟨⟩, below, rfl⟩, _, ⟨others, rfl⟩, ?_⟩
                rw [read]
                simp only [strippedPlace]
                cases context.listedEntry root options.filter _ name metadata <;> rfl

/-! ## What is wanted -/

variable (base : List Text)

/-- The place of an entry below the root as it was resolved. -/
def truePlace (name : Text) : List Text :=
  directory.drop base.length ++ [name]

/-- An entry that the caller may see and asked for. -/
def foundAt : Option Text -> Option Listing.Found
  | none => none
  | some name =>
      if Context.passesOver root options.includeHidden name then none
      else
        match files.symlinkMetadata (directory ++ [name]) with
        | .ok metadata =>
            if context.visible (belowRoot (truePlace directory base name)) metadata &&
                matchesFilter name metadata.kind options.filter then some (name, metadata)
            else none
        | .error _ => none

def wanted (names : List (Option Text)) : List Listing.Found :=
  names.filterMap (foundAt context files directory root options base)

/-- What a page says about an entry. -/
def shown (found : Listing.Found) : HelperDirectoryEntry :=
  context.refineCapabilities
    (Context.directoryEntryFromMetadata found.1 found.2 root context.config.sensitivePolicy)
    (belowRoot (truePlace directory base found.1))

/-- Every entry lies below the configured path of the root as it is written,
and the caller sees the same of it there as at its place below the root. -/
def Placed (names : List (Option Text)) : Prop :=
  forall name metadata, Considered root options names name ->
    files.symlinkMetadata (directory ++ [name]) = .ok metadata ->
    segmentNames root.basePath <+: directory ++ [name] ∧
      context.listedEntry root options.filter (strippedPlace directory root name) name metadata =
        context.listedEntry root options.filter (truePlace directory base name) name metadata

variable {context files directory root options base}

theorem foundAt_eq_some_iff {entry : Option Text} {found : Listing.Found} :
    foundAt context files directory root options base entry = some found ↔
      entry = some found.1 ∧ Context.passesOver root options.includeHidden found.1 = false ∧
        files.symlinkMetadata (directory ++ [found.1]) = .ok found.2 ∧
        context.visible (belowRoot (truePlace directory base found.1)) found.2 = true ∧
        matchesFilter found.1 found.2.kind options.filter = true := by
  cases entry with
  | none => simp [foundAt]
  | some name =>
      simp only [foundAt, Option.some.injEq]
      constructor
      · intro seen
        split at seen
        · cases seen
        · rename_i considered
          split at seen
          · rename_i metadata read
            split at seen
            · rename_i allowed
              cases seen
              rw [Bool.and_eq_true] at allowed
              exact ⟨rfl, Bool.eq_false_iff.mpr considered, read, allowed⟩
            · cases seen
          · cases seen
      · rintro ⟨rfl, considered, read, visible, matching⟩
        rw [considered, read]
        simp only [Bool.false_eq_true, if_false, visible, matching, Bool.and_self, if_true]

theorem listedEntry_eq_some_iff {place : List Text} {name : Text} {metadata : Metadata}
    {filter : FilterMode} {item : HelperDirectoryEntry} :
    context.listedEntry root filter place name metadata = some item ↔
      context.visible (belowRoot place) metadata = true ∧
        matchesFilter name metadata.kind filter = true ∧
        context.refineCapabilities
          (Context.directoryEntryFromMetadata name metadata root context.config.sensitivePolicy)
          (belowRoot place) = item := by
  simp only [Context.listedEntry, Option.ite_none_right_eq_some, Bool.and_eq_true,
    Option.some.injEq, and_assoc]

/-- At its place below the root an entry is listed when it is wanted. -/
theorem entryAt_truePlace (entry : Option Text) :
    entryAt context files directory root options (truePlace directory base) entry =
      (foundAt context files directory root options base entry).map
        (shown context directory root base) := by
  cases entry with
  | none => rfl
  | some name =>
      simp only [entryAt, foundAt]
      split
      · rfl
      · split
        · simp only [Context.listedEntry]
          split <;> rfl
        · rfl

theorem entries_eq_wanted (names : List (Option Text)) :
    names.filterMap (entryAt context files directory root options (truePlace directory base)) =
      (wanted context files directory root options base names).map
        (shown context directory root base) := by
  rw [wanted, List.map_filterMap]
  apply congrFun
  apply congrArg
  funext entry
  exact entryAt_truePlace entry

/-- A root whose configured path is canonical places every entry. -/
theorem placed_of_canonical {names : List (Option Text)} (canonical : segmentNames root.basePath = base)
    (below : base <+: directory) : Placed context files directory root options base names := by
  rcases below with ⟨rest, rfl⟩
  intro name metadata _ _
  have same : strippedPlace (base ++ rest) root name = truePlace (base ++ rest) base name := by
    rw [strippedPlace, truePlace, canonical, List.append_assoc, List.drop_left, List.drop_left]
  refine ⟨?_, by rw [same]⟩
  rw [canonical, List.append_assoc]
  exact List.prefix_append _ _

/-- Entries that are placed are listed as they are wanted. -/
theorem Placed.collected {names : List (Option Text)}
    (placed : Placed context files directory root options base names) :
    names.filterMap (entryAt context files directory root options (strippedPlace directory root)) =
      (wanted context files directory root options base names).map
        (shown context directory root base) := by
  rw [← entries_eq_wanted]
  apply List.filterMap_congr
  intro entry member
  cases entry with
  | none => rfl
  | some name =>
      simp only [entryAt]
      split
      · rfl
      · rename_i considered
        cases read : files.symlinkMetadata (directory ++ [name]) with
        | error _ => rfl
        | ok metadata =>
            exact (placed name metadata ⟨member, Bool.eq_false_iff.mpr considered⟩ read).2

/-- Entries are placed when what is collected is what is wanted, in some
order. -/
theorem placed_of_perm {names : List (Option Text)}
    (below : forall name, Considered root options names name ->
      segmentNames root.basePath <+: directory ++ [name])
    (perm : (names.filterMap (entryAt context files directory root options
      (strippedPlace directory root))).Perm
      ((wanted context files directory root options base names).map
        (shown context directory root base))) :
    Placed context files directory root options base names := by
  intro name metadata considered read
  refine ⟨below name considered, ?_⟩
  have here : entryAt context files directory root options (strippedPlace directory root)
      (some name) = context.listedEntry root options.filter (strippedPlace directory root name) name
        metadata := by
    simp only [entryAt, considered.2, Bool.false_eq_true, if_false, read]
  ext item
  constructor
  · intro listed
    have member := perm.mem_iff.mp (List.mem_filterMap.mpr
      ⟨some name, considered.1, here.trans listed⟩)
    rcases List.mem_map.mp member with ⟨found, isWanted, same⟩
    rcases List.mem_filterMap.mp isWanted with ⟨entry, _, seen⟩
    rcases foundAt_eq_some_iff.mp seen with ⟨_, _, again, visible, matching⟩
    have names : found.1 = name := by
      rw [← (listedEntry_eq_some_iff.mp listed).2.2] at same
      exact congrArg HelperDirectoryEntry.name same
    rw [names, read] at again
    cases again
    rw [names] at visible matching
    refine listedEntry_eq_some_iff.mpr ⟨visible, matching, ?_⟩
    rw [← same, shown, names]
  · intro listed
    rcases listedEntry_eq_some_iff.mp listed with ⟨visible, matching, rfl⟩
    have isWanted : (name, metadata) ∈ wanted context files directory root options base names :=
      List.mem_filterMap.mpr ⟨some name, considered.1,
        foundAt_eq_some_iff.mpr ⟨rfl, considered.2, read, visible, matching⟩⟩
    rcases List.mem_filterMap.mp (perm.mem_iff.mpr (List.mem_map_of_mem isWanted)) with
      ⟨entry, _, seen⟩
    cases entry with
    | none => cases seen
    | some other =>
        have same : other = name := by
          simp only [entryAt] at seen
          split at seen
          · cases seen
          · split at seen
            · rename_i otherMetadata _
              have names := congrArg HelperDirectoryEntry.name (listedEntry_eq_some_iff.mp seen).2.2
              exact names
            · cases seen
        rw [same, here] at seen
        exact seen

end Collected

/-! ## The order -/

/-- `sort_entries` on the entries that are shown. -/
def shownBefore (context : Context) (directory : List Text) (root : AllowedRoot) (base : List Text)
    (sort : SortMode) (first second : Listing.Found) : Prop :=
  sortBefore sort (shown context directory root base first)
    (shown context directory root base second) = true

instance (context : Context) (directory : List Text) (root : AllowedRoot) (base : List Text)
    (sort : SortMode) : DecidableRel (shownBefore context directory root base sort) :=
  fun _ _ => inferInstanceAs (Decidable (_ = true))

theorem textBefore_total (first second : Option Text) :
    textBefore first second = true ∨ textBefore second first = true := by
  cases first with
  | none => exact Or.inl rfl
  | some one =>
      cases second with
      | none => exact Or.inr rfl
      | some other =>
          simp only [textBefore, decide_eq_true_eq]
          exact le_total one other

theorem textBefore_trans {first second third : Option Text}
    (left : textBefore first second = true) (right : textBefore second third = true) :
    textBefore first third = true := by
  cases first with
  | none => rfl
  | some one =>
      cases second with
      | none => cases left
      | some other =>
          cases third with
          | none => cases right
          | some last =>
              simp only [textBefore, decide_eq_true_eq] at left right ⊢
              exact le_trans left right

theorem sortBefore_total (sort : SortMode) (first second : HelperDirectoryEntry) :
    sortBefore sort first second = true ∨ sortBefore sort second first = true := by
  cases sort with
  | nameAsc => simpa only [sortBefore, decide_eq_true_eq] using le_total _ _
  | nameDesc => simpa only [sortBefore, decide_eq_true_eq] using le_total _ _
  | modifiedAsc => exact textBefore_total _ _
  | modifiedDesc => exact textBefore_total _ _
  | sizeAsc => simpa only [sortBefore, decide_eq_true_eq] using Nat.le_total _ _
  | sizeDesc => simpa only [sortBefore, decide_eq_true_eq] using Nat.le_total _ _
  | typeAsc => simpa only [sortBefore, decide_eq_true_eq] using Nat.le_total _ _
  | typeDesc => simpa only [sortBefore, decide_eq_true_eq] using Nat.le_total _ _

theorem sortBefore_trans (sort : SortMode) {first second third : HelperDirectoryEntry}
    (left : sortBefore sort first second = true) (right : sortBefore sort second third = true) :
    sortBefore sort first third = true := by
  cases sort with
  | modifiedAsc => exact textBefore_trans left right
  | modifiedDesc => exact textBefore_trans right left
  | nameAsc =>
      simp only [sortBefore, decide_eq_true_eq] at left right ⊢
      exact le_trans left right
  | nameDesc =>
      simp only [sortBefore, decide_eq_true_eq] at left right ⊢
      exact le_trans right left
  | sizeAsc =>
      simp only [sortBefore, decide_eq_true_eq] at left right ⊢
      exact Nat.le_trans left right
  | sizeDesc =>
      simp only [sortBefore, decide_eq_true_eq] at left right ⊢
      exact Nat.le_trans right left
  | typeAsc =>
      simp only [sortBefore, decide_eq_true_eq] at left right ⊢
      exact Nat.le_trans left right
  | typeDesc =>
      simp only [sortBefore, decide_eq_true_eq] at left right ⊢
      exact Nat.le_trans right left

/-- Names, sizes and kinds are compared as the request asks; times agree with
it where their texts compare as they do. -/
theorem agree_iff_timesCompare {context : Context} {directory : List Text} {root : AllowedRoot}
    {base : List Text} {sort : SortMode} (first second : Listing.Found) :
    Sorting.Agree (shownBefore context directory root base sort) (Listing.InOrder sort) first
        second ↔ Listing.TimesCompare sort first second := by
  have exactly : (forall one other, shownBefore context directory root base sort one other ↔
      Listing.InOrder sort one other) ->
      Sorting.Agree (shownBefore context directory root base sort) (Listing.InOrder sort) first
        second := by
    intro same
    apply Sorting.agree_of_respects
    · intro one other
      exact sortBefore_total sort _ _
    · intro one other before
      exact (same one other).mp before
  have timed : forall (earlier : Bool) (one other : Prop), ((earlier = true -> one) ∧
      (¬ earlier = true -> other)) ↔ if earlier = true then one else other := by
    intro earlier one other
    cases earlier <;> simp
  cases sort with
  | modifiedAsc => exact timed _ _ _
  | modifiedDesc => exact timed _ _ _
  | nameAsc => exact iff_of_true (exactly (fun _ _ => decide_eq_true_iff)) ⟨⟩
  | nameDesc => exact iff_of_true (exactly (fun _ _ => decide_eq_true_iff)) ⟨⟩
  | sizeAsc => exact iff_of_true (exactly (fun _ _ => decide_eq_true_iff)) ⟨⟩
  | sizeDesc => exact iff_of_true (exactly (fun _ _ => decide_eq_true_iff)) ⟨⟩
  | typeAsc => exact iff_of_true (exactly (fun _ _ => decide_eq_true_iff)) ⟨⟩
  | typeDesc => exact iff_of_true (exactly (fun _ _ => decide_eq_true_iff)) ⟨⟩

/-- What is sorted stands in the order that was asked for exactly when the
times compare, pair by pair. -/
theorem sorted_inOrder_iff {context : Context} {directory : List Text} {root : AllowedRoot}
    {base : List Text} {sort : SortMode} {found : List Listing.Found} :
    (found.insertionSort (shownBefore context directory root base sort)).Pairwise
        (Listing.InOrder sort) ↔ found.Pairwise (Listing.TimesCompare sort) := by
  have trans : forall first second third, shownBefore context directory root base sort first second ->
      shownBefore context directory root base sort second third ->
      shownBefore context directory root base sort first third :=
    fun _ _ _ => sortBefore_trans sort
  have total : forall first second, shownBefore context directory root base sort first second ∨
      shownBefore context directory root base sort second first :=
    fun _ _ => sortBefore_total sort _ _
  rw [Sorting.pairwise_insertionSort_iff trans total]
  exact List.Pairwise.iff agree_iff_timesCompare

/-! ## A directory that can be listed -/

section Opened

variable (context : Context) (files : FileSystem) (options : HelperListDirectoryOptions)

/-- The page that a cursor leads to. -/
def fetchPage (cursor : Option Text) : Except Refusal HelperDirectoryList :=
  context.listDirectoryWithRoots files (some { options with cursor := cursor })

/-- The request names a directory, the caller may list it, and its entries can
be read. -/
structure Opened (root : AllowedRoot) (base directory : List Text) (names : List (Option Text)) :
    Prop where
  command : context.request.command = .listDirectory
  user : context.request.uid ≠ 0
  known : context.config.roots.find? (fun root => root.rootId == context.request.rootId) = some root
  filter : options.filter.isValid = true
  limit : 0 < context.pageLimit options
  canonical : files.canonicalize (segmentNames root.basePath) = .ok base
  resolved : context.resolveDirectory files root context.request.relativePath = .ok directory
  isDirectory : ∃ metadata, files.metadata directory = .ok metadata ∧ metadata.kind = .directory
  listed : files.readDir directory = .ok (names.map .ok)
  read : forall name, Considered root options names name ->
    ∃ metadata, files.symlinkMetadata (directory ++ [name]) = .ok metadata
  small : names.length < 2 ^ 64

variable {context files options} {root : AllowedRoot} {base directory : List Text}
  {names : List (Option Text)}

theorem Opened.fetchPage_eq_ok_iff (opened : Opened context files options root base directory names)
    {cursor : Option Text} {page : HelperDirectoryList} :
    fetchPage context files options cursor = .ok page ↔
      ∃ items, context.collectLoop files directory root options.filter options.includeHidden
          (names.map .ok) = .ok items ∧
        Context.pageAt (sortEntries items options.sort) (context.pageLimit options)
          (offsetOf cursor) = page := by
  rcases opened.isDirectory with ⟨metadata, answered, kind⟩
  have known : okOr (context.config.roots.find? (fun root =>
      root.rootId == context.request.rootId)) Refusal.unknownRoot = .ok root := by
    rw [opened.known]
    rfl
  have limits : context.pageLimit { options with cursor := cursor } = context.pageLimit options :=
    rfl
  simp only [fetchPage, Context.listDirectoryWithRoots, bind_eq_ok, refuse_eq_ok, known,
    opened.command, bne_self_eq_false, beq_eq_false_iff_ne, ne_eq, opened.user, not_false_eq_true,
    Except.ok.injEq, exists_eq_left', Option.getD_some, opened.filter, Bool.not_true,
    mapError_eq_ok, opened.resolved, answered, kind, Context.collectEntries, opened.listed,
    pure_eq_ok, exists_const, true_and, offsetOf, limits]

/-- The listing of a directory as a request asks for it. -/
def Listed (context : Context) (files : FileSystem) (options : HelperListDirectoryOptions)
    (root : AllowedRoot) (base directory : List Text) (names : List (Option Text)) : Prop :=
  Listing.Delivered (fetchPage context files options) options.sort
    (shown context directory root base) (wanted context files directory root options base names)

/-- Sorting what is shown shows what is sorted. -/
theorem sortEntries_shown (found : List Listing.Found) :
    sortEntries (found.map (shown context directory root base)) options.sort =
      (found.insertionSort (shownBefore context directory root base options.sort)).map
        (shown context directory root base) := by
  rw [sortEntries]
  refine (List.map_insertionSort _ _ _ _ ?_).symm
  intro _ _ _ _
  rfl

theorem length_collected_le (items : List (Option Text)) (place : Text -> List Text) :
    (items.filterMap (entryAt context files directory root options place)).length ≤
      items.length :=
  List.length_filterMap_le _ _

/-- What a reader of a listed directory has collected in the end. -/
theorem Opened.read_pages (opened : Opened context files options root base directory names)
    (listed : Listed context files options root base directory names) :
    ∃ arranged : List Listing.Found,
      arranged.Perm (wanted context files directory root options base names) ∧
      arranged.Pairwise (Listing.InOrder options.sort) ∧
      (forall name, Considered root options names name ->
        segmentNames root.basePath <+: directory ++ [name]) ∧
      sortEntries (names.filterMap (entryAt context files directory root options
        (strippedPlace directory root))) options.sort =
          arranged.map (shown context directory root base) := by
  rcases listed with ⟨pages, arranged, followed, perm, ordered, whole, _⟩
  rcases followed.fetched with ⟨page, fetched⟩
  rcases opened.fetchPage_eq_ok_iff.mp fetched with ⟨items, collected, _⟩
  rcases (collectLoop_eq_ok_iff context files directory root options).mp collected with
    ⟨below, same⟩
  have every : forall cursor, fetchPage context files options cursor =
      .ok (Context.pageAt (sortEntries items options.sort) (context.pageLimit options)
        (offsetOf cursor)) := by
    intro cursor
    exact opened.fetchPage_eq_ok_iff.mpr ⟨items, collected, rfl⟩
  have small : (sortEntries items options.sort).length < 2 ^ 64 := by
    rw [sortEntries, List.length_insertionSort, same]
    exact lt_of_le_of_lt (length_collected_le _ _) opened.small
  refine ⟨arranged, perm, ordered, fun name considered => (below name considered).2, ?_⟩
  rw [← whole, pages_entries small every followed, ← same]
  rfl

/-- A listed directory lies below the configured path. -/
theorem Opened.placed (opened : Opened context files options root base directory names)
    (listed : Listed context files options root base directory names) :
    Placed context files directory root options base names := by
  rcases opened.read_pages listed with ⟨arranged, perm, _, below, whole⟩
  apply placed_of_perm below
  have sorted : (sortEntries (names.filterMap (entryAt context files directory root options
      (strippedPlace directory root))) options.sort).Perm
      (names.filterMap (entryAt context files directory root options
        (strippedPlace directory root))) := List.perm_insertionSort _ _
  rw [whole] at sorted
  exact sorted.symm.trans (perm.map _)

/-- Entries of the directory are told apart by what is shown of them. -/
theorem map_shown_injective {first second : List Listing.Found}
    (left : forall found, found ∈ first ->
      found ∈ wanted context files directory root options base names)
    (right : forall found, found ∈ second ->
      found ∈ wanted context files directory root options base names)
    (same : first.map (shown context directory root base) =
      second.map (shown context directory root base)) : first = second := by
  have recovered : forall found, found ∈ wanted context files directory root options base names ->
      foundAt context files directory root options base
        (some (shown context directory root base found).name) = some found := by
    intro found member
    rcases List.mem_filterMap.mp member with ⟨entry, _, seen⟩
    have named := (foundAt_eq_some_iff.mp seen).1
    rw [named] at seen
    exact seen
  have back : forall list : List Listing.Found, (forall found, found ∈ list ->
      found ∈ wanted context files directory root options base names) ->
      (list.map (shown context directory root base)).map (fun item =>
        foundAt context files directory root options base (some item.name)) = list.map some := by
    intro list members
    rw [List.map_map]
    apply List.map_congr_left
    intro found member
    exact recovered found (members found member)
  have lists := congrArg (List.map (fun item => foundAt context files directory root options base
    (some (HelperDirectoryEntry.name item)))) same
  rw [back first left, back second right] at lists
  exact List.map_injective_iff.mpr (Option.some_injective _) lists

/-- In a listed directory the texts of the times compare as the times do. -/
theorem Opened.timesCompare (opened : Opened context files options root base directory names)
    (listed : Listed context files options root base directory names) :
    (wanted context files directory root options base names).Pairwise
      (Listing.TimesCompare options.sort) := by
  have placed := opened.placed listed
  rcases opened.read_pages listed with ⟨arranged, perm, ordered, _, whole⟩
  rw [placed.collected, sortEntries_shown] at whole
  have same := map_shown_injective (fun found member => (List.mem_insertionSort _).mp member)
    (fun found member => perm.mem_iff.mp member) whole
  rw [← same] at ordered
  exact sorted_inOrder_iff.mp ordered

/-- A directory is listed as it was asked for, page by page, exactly when its
entries lie below the configured path of the root and, for a sort by time, the
texts of their times compare as the times do. -/
theorem listed_iff (opened : Opened context files options root base directory names) :
    Listed context files options root base directory names ↔
      Placed context files directory root options base names ∧
        (wanted context files directory root options base names).Pairwise
          (Listing.TimesCompare options.sort) := by
  constructor
  · intro listed
    exact ⟨opened.placed listed, opened.timesCompare listed⟩
  · rintro ⟨placed, compare⟩
    have collected : context.collectLoop files directory root options.filter options.includeHidden
        (names.map .ok) = .ok ((wanted context files directory root options base names).map
          (shown context directory root base)) := by
      refine (collectLoop_eq_ok_iff context files directory root options).mpr ⟨?_, ?_⟩
      · intro name considered
        rcases opened.read name considered with ⟨metadata, read⟩
        exact ⟨⟨metadata, read⟩, (placed name metadata considered read).1⟩
      · exact placed.collected.symm
    have every : forall cursor, fetchPage context files options cursor =
        .ok (Context.pageAt (sortEntries ((wanted context files directory root options base
          names).map (shown context directory root base)) options.sort)
          (context.pageLimit options) (offsetOf cursor)) := by
      intro cursor
      exact opened.fetchPage_eq_ok_iff.mpr ⟨_, collected, rfl⟩
    have length : (sortEntries ((wanted context files directory root options base names).map
        (shown context directory root base)) options.sort).length =
        (wanted context files directory root options base names).length := by
      rw [sortEntries, List.length_insertionSort, List.length_map]
    have small : (sortEntries ((wanted context files directory root options base names).map
        (shown context directory root base)) options.sort).length < 2 ^ 64 := by
      rw [length]
      exact lt_of_le_of_lt (List.length_filterMap_le _ _) opened.small
    rcases exists_pages small opened.limit every with ⟨pages, followed⟩
    refine ⟨pages, _, followed, List.perm_insertionSort
      (shownBefore context directory root base options.sort) _, sorted_inOrder_iff.mpr compare, ?_,
      ?_⟩
    · rw [pages_entries small every followed, ← sortEntries_shown]
      rfl
    · intro before page after split
      have agree := pages_agree small every followed split
      rw [length] at agree
      exact agree

end Opened

/-! ## A directory with two files -/

/-- A root at its own place with two files of the given times. -/
def twoFiles (first second : Int) : FileSystem where
  canonicalize := .ok
  symlinkMetadata := fun path =>
    if path = ["home".toList] then .ok ⟨.directory, 0, 0, 493, 1000, 1000, 2⟩
    else if path = ["home".toList, "a".toList] then .ok ⟨.file, 7, first, 420, 1000, 1000, 1⟩
    else if path = ["home".toList, "b".toList] then .ok ⟨.file, 5, second, 420, 1000, 1000, 1⟩
    else .error .ENOENT
  metadata := fun _ => .ok ⟨.directory, 0, 0, 493, 1000, 1000, 2⟩
  readDir := fun _ => .ok [.ok (some "a".toList), .ok (some "b".toList)]

def listingOf : Context where
  config := .standard
  request := { uploadOf [] with command := .listDirectory, writeOptions := none }
  aliases := []

def byTime : HelperListDirectoryOptions where
  cursor := none
  limit := 1
  includeHidden := false
  sort := .modifiedAsc
  filter := ⟨none, none, none, none⟩

def twoNames : List (Option Text) := [some "a".toList, some "b".toList]

theorem twoFiles_opened (first second : Int) :
    Opened listingOf (twoFiles first second) byTime .standard ["home".toList] ["home".toList]
      twoNames where
  command := rfl
  user := by decide
  known := rfl
  filter := rfl
  limit := by decide
  canonical := rfl
  resolved := rfl
  isDirectory := ⟨_, rfl, rfl⟩
  listed := rfl
  read := by
    rintro name ⟨member, _⟩
    rcases List.mem_cons.mp member with here | later
    · cases here
      exact ⟨_, rfl⟩
    · cases List.mem_singleton.mp later
      exact ⟨_, rfl⟩
  small := by decide

theorem twoFiles_wanted (first second : Int) :
    wanted listingOf (twoFiles first second) ["home".toList] .standard byTime ["home".toList]
      twoNames =
        [("a".toList, ⟨.file, 7, first, 420, 1000, 1000, 1⟩),
          ("b".toList, ⟨.file, 5, second, 420, 1000, 1000, 1⟩)] := rfl

/-- Two files whose times have the same number of digits are listed by time. -/
theorem same_digits_listed :
    Listed listingOf (twoFiles 1700000002 1700000001) byTime .standard ["home".toList]
      ["home".toList] twoNames := by
  refine (listed_iff (twoFiles_opened _ _)).mpr ⟨placed_of_canonical rfl List.prefix_rfl, ?_⟩
  rw [twoFiles_wanted]
  decide

/-- The second before 2001-09-09T01:46:40Z is listed behind that moment. -/
theorem billion_misplaced :
    Opened listingOf (twoFiles 999999999 1000000000) byTime .standard ["home".toList]
        ["home".toList] twoNames ∧
      ¬ Listed listingOf (twoFiles 999999999 1000000000) byTime .standard ["home".toList]
        ["home".toList] twoNames := by
  refine ⟨twoFiles_opened _ _, ?_⟩
  intro listed
  have compare := (twoFiles_opened _ _).timesCompare listed
  rw [twoFiles_wanted] at compare
  revert compare
  decide

end TealDrive
