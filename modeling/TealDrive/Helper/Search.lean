import Mathlib.Logic.Relation
import TealDrive.Download.Range
import TealDrive.Helper.ListingPages
import TealDrive.Library.Utf8

namespace TealDrive

open Outcome

/-!
# Searching below a directory

A search keeps the directories it has still to look into on a stack.  It passes
over what the caller may not see, follows no link, and stops when it has enough.
Directories that cannot be read are passed over too.

The names of a file system are bytes.  A name that is not UTF-8 is looked at and
shown as `to_string_lossy` spells it, and the search goes into such a directory
by its own name.
-/

/-! ## Requests and results -/

structure HelperSearchOptions where
  query : Text
  extension : Option Text
  maxResults : Option Nat
  includeHidden : Bool
  maxDepth : Option Nat

structure SearchMatchEntry where
  relativePath : RelativePath
  entry : HelperDirectoryEntry

structure SearchResultsPayload where
  rootId : RootId
  query : Text
  matches_ : List SearchMatchEntry
  totalMatches : Nat
  truncated : Bool

/-- What the options of a request come to. -/
structure Search where
  root : AllowedRoot
  queryLower : Text
  extFilter : Option Text
  maxResults : Nat
  includeHidden : Bool
  maxDepth : Nat

def searchQuery (options : Option HelperSearchOptions) : Text :=
  (options.map (fun options => Text.trim options.query)).getD []

def Search.of (root : AllowedRoot) (options : Option HelperSearchOptions) : Search where
  root := root
  queryLower := Text.toAsciiLowercase (searchQuery options)
  extFilter := (options.bind HelperSearchOptions.extension).map (fun extension =>
    Text.toAsciiLowercase (extension.dropWhile (fun symbol => symbol == '.')))
  maxResults := max 1 (min 1000 ((options.bind HelperSearchOptions.maxResults).getD 200))
  includeHidden := (options.any HelperSearchOptions.includeHidden) && root.hiddenFilesAllowed
  maxDepth := (options.bind HelperSearchOptions.maxDepth).getD 20

/-- Whether a name is looked for. -/
def Search.wants (search : Search) (name : Text) : Bool :=
  Text.containsStr (Text.toAsciiLowercase name) search.queryLower &&
    search.extFilter.all (fun extension =>
      (Segments.rsplitOnce '.' (Text.toAsciiLowercase name)).any (fun parts =>
        parts.2 == extension))

/-! ## The file system -/

/-- `OsString`: a name as the kernel has it. -/
abbrev OsName : Type := List UInt8

/-- `OsStr::to_string_lossy`. -/
def toStringLossy (name : OsName) : Text := Utf8.decodeScalars name.length name

example : toStringLossy [0x64, 0xff] = "d\uFFFD".toList := by decide

/-- The answers of the file system while directories are searched.  A path is the
list of its names. -/
structure SearchFiles where
  symlinkMetadata : List OsName -> Except IoError Metadata
  /-- The entries of a directory in the order of `readdir`. -/
  readDir : List OsName -> Except IoError (List (Except IoError OsName))

/-- A directory to look into. -/
structure SearchPlace where
  path : List OsName
  relative : Text
  depth : Nat

/-- An entry that the caller may see. -/
structure SearchItem where
  name : Text
  metadata : Metadata
  place : SearchPlace

/-- What has been found, and the stack with its top first. -/
structure SearchProgress where
  matches_ : List SearchMatchEntry
  queue : List SearchPlace

namespace Context

section Searching

variable (context : Context) (files : SearchFiles) (search : Search)

/-- An entry of a directory, unless it is passed over. -/
def searchItem (place : SearchPlace) : Except IoError OsName -> Option SearchItem
  | .error _ => none
  | .ok fileName =>
      let name := toStringLossy fileName
      let path := place.path ++ [fileName]
      if name == [] then none
      else if isHiddenName name && !search.includeHidden then none
      else if name == ".tealdrive-trash".toList then none
      else
        match files.symlinkMetadata path with
        | .error _ => none
        | .ok metadata =>
            let relative :=
              if place.relative == [] then name else place.relative ++ '/' :: name
            if metadata.kind == .symlink then none
            else if context.visible ⟨relative⟩ metadata then
              some ⟨name, metadata, ⟨path, relative, place.depth + 1⟩⟩
            else none

def searchMatch (item : SearchItem) : SearchMatchEntry :=
  ⟨⟨item.place.relative⟩, context.refineCapabilities
    (directoryEntryFromMetadata item.name item.metadata search.root
      context.config.sensitivePolicy) ⟨item.place.relative⟩⟩

/-- Whether the search goes on into an entry. -/
def searchesInto (place : SearchPlace) (item : SearchItem) : Bool :=
  item.metadata.kind == .directory && decide (place.depth < search.maxDepth)

/-- The loop over the entries of a directory, and whether it found enough. -/
def searchEntries (place : SearchPlace) :
    List (Except IoError OsName) -> SearchProgress -> SearchProgress × Bool
  | [], progress => (progress, false)
  | entry :: rest, progress =>
      match context.searchItem files search place entry with
      | none => searchEntries place rest progress
      | some item =>
          let progress :=
            if search.wants item.name then
              { progress with
                matches_ := progress.matches_ ++ [context.searchMatch search item] }
            else progress
          if search.wants item.name && decide (search.maxResults ≤ progress.matches_.length) then
            (progress, true)
          else
            searchEntries place rest
              (if searchesInto search place item then
                { progress with queue := item.place :: progress.queue }
              else progress)

/-- The loop over the stack.  Its first argument is how many more directories it
looks into, and `cancelled` says at which of them it is told to stop. -/
def searchLoop (cancelled : List OsName -> Bool) :
    Nat -> SearchProgress -> Except Refusal (List SearchMatchEntry × Bool)
  | 0, progress => .ok (progress.matches_, false)
  | rounds + 1, progress =>
      match progress.queue with
      | [] => .ok (progress.matches_, false)
      | place :: queue =>
          if cancelled place.path then .error (.permissionDenied "Operation cancelled.")
          else if place.depth > search.maxDepth then
            searchLoop cancelled rounds { progress with queue := queue }
          else
            match files.readDir place.path with
            | .error _ => searchLoop cancelled rounds { progress with queue := queue }
            | .ok entries =>
                match context.searchEntries files search place entries
                    { progress with queue := queue } with
                | (progress, true) => .ok (progress.matches_, true)
                | (progress, false) => searchLoop cancelled rounds progress

/-! ## What there is to find -/

def searchItems (place : SearchPlace) : List SearchItem :=
  match files.readDir place.path with
  | .error _ => []
  | .ok entries => entries.filterMap (context.searchItem files search place)

/-- The entries of some that are looked for. -/
def searchLookedFor (items : List SearchItem) : List SearchMatchEntry :=
  (items.filter (fun item => search.wants item.name)).map (context.searchMatch search)

/-- The directories among some entries that the search goes into. -/
def searchEntered (place : SearchPlace) (items : List SearchItem) : List SearchPlace :=
  (items.filter (searchesInto search place)).map SearchItem.place

/-- What is looked for in a directory itself. -/
def searchFound (place : SearchPlace) : List SearchMatchEntry :=
  context.searchLookedFor search (context.searchItems files search place)

/-- The directories in a directory. -/
def searchBelow (place : SearchPlace) : List SearchPlace :=
  searchEntered search place (context.searchItems files search place)

/-- How many directories a search looks into. -/
def searchRounds : Nat -> SearchPlace -> Nat
  | 0, _ => 1
  | levels + 1, place =>
      ((context.searchBelow files search place).map (searchRounds levels)).sum + 1

/-- What is looked for in a directory and below, in the order of the search. -/
def searchWalk : Nat -> SearchPlace -> List SearchMatchEntry
  | 0, place => context.searchFound files search place
  | levels + 1, place =>
      context.searchFound files search place ++
        (context.searchBelow files search place).reverse.flatMap (searchWalk levels)

/-- A search looks into each directory once. -/
def searchFrom (cancelled : List OsName -> Bool) (start : SearchPlace) :
    Except Refusal (List SearchMatchEntry × Bool) :=
  context.searchLoop files search cancelled
    (context.searchRounds files search search.maxDepth start) ⟨[], [start]⟩

end Searching

/-- `search_files_with_roots`.  The first directory is resolved as a text, and
`files` answers about what is below it. -/
def searchFilesWithRoots (context : Context) (roots : FileSystem) (files : SearchFiles)
    (cancelled : List OsName -> Bool) (options : Option HelperSearchOptions) :
    Except Refusal SearchResultsPayload := do
  refuse (context.request.uid == 0) (.permissionDenied "Helper refuses uid 0.")
  let root ← okOr (context.config.roots.find? (fun root => root.rootId == context.request.rootId))
    .unknownRoot
  let directory ← mapError Refusal.ofTealDrive
    (context.resolveDirectory roots root context.request.relativePath)
  if searchQuery options == [] then
    return ⟨context.request.rootId, [], [], 0, false⟩
  else
    let (entries, truncated) ← context.searchFrom files (.of root options) cancelled
      ⟨directory.map Utf8.encode, context.request.relativePath.value, 0⟩
    return ⟨context.request.rootId, searchQuery options, entries, entries.length, truncated⟩

/-! ## What a search finds -/

section Exact

variable {context : Context} {files : SearchFiles} {search : Search} {place start : SearchPlace}
  {progress : SearchProgress}

theorem searchLookedFor_cons (item : SearchItem) (items : List SearchItem) :
    context.searchLookedFor search (item :: items) =
      context.searchLookedFor search [item] ++ context.searchLookedFor search items := by
  unfold searchLookedFor
  rw [← List.map_append, ← List.filter_append]
  rfl

theorem searchEntered_cons (item : SearchItem) (items : List SearchItem) :
    searchEntered search place (item :: items) =
      searchEntered search place [item] ++ searchEntered search place items := by
  unfold searchEntered
  rw [← List.map_append, ← List.filter_append]
  rfl

/-- One turn of the loop over a directory. -/
theorem searchEntries_some {entry : Except IoError OsName}
    {rest : List (Except IoError OsName)} {item : SearchItem}
    (admitted : context.searchItem files search place entry = some item) :
    context.searchEntries files search place (entry :: rest) progress =
      if search.wants item.name = true ∧ search.maxResults ≤ progress.matches_.length + 1 then
        (⟨progress.matches_ ++ context.searchLookedFor search [item], progress.queue⟩, true)
      else
        context.searchEntries files search place rest
          ⟨progress.matches_ ++ context.searchLookedFor search [item],
            searchEntered search place [item] ++ progress.queue⟩ := by
  rw [searchEntries, admitted]
  cases wanted : search.wants item.name <;> cases into : searchesInto search place item <;>
    simp [searchLookedFor, searchEntered, wanted, into]

theorem length_searchLookedFor (item : SearchItem) :
    (context.searchLookedFor search [item]).length =
      if search.wants item.name = true then 1 else 0 := by
  unfold searchLookedFor
  cases wanted : search.wants item.name <;> simp [wanted]

/-- What is pushed later lies above. -/
theorem searchEntered_stacked (item : SearchItem) (items : List SearchItem)
    (queue : List SearchPlace) :
    (searchEntered search place (item :: items)).reverse ++ queue =
      (searchEntered search place items).reverse ++
        (searchEntered search place [item] ++ queue) := by
  have flat : (searchEntered search place [item]).reverse = searchEntered search place [item] := by
    unfold searchEntered
    cases into : searchesInto search place item <;> simp [into]
  rw [searchEntered_cons, List.reverse_append, flat, List.append_assoc]

variable (context search place) in
/-- How the loop over a directory ends: it has gone through all entries, or has
stopped with as many matches as it takes. -/
def SearchedEntries (items : List SearchItem) (progress : SearchProgress)
    (outcome : SearchProgress × Bool) : Prop :=
  (progress.matches_ ++ context.searchLookedFor search items).length < search.maxResults ∧
      outcome = (⟨progress.matches_ ++ context.searchLookedFor search items,
        (searchEntered search place items).reverse ++ progress.queue⟩, false) ∨
    search.maxResults ≤ (progress.matches_ ++ context.searchLookedFor search items).length ∧
      ∃ queue, outcome =
        (⟨(progress.matches_ ++ context.searchLookedFor search items).take search.maxResults,
          queue⟩, true)

theorem searchEntries_cases (entries : List (Except IoError OsName))
    (short : progress.matches_.length < search.maxResults) :
    context.SearchedEntries search place
      (entries.filterMap (context.searchItem files search place)) progress
      (context.searchEntries files search place entries progress) := by
  induction entries generalizing progress with
  | nil =>
      left
      rw [List.filterMap_nil]
      change (progress.matches_ ++ []).length < search.maxResults ∧
        _ = (SearchProgress.mk (progress.matches_ ++ []) _, false)
      rw [List.append_nil]
      exact ⟨short, rfl⟩
  | cons entry rest ih =>
      cases admitted : context.searchItem files search place entry with
      | none =>
          rw [searchEntries, admitted, List.filterMap_cons_none admitted]
          exact ih short
      | some item =>
          have gained := @length_searchLookedFor context search item
          rw [searchEntries_some admitted, List.filterMap_cons_some admitted]
          unfold SearchedEntries
          rw [searchLookedFor_cons item (rest.filterMap _), searchEntered_stacked,
            ← List.append_assoc]
          by_cases enough : search.wants item.name = true ∧
              search.maxResults ≤ progress.matches_.length + 1
          · rw [if_pos enough.1] at gained
            have full : (progress.matches_ ++ context.searchLookedFor search [item]).length =
                search.maxResults := by
              rw [List.length_append, gained]
              omega
            right
            rw [if_pos enough]
            refine ⟨?_, progress.queue, ?_⟩
            · rw [List.length_append, full]
              exact Nat.le_add_right _ _
            · rw [List.take_append_of_le_length (Nat.le_of_eq full.symm),
                List.take_of_length_le (Nat.le_of_eq full)]
          · have room : (progress.matches_ ++ context.searchLookedFor search [item]).length <
                search.maxResults := by
              rw [List.length_append, gained]
              split
              · next wanted =>
                  have lacking : ¬ search.maxResults ≤ progress.matches_.length + 1 :=
                    fun full => enough ⟨wanted, full⟩
                  omega
              · exact short
            rw [if_neg enough]
            exact @ih ⟨progress.matches_ ++ context.searchLookedFor search [item],
              searchEntered search place [item] ++ progress.queue⟩ room

theorem searchItem_some {entry : Except IoError OsName} {item : SearchItem}
    (admitted : context.searchItem files search place entry = some item) :
    item.place.depth = place.depth + 1 ∧ item.metadata.kind ≠ .symlink ∧
      context.visible ⟨item.place.relative⟩ item.metadata = true := by
  unfold searchItem at admitted
  split at admitted
  · cases admitted
  · next fileName =>
      dsimp only at admitted
      generalize (if place.relative == [] then toStringLossy fileName
        else place.relative ++ '/' :: toStringLossy fileName) = relative at admitted
      split_ifs at admitted
      split at admitted
      · cases admitted
      · split_ifs at admitted with link seen
        cases admitted
        exact ⟨rfl, fun linked => link (beq_iff_eq.mpr linked), seen⟩

theorem mem_searchItems {item : SearchItem}
    (listed : item ∈ context.searchItems files search place) :
    ∃ entry, context.searchItem files search place entry = some item := by
  unfold searchItems at listed
  split at listed
  · cases listed
  · rcases List.mem_filterMap.mp listed with ⟨entry, _, admitted⟩
    exact ⟨entry, admitted⟩

/-- A directory that the search goes into lies one level deeper, and within the
depth of the search. -/
theorem depth_of_searchBelow {sub : SearchPlace}
    (listed : sub ∈ context.searchBelow files search place) :
    sub.depth = place.depth + 1 ∧ place.depth < search.maxDepth := by
  unfold searchBelow searchEntered at listed
  rcases List.mem_map.mp listed with ⟨item, kept, rfl⟩
  rcases List.mem_filter.mp kept with ⟨item_, into⟩
  rcases mem_searchItems item_ with ⟨entry, admitted⟩
  unfold searchesInto at into
  exact ⟨(searchItem_some admitted).1, of_decide_eq_true (Bool.and_eq_true_iff.mp into).2⟩

variable (context files search) in
/-- What the search finds from a place of the stack on. -/
def searchWalkFrom (place : SearchPlace) : List SearchMatchEntry :=
  context.searchWalk files search (search.maxDepth - place.depth) place

variable (context files search) in
def searchRoundsFrom (place : SearchPlace) : Nat :=
  context.searchRounds files search (search.maxDepth - place.depth) place

/-- Nothing is below the depth of the search. -/
theorem searchBelow_eq_nil (deep : search.maxDepth - place.depth = 0) :
    context.searchBelow files search place = [] := by
  apply List.eq_nil_iff_forall_not_mem.mpr
  intro sub listed
  have within := (depth_of_searchBelow listed).2
  omega

theorem levels_searchBelow {sub : SearchPlace} {levels : Nat}
    (deep : search.maxDepth - place.depth = levels + 1)
    (listed : sub ∈ context.searchBelow files search place) :
    search.maxDepth - sub.depth = levels := by
  rw [(depth_of_searchBelow listed).1]
  omega

theorem searchWalkFrom_eq (place : SearchPlace) :
    context.searchWalkFrom files search place =
      context.searchFound files search place ++
        (context.searchBelow files search place).reverse.flatMap
          (context.searchWalkFrom files search) := by
  unfold searchWalkFrom
  cases deep : search.maxDepth - place.depth with
  | zero =>
      rw [searchBelow_eq_nil deep]
      exact (List.append_nil _).symm
  | succ levels =>
      rw [searchWalk]
      congr 1
      apply List.flatMap_congr
      intro sub listed
      rw [levels_searchBelow deep (List.mem_reverse.mp listed)]

theorem searchRoundsFrom_eq (place : SearchPlace) :
    context.searchRoundsFrom files search place =
      ((context.searchBelow files search place).map
        (context.searchRoundsFrom files search)).sum + 1 := by
  unfold searchRoundsFrom
  cases deep : search.maxDepth - place.depth with
  | zero =>
      rw [searchBelow_eq_nil deep]
      rfl
  | succ levels =>
      rw [searchRounds]
      congr 2
      apply List.map_congr_left
      intro sub listed
      rw [levels_searchBelow deep listed]

/-- A directory that cannot be read has nothing to find. -/
theorem searchFound_unreadable {error : IoError}
    (failed : files.readDir place.path = .error error) :
    context.searchFound files search place = [] ∧ context.searchBelow files search place = [] := by
  unfold searchFound searchBelow searchItems
  rw [failed]
  exact ⟨rfl, rfl⟩

variable (search) in
/-- What is answered when this is all there is to find. -/
def SearchTakes (all entries : List SearchMatchEntry) (truncated : Bool) : Prop :=
  entries = all.take search.maxResults ∧ (truncated = true ↔ search.maxResults ≤ all.length)

theorem SearchTakes.all {all : List SearchMatchEntry} (short : all.length < search.maxResults) :
    SearchTakes search all all false := by
  refine ⟨(List.take_of_length_le (Nat.le_of_lt short)).symm, ?_⟩
  constructor
  · intro impossible
    cases impossible
  · exact fun full => absurd short (Nat.not_lt_of_le full)

theorem SearchTakes.enough {front rest : List SearchMatchEntry}
    (full : search.maxResults ≤ front.length) :
    SearchTakes search (front ++ rest) (front.take search.maxResults) true := by
  refine ⟨(List.take_append_of_le_length full).symm, fun _ => ?_, fun _ => rfl⟩
  rw [List.length_append]
  exact full.trans (Nat.le_add_right _ _)

/-- The search goes through the stack in order and takes as much as it may. -/
theorem searchLoop_ok {cancelled : List OsName -> Bool} {more : Nat}
    {entries : List SearchMatchEntry} {truncated : Bool}
    (short : progress.matches_.length < search.maxResults)
    (within : forall place, place ∈ progress.queue -> place.depth ≤ search.maxDepth)
    (enough : (progress.queue.map (context.searchRoundsFrom files search)).sum ≤ more)
    (done : context.searchLoop files search cancelled more progress = .ok (entries, truncated)) :
    SearchTakes search
      (progress.matches_ ++ progress.queue.flatMap (context.searchWalkFrom files search))
      entries truncated := by
  induction more generalizing progress with
  | zero =>
      rcases progress with ⟨matches_, queue⟩
      cases queue with
      | nil =>
          cases done
          rw [List.flatMap_nil, List.append_nil]
          exact SearchTakes.all short
      | cons place queue =>
          rw [List.map_cons, List.sum_cons, searchRoundsFrom_eq] at enough
          omega
  | succ more ih =>
      rcases progress with ⟨matches_, queue⟩
      cases queue with
      | nil =>
          cases done
          rw [List.flatMap_nil, List.append_nil]
          exact SearchTakes.all short
      | cons place queue =>
          rw [List.map_cons, List.sum_cons, searchRoundsFrom_eq] at enough
          have here : place.depth ≤ search.maxDepth := within place List.mem_cons_self
          have others : forall place, place ∈ queue -> place.depth ≤ search.maxDepth :=
            fun place listed => within place (List.mem_cons_of_mem _ listed)
          rw [List.flatMap_cons, searchWalkFrom_eq]
          unfold searchLoop at done
          dsimp only at done short
          rw [if_neg (Nat.not_lt_of_le here)] at done
          split at done
          · cases done
          · split at done
            · next failed =>
                rcases @searchFound_unreadable context files search place _ failed with
                  ⟨none_, leaf⟩
                rw [none_, leaf]
                exact ih short others (by dsimp only; omega) done
            · next listing read =>
                have items : listing.filterMap (context.searchItem files search place) =
                    context.searchItems files search place := by
                  unfold searchItems
                  rw [read]
                have looking := @searchEntries_cases context files search place
                  ⟨matches_, queue⟩ listing short
                rw [items] at looking
                rcases looking with ⟨room, looked⟩ | ⟨full, rest, looked⟩
                · rw [looked] at done
                  have deeper : forall sub,
                      sub ∈ (context.searchBelow files search place).reverse ++ queue ->
                        sub.depth ≤ search.maxDepth := by
                    intro sub listed
                    rcases List.mem_append.mp listed with new | old
                    · have depth := depth_of_searchBelow (List.mem_reverse.mp new)
                      omega
                    · exact others sub old
                  have fewer : (((context.searchBelow files search place).reverse ++ queue).map
                      (context.searchRoundsFrom files search)).sum ≤ more := by
                    rw [List.map_append, List.sum_append, List.map_reverse, List.sum_reverse]
                    omega
                  have next := ih room deeper fewer done
                  dsimp only at next
                  rw [List.flatMap_append, List.append_assoc] at next
                  rw [List.append_assoc]
                  exact next
                · rw [looked] at done
                  cases done
                  rw [List.append_assoc, ← List.append_assoc]
                  exact SearchTakes.enough full

variable (context files search) in
/-- One directory lies in another, and the search goes on from the one to the
other. -/
def SearchesInside (outer inner : SearchPlace) : Prop :=
  inner ∈ context.searchBelow files search outer

variable (context files search) in
/-- An entry that is looked for lies in a directory that the search comes to. -/
def SearchFinds (place : SearchPlace) (entry : SearchMatchEntry) : Prop :=
  ∃ inner, Relation.ReflTransGen (context.SearchesInside files search) place inner ∧
    entry ∈ context.searchFound files search inner

theorem mem_searchWalkFrom_of_below {entry : SearchMatchEntry}
    (deeper : forall sub, sub ∈ context.searchBelow files search place ->
      (entry ∈ context.searchWalkFrom files search sub ↔
        context.SearchFinds files search sub entry)) :
    entry ∈ context.searchWalkFrom files search place ↔
      context.SearchFinds files search place entry := by
  rw [searchWalkFrom_eq, List.mem_append, List.mem_flatMap]
  constructor
  · rintro (here | ⟨sub, listed, there⟩)
    · exact ⟨place, Relation.ReflTransGen.refl, here⟩
    · have inside := List.mem_reverse.mp listed
      rcases (deeper sub inside).mp there with ⟨inner, way, held⟩
      exact ⟨inner, Relation.ReflTransGen.head inside way, held⟩
  · rintro ⟨inner, way, held⟩
    rcases way.cases_head with rfl | ⟨sub, inside, way⟩
    · exact Or.inl held
    · exact Or.inr ⟨sub, List.mem_reverse.mpr inside, (deeper sub inside).mpr ⟨inner, way, held⟩⟩

theorem mem_searchWalkFrom {entry : SearchMatchEntry} {levels : Nat}
    (deep : search.maxDepth - place.depth = levels) :
    entry ∈ context.searchWalkFrom files search place ↔
      context.SearchFinds files search place entry := by
  induction levels generalizing place with
  | zero =>
      apply mem_searchWalkFrom_of_below
      intro sub listed
      rw [searchBelow_eq_nil deep] at listed
      cases listed
  | succ levels ih =>
      apply mem_searchWalkFrom_of_below
      intro sub listed
      exact ih (levels_searchBelow deep listed)

/-- A match is an entry that is looked for. -/
theorem mem_searchFound {entry : SearchMatchEntry} :
    entry ∈ context.searchFound files search place ↔
      ∃ item, item ∈ context.searchItems files search place ∧ search.wants item.name = true ∧
        context.searchMatch search item = entry := by
  unfold searchFound searchLookedFor
  rw [List.mem_map]
  constructor
  · rintro ⟨item, kept, rfl⟩
    exact ⟨item, (List.mem_filter.mp kept).1, (List.mem_filter.mp kept).2, rfl⟩
  · rintro ⟨item, listed, wanted, rfl⟩
    exact ⟨item, List.mem_filter.mpr ⟨listed, wanted⟩, rfl⟩

/-- What is found may be seen. -/
theorem searchFound_visible {entry : SearchMatchEntry}
    (held : entry ∈ context.searchFound files search place) :
    context.checkIsOk entry.relativePath .discover = true := by
  rcases mem_searchFound.mp held with ⟨item, listed, _, rfl⟩
  rcases mem_searchItems listed with ⟨_, admitted⟩
  have seen := (searchItem_some admitted).2.2
  unfold visible at seen
  exact (Bool.and_eq_true_iff.mp seen).1

/-- What a search answers. -/
theorem searchFrom_ok {cancelled : List OsName -> Bool} {entries : List SearchMatchEntry}
    {truncated : Bool} (some_ : 0 < search.maxResults) (top : start.depth = 0)
    (done : context.searchFrom files search cancelled start = .ok (entries, truncated)) :
    SearchTakes search (context.searchWalkFrom files search start) entries truncated := by
  have within : forall place, place ∈ [start] -> place.depth ≤ search.maxDepth := by
    intro place listed
    rw [List.mem_singleton.mp listed, top]
    exact Nat.zero_le _
  have enough : ([start].map (context.searchRoundsFrom files search)).sum ≤
      context.searchRounds files search search.maxDepth start := by
    rw [List.map_singleton, List.sum_singleton]
    unfold searchRoundsFrom
    rw [top, Nat.sub_zero]
  have ended := @searchLoop_ok context files search ⟨[], [start]⟩ cancelled _ _ _ some_ within
    enough done
  rw [List.flatMap_singleton, List.nil_append] at ended
  exact ended

end Exact

/-- A search answers the first entries of all that there is to find, as many as
were asked for, and says whether there may be more.  There to find is what is
looked for in a directory that can be reached from the first one through
directories which can be read and seen, no further down than asked.  Nothing is
answered that the caller may not see. -/
theorem search_exact (context : Context) (roots : FileSystem) (files : SearchFiles)
    (cancelled : List OsName -> Bool) (options : Option HelperSearchOptions)
    (results : SearchResultsPayload) (asked : searchQuery options ≠ [])
    (done : context.searchFilesWithRoots roots files cancelled options = .ok results) :
    ∃ root directory start all,
      context.config.roots.find? (fun root => root.rootId == context.request.rootId) = some root ∧
      context.resolveDirectory roots root context.request.relativePath = .ok directory ∧
      start = ⟨directory.map Utf8.encode, context.request.relativePath.value, 0⟩ ∧
      all = context.searchWalkFrom files (.of root options) start ∧
      (forall entry, entry ∈ all ↔ context.SearchFinds files (.of root options) start entry) ∧
      results.matches_ = all.take (Search.of root options).maxResults ∧
      results.totalMatches = results.matches_.length ∧
      (results.truncated = true ↔ (Search.of root options).maxResults ≤ all.length) ∧
      forall entry, entry ∈ results.matches_ ->
        context.checkIsOk entry.relativePath .discover = true := by
  simp only [searchFilesWithRoots, bind_eq_ok, okOr_eq_ok, mapError_eq_ok] at done
  rcases done with ⟨_, _, root, known, directory, resolved, done⟩
  rw [if_neg (by simpa using asked)] at done
  rcases bind_eq_ok.mp done with ⟨⟨entries, truncated⟩, searched, made⟩
  cases made
  have some_ : 0 < (Search.of root options).maxResults := Nat.le_max_left _ _
  rcases searchFrom_ok some_ rfl searched with ⟨taken, full⟩
  have there : forall entry, entry ∈ context.searchWalkFrom files (.of root options)
      ⟨directory.map Utf8.encode, context.request.relativePath.value, 0⟩ ↔
        context.SearchFinds files (.of root options)
          ⟨directory.map Utf8.encode, context.request.relativePath.value, 0⟩ entry :=
    fun entry => mem_searchWalkFrom rfl
  refine ⟨root, directory, _, _, known, resolved, rfl, rfl, there, taken, rfl, full, ?_⟩
  intro entry held
  rw [taken] at held
  rcases (there entry).mp (List.mem_of_mem_take held) with ⟨_, _, held⟩
  exact searchFound_visible held

end Context

namespace TreeSearch

def directory : Metadata := ⟨.directory, 0, 0, 493, 1000, 1000, 2⟩

def file : Metadata := ⟨.file, 7, 0, 420, 1000, 1000, 1⟩

/-- A name that is not UTF-8. -/
def odd : OsName := [0x64, 0xff]

def names (texts : List String) : List (Except IoError OsName) :=
  texts.map (fun text => .ok (Utf8.encode text.toList))

/-- Two files beside a directory with an odd name, and three files in it. -/
def tree : SearchFiles where
  symlinkMetadata := fun path => if path.getLast? = some odd then .ok directory else .ok file
  readDir := fun path =>
    if path = ["home".toList].map Utf8.encode then .ok (names ["a", "b"] ++ [.ok odd])
    else if path = ["home".toList].map Utf8.encode ++ [odd] then .ok (names ["b1", "c", "b2"])
    else .error .ENOENT

def options : HelperSearchOptions := ⟨" B".toList, none, some 2, false, none⟩

def answer : Except Refusal SearchResultsPayload :=
  listingOf.searchFilesWithRoots (twoFiles 0 0) tree (fun _ => false) (some options)

end TreeSearch

open TreeSearch in
/-- Two of the three entries are answered, one of them from the directory below. -/
theorem search_exact_odd : ∃ results, ∃ all : List SearchMatchEntry, answer = .ok results ∧
    results.matches_.map (fun entry => entry.relativePath.value) =
      ["b".toList, "d\uFFFD/b1".toList] ∧
    results.matches_ = all.take 2 ∧ 2 ≤ all.length ∧
    forall entry, entry ∈ results.matches_ ->
      listingOf.checkIsOk entry.relativePath .discover = true := by
  have shown : answer.map (fun results => (results.matches_.map (fun entry =>
      entry.relativePath.value), results.truncated)) =
        .ok (["b".toList, "d\uFFFD/b1".toList], true) := by rfl
  cases done : answer with
  | error refusal =>
      rw [done] at shown
      cases shown
  | ok results =>
      rw [done] at shown
      have parts := Prod.mk.inj (Except.ok.inj shown)
      rcases Context.search_exact listingOf (twoFiles 0 0) tree (fun _ => false) (some options)
        results (by decide) done with ⟨root, _, _, all, known, _, _, _, _, taken, _, full, seen⟩
      have home : listingOf.config.roots.find? (fun root =>
          root.rootId == listingOf.request.rootId) = some .standard := by rfl
      cases known.symm.trans home
      exact ⟨results, all, rfl, parts.1, taken, full.mp parts.2, seen⟩

end TealDrive
