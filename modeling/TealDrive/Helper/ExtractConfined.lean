import TealDrive.Helper.ExtractPaths
import TealDrive.Helper.ExtractLimits

namespace TealDrive

open Outcome

/-!
# An extraction stays inside its destination

The private directory is created, filled and renamed, so that what lies below
the destination afterwards is what the loops left below the private path.  The
checks of the entries translate the private path to the published one.  What
they miss are the directories that come with a path: those above an entry of a
zip archive, and those above the destination.
-/

/-! ## The private directory -/

section Create

variable {calls : Calls} {disk : Node}

/-- Creating a directory changes nothing but the way to it. -/
theorem lookup_makeDirectory {parent path : List Text} {name : Text}
    (directory : disk.HasBranch parent) (outside : ¬ path <+: parent ++ [name]) :
    (makeDirectory calls disk parent name).1.lookup path = disk.lookup path := by
  unfold makeDirectory
  split
  · rfl
  · rfl
  · next absent =>
      split
      · rfl
      · rcases @NamedTree.lookup_place_cases _ _ _ _ parent name disk (.branch calls.directoryMode [])
          directory path with ⟨rest, rfl, found⟩ | ⟨rest, rfl, _⟩ | ⟨_, _, same⟩
        · have below : rest ≠ [] := by
            rintro rfl
            rw [List.append_nil] at outside
            exact outside (List.prefix_refl _)
          rw [found, flat_directory _ below, lookup_none_below rest absent]
        · refine absurd ?_ outside
          rw [List.append_assoc]
          exact List.prefix_append _ _
        · exact same

theorem lookup_createDirAll {front names path : List Text} (directory : disk.HasBranch front)
    (outside : ¬ path <+: front ++ names) :
    (createDirAll calls disk front names).1.lookup path = disk.lookup path := by
  induction names generalizing front disk with
  | nil => rfl
  | cons name names ih =>
      have whole : front ++ name :: names = front ++ [name] ++ names := by
        rw [List.append_assoc]
        rfl
      have here : (makeDirectory calls disk front name).1.lookup path = disk.lookup path := by
        apply lookup_makeDirectory directory
        intro inside
        rw [whole] at outside
        exact outside (inside.trans (List.prefix_append _ _))
      unfold createDirAll
      split
      · next made outcome =>
          rw [outcome] at here
          have there := makeDirectory_ok directory outcome
          rw [whole] at outside
          rw [ih there outside]
          exact here
      · next made error outcome =>
          rw [outcome] at here
          exact here

end Create

section Begin

variable {context : Context} {calls : Calls} {readers : ArchiveReaders}
  {canonicalize : Node -> List Text -> Except IoError (List Text)} {disk made : Node}
  {staging target : RelativePath}

theorem extractPaths_target {archive : RelativePath} {source : List Text}
    (given : context.request.targetRelativePath = some staging)
    (valid : validateRelativePath staging = .ok staging)
    (done : context.extractPaths calls canonicalize disk = .ok (archive, source, target)) :
    target = staging := by
  simp only [Context.extractPaths, bind_eq_ok, okOr_eq_ok, mapError_eq_ok, pure_eq_ok,
    Prod.mk.injEq] at done
  rcases done with ⟨_, _, _, _, _, _, _, _, _, _, _, _, _, _, _, _, _, _, text, named, _, validated,
    _, _, _, _, rfl⟩
  rw [given, Option.some.injEq] at named
  rw [← named, valid] at validated
  exact (Except.ok.inj validated).symm

/-- Before the first entry only the private directory is created. -/
theorem beginExtract_made {begun : Except Refusal (RelativePath × Archive)}
    (root : disk.HasBranch []) (given : context.request.targetRelativePath = some staging)
    (valid : validateRelativePath staging = .ok staging)
    (done : context.beginExtract calls readers canonicalize disk = (made, begun)) :
    (forall path, ¬ path <+: segmentNames staging.value -> made.lookup path = disk.lookup path) ∧
      forall opened, begun = .ok (target, opened) ->
        target = staging ∧ made.HasBranch (segmentNames staging.value) := by
  unfold Context.beginExtract at done
  split at done
  · cases done
    exact ⟨fun _ _ => rfl, fun _ success => by cases success⟩
  · next archive source path paths =>
      have same := extractPaths_target given valid paths
      subst same
      have beside : forall other, ¬ other <+: segmentNames path.value ->
          (createDirectories calls disk (segmentNames path.value)).1.lookup other =
            disk.lookup other := by
        intro other outside
        rw [createDirectories_fst]
        exact lookup_createDirAll root outside
      split at done
      · next error created =>
          cases done
          rw [created] at beside
          exact ⟨beside, fun _ success => by cases success⟩
      · next created =>
          cases done
          rw [created] at beside
          refine ⟨beside, fun opened success => ?_⟩
          rcases @createDirectories_grown [] calls disk (segmentNames path.value) root with
            ⟨_, finished⟩
          cases opening : context.openArchive calls readers made archive source with
          | error refusal =>
              rw [opening] at success
              cases success
          | ok found =>
              rw [opening] at success
              cases success
              exact ⟨rfl, finished _ created⟩

end Begin

/-! ## The published path -/

/-- An entry may be published there. -/
structure Publishable (config : AppConfig) (request : HelperRequest) (path : RelativePath) : Prop where
  shown : archiveHiddenAllowed config request = true ∨ isHiddenRelative path = false
  plain : detectSensitive path config.sensitivePolicy = false
  writable : request.checkPath [] config path .write = .ok ()

/-- Names as the paths of entries have them. -/
def Spelled (names : List Text) : Prop :=
  forall name, name ∈ names -> '/' ∉ name ∧ dullSegment name = false

theorem spelled_segmentNames (text : Text) : Spelled (segmentNames text) :=
  fun _ member => ⟨Segments.separator_not_mem_of_mem_names member,
    Segments.not_dull_of_mem_names member⟩

theorem segmentNames_entryPath (target : RelativePath) {names : List Text}
    (spelled : Spelled names) :
    segmentNames (entryPath target names).value = segmentNames target.value ++ names := by
  have all : Spelled (segmentNames target.value ++ names) := by
    intro name member
    rcases List.mem_append.mp member with inTarget | below
    · exact spelled_segmentNames target.value name inTarget
    · exact spelled name below
  exact Segments.names_join dullSegment_nil (fun name member => (all name member).1)
    (fun name member => (all name member).2)

/-- The path of an entry is its names behind the directory. -/
theorem entryPath_eq {target : RelativePath} {names : List Text}
    (canonical : canonicalText target = target) (filled : target.value ≠ []) (below : names ≠ []) :
    entryPath target names = ⟨target.value ++ '/' :: Segments.join '/' names⟩ := by
  have named : segmentNames target.value ≠ [] := by
    intro none
    apply filled
    rw [← canonical]
    exact congrArg (Segments.join '/') none
  have spelled : Segments.join '/' (segmentNames target.value) = target.value :=
    congrArg RelativePath.value canonical
  rw [entryPath, Segments.join_append named below, spelled]

/-- The alias leads from the private path to the published one. -/
theorem translated_entryPath {staging clean : RelativePath} {names : List Text}
    (private_ : canonicalText staging = staging) (stagingFilled : staging.value ≠ [])
    (public_ : canonicalText clean = clean) (cleanFilled : clean.value ≠ []) (below : names ≠ []) :
    translated [(staging, clean)] (entryPath staging names) = entryPath clean names := by
  rw [entryPath_eq private_ stagingFilled below, entryPath_eq public_ cleanFilled below]
  have other : (⟨staging.value ++ '/' :: Segments.join '/' names⟩ : RelativePath) ≠ staging := by
    intro same
    have sizes := congrArg (fun path : RelativePath => path.value.length) same
    simp at sizes
  have whole : staging.value ++ '/' :: Segments.join '/' names =
      staging.value ++ ['/'] ++ Segments.join '/' names := by
    rw [List.append_assoc]
    rfl
  have stripped : Text.stripPrefix (staging.value ++ ['/'])
      (staging.value ++ '/' :: Segments.join '/' names) = some (Segments.join '/' names) := by
    rw [whole, Text.stripPrefix, if_pos (List.isPrefixOf_iff_prefix.mpr (List.prefix_append _ _)),
      List.drop_left]
  have applied : applyAlias ⟨staging.value ++ '/' :: Segments.join '/' names⟩ (staging, clean) =
      some ⟨clean.value ++ '/' :: Segments.join '/' names⟩ := by
    rw [applyAlias, if_neg other]
    dsimp only
    rw [stripped]
  simp [translated, applied]

/-- Sensitive names do not depend on the directory. -/
theorem detectSensitive_entryPath (first second : RelativePath) {names : List Text}
    {config : SensitivePolicyConfig} (spelled : Spelled names) (below : names ≠ []) :
    detectSensitive (entryPath first names) config =
      detectSensitive (entryPath second names) config := by
  cases listed : names using List.reverseRecOn with
  | nil => exact absurd listed below
  | append_singleton front last =>
      subst listed
      have clean := (spelled last (List.mem_append_right _ List.mem_cons_self)).1
      unfold detectSensitive entryPath
      rw [← List.append_assoc, ← List.append_assoc, Segments.lastSegment_join_concat _ clean,
        Segments.lastSegment_join_concat _ clean]

/-- Hiddenness is read from the names. -/
theorem isHiddenRelative_of_valid {path : RelativePath} (valid : ValidPath path) :
    isHiddenRelative path =
      (segmentNames path.value).any (fun part => part.head? == some '.') := by
  unfold isHiddenRelative
  rw [valid.validate]
  dsimp only
  cases named : segmentNames path.value with
  | nil =>
      have empty : (canonicalText path).value = [] := congrArg (Segments.join '/') named
      rw [empty]
      rfl
  | cons name rest =>
      have split : (canonicalText path).value.splitOn '/' = segmentNames path.value := by
        refine Segments.splitOn_join ?_ (fun _ member => Segments.separator_not_mem_of_mem_names member)
        change segmentNames path.value ≠ []
        rw [named]
        exact List.cons_ne_nil name rest
      rw [split, named]

/-- A relative text is valid when its names are those of a valid path. -/
theorem validPath_of_names {path : RelativePath} {name : Text} (valid : ValidPath path)
    (relative : isAbsolute name = false)
    (inside : segmentNames name ⊆ segmentNames path.value) : ValidPath ⟨name⟩ where
  noNull := by
    intro member
    have whole : Segments.join '/' (name.splitOn '/') = name := List.intercalate_splitOn '/'
    change '\x00' ∈ name at member
    rw [← whole] at member
    rcases Segments.mem_join member with separator | ⟨segment, listed, here⟩
    · exact absurd separator (by decide)
    · have named : segment ∈ segmentNames name := by
        refine List.mem_filter.mpr ⟨listed, ?_⟩
        rw [Bool.not_eq_true', dullSegment, Bool.or_eq_false_iff, beq_eq_false_iff_ne,
          beq_eq_false_iff_ne]
        constructor
        · rintro rfl
          cases here
        · rintro rfl
          exact absurd here (by decide)
      exact valid.noNull (Segments.mem_of_mem_names (inside named) here)
  relative := relative
  noParent := fun member => valid.noParent (inside member)

/-- What the checks under the private path say about the published one. -/
theorem publishable_of_checked {config : AppConfig} {request : HelperRequest}
    {staging clean : RelativePath} {names : List Text}
    (private_ : validateRelativePath staging = .ok staging) (stagingFilled : staging.value ≠ [])
    (public_ : validateRelativePath clean = .ok clean) (cleanFilled : clean.value ≠ [])
    (shown : archiveHiddenAllowed config request = true ∨ isHiddenRelative clean = false)
    (below : names ≠ [])
    (checked : Checked config
      (Context.staged ⟨config, request, []⟩ staging clean) staging names) :
    Publishable config request (entryPath clean names) := by
  rcases checked with ⟨slip, name, checked⟩
  simp only [Context.checkEntry, bind_eq_ok, pure_eq_ok, refuse_eq_ok, mapError_eq_ok] at checked
  rcases checked with ⟨_, hidden, _, relative, _, allowed, _, plain, rfl⟩
  have spelled := spelled_segmentNames name
  have writable : request.checkPath [] config (entryPath clean (segmentNames name)) .write = .ok () := by
    rw [← translated_entryPath (validateRelativePath_eq_ok_iff.mp private_).2.symm stagingFilled
      (validateRelativePath_eq_ok_iff.mp public_).2.symm cleanFilled below]
    cases command : request.command <;>
      simpa [Context.check, Context.staged, HelperRequest.checkPath, HelperRequest.withResult,
        AppConfig.showHidden, command, translated] using allowed
  refine ⟨?_, ?_, writable⟩
  · rcases shown with all | visible
    · exact .inl all
    · refine Decidable.or_iff_not_imp_left.mpr (fun strict => ?_)
      have valid : ValidPath (entryPath clean (segmentNames name)) := by
        rcases AccessPolicy.check_eq_ok_iff.mp writable with ⟨_, validated, _⟩
        exact validPath_of_ok validated
      have names := segmentNames_entryPath clean spelled
      have nameValid : ValidPath ⟨name⟩ := by
        apply validPath_of_names valid relative
        rw [names]
        exact List.subset_append_right _ _
      have own : isHiddenRelative ⟨name⟩ = false := by
        have root : (request.withResult staging).rootId = request.rootId := by
          unfold HelperRequest.withResult
          split <;> rfl
        have same : archiveHiddenAllowed config (request.withResult staging) =
            archiveHiddenAllowed config request := by
          rw [archiveHiddenAllowed, root]
          rfl
        rw [Bool.and_eq_false_iff, Bool.not_eq_false'] at hidden
        exact hidden.resolve_left (fun all => strict (same.symm.trans all))
      rw [isHiddenRelative_of_valid valid, names, List.any_append, Bool.or_eq_false_iff,
        ← isHiddenRelative_of_valid (validPath_of_ok public_)]
      exact ⟨visible, (isHiddenRelative_of_valid nameValid).symm.trans own⟩
  · rw [detectSensitive_entryPath clean staging spelled below]
    exact plain

/-! ## Publication -/

section Publish

variable {fingerprint : Stat -> List UInt8 -> Text} {context : Context} {written published : Node}
  {closing : Calls} {staging clean : RelativePath} {parent : List Text} {name other : Text}

/-- Only a write replaces what is there. -/
theorem publish_renamed (command : context.request.command ≠ .writeFile)
    (done : context.publish fingerprint closing written staging clean = (published, .ok ())) :
    context.rename closing written staging clean false = .ok published := by
  have plain : (context.request.command == .writeFile) = false := beq_eq_false_iff_ne.mpr command
  unfold Context.publish at done
  rw [if_neg command, plain] at done
  split at done
  · cases done
  · split at done
    · cases done
    · dsimp only at done
      split at done
      · cases done
      · next renamed =>
          cases done
          exact renamed

theorem publish_failed {refusal : Refusal} (command : context.request.command ≠ .writeFile)
    (done : context.publish fingerprint closing written staging clean =
      (published, .error refusal)) : published = written := by
  unfold Context.publish at done
  rw [if_neg command] at done
  split at done
  · cases done
    rfl
  · split at done
    · cases done
      rfl
    · dsimp only at done
      split at done
      · cases done
        rfl
      · cases done

/-- Removing the private path changes nothing that lies elsewhere. -/
theorem lookup_dropStaging {path : List Text} (private_ : segmentNames staging.value = parent ++ [name])
    (above : ¬ path <+: parent) (below : ¬ segmentNames staging.value <+: path) :
    (Context.dropStaging closing written staging).lookup path = written.lookup path := by
  rw [private_] at below
  unfold Context.dropStaging Context.removePath
  rw [private_, List.getLast?_concat, List.dropLast_concat]
  split
  · next done =>
      cases done
      exact NamedTree.lookup_remove_of_ne above below
  · rfl

/-- What a published entry looks like from outside. -/
structure Published (written after : Node) (parent : List Text) (name other : Text) : Prop where
  inside : forall rest, after.lookup (parent ++ [other] ++ rest) =
    written.lookup (parent ++ [name] ++ rest)
  gone : after.lookup (parent ++ [name]) = none
  beside : forall path, ¬ path <+: parent -> ¬ parent ++ [other] <+: path ->
    ¬ parent ++ [name] <+: path -> after.lookup path = written.lookup path
  directory : written.HasBranch parent
  free : written.lookup (parent ++ [other]) = none

theorem concat_prefix_concat {first second : Text} (inside : parent ++ [first] <+: parent ++ [second]) :
    first = second :=
  List.singleton_inj.mp (List.append_cancel_left (inside.eq_of_length (by simp)))

theorem not_prefix_concat (parent : List Text) (name : Text) : ¬ parent ++ [name] <+: parent := by
  intro inside
  have sizes := inside.length_le
  rw [List.length_append, List.length_singleton] at sizes
  omega

theorem rename_published (private_ : segmentNames staging.value = parent ++ [name])
    (public_ : segmentNames clean.value = parent ++ [other]) (different : other ≠ name)
    (renamed : context.rename closing written staging clean false = .ok published) :
    Published written published parent name other := by
  rcases Context.rename_ok renamed with ⟨first, _, second, _, source, target, directory, done⟩
  rw [private_] at source
  rw [public_] at target
  rcases List.append_inj' source rfl with ⟨rfl, sameName⟩
  rcases List.append_inj' target rfl with ⟨rfl, sameOther⟩
  cases sameName
  cases sameOther
  rcases Context.renameAt_ok done with ⟨item, found, _, absent, rfl⟩
  have stays : (written.remove parent name).HasBranch parent := by
    apply NamedTree.HasBranch.within _ directory
    intro label entries _ second rest same
    have sizes := congrArg List.length same
    simp at sizes
  refine ⟨?_, ?_, ?_, directory, absent.resolve_left (by decide)⟩
  · intro rest
    rw [NamedTree.lookup_append, NamedTree.lookup_place_self item stays, NamedTree.lookup_append, found]
  · rw [NamedTree.lookup_place_of_ne item (not_prefix_concat parent name)
      (fun inside => different (concat_prefix_concat inside))]
    exact NamedTree.lookup_remove_self
  · intro path above outside private_
    rw [NamedTree.lookup_place_of_ne item above outside, NamedTree.lookup_remove_of_ne above private_]

theorem dropStaging_published (private_ : segmentNames staging.value = parent ++ [name])
    (different : other ≠ name) (done : Published written published parent name other) :
    Published written (Context.dropStaging closing published staging) parent name other where
  inside := by
    intro rest
    rw [← done.inside rest]
    apply lookup_dropStaging private_
    · intro inside
      exact not_prefix_concat parent other ((List.prefix_append _ rest).trans inside)
    · rw [private_]
      intro inside
      have within : parent ++ [name] <+: parent ++ [other] := by
        apply List.prefix_of_prefix_length_le inside (List.prefix_append _ rest)
        simp
      exact different (concat_prefix_concat within).symm
  gone := by
    unfold Context.dropStaging Context.removePath
    rw [private_, List.getLast?_concat, List.dropLast_concat]
    split
    · next removed =>
        cases removed
        exact NamedTree.lookup_remove_self
    · exact done.gone
  beside := by
    intro path above outside below
    rw [lookup_dropStaging private_ above (private_ ▸ below), done.beside path above outside below]
  directory := done.directory
  free := done.free

/-- How a transaction that replaces nothing ends: refused, cleaned up, or
published. -/
theorem executeInner_cases {uuids : UuidFormat} {codec : TrashCodec}
    {others : AppConfig -> Context -> Calls -> Node -> Node × Except Refusal TrashPayload}
    {calls : Calls} {disk after : Node} {outcome : Except Refusal TrashPayload}
    (staged : context.request.command.staged = true)
    (command : context.request.command ≠ .writeFile)
    (done : context.executeInner uuids codec fingerprint others calls closing disk =
      (after, outcome)) :
    (after = disk ∧ ∃ refusal, outcome = .error refusal) ∨
    ∃ staging clean written result,
      context.prepare uuids fingerprint calls disk = .ok (staging, clean) ∧
      (context.staged staging clean).handleHelperRequest uuids codec (others context.config)
        { calls with budget := context.available calls disk clean } disk = (written, result) ∧
      ((after = Context.dropStaging closing written staging ∧ ∃ refusal, outcome = .error refusal) ∨
        ∃ payload published, result = .ok payload ∧ outcome = .ok payload ∧
          (context.withAlias staging clean).rename closing written staging clean false =
            .ok published ∧
          after = Context.dropStaging closing published staging) := by
  unfold Context.executeInner at done
  rw [if_pos staged] at done
  split at done
  · cases done
    exact .inl ⟨rfl, _, rfl⟩
  · next staging clean prepared =>
      have other : (context.withAlias staging clean).request.command ≠ .writeFile := command
      refine .inr ⟨staging, clean, ?_⟩
      split at done
      · next written refusal handled =>
          cases done
          exact ⟨written, _, prepared, handled, .inl ⟨rfl, _, rfl⟩⟩
      · next written payload handled =>
          split at done
          · next left refusal failed =>
              have same : left = written := publish_failed other failed
              cases done
              rw [same]
              exact ⟨written, _, prepared, handled, .inl ⟨rfl, _, rfl⟩⟩
          · next published finished =>
              have renamed := publish_renamed other finished
              cases done
              exact ⟨written, _, prepared, handled, .inr ⟨payload, published, rfl, rfl, renamed, rfl⟩⟩

end Publish

/-! ## The whole request -/

section Response

variable {snapshot : AppConfig} {interrupt : Interruptions} {context : Context} {calls : Calls}
  {readers : ArchiveReaders} {canonicalize : Node -> List Text -> Except IoError (List Text)}
  {disk after : Node} {staging : RelativePath} {outcome : Except Refusal TrashPayload}

/-- A run that fills the private directory. -/
theorem extractResponse_extracted (root : disk.HasBranch [])
    (given : context.request.targetRelativePath = some staging)
    (valid : validateRelativePath staging = .ok staging) (filled : segmentNames staging.value ≠ [])
    (done : Context.extractResponse snapshot interrupt context calls readers canonicalize disk =
      (after, outcome)) :
    (forall path, ¬ segmentNames staging.value <+: path -> ¬ path <+: segmentNames staging.value ->
      after.lookup path = disk.lookup path) ∧
    forall payload, outcome = .ok payload -> ∃ made opened,
      context.beginExtract calls readers canonicalize disk = (made, .ok (staging, opened)) ∧
      made.HasBranch (segmentNames staging.value) ∧
      (forall path, ¬ path <+: segmentNames staging.value ->
        made.lookup path = disk.lookup path) ∧
      Extracted snapshot context staging opened made after (.ok ()) := by
  unfold Context.extractResponse Context.extractArchiveWithRoots at done
  cases start : context.beginExtract calls readers canonicalize disk with
  | mk made begun =>
      rw [start] at done
      cases begun with
      | error refusal =>
          cases done
          rcases @beginExtract_made context calls readers canonicalize disk made staging staging _ root
            given valid start with ⟨beside, _⟩
          exact ⟨fun path _ outside => beside path outside, fun _ success => by cases success⟩
      | ok pair =>
          rcases pair with ⟨target, opened⟩
          rcases beginExtract_made root given valid start with ⟨beside, finished⟩
          rcases finished opened rfl with ⟨rfl, directory⟩
          have extracted := @extractEntries_extracted snapshot interrupt context calls target
            ⟨made, 0, []⟩ opened filled directory
          dsimp only at done
          cases run : Context.extractEntries snapshot interrupt context calls target opened
              ⟨made, 0, []⟩ with
          | mk state result =>
              rw [run] at done extracted
              cases done
              refine ⟨?_, ?_⟩
              · intro path outside above
                exact (extracted.grown.grows.beside path outside above).trans (beside path above)
              · intro payload success
                cases result with
                | error refusal => cases success
                | ok _ => exact ⟨made, opened, rfl, directory, beside, extracted⟩

end Response

section Transaction

variable {uuids : UuidFormat} {codec : TrashCodec} {fingerprint : Stat -> List UInt8 -> Text}
  {config : AppConfig} {request : HelperRequest} {calls : Calls} {disk : Node}
  {staging clean : RelativePath}

theorem withResult_extract (command : request.command = .extractArchive) (path : RelativePath) :
    request.withResult path = { request with targetRelativePath := some path } := by
  rw [HelperRequest.withResult, command]

/-- Hidden names are allowed, or the destination is none. -/
theorem shown_of_prepare (command : request.command = .extractArchive)
    (prepared : Context.prepare uuids fingerprint ⟨config, request, []⟩ calls disk =
      .ok (staging, clean)) :
    archiveHiddenAllowed config request = true ∨ isHiddenRelative clean = false := by
  simp only [Context.prepare, bind_eq_ok, okOr_eq_ok, mapError_eq_ok, pure_eq_ok,
    Prod.mk.injEq] at prepared
  rcases prepared with ⟨_, _, _, _, _, policy, destination, given, _, validated, _, _, _, _,
    _, rfl⟩
  rcases (HelperPolicy.authorize_eq_ok_iff uuids).mp policy with ⟨_, _, root, found, allowed⟩
  rw [HelperRequest.result, command] at given
  cases all : root.hiddenFilesAllowed with
  | true =>
      left
      rw [archiveHiddenAllowed, found]
      exact all
  | false =>
      right
      have member : destination ∈ request.otherPaths := by
        change request.targetRelativePath = some destination at given
        rw [HelperRequest.otherPaths, given]
        exact List.mem_append_right _ List.mem_cons_self
      exact (isHiddenRelative_canonical validated).trans (allowed.hiddenOthers _ member all)

/-- The private path of a prepared request is canonical. -/
theorem staging_canonical (plain : forall symbol, symbol ∈ calls.artifact -> uuidSymbol symbol = true)
    (prepared : Context.prepare uuids fingerprint ⟨config, request, []⟩ calls disk =
      .ok (staging, clean)) :
    validateRelativePath staging = .ok staging ∧ validateRelativePath clean = .ok clean := by
  rcases Context.prepare_ok prepared with ⟨destination, _, validated, _, rfl, _⟩
  rcases validateRelativePath_eq_ok_iff.mp validated with ⟨valid, rfl⟩
  rcases stagingName_single request.command plain with ⟨single, nameValid⟩
  exact ⟨validate_siblingTarget valid nameValid single, validateRelativePath_idempotent validated⟩

/-- A request for an extraction is refused, or handled. -/
theorem handleHelperRequest_extract {context : Context}
    {others : Context -> Calls -> Node -> Node × Except Refusal TrashPayload} {after : Node}
    {outcome : Except Refusal TrashPayload} (command : context.request.command = .extractArchive)
    (done : context.handleHelperRequest uuids codec others calls disk = (after, outcome)) :
    (after = disk ∧ ∃ refusal, outcome = .error refusal) ∨
      others context calls disk = (after, outcome) := by
  unfold Context.handleHelperRequest Context.handleHelperOperation at done
  simp only [command, reduceCtorEq, false_and, if_false] at done
  split at done
  · cases done
    exact .inl ⟨rfl, _, rfl⟩
  · exact .inr done

/-- What fills the private directory is a run of the extraction. -/
def extraction (interrupt : Interruptions) (readers : ArchiveReaders)
    (canonicalize : Node -> List Text -> Except IoError (List Text)) (snapshot : AppConfig)
    (context : Context) (calls : Calls) (disk : Node) : Node × Except Refusal TrashPayload :=
  context.extractResponse snapshot interrupt calls readers canonicalize disk

/-- What is new lies at the destination and below it, and all of it may be
there; so may every entry that is no link. -/
structure ExtractSafe (config : AppConfig) (request : HelperRequest) (clean : RelativePath)
    (opened : Archive) (before after : Node) : Prop where
  inside : forall path, (after.lookup path).isSome = true ->
    (before.lookup path).isSome = true ∨ segmentNames clean.value <+: path
  plain : NamedTree.Below (segmentNames clean.value) Linkless after
  publishable : forall rest, rest ≠ [] ->
    (after.lookup (segmentNames clean.value ++ rest)).isSome = true ->
    Publishable config request (entryPath clean rest)
  entries : forall item, item ∈ opened.named -> ∃ names, item = some names ∧
    (names ≠ [] -> Publishable config request (entryPath clean names))

/-- The directories that come with a path may be there. -/
structure WayAllowed (config : AppConfig) (request : HelperRequest) (clean : RelativePath)
    (opened : Archive) (before : Node) : Prop where
  parent : (before.lookup (segmentNames clean.value).dropLast).isSome = true
  implicit : forall rest, opened.Implicit rest -> Publishable config request (entryPath clean rest)

section Confined

variable {context : Context} {opened : Archive} {made written after : Node} {parent : List Text}
  {name other : Text}

/-- What a published extraction has put below the destination. -/
theorem extractSafe_iff (private_ : segmentNames staging.value = parent ++ [name])
    (public_ : segmentNames clean.value = parent ++ [other])
    (extracted : Extracted config context staging opened made written (.ok ()))
    (directory : made.HasBranch (segmentNames staging.value))
    (beside : forall path, ¬ path <+: segmentNames staging.value ->
      made.lookup path = disk.lookup path)
    (fresh : disk.lookup (segmentNames staging.value) = none)
    (published : Published written after parent name other)
    (checks : forall names, names ≠ [] -> Checked config context staging names ->
      Publishable config request (entryPath clean names)) :
    ExtractSafe config request clean opened disk after ↔
      WayAllowed config request clean opened disk := by
  have empty : forall rest, rest ≠ [] -> made.lookup (segmentNames staging.value ++ rest) = none := by
    intro rest below
    have outside : ¬ segmentNames staging.value ++ rest <+: segmentNames staging.value := by
      intro inside
      have sizes := inside.length_le
      rw [List.length_append] at sizes
      exact below (List.length_eq_zero_iff.mp (by omega))
    rw [beside _ outside]
    exact lookup_none_below rest fresh
  have named : forall names, some names ∈ opened.named -> names ≠ [] ->
      Publishable config request (entryPath clean names) := by
    intro names member below
    rcases extracted.checked rfl _ member with ⟨found, same, checked⟩
    cases same
    exact checks names below checked
  have inside : forall rest, after.lookup (segmentNames clean.value ++ rest) =
      written.lookup (segmentNames staging.value ++ rest) := by
    intro rest
    rw [private_, public_]
    exact published.inside rest
  constructor
  · intro safe
    refine ⟨?_, ?_⟩
    · rw [public_, List.dropLast_concat]
      have there : (after.lookup (parent ++ [other])).isSome = true := by
        have stands := extracted.grown.stands directory
        rcases stands with ⟨label, entries, found⟩
        have same := inside []
        rw [List.append_nil, List.append_nil, found, public_] at same
        rw [same]
        rfl
      rcases safe.inside parent (isSome_of_below (List.prefix_append _ _) there) with old | below
      · exact old
      · rw [public_] at below
        exact absurd below (not_prefix_concat parent other)
    · intro rest implicit
      have below : rest ≠ [] := by
        cases opened with
        | zip entries =>
            rcases implicit with ⟨_, _, _, _, below⟩
            exact below
        | tar entries => exact implicit.elim
      apply safe.publishable rest below
      rw [inside]
      exact extracted.implicit rfl rest implicit
  · intro way
    refine ⟨?_, ?_, ?_, ?_⟩
    · intro path there
      by_cases below : segmentNames clean.value <+: path
      · exact .inr below
      · left
        have outside := below
        rw [public_] at outside
        by_cases above : path <+: parent
        · have found := way.parent
          rw [public_, List.dropLast_concat] at found
          exact isSome_of_below above found
        · have private__ : ¬ parent ++ [name] <+: path := by
            rintro ⟨rest, rfl⟩
            rw [lookup_none_below rest published.gone] at there
            cases there
          have beyond : ¬ path <+: segmentNames staging.value := by
            rw [private_]
            intro within
            rcases List.prefix_concat_iff.mp within with whole | shorter
            · exact private__ (whole ▸ List.prefix_refl _)
            · exact above shorter
          rw [published.beside path above outside private__,
            extracted.grown.grows.beside path (private_ ▸ private__) beyond, beside path beyond] at there
          exact there
    · intro rest item found
      rw [inside] at found
      apply extracted.grown.plain _ rest item found
      intro rest item found
      by_cases here : rest = []
      · rcases directory with ⟨label, entries, same⟩
        rw [here, List.append_nil, same] at found
        cases found
        exact trivial
      · rw [empty rest here] at found
        cases found
    · intro rest below there
      rw [inside] at there
      rcases extracted.grown.grows.reached rest there with old | ⟨own, _⟩ | implicit
      · rw [empty rest below] at old
        cases old
      · exact named rest own below
      · exact way.implicit rest implicit
    · intro item member
      rcases extracted.checked rfl item member with ⟨names, same, checked⟩
      exact ⟨names, same, fun below => checks names below checked⟩

end Confined

end Transaction

/-- An extraction that fails leaves the destination as it was.  One that
succeeds publishes the entries of the archive and nothing else, regular files
and directories that may be there, exactly when the directories that it creates
on the way may be there: the destination has its parent already, and what lies
above an entry of a zip archive may be published itself. -/
theorem extract_confined (uuids : UuidFormat) (codec : TrashCodec)
    (fingerprint : Stat -> List UInt8 -> Text) (interrupt : Interruptions)
    (readers : ArchiveReaders) (canonicalize : Node -> List Text -> Except IoError (List Text))
    (config : AppConfig) (request : HelperRequest) (command : request.command = .extractArchive)
    (calls closing : Calls)
    (plain : forall symbol, symbol ∈ calls.artifact -> uuidSymbol symbol = true)
    (disk : Node) (root : disk.HasBranch [])
    (fresh : forall staging clean,
      Context.prepare uuids fingerprint ⟨config, request, []⟩ calls disk = .ok (staging, clean) ->
      disk.lookup (segmentNames staging.value) = none)
    (after : Node) (outcome : Except Refusal TrashPayload)
    (done : Context.executeInner uuids codec fingerprint (extraction interrupt readers canonicalize)
      ⟨config, request, []⟩ calls closing disk = (after, outcome)) :
    (forall refusal, outcome = .error refusal ->
      forall destination, request.targetRelativePath = some destination ->
      forall path, segmentNames destination.value <+: path -> after.lookup path = disk.lookup path) ∧
    forall payload, outcome = .ok payload -> ∃ staging clean made opened,
      Context.prepare uuids fingerprint ⟨config, request, []⟩ calls disk = .ok (staging, clean) ∧
      (Context.staged ⟨config, request, []⟩ staging clean).beginExtract
          { calls with budget := Context.available ⟨config, request, []⟩ calls disk clean } readers
          canonicalize disk = (made, .ok (staging, opened)) ∧
      (ExtractSafe config request clean opened disk after ↔
        WayAllowed config request clean opened disk) := by
  have staged : request.command.staged = true := by rw [command]; rfl
  have plainCommand : request.command ≠ .writeFile := by rw [command]; decide
  rcases executeInner_cases staged plainCommand done with
    ⟨rfl, refusal, rfl⟩ | ⟨staging, clean, written, result, prepared, handled, ended⟩
  · refine ⟨fun _ _ _ _ _ _ => rfl, fun _ success => ?_⟩
    cases success
  · rcases Context.prepare_ok prepared with ⟨destination, given, validated, filled, _, _⟩
    rcases Context.prepare_beside staged plain prepared with
      ⟨parent, name, other, private_, public_, different⟩
    rcases staging_canonical plain prepared with ⟨stagingValid, cleanValid⟩
    rw [HelperRequest.result, command] at given
    change request.targetRelativePath = some destination at given
    have named : segmentNames destination.value = parent ++ [other] := by
      rw [← public_, (validateRelativePath_eq_ok_iff.mp validated).2, segmentNames_canonicalText]
    have stagedRequest := withResult_extract command staging
    have target : (request.withResult staging).targetRelativePath = some staging :=
      congrArg HelperRequest.targetRelativePath stagedRequest
    have stagedCommand : (request.withResult staging).command = .extractArchive :=
      (congrArg HelperRequest.command stagedRequest).trans command
    have below : segmentNames staging.value ≠ [] := private_ ▸ List.concat_ne_nil _ _
    have run := handleHelperRequest_extract stagedCommand handled
    rcases ended with ⟨rfl, refusal, rfl⟩ | ⟨payload, published, rfl, rfl, renamed, rfl⟩
    · refine ⟨?_, fun _ success => (by cases success)⟩
      -- the private directory lies beside the destination
      rintro _ _ _ same path inside
      rw [given, Option.some.injEq] at same
      subst same
      rw [named] at inside
      have above : ¬ path <+: parent := fun above => not_prefix_concat parent other (inside.trans above)
      have beside : ¬ parent ++ [name] <+: path := by
        intro within
        exact different (concat_prefix_concat
          (List.prefix_of_prefix_length_le inside within (by simp)))
      rw [lookup_dropStaging private_ above (private_ ▸ beside)]
      rcases run with ⟨rfl, _⟩ | run
      · rfl
      · apply (extractResponse_extracted root target stagingValid below run).1 path (private_ ▸ beside)
        rw [private_]
        intro within
        rcases List.prefix_concat_iff.mp within with whole | shorter
        · exact beside (whole ▸ List.prefix_refl _)
        · exact above shorter
    · refine ⟨fun _ failure => (by cases failure), fun _ _ => ?_⟩
      rcases run with ⟨_, refusal, failure⟩ | run
      · cases failure
      · rcases (extractResponse_extracted root target stagingValid below run).2 payload rfl with
          ⟨made, opened, begun, directory, beside, extracted⟩
        have moved : Published written (Context.dropStaging closing published staging) parent name
            other :=
          dropStaging_published private_ different (rename_published private_ public_ different renamed)
        have stagingFilled : staging.value ≠ [] := by
          intro empty
          rw [empty] at below
          exact below rfl
        refine ⟨staging, clean, made, opened, prepared, begun, ?_⟩
        exact extractSafe_iff private_ public_ extracted directory beside (fresh _ _ prepared) moved
          (fun names here checked => publishable_of_checked stagingValid stagingFilled cleanValid filled
            (shown_of_prepare command prepared) here checked)

namespace OneExtract

def config : AppConfig :=
  { AppConfig.standard with features := { AppConfig.standard.features with extractArchive := true } }

def executed (entries : List ZipEntry) : Node × Except Refusal TrashPayload :=
  Context.executeInner .hyphenated OneRename.codec OneUpload.fingerprint
    (extraction interrupt (readers entries []) canonicalize) ⟨config, request "a.zip".toList, []⟩
    OneUpload.calls OneUpload.calls disk

def staging : RelativePath :=
  ⟨".tdrv-transaction-00000000-0000-0000-0000-000000000065".toList⟩

end OneExtract

open OneExtract in
theorem extract_confined_zip :
    (executed [zipped "b".toList [1]]).2.isOk = true ∧
      ExtractSafe config (request "a.zip".toList) ⟨"out".toList⟩ (.zip [some (zipped "b".toList [1])])
        disk (executed [zipped "b".toList [1]]).1 := by
  have prepared : Context.prepare .hyphenated OneUpload.fingerprint
      ⟨config, request "a.zip".toList, []⟩ OneUpload.calls disk = .ok (staging, ⟨"out".toList⟩) := by
    decide
  have succeeds : (executed [zipped "b".toList [1]]).2.isOk = true := by decide
  refine ⟨succeeds, ?_⟩
  cases run : executed [zipped "b".toList [1]] with
  | mk after outcome =>
      rw [run] at succeeds
      cases outcome with
      | error refusal => cases succeeds
      | ok payload =>
          rcases (extract_confined .hyphenated OneRename.codec OneUpload.fingerprint interrupt
            (readers [zipped "b".toList [1]] []) canonicalize config (request "a.zip".toList) rfl
            OneUpload.calls OneUpload.calls (Text.forall_mem (by decide)) disk ⟨_, _, rfl⟩
            (by
              intro private_ clean same
              rw [prepared] at same
              cases same
              decide)
            after (.ok payload) run).2 payload rfl with
            ⟨private_, clean, made, opened, same, begun, safe⟩
          rw [prepared] at same
          cases same
          have read : opened = .zip [some (zipped "b".toList [1])] := by
            have result := congrArg (fun pair => pair.2.toOption.map Prod.snd) begun
            exact (Option.some.inj result).symm
          rw [read] at safe
          refine safe.mpr ⟨by decide, ?_⟩
          rintro rest ⟨names, member, inside, partial_, below⟩
          have single : names = ["b".toList] := by
            have listed : some names ∈ [some ["b".toList]] := member
            exact Option.some.inj (List.mem_singleton.mp listed)
          rw [single] at inside partial_
          rcases List.prefix_cons_iff.mp inside with empty | ⟨tail, same, nothing⟩
          · exact absurd empty below
          · rw [List.prefix_nil.mp nothing] at same
            exact absurd same partial_

open OneExtract in
/-- A file in a directory with the name of a private key.  An entry of that name
is refused, the directory is created. -/
theorem extract_implicit_directory :
    (executed [zipped "server.pem".toList [1]]).2.isOk = false ∧
      (executed [zipped "server.pem/a.txt".toList [1]]).2.isOk = true ∧
      isDirectory ((executed [zipped "server.pem/a.txt".toList [1]]).1.lookup
        ["out".toList, "server.pem".toList]) = true ∧
      detectSensitive ⟨"out/server.pem".toList⟩ config.sensitivePolicy = true ∧
      forall opened, ¬ ExtractSafe config (request "a.zip".toList) ⟨"out".toList⟩ opened disk
        (executed [zipped "server.pem/a.txt".toList [1]]).1 := by
  refine ⟨by decide, by decide, by decide, by decide, ?_⟩
  intro opened safe
  have plain := (safe.publishable ["server.pem".toList] (List.cons_ne_nil _ _)
    (by decide)).plain
  revert plain
  decide

end TealDrive
