import TealDrive.Policy.Authorize

namespace TealDrive

open Outcome

/-!
# Authorization and the spelling of paths

The handlers open and publish the canonical form of a path.  Hiddenness, the
path policy and the file name of the web root rule are read from names, so
they cannot tell a text from its canonical form.  Two checks read raw text:
`detect_sensitive` takes what follows the last separator, and a rename takes
its parent from before the last separator.  Both agree with the canonical form
exactly as long as the raw last segment is a name, that is, unless the path
ends in `/` or in `/.`.

`SpellingSafe` states what remains to be checked in that case, and
`authorize_canonical_iff` says that it is exactly what decides whether the
canonical request is accepted too.
-/

/-! ## The canonical request -/

def validatePaths : List RelativePath -> Except TealDriveError (List RelativePath)
  | [] => .ok []
  | path :: rest => do
      let valid ← validateRelativePath path
      let others ← validatePaths rest
      return valid :: others

def validateOptional : Option RelativePath -> Except TealDriveError (Option RelativePath)
  | none => .ok none
  | some path => do
      let valid ← validateRelativePath path
      return some valid

def validateSources :
    Option (List RelativePath) -> Except TealDriveError (Option (List RelativePath))
  | none => .ok none
  | some paths => do
      let valid ← validatePaths paths
      return some valid

/-- The request with each of its paths as `validate_relative_path` returns it. -/
def canonicalRequest (request : HelperRequest) : Except TealDriveError HelperRequest := do
  let path ← validateRelativePath request.relativePath
  let target ← validateOptional request.targetRelativePath
  let sources ← validateSources request.archiveSourcePaths
  return { request with
    relativePath := path
    targetRelativePath := target
    archiveSourcePaths := sources }

/-- The same request computed without validation. -/
def HelperRequest.canonical (request : HelperRequest) : HelperRequest :=
  { request with
    relativePath := canonicalText request.relativePath
    targetRelativePath := request.targetRelativePath.map canonicalText
    archiveSourcePaths := request.archiveSourcePaths.map (fun paths => paths.map canonicalText) }

/-- Every path of the request is one `validate_relative_path` accepts. -/
structure ValidRequest (request : HelperRequest) : Prop where
  path : ValidPath request.relativePath
  others : forall path, path ∈ request.otherPaths -> ValidPath path

theorem validatePaths_eq_ok {paths valid : List RelativePath}
    (accepted : validatePaths paths = .ok valid) :
    (forall path, path ∈ paths -> ValidPath path) ∧ valid = paths.map canonicalText := by
  induction paths generalizing valid with
  | nil =>
      cases accepted
      exact ⟨fun _ member => absurd member List.not_mem_nil, rfl⟩
  | cons path rest ih =>
      simp only [validatePaths, bind_eq_ok, pure_eq_ok] at accepted
      rcases accepted with ⟨first, here, others, later, same⟩
      rcases validateRelativePath_eq_ok_iff.mp here with ⟨good, spelled⟩
      rcases ih later with ⟨goods, spelt⟩
      refine ⟨?_, by rw [← same, spelled, spelt, List.map_cons]⟩
      intro other member
      rcases List.mem_cons.mp member with head | tail
      · exact head ▸ good
      · exact goods other tail

theorem canonicalRequest_eq_ok {request result : HelperRequest}
    (accepted : canonicalRequest request = .ok result) :
    ValidRequest request ∧ result = request.canonical := by
  simp only [canonicalRequest, bind_eq_ok, pure_eq_ok] at accepted
  rcases accepted with ⟨path, pathOk, target, targetOk, sources, sourcesOk, same⟩
  rcases validateRelativePath_eq_ok_iff.mp pathOk with ⟨pathValid, pathSpelled⟩
  have targetSpec : (forall path, path ∈ request.targetRelativePath.toList -> ValidPath path) ∧
      target = request.targetRelativePath.map canonicalText := by
    cases given : request.targetRelativePath with
    | none =>
        rw [given] at targetOk
        cases targetOk
        exact ⟨fun _ member => absurd member List.not_mem_nil, rfl⟩
    | some text =>
        rw [given] at targetOk
        simp only [validateOptional, bind_eq_ok, pure_eq_ok] at targetOk
        rcases targetOk with ⟨valid, checked, some⟩
        rcases validateRelativePath_eq_ok_iff.mp checked with ⟨good, spelled⟩
        refine ⟨?_, by rw [← some, spelled]; rfl⟩
        intro path member
        exact List.mem_singleton.mp member ▸ good
  have sourcesSpec : (forall path, path ∈ request.sources -> ValidPath path) ∧
      sources = request.archiveSourcePaths.map (fun paths => paths.map canonicalText) := by
    unfold HelperRequest.sources
    cases given : request.archiveSourcePaths with
    | none =>
        rw [given] at sourcesOk
        cases sourcesOk
        exact ⟨fun _ member => absurd member List.not_mem_nil, rfl⟩
    | some paths =>
        rw [given] at sourcesOk
        simp only [validateSources, bind_eq_ok, pure_eq_ok] at sourcesOk
        rcases sourcesOk with ⟨valid, checked, some⟩
        rcases validatePaths_eq_ok checked with ⟨good, spelled⟩
        exact ⟨good, by rw [← some, spelled]; rfl⟩
  refine ⟨⟨pathValid, ?_⟩, ?_⟩
  · intro other member
    rcases List.mem_append.mp member with source | target
    · exact sourcesSpec.1 other source
    · exact targetSpec.1 other target
  · rw [← same, pathSpelled, targetSpec.2, sourcesSpec.2]
    rfl

theorem canonical_sources (request : HelperRequest) :
    request.canonical.sources = request.sources.map canonicalText := by
  unfold HelperRequest.sources HelperRequest.canonical
  cases request.archiveSourcePaths <;> rfl

theorem canonical_otherPaths (request : HelperRequest) :
    request.canonical.otherPaths = request.otherPaths.map canonicalText := by
  unfold HelperRequest.otherPaths
  rw [canonical_sources, List.map_append]
  congr 1
  unfold HelperRequest.canonical
  cases request.targetRelativePath <;> rfl

theorem canonical_target (request : HelperRequest) :
    request.canonical.target = canonicalText request.target := by
  unfold HelperRequest.target HelperRequest.canonical
  cases request.targetRelativePath <;> rfl

/-! ## Checks that read names -/

/-- Two valid texts that spell the same names get the same answer from the
path policy. -/
theorem AccessPolicy.check_of_segmentNames {policy : AccessPolicy} {username : Text}
    {root : RootId} {action : Access} {left right : RelativePath} (leftValid : ValidPath left)
    (rightValid : ValidPath right)
    (same : segmentNames left.value = segmentNames right.value) :
    policy.check username root left action = policy.check username root right action := by
  have spelled : canonicalText left = canonicalText right :=
    congrArg (fun names => RelativePath.mk (Segments.join '/' names)) same
  unfold AccessPolicy.check
  rw [leftValid.validate, rightValid.validate, spelled]

/-- A path that the path policy accepts has no denied name. -/
theorem AccessPolicy.deniesComponent_of_check {policy : AccessPolicy} {username : Text}
    {root : RootId} {action : Access} {path : RelativePath}
    (accepted : policy.check username root path action = .ok ()) {name : Text}
    (named : name ∈ segmentNames path.value) : policy.deniesComponent name = false := by
  rcases AccessPolicy.check_eq_ok_iff.mp accepted with ⟨valid, validated, components, _⟩
  have spelled := (validateRelativePath_eq_ok_iff.mp validated).2
  have split : valid.value.splitOn '/' = segmentNames path.value := by
    rw [spelled]
    refine Segments.splitOn_join (List.ne_nil_of_mem named) ?_
    intro segment member
    exact Segments.separator_not_mem_of_mem_names member
  exact components _ (split ▸ named)

/-- The path policy refuses every path through the trash directory. -/
theorem AccessPolicy.check_trash {policy : AccessPolicy} {username : Text} {root : RootId}
    {action : Access} {path : RelativePath}
    (inside : ".tealdrive-trash".toList ∈ segmentNames path.value) :
    policy.check username root path action ≠ .ok () := by
  intro accepted
  have allowed := AccessPolicy.deniesComponent_of_check accepted inside
  simp [AccessPolicy.deniesComponent] at allowed

theorem trash_mem_segmentNames {text : Text} (inside : trashFiles.isPrefixOf text = true) :
    ".tealdrive-trash".toList ∈ segmentNames text := by
  rcases List.isPrefixOf_iff_prefix.mp inside with ⟨rest, whole⟩
  have split : text = ".tealdrive-trash".toList ++ '/' :: ("files/".toList ++ rest) := by
    rw [← whole]
    rfl
  rw [segmentNames, split, Segments.names_append]
  exact List.mem_append_left _ (by decide)

/-! ## Trash identifiers have one spelling -/

theorem canonicalText_of_internalTrashId {uuids : UuidFormat} {path : RelativePath} {id : Text}
    (found : internalTrashId uuids path = some id) : canonicalText path = path := by
  unfold internalTrashId Text.stripPrefix at found
  by_cases inside : trashFiles.isPrefixOf path.value = true
  · rw [if_pos inside] at found
    rcases List.isPrefixOf_iff_prefix.mp inside with ⟨rest, whole⟩
    have dropped : path.value.drop trashFiles.length = rest := by
      rw [← whole, List.drop_left]
    simp only [dropped] at found
    by_cases accepted : uuids.canonical rest = true
    · have long := uuids.length rest accepted
      have clean : '/' ∉ rest := by
        intro member
        exact absurd (uuids.symbols rest accepted '/' member) (by decide)
      have named : dullSegment rest = false := by
        simp only [dullSegment, Bool.or_eq_false_iff, beq_eq_false_iff_ne]
        constructor
        · intro empty
          rw [empty] at long
          cases long
        · intro dot
          rw [dot] at long
          cases long
      have split : path.value = (".tealdrive-trash".toList ++ '/' :: "files".toList) ++ '/' :: rest := by
        rw [← whole]
        rfl
      have names : Segments.names '/' dullSegment path.value =
          [".tealdrive-trash".toList, "files".toList] ++ [rest] := by
        rw [split, Segments.names_append, Segments.names_of_separator_not_mem clean, named]
        rfl
      have spelled : Segments.normalize '/' dullSegment path.value = path.value := by
        unfold Segments.normalize
        rw [names, Segments.join_concat (List.cons_ne_nil _ _), split]
        rfl
      exact congrArg RelativePath.mk spelled
    · rw [if_neg accepted] at found
      cases found
  · rw [if_neg inside] at found
    cases found

theorem canonical_pathExempt {uuids : UuidFormat} {request : HelperRequest}
    (exempt : request.pathExempt uuids = true) :
    request.canonical.pathExempt uuids = true := by
  simp only [HelperRequest.pathExempt, Bool.or_eq_true, Bool.and_eq_true] at exempt ⊢
  rcases exempt with command | ⟨command, internal⟩
  · exact Or.inl command
  · refine Or.inr ⟨command, ?_⟩
    rcases Option.isSome_iff_exists.mp internal with ⟨id, found⟩
    have spelled : request.canonical.relativePath = request.relativePath :=
      canonicalText_of_internalTrashId found
    rw [spelled]
    exact internal

/-- For an accepted request the canonical request reaches into the trash
exactly when the request does: any other path through the trash is refused. -/
theorem canonical_internalTrash {uuids : UuidFormat} {request : HelperRequest}
    {config : AppConfig} (allowed : PathsAllowed uuids [] request config) :
    request.canonical.internalTrash = request.internalTrash := by
  have outside : request.command = .deletePermanently ->
      ".tealdrive-trash".toList ∈ segmentNames request.relativePath.value ->
      request.canonical.relativePath = request.relativePath := by
    intro command inside
    cases exempt : request.pathExempt uuids with
    | false => exact absurd (allowed.path exempt) (AccessPolicy.check_trash inside)
    | true =>
        simp only [HelperRequest.pathExempt, command] at exempt
        rcases Option.isSome_iff_exists.mp (by simpa using exempt) with ⟨id, found⟩
        exact canonicalText_of_internalTrashId found
  by_cases command : request.command = .deletePermanently
  · by_cases inside : ".tealdrive-trash".toList ∈ segmentNames request.relativePath.value
    · unfold HelperRequest.internalTrash
      rw [outside command inside]
      rfl
    · have raw : trashFiles.isPrefixOf request.relativePath.value = false := by
        cases starts : trashFiles.isPrefixOf request.relativePath.value with
        | false => rfl
        | true => exact absurd (trash_mem_segmentNames starts) inside
      have spelled : trashFiles.isPrefixOf request.canonical.relativePath.value = false := by
        cases starts : trashFiles.isPrefixOf request.canonical.relativePath.value with
        | false => rfl
        | true =>
            have named := trash_mem_segmentNames starts
            have kept : segmentNames request.canonical.relativePath.value =
                segmentNames request.relativePath.value := segmentNames_canonicalText _
            rw [kept] at named
            exact absurd named inside
      unfold HelperRequest.internalTrash
      rw [raw, spelled]
      rfl
  · have other : (request.command == .deletePermanently) = false := beq_eq_false_iff_ne.mpr command
    have otherCanonical : (request.canonical.command == .deletePermanently) = false := other
    unfold HelperRequest.internalTrash
    rw [other, otherCanonical]
    rfl

/-! ## Checks that read the raw last segment -/

/-- The path ends in `/`, in `/.`, or is empty or a single dot. -/
def endsDull (path : RelativePath) : Bool :=
  dullSegment (Segments.lastSegment '/' path.value)

theorem detectSensitive_canonicalText {path : RelativePath} {config : SensitivePolicyConfig}
    (named : endsDull path = false) :
    detectSensitive (canonicalText path) config = detectSensitive path config := by
  have same : Segments.lastSegment '/' (canonicalText path).value =
      Segments.lastSegment '/' path.value := Segments.lastSegment_normalize_of_not_dull named
  unfold detectSensitive
  rw [same]

/-- The names of a rename's destination are those of the raw parent and of the
target. -/
theorem segmentNames_siblingTarget (path target : RelativePath) :
    segmentNames (siblingTarget path target).value =
      segmentNames (rawParent path) ++ segmentNames target.value := by
  change segmentNames (if rawParent path = [] then target
    else ⟨rawParent path ++ '/' :: target.value⟩ : RelativePath).value = _
  by_cases empty : rawParent path = []
  · rw [if_pos empty, empty]
    rfl
  · rw [if_neg empty]
    exact Segments.names_append _ _

/-- A path that does not end in a dull segment is its raw parent and its last
name. -/
theorem segmentNames_eq_of_endsDull {path : RelativePath} (named : endsDull path = false) :
    segmentNames path.value =
      segmentNames (rawParent path) ++ [Segments.lastSegment '/' path.value] := by
  unfold rawParent
  unfold endsDull at named
  cases split : Segments.rsplitOnce '/' path.value with
  | none =>
      have whole : Segments.lastSegment '/' path.value = path.value := by
        simp only [Segments.lastSegment, split]
      rw [whole] at named ⊢
      rw [segmentNames, Segments.names_of_separator_not_mem (Segments.rsplitOnce_eq_none split),
        named]
      rfl
  | some parts =>
      rcases parts with ⟨before, after⟩
      have final : Segments.lastSegment '/' path.value = after := by
        simp only [Segments.lastSegment, split]
      rw [final] at named ⊢
      rw [segmentNames, Segments.names_eq_of_rsplitOnce split, named]
      rfl

theorem segmentNames_rawParent {path : RelativePath} (named : endsDull path = false) :
    segmentNames (rawParent path) = (segmentNames path.value).dropLast := by
  rw [segmentNames_eq_of_endsDull named]
  exact List.dropLast_concat.symm

/-- The canonical spelling of a path with names ends in its last name. -/
theorem endsDull_canonicalText {path : RelativePath} (named : segmentNames path.value ≠ []) :
    endsDull (canonicalText path) = false := by
  cases listed : segmentNames path.value using List.reverseRecOn with
  | nil => exact absurd listed named
  | append_singleton front final =>
      have member : final ∈ segmentNames path.value := by
        rw [listed]
        exact List.mem_append_right _ List.mem_cons_self
      have whole : (canonicalText path).value = Segments.join '/' (front ++ [final]) :=
        congrArg (Segments.join '/') listed
      rw [endsDull, whole, Segments.lastSegment_join_concat front
        (Segments.separator_not_mem_of_mem_names member)]
      exact Segments.not_dull_of_mem_names member

/-- The raw parent of a canonical path spells all names but the last. -/
theorem segmentNames_rawParent_canonicalText (path : RelativePath) :
    segmentNames (rawParent (canonicalText path)) = (segmentNames path.value).dropLast := by
  by_cases named : segmentNames path.value = []
  · have empty : (canonicalText path).value = [] := congrArg (Segments.join '/') named
    rw [rawParent, empty, named]
    rfl
  · rw [segmentNames_rawParent (endsDull_canonicalText named), segmentNames_canonicalText]

/-- The parent of a canonical path is canonical. -/
theorem rawParent_canonicalText (path : RelativePath) :
    rawParent (canonicalText path) = Segments.join '/' (segmentNames path.value).dropLast := by
  cases listed : segmentNames path.value using List.reverseRecOn with
  | nil =>
      have empty : (canonicalText path).value = [] := congrArg (Segments.join '/') listed
      rw [rawParent, empty]
      rfl
  | append_singleton front final =>
      have whole : (canonicalText path).value = Segments.join '/' (front ++ [final]) :=
        congrArg (Segments.join '/') listed
      have single : '/' ∉ final := by
        apply Segments.separator_not_mem_of_mem_names
        change final ∈ segmentNames path.value
        rw [listed]
        exact List.mem_append_right _ List.mem_cons_self
      rw [List.dropLast_concat, rawParent, whole]
      by_cases top : front = []
      · subst top
        have only : Segments.join '/' ([] ++ [final]) = final := List.intercalate_singleton
        rw [only, Segments.rsplitOnce_of_not_mem single]
        rfl
      · rw [Segments.join_concat top, Segments.rsplitOnce_append single]
        rfl

/-- The raw parent of a dull spelling spells all names. -/
theorem segmentNames_rawParent_of_dull {path : RelativePath} (dull : endsDull path = true)
    (named : segmentNames path.value ≠ []) :
    segmentNames (rawParent path) = segmentNames path.value := by
  unfold rawParent
  unfold endsDull at dull
  cases split : Segments.rsplitOnce '/' path.value with
  | none =>
      have whole : Segments.lastSegment '/' path.value = path.value := by
        simp only [Segments.lastSegment, split]
      rw [whole] at dull
      rw [segmentNames, Segments.names_of_separator_not_mem (Segments.rsplitOnce_eq_none split),
        dull] at named
      exact absurd rfl named
  | some parts =>
      rcases parts with ⟨before, after⟩
      have final : Segments.lastSegment '/' path.value = after := by
        simp only [Segments.lastSegment, split]
      rw [final] at dull
      have names := @Segments.names_eq_of_rsplitOnce _ _ _ dullSegment _ _ _ split
      rw [dull, if_pos rfl, List.append_nil] at names
      exact names.symm

/-- The raw parent spells no other names than the path. -/
theorem segmentNames_rawParent_subset (path : RelativePath) :
    segmentNames (rawParent path) ⊆ segmentNames path.value := by
  unfold rawParent
  cases split : Segments.rsplitOnce '/' path.value with
  | none => exact List.nil_subset _
  | some parts =>
      have names := @Segments.names_eq_of_rsplitOnce _ _ _ dullSegment _ _ _ split
      rw [segmentNames, segmentNames, names]
      exact List.subset_append_left _ _

theorem ValidPath.join {parent name : RelativePath} (parentValid : ValidPath parent)
    (nameValid : ValidPath name) (filled : parent.value ≠ []) :
    ValidPath ⟨parent.value ++ '/' :: name.value⟩ where
  noNull := by
    intro member
    rcases List.mem_append.mp member with inParent | later
    · exact parentValid.noNull inParent
    · rcases List.mem_cons.mp later with separator | named
      · exact absurd separator (by decide)
      · exact nameValid.noNull named
  relative := by
    cases front : parent.value with
    | nil => exact absurd front filled
    | cons symbol rest =>
        have relative := parentValid.relative
        rw [front] at relative
        exact relative
  noParent := by
    rw [segmentNames, Segments.names_append]
    intro member
    rcases List.mem_append.mp member with inParent | named
    · exact parentValid.noParent inParent
    · exact nameValid.noParent named

theorem ValidPath.rawParent {path : RelativePath} (valid : ValidPath path) :
    ValidPath ⟨TealDrive.rawParent path⟩ := by
  have start : TealDrive.rawParent path <+: path.value := by
    unfold TealDrive.rawParent
    cases split : Segments.rsplitOnce '/' path.value with
    | none => exact List.nil_prefix
    | some parts => exact ⟨'/' :: parts.2, (Segments.rsplitOnce_eq_some split).1.symm⟩
  refine ⟨fun member => valid.noNull (start.subset member), ?_,
    fun member => valid.noParent (segmentNames_rawParent_subset path member)⟩
  cases front : TealDrive.rawParent path with
  | nil => rfl
  | cons symbol rest =>
      rcases start with ⟨tail, whole⟩
      have relative := valid.relative
      rw [← whole, front] at relative
      exact relative

theorem validPath_siblingTarget {path target : RelativePath} (pathValid : ValidPath path)
    (targetValid : ValidPath target) : ValidPath (siblingTarget path target) := by
  have shape : siblingTarget path target =
      if rawParent path = [] then target else ⟨rawParent path ++ '/' :: target.value⟩ := rfl
  by_cases empty : rawParent path = []
  · rw [shape, if_pos empty]
    exact targetValid
  · rw [shape, if_neg empty]
    exact pathValid.rawParent.join targetValid empty

/-- A name beside a canonical path is canonical. -/
theorem validate_siblingTarget {path name : RelativePath} (valid : ValidPath path)
    (nameValid : ValidPath name) (single : segmentNames name.value = [name.value]) :
    validateRelativePath (siblingTarget (canonicalText path) name) =
      .ok (siblingTarget (canonicalText path) name) := by
  rw [validateRelativePath_eq_ok_iff]
  refine ⟨validPath_siblingTarget valid.canonicalText nameValid, ?_⟩
  have names := segmentNames_siblingTarget (canonicalText path) name
  rw [segmentNames_rawParent_canonicalText, single] at names
  have spelled := rawParent_canonicalText path
  apply congrArg RelativePath.mk
  change _ = Segments.join '/' (segmentNames (siblingTarget (canonicalText path) name).value)
  rw [names]
  change (if rawParent (canonicalText path) = [] then name
    else ⟨rawParent (canonicalText path) ++ '/' :: name.value⟩ : RelativePath).value = _
  by_cases top : (segmentNames path.value).dropLast = []
  · have empty : rawParent (canonicalText path) = [] := by
      rw [spelled, top]
      rfl
    rw [if_pos empty, top]
    exact List.intercalate_singleton.symm
  · have filled : rawParent (canonicalText path) ≠ [] := by
      intro empty
      rw [← segmentNames_rawParent_canonicalText, empty] at top
      exact top rfl
    rw [if_neg filled, Segments.join_concat top, ← spelled]

/-! ## When the canonical request is accepted too -/

/-- What the raw readings leave unchecked.  A path that ends in `/` or `/.`
must not have a sensitive canonical name where names are checked, and a rename
of such a path must be allowed to write its canonical destination. -/
structure SpellingSafe (request : HelperRequest) (config : AppConfig) : Prop where
  others : forall path, path ∈ request.otherPaths -> endsDull path = true ->
    detectSensitive (canonicalText path) config.sensitivePolicy = false
  path : request.internalTrash = false -> request.command.namesOnly = false ->
    endsDull request.relativePath = true ->
    detectSensitive (canonicalText request.relativePath) config.sensitivePolicy = false
  sibling : request.command = .rename -> endsDull request.relativePath = true ->
    forall target, request.targetRelativePath = some target ->
      config.accessPolicy.check request.username request.rootId
        (siblingTarget (canonicalText request.relativePath) (canonicalText target)) .write = .ok ()

section Canonical

variable {uuids : UuidFormat} {request : HelperRequest} {config : AppConfig}

theorem canonical_checkPath (path : RelativePath) (access : Access) (valid : ValidPath path) :
    request.canonical.checkPath [] config (canonicalText path) access =
      request.checkPath [] config path access :=
  AccessPolicy.check_of_segmentNames valid.canonicalText valid (segmentNames_canonicalText path)

/-- The destination of the canonical request is allowed when that of the
request is and the renamed path does not end in a dull segment. -/
theorem canonical_destination (valid : ValidRequest request) (safe : SpellingSafe request config)
    {target : RelativePath} (given : request.targetRelativePath = some target)
    (allowed : request.checkPath [] config (request.destination target) .write = .ok ()) :
    request.canonical.checkPath [] config
      (request.canonical.destination (canonicalText target)) .write = .ok () := by
  have targetValid : ValidPath target := by
    apply valid.others
    unfold HelperRequest.otherPaths
    rw [given]
    exact List.mem_append_right _ List.mem_cons_self
  by_cases command : request.command = .rename
  · have raw : request.destination target = siblingTarget request.relativePath target :=
      if_pos command
    have spelled : request.canonical.destination (canonicalText target) =
        siblingTarget (canonicalText request.relativePath) (canonicalText target) := if_pos command
    rw [spelled]
    cases ending : endsDull request.relativePath with
    | true => exact safe.sibling command ending target given
    | false =>
        rw [raw] at allowed
        rcases AccessPolicy.check_eq_ok_iff.mp allowed with ⟨_, validated, _⟩
        have names : segmentNames
              (siblingTarget (canonicalText request.relativePath) (canonicalText target)).value =
            segmentNames (siblingTarget request.relativePath target).value := by
          rw [segmentNames_siblingTarget, segmentNames_siblingTarget,
            segmentNames_rawParent_canonicalText, segmentNames_rawParent ending,
            segmentNames_canonicalText]
        exact (AccessPolicy.check_of_segmentNames
          (validPath_siblingTarget valid.path.canonicalText targetValid.canonicalText) (validPath_of_ok validated)
          names).trans allowed
  · have raw : request.destination target = target := if_neg command
    have spelled : request.canonical.destination (canonicalText target) = canonicalText target :=
      if_neg command
    rw [spelled, canonical_checkPath target .write targetValid, ← raw]
    exact allowed

theorem PathsAllowed.canonical (valid : ValidRequest request) (safe : SpellingSafe request config)
    (allowed : PathsAllowed uuids [] request config) :
    PathsAllowed uuids [] request.canonical config where
  path := by
    intro checked
    have original : request.pathExempt uuids = false := by
      cases exempt : request.pathExempt uuids with
      | false => rfl
      | true => rw [canonical_pathExempt exempt] at checked; cases checked
    exact (canonical_checkPath request.relativePath (operationAccess request.command)
      valid.path).trans (allowed.path original)
  target := by
    intro target given
    rcases Option.map_eq_some_iff.mp given with ⟨raw, original, spelled⟩
    subst spelled
    exact canonical_destination valid safe original (allowed.target raw original)
  sources := by
    intro path member
    rw [canonical_sources] at member
    rcases List.mem_map.mp member with ⟨raw, original, spelled⟩
    subst spelled
    rw [canonical_checkPath raw .read (valid.others raw (List.mem_append_left _ original))]
    exact allowed.sources raw original

theorem RootAllows.canonical {root : AllowedRoot} (valid : ValidRequest request)
    (safe : SpellingSafe request config)
    (trash : request.canonical.internalTrash = request.internalTrash)
    (allowed : RootAllows request config root) : RootAllows request.canonical config root where
  writable := allowed.writable
  uploads := allowed.uploads
  hiddenPath := by
    intro general disallowed
    rw [trash] at general
    have same := isHiddenRelative_canonical valid.path.validate
    exact same.trans (allowed.hiddenPath general disallowed)
  hiddenOthers := by
    intro path member disallowed
    rw [canonical_otherPaths] at member
    rcases List.mem_map.mp member with ⟨raw, original, spelled⟩
    subst spelled
    have same := isHiddenRelative_canonical (valid.others raw original).validate
    exact same.trans (allowed.hiddenOthers raw original disallowed)
  sensitiveOthers := by
    intro path member
    rw [canonical_otherPaths] at member
    rcases List.mem_map.mp member with ⟨raw, original, spelled⟩
    subst spelled
    cases ending : endsDull raw with
    | true => exact safe.others raw original ending
    | false =>
        rw [detectSensitive_canonicalText ending]
        exact allowed.sensitiveOthers raw original
  sensitivePath := by
    intro general contents
    rw [trash] at general
    cases ending : endsDull request.relativePath with
    | true => exact safe.path general contents ending
    | false =>
        exact (detectSensitive_canonicalText ending).trans (allowed.sensitivePath general contents)
  webroot := by
    intro write rooted
    have checked := allowed.webroot write rooted
    refine ⟨checked.noExtraction, ?_⟩
    intro name same
    rw [canonical_target, fileName_canonicalText] at same
    exact checked.name name same

/-- The canonical request cannot be accepted unless the raw readings left
nothing unchecked. -/
theorem spellingSafe_of_canonical {root : AllowedRoot}
    (trash : request.canonical.internalTrash = request.internalTrash)
    (paths : PathsAllowed uuids [] request.canonical config)
    (allowed : RootAllows request.canonical config root) : SpellingSafe request config where
  others := by
    intro path member _
    apply allowed.sensitiveOthers
    rw [canonical_otherPaths]
    exact List.mem_map_of_mem member
  path := by
    intro general contents _
    exact allowed.sensitivePath (trash.trans general) contents
  sibling := by
    intro command _ target given
    have spelled : request.canonical.targetRelativePath = some (canonicalText target) := by
      change request.targetRelativePath.map canonicalText = _
      rw [given]
      rfl
    have written := paths.target (canonicalText target) spelled
    have destination : request.canonical.destination (canonicalText target) =
        siblingTarget (canonicalText request.relativePath) (canonicalText target) := if_pos command
    rw [destination] at written
    exact written

end Canonical

/-- For an accepted request, the same request in canonical spelling is
accepted exactly when the raw readings left nothing unchecked. -/
theorem authorize_canonical_iff (uuids : UuidFormat) (request canonical : HelperRequest)
    (config : AppConfig)
    (accepted : HelperPolicy.authorize uuids [] request config = .ok ())
    (spelled : canonicalRequest request = .ok canonical) :
    HelperPolicy.authorize uuids [] canonical config = .ok () ↔ SpellingSafe request config := by
  rcases canonicalRequest_eq_ok spelled with ⟨valid, same⟩
  subst same
  rcases (HelperPolicy.authorize_eq_ok_iff uuids).mp accepted with
    ⟨paths, options, root, found, allowed⟩
  have trash := canonical_internalTrash paths
  constructor
  · intro canonicalAccepted
    rcases (HelperPolicy.authorize_eq_ok_iff uuids).mp canonicalAccepted with
      ⟨canonicalPaths, _, other, otherFound, canonicalAllowed⟩
    exact spellingSafe_of_canonical trash canonicalPaths canonicalAllowed
  · intro safe
    exact (HelperPolicy.authorize_eq_ok_iff uuids).mpr ⟨paths.canonical valid safe, options, root,
      found, allowed.canonical valid safe trash⟩

theorem authorize_canonical_iff_notes :
    HelperPolicy.authorize .hyphenated [] (uploadOf "docs//notes.txt/.".toList) .standard = .ok () ∧
      canonicalRequest (uploadOf "docs//notes.txt/.".toList) =
        .ok (uploadOf "docs/notes.txt".toList) ∧
      SpellingSafe (uploadOf "docs//notes.txt/.".toList) .standard :=
  ⟨by decide, by decide, (authorize_canonical_iff .hyphenated
    (uploadOf "docs//notes.txt/.".toList) (uploadOf "docs/notes.txt".toList) .standard
    (by decide) (by decide)).mp (by decide)⟩

/-- A private key is uploaded under a spelling that ends in a separator and
published under the name the default policy refuses. -/
theorem authorize_trailing_separator :
    HelperPolicy.authorize .hyphenated [] (uploadOf "server.pem/".toList) .standard = .ok () ∧
      canonicalRequest (uploadOf "server.pem/".toList) = .ok (uploadOf "server.pem".toList) ∧
      HelperPolicy.authorize .hyphenated [] (uploadOf "server.pem".toList) .standard =
        .error .policyDenied := by
  decide

end TealDrive
