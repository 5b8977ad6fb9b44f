import TealDrive.Accounts.Journal
import TealDrive.Helper.Trash

namespace TealDrive

open Outcome

/-!
# Renaming

A rename names an entry and a new name beside it.  Where the new name comes to
lie is computed four times.  The path policy, the journal and the observation
of the outcome cut the parent off the text of the request; the rename itself
first validates the path, and cuts the parent off the canonical spelling.  A
text that ends in a separator or in a dot has its own last name for a raw
parent, so that the rename lands in another directory than the one that was
checked, recorded and observed.
-/

/-- `rename::helper_error_from_io`. -/
def Refusal.ofRenameIo (error : IoError) : Refusal :=
  if error = .EEXIST then ⟨.alreadyExists, "Target already exists.", "already_exists"⟩
  else if error.isNotFound then ⟨.notFound, "Source not found.", "not_found"⟩
  else if error.isPermissionDenied then
    ⟨.permissionDenied, "Permission denied.", "permission_denied"⟩
  else if error = .os 18 then
    ⟨.crossDeviceMove, "Cross-device rename is not supported.", "cross_device_move"⟩
  else if error = .ENOTDIR then
    ⟨.invalidTarget, "Parent is not a directory.", "parent_not_directory"⟩
  else if error.isFull then ⟨.diskFull, "Disk is full.", "disk_full"⟩
  else if error = .os 36 then ⟨.nameTooLong, "Name too long.", "name_too_long"⟩
  else ⟨.internalError, "Filesystem error.", "filesystem_error"⟩

namespace Context

/-! ## `rename_with_roots` -/

/-- `resolve_new_target`.  A link on the way to the parent leads on, and is refused
when the file is opened or renamed. -/
def resolveNewTarget (calls : Calls) (disk : Node) (parent : RelativePath) (filename : Text) :
    Except TealDriveError (RelativePath × Text) := do
  mapError (fun _ => TealDriveError.invalidRootId) (calls.attempt .root)
  let parent ← validateRelativePath parent
  let name ← parseSafeFileName filename
  mapError pathError (calls.attempt (.stat .target (segmentNames parent.value)))
  match walk disk (segmentNames parent.value) with
  | .ok (.leaf (.symlink _)) => .error .symlinkDenied
  | .ok (.leaf _) => .error .invalidTarget
  | .ok (.branch _ _) => return (parent, name)
  | .error error => if error = .ELOOP then return (parent, name) else .error (pathError error)

/-- The checks up to the rename: the entry and its new path. -/
def renameTarget (context : Context) (calls : Calls) (disk : Node) :
    Except Refusal (RelativePath × RelativePath) := do
  let newName ← okOr context.request.targetRelativePath
    ⟨.validationError, "New name is required.", "missing_new_name"⟩
  refuse (newName.value.contains '/' || newName.value.contains '\\')
    ⟨.validationError, "Invalid new name.", "invalid_new_name"⟩
  let (source, _) ← mapError Refusal.ofTealDrive
    (context.resolveExistingPath calls disk context.request.relativePath)
  let (parent, name) ← mapError Refusal.ofTealDrive
    (resolveNewTarget calls disk ⟨rawParent source⟩ newName.value)
  let destination : RelativePath :=
    if parent.value = [] then ⟨name⟩ else ⟨parent.value ++ '/' :: name⟩
  refuse ((calls.attempt (.stat .item (segmentNames destination.value))).isOk &&
    (disk.lookup (segmentNames destination.value)).isSome)
    ⟨.alreadyExists, "Target already exists.", "already_exists"⟩
  return (source, destination)

def renameWithRoots (context : Context) (calls : Calls) (disk : Node) :
    Node × Except Refusal TrashPayload :=
  if context.request.command ≠ .rename then (disk, .error .notImplemented)
  else if context.request.uid = 0 then
    (disk, .error (.permissionDenied "Helper refuses uid 0."))
  else
    match context.root? with
    | none => (disk, .error .unknownRoot)
    | some _ =>
        match context.renameTarget calls disk with
        | .error refusal => (disk, .error refusal)
        | .ok (source, destination) =>
            match context.rename calls disk source destination false with
            | .error error => (disk, .error (.ofRenameIo error))
            | .ok renamed => (renamed, .ok (.operationDone "Renamed."))

end Context

/-! ## Observation -/

/-- The path whose state is observed after an operation. -/
def observedTarget (request : HelperRequest) (payload : Option TrashPayload) :
    Option RelativePath :=
  match request.command with
  | .rename => request.targetRelativePath.map (fun name =>
      match Segments.rsplitOnce '/' request.relativePath.value with
      | some (parent, _) => if parent = [] then name else ⟨parent ++ '/' :: name.value⟩
      | none => name)
  | .move => request.targetRelativePath
  | .moveToTrash =>
      match payload with
      | some (.trashEntry entry) => some (trashItemPath entry.trashId)
      | _ => none
  | .chmod => some request.relativePath
  | _ => none

/-- A response with the states before and after. -/
structure ObservedResponse (State : Type) where
  outcome : Except Refusal TrashPayload
  before : Option State
  after : Option State

section Observe

variable {State : Type} (uuids : UuidFormat) (codec : TrashCodec)
  (capture : Context -> Node -> RelativePath -> Option State)
  (others : Context -> Calls -> Node -> Node × Except Refusal TrashPayload)

/-- The commands that `handle_helper_operation` hands on, as far as they are
modelled. -/
def otherOperations (context : Context) (calls : Calls) (disk : Node) :
    Node × Except Refusal TrashPayload :=
  match context.request.command with
  | .rename => context.renameWithRoots calls disk
  | _ => others context calls disk

/-- `observation::execute` of a rename or a move with the journal enabled.  What
is seen of a path is an argument. -/
def observe (context : Context) (calls : Calls) (disk : Node) : Node × ObservedResponse State :=
  match context.root? with
  | none => (disk, ⟨.error (.permissionDenied "Unknown root."), none, none⟩)
  | some _ =>
      let before := capture context disk context.request.relativePath
      match calls.attempt .cancelled with
      | .error _ => (disk, ⟨.error (.permissionDenied "Operation cancelled before execution."),
          none, none⟩)
      | .ok () =>
          match context.handleHelperRequest uuids codec (otherOperations others) calls disk with
          | (after, .error refusal) => (after, ⟨.error refusal, before, none⟩)
          | (after, .ok payload) => (after, ⟨.ok payload, before,
              (observedTarget context.request (some payload)).bind (capture context after)⟩)

end Observe

/-! ## What a rename does to the tree -/

/-- An entry was moved within the tree. -/
structure Moved (before after : Node) (source destination : List Text) : Prop where
  item : ∃ item, before.lookup source = some item ∧ after.lookup destination = some item
  gone : after.lookup source = none

namespace Context

/-- What `renameat2` makes of the tree. -/
theorem renameAt_ok {disk after : Node} {source target : List Text} {name newName : Text}
    {replace : Bool} (renamed : renameAt disk source name target newName replace = .ok after) :
    ∃ item, disk.lookup (source ++ [name]) = some item ∧ ¬ source ++ [name] <+: target ∧
      (replace = true ∨ disk.lookup (target ++ [newName]) = none) ∧
      after = (disk.remove source name).place target newName item := by
  unfold renameAt at renamed
  cases found : disk.lookup (source ++ [name]) with
  | none =>
      rw [found] at renamed
      cases renamed
  | some item =>
      rw [found] at renamed
      by_cases inside : source ++ [name] <+: target
      · simp only [if_pos inside] at renamed
        cases renamed
      · simp only [if_neg inside] at renamed
        cases free : disk.lookup (target ++ [newName]) with
        | some existing =>
            rw [free] at renamed
            cases replace with
            | false => cases renamed
            | true =>
                simp only [if_true] at renamed
                split at renamed
                · cases renamed
                · cases renamed
                  exact ⟨item, rfl, inside, .inl rfl, rfl⟩
        | none =>
            rw [free] at renamed
            cases renamed
            exact ⟨item, rfl, inside, .inr rfl, rfl⟩

/-- `renameat2` moves the entry.  An entry that may be replaced must not be the
moved one, and must not contain it. -/
theorem renameAt_moved {disk after : Node} {source target : List Text} {name newName : Text}
    {replace : Bool} (parent : disk.HasBranch target)
    (other : replace = true -> ¬ target ++ [newName] <+: source ++ [name])
    (renamed : renameAt disk source name target newName replace = .ok after) :
    Moved disk after (source ++ [name]) (target ++ [newName]) := by
  rcases renameAt_ok renamed with ⟨item, found, inside, free, rfl⟩
  have stays : (disk.remove source name).HasBranch target := by
    apply NamedTree.HasBranch.within _ parent
    intro label entries _ other rest below
    apply Rows.find_drop_of_ne
    rintro rfl
    exact inside ⟨rest, by rw [below, List.append_assoc]; rfl⟩
  refine ⟨⟨item, found, NamedTree.lookup_place_self item stays⟩, ?_⟩
  have apart : ¬ target ++ [newName] <+: source ++ [name] := by
    rcases free with replaced | absent
    · exact other replaced
    · rintro ⟨rest, whole⟩
      rw [← whole, NamedTree.lookup_append, absent] at found
      cases found
  unfold NamedTree.place
  rw [NamedTree.lookup_within_entry (fun _ entries different =>
    Rows.find_put_of_ne different item entries) inside apart]
  exact NamedTree.lookup_remove_self

/-- The parent and the name of a path are its names. -/
theorem split_names {path parent : RelativePath} {name : Text}
    (done : split path = .ok (parent, name)) :
    segmentNames path.value = segmentNames parent.value ++ [name] := by
  simp only [split, bind_eq_ok, mapError_eq_ok] at done
  rcases done with ⟨clean, validated, rest⟩
  have canonical := (validateRelativePath_eq_ok_iff.mp validated).2
  rw [← segmentNames_canonicalText path, ← canonical]
  have filled : clean.value ≠ [] := by
    intro empty
    rw [empty] at rest
    cases rest
  have named : endsDull clean = false := by
    rw [canonical]
    apply endsDull_canonicalText
    intro none
    apply filled
    rw [canonical]
    exact congrArg (Segments.join '/') none
  rw [segmentNames_eq_of_endsDull named]
  cases whole : Segments.rsplitOnce '/' clean.value with
  | none =>
      rw [whole] at rest
      simp only [if_neg filled] at rest
      cases rest
      simp [rawParent, Segments.lastSegment, whole]
  | some parts =>
      rw [whole] at rest
      cases rest
      simp [rawParent, Segments.lastSegment, whole]

/-- A rename is one of an entry of one directory to an entry of another. -/
theorem rename_ok {context : Context} {calls : Calls} {disk after : Node}
    {source destination : RelativePath} {replace : Bool}
    (renamed : context.rename calls disk source destination replace = .ok after) :
    ∃ parent name target newName, segmentNames source.value = parent ++ [name] ∧
      segmentNames destination.value = target ++ [newName] ∧ disk.HasBranch target ∧
      renameAt disk parent name target newName replace = .ok after := by
  simp only [rename, bind_eq_ok] at renamed
  rcases renamed with ⟨⟨sourceParent, sourceName⟩, sourceSplit, ⟨targetParent, targetName⟩,
    targetSplit, _, _, directory, opened, _, _, done⟩
  refine ⟨_, _, _, _, split_names sourceSplit, split_names targetSplit, ?_, done⟩
  simp only [sandboxOpen, bind_eq_ok, mapError_eq_ok, pure_eq_ok] at opened
  rcases opened with ⟨path, validated, _, _, _, _, node, walked, _, kind, _, _, _⟩
  rw [(validateRelativePath_eq_ok_iff.mp validated).2, segmentNames_canonicalText] at walked
  cases node with
  | leaf content => cases content <;> cases kind
  | branch label entries => exact ⟨label, entries, walk_eq_ok.mp walked⟩

/-- An entry is moved to the names of its destination. -/
theorem rename_moved {context : Context} {calls : Calls} {disk after : Node}
    {source destination : RelativePath} {replace : Bool}
    (other : replace = true ->
      ¬ segmentNames destination.value <+: segmentNames source.value)
    (renamed : context.rename calls disk source destination replace = .ok after) :
    Moved disk after (segmentNames source.value) (segmentNames destination.value) := by
  rcases rename_ok renamed with ⟨parent, name, target, newName, from_, to_, directory, done⟩
  rw [from_, to_] at other ⊢
  exact renameAt_moved directory other done

/-- A safe file name is one name. -/
theorem parseSafeFileName_ok {value name : Text} (parsed : parseSafeFileName value = .ok name) :
    name = value ∧ segmentNames value = [value] ∧ ValidPath ⟨value⟩ := by
  simp only [parseSafeFileName, bind_eq_ok, refuse_eq_ok, pure_eq_ok, Bool.or_eq_false_iff,
    beq_eq_false_iff_ne, List.contains_eq_mem, decide_eq_false_iff_not] at parsed
  rcases parsed with ⟨_, ⟨⟨⟨⟨⟨⟨filled, noNull⟩, noSeparator⟩, _⟩, noDot⟩, noParent⟩, _⟩, same⟩
  have named : dullSegment value = false :=
    Bool.or_eq_false_iff.mpr ⟨beq_eq_false_iff_ne.mpr filled, beq_eq_false_iff_ne.mpr noDot⟩
  have single : segmentNames value = [value] := by
    rw [segmentNames, Segments.names_of_separator_not_mem noSeparator, named]
    rfl
  refine ⟨same.symm, single, noNull, ?_, ?_⟩
  · cases value with
    | nil => rfl
    | cons symbol rest =>
        have other : symbol ≠ '/' := fun same => noSeparator (same ▸ List.mem_cons_self)
        simpa [isAbsolute] using other
  · change "..".toList ∉ segmentNames value
    rw [single, List.mem_singleton]
    exact fun parent => noParent parent.symm

/-- What a new target is resolved to. -/
theorem resolveNewTarget_ok {calls : Calls} {disk : Node} {parent checked : RelativePath}
    {filename name : Text}
    (resolved : resolveNewTarget calls disk parent filename = .ok (checked, name)) :
    validateRelativePath parent = .ok checked ∧ parseSafeFileName filename = .ok name := by
  simp only [resolveNewTarget, bind_eq_ok, mapError_eq_ok] at resolved
  rcases resolved with ⟨_, _, _, valid, _, safe, _, _, walked⟩
  split at walked
  · cases walked
  · cases walked
  · cases walked
    exact ⟨valid, safe⟩
  · split at walked
    · cases walked
      exact ⟨valid, safe⟩
    · cases walked

/-- What a rename computes before it moves anything. -/
theorem renameTarget_ok {context : Context} {calls : Calls} {disk : Node}
    {source destination : RelativePath}
    (computed : context.renameTarget calls disk = .ok (source, destination)) :
    ∃ name, context.request.targetRelativePath = some name ∧
      ValidPath context.request.relativePath ∧
      source = canonicalText context.request.relativePath ∧
      ValidPath name ∧ segmentNames name.value = [name.value] ∧
      validateRelativePath destination = .ok destination ∧
      segmentNames destination.value =
        (segmentNames context.request.relativePath.value).dropLast ++ [name.value] := by
  simp only [renameTarget, bind_eq_ok, okOr_eq_ok, refuse_eq_ok, mapError_eq_ok, pure_eq_ok,
    Prod.mk.injEq] at computed
  rcases computed with ⟨name, given, _, plain, ⟨found, item⟩, resolved, ⟨parent, safe⟩, target, _,
    _, rfl, rfl⟩
  simp only [resolveExistingPath, bind_eq_ok, mapError_eq_ok] at resolved
  rcases resolved with ⟨_, _, validated, accepted, _, _, _, _, node, _, _, _, link⟩
  have clean : found = canonicalText context.request.relativePath := by
    rw [← (validateRelativePath_eq_ok_iff.mp accepted).2]
    cases node with
    | leaf content =>
        cases content with
        | symlink _ => cases link
        | file _ _ | special =>
            cases link
            rfl
    | branch _ _ =>
        cases link
        rfl
  rcases resolveNewTarget_ok target with ⟨parentValid, safeName⟩
  rcases parseSafeFileName_ok safeName with ⟨rfl, single, nameValid⟩
  have valid := (validateRelativePath_eq_ok_iff.mp accepted).1
  have parentText : parent.value = rawParent (canonicalText context.request.relativePath) := by
    have canonical := (validateRelativePath_eq_ok_iff.mp parentValid).2
    rw [canonical, clean]
    change Segments.join '/' (segmentNames (rawParent _)) = _
    rw [segmentNames_rawParent_canonicalText, rawParent_canonicalText]
  have beside : (if parent.value = [] then (⟨name.value⟩ : RelativePath)
      else ⟨parent.value ++ '/' :: name.value⟩) =
      siblingTarget (canonicalText context.request.relativePath) name := by
    rw [parentText]
    rfl
  refine ⟨name, given, valid, clean, nameValid, single, ?_⟩
  rw [beside]
  refine ⟨validate_siblingTarget valid nameValid single, ?_⟩
  rw [segmentNames_siblingTarget, segmentNames_rawParent_canonicalText, single]

/-- A rename that was published. -/
theorem renameWithRoots_ok {context : Context} {calls : Calls} {disk after : Node}
    {payload : TrashPayload}
    (done : context.renameWithRoots calls disk = (after, .ok payload)) :
    ∃ source destination, context.renameTarget calls disk = .ok (source, destination) ∧
      context.rename calls disk source destination false = .ok after := by
  unfold renameWithRoots at done
  split at done
  · cases done
  · split at done
    · cases done
    · split at done
      · cases done
      · split at done
        · cases done
        · next source destination computed =>
            split at done
            · cases done
            · next renamed moved =>
                cases done
                exact ⟨source, destination, computed, moved⟩

end Context

/-! ## The destinations of one rename -/

section Destinations

variable {request : HelperRequest} {name : RelativePath}

/-- The path policy is asked about the name beside the text of the path. -/
theorem destination_of_rename (command : request.command = .rename) :
    request.destination name = siblingTarget request.relativePath name :=
  if_pos command

theorem recordTarget_of_rename (format : JournalFormat) (id : Uuid)
    (command : request.command = .rename) (given : request.targetRelativePath = some name) :
    recordTarget format request id = some (siblingTarget request.relativePath name) := by
  simp only [recordTarget, command, given, Option.map_some, parentText, siblingTarget]
  by_cases top : rawParent request.relativePath = []
  · simp [top]
  · simp [top]

theorem observedTarget_of_rename (payload : Option TrashPayload)
    (command : request.command = .rename) (given : request.targetRelativePath = some name) :
    observedTarget request payload = some (siblingTarget request.relativePath name) := by
  simp only [observedTarget, command, given, Option.map_some, siblingTarget]
  cases whole : Segments.rsplitOnce '/' request.relativePath.value with
  | none =>
      have parent : rawParent request.relativePath = [] := by
        rw [rawParent, whole]
        rfl
      rw [if_pos parent]
  | some parts =>
      have parent : rawParent request.relativePath = parts.1 := by
        rw [rawParent, whole]
        rfl
      rw [parent]

/-- The name beside the text of a path is the name beside the entry exactly
when the text ends in a name. -/
theorem siblingTarget_destination_iff {path destination : RelativePath} (valid : ValidPath path)
    (named : segmentNames path.value ≠ []) (nameValid : ValidPath name)
    (single : segmentNames name.value = [name.value])
    (canonical : validateRelativePath destination = .ok destination)
    (names : segmentNames destination.value =
      (segmentNames path.value).dropLast ++ [name.value]) :
    validateRelativePath (siblingTarget path name) = .ok destination ↔ endsDull path = false := by
  have sibling := segmentNames_siblingTarget path name
  rw [single] at sibling
  rw [validateRelativePath_eq_ok_iff]
  constructor
  · rintro ⟨_, same⟩
    by_contra dull
    rw [Bool.not_eq_false] at dull
    have equal := congrArg (fun text : RelativePath => segmentNames text.value) same
    simp only [segmentNames_canonicalText, sibling, names,
      segmentNames_rawParent_of_dull dull named] at equal
    have sizes := congrArg List.length (List.append_cancel_right equal)
    rw [List.length_dropLast] at sizes
    have positive := List.length_pos_of_ne_nil named
    omega
  · intro ends
    refine ⟨validPath_siblingTarget valid nameValid, ?_⟩
    rw [(validateRelativePath_eq_ok_iff.mp canonical).2]
    apply congrArg RelativePath.mk
    change Segments.join '/' (segmentNames destination.value) =
      Segments.join '/' (segmentNames (siblingTarget path name).value)
    rw [names, sibling, segmentNames_rawParent ends]

end Destinations

/-- The path policy was asked about the destination, the journal records it and
the observation looks at it. -/
structure DestinationIs (format : JournalFormat) (request : HelperRequest) (id : Uuid)
    (destination : RelativePath) : Prop where
  authorized : forall name, request.targetRelativePath = some name ->
    validateRelativePath (request.destination name) = .ok destination
  recorded : ∃ path, recordTarget format request id = some path ∧
    validateRelativePath path = .ok destination
  observed : forall payload, ∃ path, observedTarget request payload = some path ∧
    validateRelativePath path = .ok destination

/-! ## The checks before a rename -/

/-- `preflight` asks for the destination first of all. -/
theorem preflight_destination {context : Context} {calls : Calls} {disk : Node}
    {name : RelativePath} (command : context.request.command = .rename)
    (given : context.request.targetRelativePath = some name)
    (passed : context.preflight calls disk = .ok ()) :
    context.check (context.request.destination name) .write = .ok () := by
  simp only [Context.preflight, command, given, Option.map_some, Context.preflightTree,
    Context.preflightLoop, bind_eq_ok] at passed
  rcases passed with ⟨_, _, _, first, _⟩
  simp only [Context.preflightOne, bind_eq_ok, forSome_eq_ok, okOr_eq_ok] at first
  rcases first with ⟨_, _, _, _, _, checks, _⟩
  rcases checks _ rfl with ⟨_, _, suffix, stripped, allowed⟩
  have whole : suffix = [] := by
    have itself : Text.stripPrefix context.request.relativePath.value
        context.request.relativePath.value = some [] := by
      rw [Text.stripPrefix, if_pos (List.isPrefixOf_iff_prefix.mpr (List.prefix_refl _)),
        List.drop_length]
    rw [itself] at stripped
    exact (Option.some.inj stripped).symm
  rw [whole, List.append_nil] at allowed
  exact allowed

/-- A rename that succeeds was admitted, and was published. -/
theorem handleHelperRequest_rename {uuids : UuidFormat} {codec : TrashCodec}
    {others : Context -> Calls -> Node -> Node × Except Refusal TrashPayload} {context : Context}
    {calls : Calls} {disk after : Node} {payload : TrashPayload}
    (command : context.request.command = .rename)
    (done : context.handleHelperRequest uuids codec (otherOperations others) calls disk =
      (after, .ok payload)) :
    context.admitted uuids calls disk = .ok () ∧
      context.renameWithRoots calls disk = (after, .ok payload) := by
  unfold Context.handleHelperRequest Context.handleHelperOperation at done
  simp only [command, reduceCtorEq, false_and, if_false] at done
  split at done
  · cases done
  · next admitted =>
      simp only [otherOperations, command] at done
      exact ⟨admitted, done⟩

/-- What `observe` reports of a rename that succeeds. -/
theorem observe_rename {State : Type} {uuids : UuidFormat} {codec : TrashCodec}
    {capture : Context -> Node -> RelativePath -> Option State}
    {others : Context -> Calls -> Node -> Node × Except Refusal TrashPayload} {context : Context}
    {calls : Calls} {disk after : Node} {response : ObservedResponse State}
    (command : context.request.command = .rename)
    (executed : observe uuids codec capture others context calls disk = (after, response))
    (published : response.outcome.isOk = true) :
    ∃ payload, context.admitted uuids calls disk = .ok () ∧
      context.renameWithRoots calls disk = (after, .ok payload) ∧
      response.after = (observedTarget context.request (some payload)).bind (capture context after) := by
  unfold observe at executed
  split at executed
  · cases executed
    cases published
  · dsimp only at executed
    split at executed
    · cases executed
      cases published
    · split at executed
      · cases executed
        cases published
      · next payload done =>
          cases executed
          rcases handleHelperRequest_rename command done with ⟨admitted, renamed⟩
          exact ⟨payload, admitted, renamed, rfl⟩

/-- A rename that is published moves the entry to the new name beside it.  That
is the path that was checked, that is recorded and that is observed exactly
when the text of the request's path ends in a name, and not in a separator or a
dot; otherwise the recorded path names nothing.  The preflight asks about the
path that was checked, whatever it finds in the tree. -/
theorem rename_destination {State : Type} (uuids : UuidFormat) (codec : TrashCodec)
    (capture : Context -> Node -> RelativePath -> Option State)
    (others : Context -> Calls -> Node -> Node × Except Refusal TrashPayload)
    (format : JournalFormat) (id : Uuid) (config : AppConfig) (request : HelperRequest)
    (calls : Calls) (disk after : Node) (response : ObservedResponse State)
    (command : request.command = .rename)
    (executed : observe uuids codec capture others ⟨config, request, []⟩ calls disk =
      (after, response))
    (published : response.outcome.isOk = true) :
    ∃ name source destination,
      request.targetRelativePath = some name ∧
      validateRelativePath request.relativePath = .ok source ∧
      Moved disk after (segmentNames source.value) (segmentNames destination.value) ∧
      request.checkPath [] config (request.destination name) .write = .ok () ∧
      Context.preflight ⟨config, request, []⟩ calls disk = .ok () ∧
      (forall again tree, Context.preflight ⟨config, request, []⟩ again tree = .ok () ->
        Context.check ⟨config, request, []⟩ (request.destination name) .write = .ok ()) ∧
      (forall payload, response.after =
        (observedTarget request payload).bind (capture ⟨config, request, []⟩ after)) ∧
      (DestinationIs format request id destination ↔ endsDull request.relativePath = false) ∧
      forall path, recordTarget format request id = some path ->
        ((after.lookup (segmentNames path.value)).isSome = true ↔
          endsDull request.relativePath = false) := by
  rcases observe_rename command executed published with ⟨payload, admitted, renamed, observed⟩
  rcases Context.renameWithRoots_ok renamed with ⟨source, destination, computed, done⟩
  rcases Context.renameTarget_ok computed with
    ⟨name, given, valid, rfl, nameValid, single, canonical, names⟩
  have moved := Context.rename_moved (by intro replaced; cases replaced) done
  have named : segmentNames request.relativePath.value ≠ [] := by
    intro none
    have gone := moved.gone
    rw [segmentNames_canonicalText, none, NamedTree.lookup_nil] at gone
    cases gone
  have same := siblingTarget_destination_iff valid named nameValid single canonical names
  simp only [Context.admitted, bind_eq_ok, mapError_eq_ok] at admitted
  rcases admitted with ⟨_, _, _, authorized, _, walked, _⟩
  have checked := ((HelperAccess.authorize_eq_ok_iff uuids).mp authorized).target name given
  have preflight : Context.preflight ⟨config, request, []⟩ calls disk = .ok () := by
    unfold whenever at walked
    rw [command] at walked
    rcases bind_eq_ok.mp walked with ⟨_, _, passed⟩
    exact passed
  refine ⟨name, _, destination, given, valid.validate, moved, checked, preflight,
    fun _ _ => preflight_destination command given, ?_, ?_, ?_⟩
  · intro other
    rw [observed, observedTarget_of_rename _ command given, observedTarget_of_rename _ command given]
  · rw [← same]
    constructor
    · intro agree
      exact destination_of_rename command ▸ agree.authorized name given
    · intro agree
      refine ⟨?_, ⟨_, recordTarget_of_rename format id command given, agree⟩, fun other =>
        ⟨_, observedTarget_of_rename other command given, agree⟩⟩
      intro other again
      rw [given, Option.some.injEq] at again
      rw [← again, destination_of_rename command]
      exact agree
  · intro path recorded
    rw [recordTarget_of_rename format id command given, Option.some.injEq] at recorded
    rw [← recorded]
    constructor
    · intro found
      by_contra dull
      rw [Bool.not_eq_false] at dull
      rw [segmentNames_siblingTarget, segmentNames_rawParent_of_dull dull named,
        ← segmentNames_canonicalText, NamedTree.lookup_append, moved.gone] at found
      cases found
    · intro ends
      rcases moved.item with ⟨item, _, there⟩
      have equal := (validateRelativePath_eq_ok_iff.mp (same.mpr ends)).2
      rw [equal, segmentNames_canonicalText] at there
      rw [there]
      rfl

namespace OneRename

def stat : Stat := ⟨1, 7, 0o644, 1000, 1000, 1, 0, 0, 0, 0⟩

/-- One file `docs/a.txt`. -/
def disk : Node :=
  .branch 0o755 [("docs".toList, .branch 0o755 [("a.txt".toList, .leaf (.file stat [1]))])]

def request (path : Text) : HelperRequest :=
  { uploadOf path with
    command := .rename
    targetRelativePath := some ⟨"b.txt".toList⟩
    writeOptions := none }

def calls : Calls := ⟨fun _ => none, [], 0, none, stat, 0o755, 4096⟩

/-- Renames write no metadata. -/
def codec : TrashCodec := ⟨fun _ => none, fun _ => none, fun _ _ written => nomatch written⟩

def format : JournalFormat := ⟨fun _ => 0, fun _ => [], fun _ => none⟩

/-- The file itself is observed. -/
def observed (path : Text) : Node × ObservedResponse Node :=
  observe .hyphenated codec (fun _ disk path => disk.lookup (segmentNames path.value))
    (fun _ _ disk => (disk, .error .notImplemented)) ⟨.standard, request path, []⟩ calls disk

end OneRename

open OneRename in
theorem rename_destination_docs :
    ∃ source destination : RelativePath,
      Moved disk (observed "docs//a.txt".toList).1 (segmentNames source.value)
        (segmentNames destination.value) ∧
      DestinationIs format (request "docs//a.txt".toList) 1 destination := by
  rcases rename_destination .hyphenated codec
    (fun _ disk path => disk.lookup (segmentNames path.value))
    (fun _ _ disk => (disk, .error .notImplemented)) format 1 .standard
    (request "docs//a.txt".toList) calls disk (observed "docs//a.txt".toList).1
    (observed "docs//a.txt".toList).2 rfl rfl (by decide) with
    ⟨_, source, destination, _, _, moved, _, _, _, _, agree, _⟩
  exact ⟨source, destination, moved, agree.mpr (by decide)⟩

open OneRename in
/-- The file `docs/a.txt/` is renamed to `docs/b.txt`, recorded is
`docs/a.txt/b.txt`. -/
theorem rename_trailing_separator :
    (observed "docs/a.txt/".toList).2.outcome.isOk = true ∧
      ((observed "docs/a.txt/".toList).1.lookup ["docs".toList, "b.txt".toList]).isSome = true ∧
      recordTarget format (request "docs/a.txt/".toList) 1 = some ⟨"docs/a.txt/b.txt".toList⟩ ∧
      (observed "docs/a.txt/".toList).2.after = none ∧
      forall destination, segmentNames destination.value = ["docs".toList, "b.txt".toList] ->
        ¬ DestinationIs format (request "docs/a.txt/".toList) 1 destination := by
  refine ⟨by decide, by decide, by decide, ?_, ?_⟩
  · have none : (observed "docs/a.txt/".toList).2.after.isNone = true := by decide
    exact Option.isNone_iff_eq_none.mp none
  · intro destination names agree
    have same := (validateRelativePath_eq_ok_iff.mp (agree.authorized ⟨"b.txt".toList⟩ rfl)).2
    rw [same, segmentNames_canonicalText] at names
    revert names
    decide

end TealDrive
