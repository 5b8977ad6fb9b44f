import TealDrive.Helper.Transaction
import TealDrive.Library.Pump
import TealDrive.Library.Splice

namespace TealDrive

open Outcome

/-!
# Writing a file

A file is written in pieces, from the data of the request, from an upload that
arrives as an open file, or from another file of the root.  Which piece fails,
and how long each is, is an argument.

Writes and uploads open their file with the kernel's creation flags; only an
upload and a copy insist that it is new.  What has been written before a failure
stays: removing it is the transaction's business.
-/

/-! ## What stays untouched -/

/-- Neither path leads to the other. -/
def Beside (path other : List Text) : Prop := ¬ path <+: other ∧ ¬ other <+: path

/-- What an entry is by itself: a leaf, or a directory with its permission
bits. -/
def shape : Node -> Leaf ⊕ Nat
  | .leaf content => .inl content
  | .branch mode _ => .inr mode

/-- Two trees agree outside of some paths: beside them the entries are the same,
and above them there are the same directories. -/
structure Untouched (paths : List (List Text)) (before after : Node) : Prop where
  beside : forall other, (forall path, path ∈ paths -> Beside other path) ->
    after.lookup other = before.lookup other
  shapes : forall other, (forall path, path ∈ paths -> ¬ path <+: other) ->
    (after.lookup other).map shape = (before.lookup other).map shape

/-- A directory whose entries change keeps its shape. -/
theorem shape_within (change : List (Text × Node) -> List (Text × Node)) (path : List Text)
    (item : Node) : shape (item.within change path) = shape item := by
  cases item with
  | leaf content => cases path <;> rfl
  | branch mode entries => cases path <;> rfl

namespace Untouched

variable {paths more : List (List Text)} {before middle after : Node}

theorem refl (paths : List (List Text)) (disk : Node) : Untouched paths disk disk :=
  ⟨fun _ _ => rfl, fun _ _ => rfl⟩

theorem trans (first : Untouched paths before middle) (second : Untouched paths middle after) :
    Untouched paths before after :=
  ⟨fun other beside => (second.beside other beside).trans (first.beside other beside),
    fun other outside => (second.shapes other outside).trans (first.shapes other outside)⟩

theorem widen (untouched : Untouched paths before after) (included : paths ⊆ more) :
    Untouched more before after :=
  ⟨fun other beside => untouched.beside other (fun path listed => beside path (included listed)),
    fun other outside =>
      untouched.shapes other (fun path listed => outside path (included listed))⟩

/-- The entries of one directory change, and only one of them. -/
theorem within {disk : Node} {parent : List Text} {name : Text}
    {change : List (Text × Node) -> List (Text × Node)}
    (kept : forall other, ¬ other <+: parent -> ¬ parent ++ [name] <+: other ->
      (NamedTree.within change parent disk).lookup other = disk.lookup other) :
    Untouched [parent ++ [name]] disk (disk.within change parent) := by
  constructor
  · intro other beside
    rcases beside _ List.mem_cons_self with ⟨above, below⟩
    exact kept other (fun inside => above (inside.trans (List.prefix_append _ _))) below
  · intro other outside
    have below := outside _ List.mem_cons_self
    by_cases above : other <+: parent
    · rcases above with ⟨rest, rfl⟩
      rw [NamedTree.lookup_within_above, Option.map_map]
      exact congrArg (fun shape => (disk.lookup other).map shape)
        (funext (fun item => shape_within change rest item))
    · rw [kept other above below]

/-- An entry that is removed. -/
theorem remove (disk : Node) (parent : List Text) (name : Text) :
    Untouched [parent ++ [name]] disk (disk.remove parent name) :=
  within (fun _ above below => NamedTree.lookup_remove_of_ne above below)

/-- An entry that is put into place. -/
theorem place (disk : Node) (parent : List Text) (name : Text) (item : Node) :
    Untouched [parent ++ [name]] disk (disk.place parent name item) :=
  within (fun _ above below => NamedTree.lookup_place_of_ne item above below)

end Untouched

/-- Two entries of one directory. -/
theorem beside_of_ne {parent : List Text} {name other : Text} (different : name ≠ other) :
    Beside (parent ++ [name]) (parent ++ [other]) := by
  constructor
  · intro inside
    have same := inside.eq_of_length (by simp)
    exact different (List.singleton_inj.mp (List.append_cancel_left same))
  · intro inside
    have same := inside.eq_of_length (by simp)
    exact different (List.singleton_inj.mp (List.append_cancel_left same)).symm

/-- The commands that make or read an archive. -/
def HelperCommand.isArchive : HelperCommand -> Bool
  | .compressZip | .compressTarGz | .extractArchive => true
  | _ => false

/-- The handlers of the requests that are not about the trash. -/
abbrev Handlers : Type :=
  AppConfig -> Context -> Calls -> Node -> Node × Except Refusal TrashPayload

/-- How a file is filled: the upload that arrives as an open file, and how the
reads and writes turn out. -/
structure Filling where
  stream : Option (List UInt8)
  course : Pump.Course IoError

/-! ## Checks -/

/-- `compute_directory_size`.  The argument is how many levels it looks into. -/
def computeDirectorySize : Nat -> Node -> Nat
  | _, .leaf (.file _ bytes) => bytes.length
  | _, .leaf _ => 0
  | 0, .branch _ _ => 0
  | depth + 1, .branch _ entries =>
      saturateU64 (entries.map (fun entry => computeDirectorySize depth entry.2)).sum

/-- `check_quota`. -/
def checkQuota (calls : Calls) (root : AllowedRoot) (disk : Node) (additional : Nat) : Bool :=
  match calls.budget with
  | some available => decide (additional ≤ available)
  | none =>
      match root.quotaBytes with
      | some quota => decide (saturateU64 (computeDirectorySize 41 disk + additional) ≤ quota)
      | none => true

/-- What `openat2` with `O_CREAT` finds under a name, and what is left of its
content. -/
def openNew (calls : Calls) (disk : Node) (parent : List Text) (name : Text)
    (exclusive truncate : Bool) : Except IoError (Stat × List UInt8) := do
  match ← walk disk parent with
  | .leaf (.symlink _) => .error .ELOOP
  | .leaf _ => .error .ENOTDIR
  | .branch _ entries =>
      match Rows.find name entries with
      | none => return (calls.created, [])
      | some item =>
          refuse exclusive .EEXIST
          match item with
          | .branch _ _ => .error .EISDIR
          | .leaf (.file stat bytes) => return (stat, if truncate then [] else bytes)
          | .leaf (.symlink _) => .error .ELOOP
          | .leaf .special => .error (.os 6)

/-- A file that is open for writing: where it is and what it holds. -/
structure WritableFile where
  parent : List Text
  name : Text
  stat : Stat
  bytes : List UInt8

namespace WritableFile

def leaf (file : WritableFile) : Node := .leaf (.file file.stat file.bytes)

def path (file : WritableFile) : List Text := file.parent ++ [file.name]

/-- What is written ends up in the file. -/
def fill (file : WritableFile) (disk : Node) (offset : Nat) (written : List UInt8) : Node :=
  disk.place file.parent file.name
    (.leaf (.file file.stat (Splice.overwrite 0 file.bytes offset written)))

end WritableFile

namespace Context

/-- `sandbox::open` for writing, with `O_CREAT`.  A file with other names is
refused when it has been opened. -/
def sandboxCreate (context : Context) (calls : Calls) (disk : Node) (path : RelativePath)
    (exclusive truncate : Bool) : Node × Except IoError WritableFile :=
  let opened : Except IoError WritableFile := do
    let path ← mapError (fun _ => IoError.other) (validateRelativePath path)
    mapError (fun error => if error = .notFound then IoError.notFound else .permissionDenied)
      (context.check path .write)
    calls.attempt (.openAt .target (segmentNames path.value))
    let name ← okOr (segmentNames path.value).getLast? .EISDIR
    let parent := (segmentNames path.value).dropLast
    let (stat, bytes) ← openNew calls disk parent name exclusive truncate
    return ⟨parent, name, stat, bytes⟩
  match opened with
  | .error error => (disk, .error error)
  | .ok file =>
      let made := disk.place file.parent file.name file.leaf
      match context.checkMetadata file.leaf with
      | .error _ => (made, .error .notFound)
      | .ok () => (made, .ok file)

/-- The checks of `write_file_with_roots`. -/
def checkWriting (context : Context) (config : AppConfig) (calls : Calls) (disk : Node) :
    Except Refusal (RelativePath × HelperWriteOptions) := do
  let request := context.request
  refuse (request.uid == 0) (.permissionDenied "Helper refuses uid 0.")
  let root ← okOr context.root? .unknownRoot
  refuse root.readOnly ⟨.policyDenied, "Root is read-only.", "read_only_root"⟩
  refuse (request.command == .uploadCommit && !root.uploadsAllowed)
    ⟨.policyDenied, "Uploads not allowed in this root.", "uploads_disallowed"⟩
  let options ← okOr request.writeOptions
    ⟨.validationError, "Write options required.", "missing_write_options"⟩
  let path ← mapError Refusal.ofTealDrive (validateRelativePath request.relativePath)
  refuse (detectSensitive path context.config.sensitivePolicy)
    ⟨.policyDenied, "Target path is sensitive.", "sensitive_path"⟩
  let (parent, name) := (Segments.rsplitOnce '/' path.value).getD ([], path.value)
  let name ← mapError Refusal.ofTealDrive (parseSafeFileName name)
  refuse (root.isWebRoot && deniesWebrootUpload name config.webrootPolicy)
    ⟨.policyDenied, "Executable upload denied in webroot.", "webroot_executable_denied"⟩
  let _ ← mapError Refusal.ofTealDrive (resolveNewTarget calls disk ⟨parent⟩ name)
  refuse (!checkQuota calls root disk (options.streamSize.getD options.data.length))
    ⟨.diskFull, "Storage quota exceeded.", "quota_exceeded"⟩
  return (path, options)

end Context

/-! ## Filling a file -/

/-- The data of a request is written whole, and an upload as far as its size. -/
def Filling.written (filling : Filling) (options : HelperWriteOptions) :
    List UInt8 × Except IoError Unit :=
  match options.streamSize with
  | none =>
      Pump.run filling.course ⟨u64Max, options.data.length, none, .ok ()⟩ options.data
  | some size =>
      match filling.stream with
      | none => ([], .error .permissionDenied)
      | some source => Pump.run filling.course ⟨65536, size, none, .error .other⟩ source

/-- `io::copy` through a `BudgetWriter`. -/
def Filling.copied (filling : Filling) (calls : Calls) (source : List UInt8) :
    List UInt8 × Except IoError Unit :=
  Pump.run filling.course
    ⟨8192, saturateU64 (calls.budget.getD (u64Max - 1) + 1),
      some (calls.budget.getD u64Max, .ENOSPC), .ok ()⟩ source

/-- `helper_error_from_copy_io`. -/
def Refusal.ofCopyIo (error : IoError) : Refusal :=
  if error = .EEXIST then ⟨.alreadyExists, "Target already exists.", "already_exists"⟩
  else if error.isNotFound then ⟨.notFound, "Source not found.", "not_found"⟩
  else if error.isPermissionDenied then
    ⟨.permissionDenied, "Permission denied.", "permission_denied"⟩
  else if error.isFull then ⟨.diskFull, "Disk is full.", "disk_full"⟩
  else if error = .os 36 then ⟨.nameTooLong, "Name too long.", "name_too_long"⟩
  else ⟨.internalError, "Filesystem error.", "filesystem_error"⟩

/-- `resolve_safe_target_path`.  A link on the way leads on, and is refused when
the target is opened. -/
def resolveSafeTargetPath (calls : Calls) (disk : Node) (target : RelativePath) :
    Except Refusal Unit := do
  let parent := segmentNames (rawParent target)
  let missing : Refusal :=
    ⟨.notFound, "Target parent directory not found.", "target_parent_not_found"⟩
  mapError (fun _ => missing) (calls.attempt (.stat .target parent))
  match walk disk parent with
  | .ok (.leaf (.symlink _)) =>
      .error ⟨.policyDenied, "Target parent directory cannot be a symlink.", "symlink_denied"⟩
  | .ok (.leaf _) =>
      .error ⟨.invalidTarget, "Target parent must be a directory.", "invalid_target"⟩
  | .ok (.branch _ _) =>
      mapError (fun _ => (⟨.invalidPath, "Failed to resolve target parent directory.",
        "invalid_target_parent"⟩ : Refusal)) (calls.attempt (.openAt .resolve parent))
      refuse (disk.lookup (segmentNames target.value)).isSome
        ⟨.alreadyExists, "Target already exists.", "already_exists"⟩
  | .error error => refuse (error != .ELOOP) missing

namespace Context

/-- `write_file_with_roots`. -/
def writeFileWithRoots (filling : Filling) : Handlers := fun config context calls disk =>
  match context.checkWriting config calls disk with
  | .error refusal => (disk, .error refusal)
  | .ok (path, options) =>
      match context.sandboxCreate calls disk path (context.request.command == .uploadCommit)
          options.truncate with
      | (opened, .error error) => (opened, .error (.ofIo error))
      | (opened, .ok file) =>
          if options.offset > i64Max then (opened, .error (.ofIo .EINVAL))
          else
            match filling.written options with
            | (written, .error error) =>
                (file.fill opened options.offset written, .error (.ofIo error))
            | (written, .ok ()) =>
                (file.fill opened options.offset written, .ok (.operationDone "Written."))

/-- The checks of `copy_file_with_roots`. -/
def checkCopying (context : Context) (calls : Calls) (disk : Node) :
    Except Refusal RelativePath := do
  let request := context.request
  refuse (request.uid == 0) (.permissionDenied "Helper refuses uid 0.")
  let _ ← okOr context.root? .unknownRoot
  let target ← okOr request.targetRelativePath
    ⟨.validationError, "Target path is required.", "missing_target"⟩
  let target ← mapError Refusal.ofTealDrive (validateRelativePath target)
  refuse (target.value == [])
    ⟨.invalidTarget, "Target path cannot be empty.", "empty_target"⟩
  let (_, source) ← mapError Refusal.ofTealDrive
    (context.resolveExistingPath calls disk request.relativePath)
  refuse source.isBranch
    ⟨.invalidTarget, "Directories cannot be copied.", "directory_copy_unsupported"⟩
  resolveSafeTargetPath calls disk target
  return target

/-- `copy_file_with_roots`. -/
def copyFileWithRoots (filling : Filling) : Handlers := fun _ context calls disk =>
  match context.checkCopying calls disk with
  | .error refusal => (disk, .error refusal)
  | .ok target =>
      match context.sandboxOpen calls disk .source context.request.relativePath .read with
      | .error error => (disk, .error (.ofCopyIo error))
      | .ok (.leaf (.file _ source)) =>
          if source.length > calls.budget.getD (u64Max - 1) then
            (disk, .error (.ofCopyIo .ENOSPC))
          else
            match context.sandboxCreate calls disk target true false with
            | (opened, .error error) => (opened, .error (.ofCopyIo error))
            | (opened, .ok file) =>
                match filling.copied calls source with
                | (written, .error error) => (file.fill opened 0 written, .error (.ofCopyIo error))
                | (written, .ok ()) =>
                    if written.length > calls.budget.getD (u64Max - 1) then
                      (file.fill opened 0 written, .error (.ofCopyIo .ENOSPC))
                    else
                      match calls.attempt (.write file.path) with
                      | .error error => (file.fill opened 0 written, .error (.ofCopyIo error))
                      | .ok () => (file.fill opened 0 written, .ok (.operationDone "Copied."))
      | .ok _ => (disk, .error (.ofCopyIo .other))

/-- The handlers of writes, uploads and copies.  Those that pack and unpack archives
are an argument: unpacking is `Context.extractArchiveWithRoots`, and of packing,
which is mostly the work of the archive crates, there is no model. -/
def handlers (filling : Filling) (archives : Handlers) : Handlers := fun config context =>
  match context.request.command with
  | .writeFile | .uploadCommit => writeFileWithRoots filling config context
  | .copy => copyFileWithRoots filling config context
  | _ => archives config context

end Context

/-! ## What the handlers reach -/

/-- A handler of a command writes below the destination it is given and nowhere
else. -/
def Contained (handlers : Handlers) (command : HelperCommand) : Prop :=
  forall config context calls disk destination, context.request.command = command ->
    context.request.result = some destination ->
      Untouched [segmentNames destination.value] disk (handlers config context calls disk).1

/-- A file that is opened with `O_CREAT`. -/
structure OpenedNew (calls : Calls) (disk : Node) (exclusive truncate : Bool)
    (file : WritableFile) : Prop where
  directory : disk.HasBranch file.parent
  content : (disk.lookup file.path = none ∧ file.stat = calls.created ∧ file.bytes = []) ∨
    (exclusive = false ∧ ∃ bytes, disk.lookup file.path = some (.leaf (.file file.stat bytes)) ∧
      file.bytes = if truncate then [] else bytes)

/-- A file that was not there has what the kernel gives a new one. -/
theorem OpenedNew.created {calls : Calls} {disk : Node} {exclusive truncate : Bool}
    {file : WritableFile} (opened : OpenedNew calls disk exclusive truncate file)
    (absent : disk.lookup file.path = none) : file.stat = calls.created := by
  rcases opened.content with ⟨_, same, _⟩ | ⟨_, bytes, there, _⟩
  · exact same
  · rw [there] at absent
    cases absent

theorem openNew_ok {calls : Calls} {disk : Node} {parent : List Text} {name : Text}
    {exclusive truncate : Bool} {stat : Stat} {bytes : List UInt8}
    (opened : openNew calls disk parent name exclusive truncate = .ok (stat, bytes)) :
    OpenedNew calls disk exclusive truncate ⟨parent, name, stat, bytes⟩ := by
  unfold openNew at opened
  rcases bind_eq_ok.mp opened with ⟨directory, walked, found⟩
  have reached := walk_eq_ok.mp walked
  cases directory with
  | leaf content => cases content <;> cases found
  | branch label entries =>
      have here : disk.lookup (parent ++ [name]) = Rows.find name entries := by
        rw [NamedTree.lookup_append, reached]
        rw [Option.bind_some, NamedTree.lookup_branch]
        cases Rows.find name entries with
        | none => rfl
        | some item => exact NamedTree.lookup_nil item
      refine ⟨⟨label, entries, reached⟩, ?_⟩
      unfold WritableFile.path
      rw [here]
      dsimp only at found
      split at found
      · next absent =>
          cases found
          exact Or.inl ⟨absent, rfl, rfl⟩
      · next item there =>
          rcases bind_eq_ok.mp found with ⟨_, shared, kept⟩
          rw [refuse_eq_ok] at shared
          split at kept
          · cases kept
          · next old =>
              cases kept
              exact Or.inr ⟨shared, old, there, rfl⟩
          · cases kept
          · cases kept

namespace Context

/-- Where a file is created. -/
theorem sandboxCreate_reaches {context : Context} {calls : Calls} {disk opened : Node}
    {path : RelativePath} {exclusive truncate : Bool} {outcome : Except IoError WritableFile}
    (made : context.sandboxCreate calls disk path exclusive truncate = (opened, outcome)) :
    (opened = disk ∨ ∃ file : WritableFile, file.path = segmentNames path.value ∧
        opened = disk.place file.parent file.name file.leaf) ∧
      forall file, outcome = .ok file -> file.path = segmentNames path.value ∧
        opened = disk.place file.parent file.name file.leaf ∧
        OpenedNew calls disk exclusive truncate file := by
  unfold sandboxCreate at made
  dsimp only at made
  split at made
  · cases made
    refine ⟨Or.inl rfl, ?_⟩
    intro file impossible
    cases impossible
  · next file found =>
      simp only [bind_eq_ok, mapError_eq_ok, okOr_eq_ok, pure_eq_ok, Prod.exists] at found
      rcases found with ⟨clean, validated, _, _, _, _, name, last, stat, bytes, new, rfl⟩
      rw [(validateRelativePath_eq_ok_iff.mp validated).2, segmentNames_canonicalText] at last new
      have whole := List.dropLast_append_getLast? name last
      have spelled := openNew_ok new
      split at made
      · cases made
        refine ⟨Or.inr ⟨⟨_, name, stat, bytes⟩, whole, ?_⟩, ?_⟩
        · rw [(validateRelativePath_eq_ok_iff.mp validated).2, segmentNames_canonicalText]
        · intro file impossible
          cases impossible
      · cases made
        rw [(validateRelativePath_eq_ok_iff.mp validated).2, segmentNames_canonicalText]
        refine ⟨Or.inr ⟨⟨_, name, stat, bytes⟩, whole, rfl⟩, ?_⟩
        intro file same
        cases same
        exact ⟨whole, rfl, spelled⟩

/-- Creating and filling a file touches its path only. -/
theorem sandboxCreate_untouched {context : Context} {calls : Calls} {disk opened : Node}
    {path : RelativePath} {exclusive truncate : Bool} {outcome : Except IoError WritableFile}
    (made : context.sandboxCreate calls disk path exclusive truncate = (opened, outcome)) :
    Untouched [segmentNames path.value] disk opened ∧
      forall file offset written, outcome = .ok file ->
        Untouched [segmentNames path.value] disk (file.fill opened offset written) := by
  rcases sandboxCreate_reaches made with ⟨reached, done⟩
  have untouched : Untouched [segmentNames path.value] disk opened := by
    rcases reached with rfl | ⟨file, spelled, rfl⟩
    · exact Untouched.refl _ _
    · rw [← spelled]
      exact Untouched.place disk file.parent file.name _
  refine ⟨untouched, ?_⟩
  intro file offset written fine
  have spelled := (done file fine).1
  apply untouched.trans
  rw [← spelled]
  exact Untouched.place opened file.parent file.name _

/-- What the checks of a write leave. -/
theorem checkWriting_ok {context : Context} {config : AppConfig} {calls : Calls} {disk : Node}
    {path : RelativePath} {options : HelperWriteOptions}
    (checked : context.checkWriting config calls disk = .ok (path, options)) :
    segmentNames path.value = segmentNames context.request.relativePath.value ∧
      context.request.writeOptions = some options ∧
      forall budget, calls.budget = some budget ->
        options.streamSize.getD options.data.length ≤ budget := by
  unfold checkWriting at checked
  simp only [bind_eq_ok, refuse_eq_ok, okOr_eq_ok, mapError_eq_ok, pure_eq_ok,
    Prod.mk.injEq] at checked
  rcases checked with ⟨_, _, root, _, _, _, _, _, _, given, _, validated, _, _, _, _, _, _, _, _,
    _, within, rfl, rfl⟩
  rw [(validateRelativePath_eq_ok_iff.mp validated).2, segmentNames_canonicalText]
  refine ⟨rfl, given, ?_⟩
  intro budget limited
  unfold checkQuota at within
  rw [limited] at within
  simpa using within

/-- What the checks of a copy leave. -/
theorem checkCopying_ok {context : Context} {calls : Calls} {disk : Node} {target : RelativePath}
    (checked : context.checkCopying calls disk = .ok target) {destination : RelativePath}
    (given : context.request.targetRelativePath = some destination) :
    segmentNames target.value = segmentNames destination.value := by
  unfold checkCopying at checked
  simp only [bind_eq_ok, refuse_eq_ok, okOr_eq_ok, mapError_eq_ok, pure_eq_ok] at checked
  rcases checked with ⟨_, _, _, _, _, named, _, validated, _, _, _, _, _, _, _, _, rfl⟩
  rw [(validateRelativePath_eq_ok_iff.mp validated).2, segmentNames_canonicalText]
  rw [given] at named
  cases named
  rfl

/-- A write reaches the path of the request only. -/
theorem writeFileWithRoots_contained (filling : Filling) {command : HelperCommand}
    (writes : command = .writeFile ∨ command = .uploadCommit) :
    Contained (writeFileWithRoots filling) command := by
  intro config context calls disk destination same given
  have at_ : destination = context.request.relativePath := by
    unfold HelperRequest.result at given
    rw [same] at given
    rcases writes with rfl | rfl <;> exact (Option.some.inj given).symm
  unfold writeFileWithRoots
  split
  · exact Untouched.refl _ _
  · next path options checked =>
      have spelled := (checkWriting_ok checked).1
      rw [at_, ← spelled]
      split
      · next opened error made => exact (sandboxCreate_untouched made).1
      · next opened file made =>
          rcases sandboxCreate_untouched made with ⟨untouched, filled⟩
          split
          · exact untouched
          · split
            · exact filled file _ _ rfl
            · exact filled file _ _ rfl

/-- A copy reaches its target only. -/
theorem copyFileWithRoots_contained (filling : Filling) :
    Contained (copyFileWithRoots filling) .copy := by
  intro config context calls disk destination same given
  unfold HelperRequest.result at given
  rw [same] at given
  unfold copyFileWithRoots
  split
  · exact Untouched.refl _ _
  · next target checked =>
      rw [← checkCopying_ok checked given]
      split
      · exact Untouched.refl _ _
      · next stat source opened =>
          split
          · exact Untouched.refl _ _
          · split
            · next made => exact (sandboxCreate_untouched made).1
            · next file made =>
                have filled := (sandboxCreate_untouched made).2 file 0
                split
                · exact filled _ rfl
                · split
                  · exact filled _ rfl
                  · split <;> exact filled _ rfl
      · exact Untouched.refl _ _

/-- The handlers of writes, uploads and copies. -/
theorem handlers_contained {filling : Filling} {archives : Handlers} {command : HelperCommand}
    (staged : command.staged = true) (file : command.isArchive = false) :
    Contained (handlers filling archives) command := by
  intro config context calls disk destination same given
  unfold handlers
  rw [same]
  cases command <;> cases staged <;> cases file
  · exact writeFileWithRoots_contained filling (Or.inl rfl) config context calls disk destination
      same given
  · exact writeFileWithRoots_contained filling (Or.inr rfl) config context calls disk destination
      same given
  · exact copyFileWithRoots_contained filling config context calls disk destination same given

/-! ## What the handlers write -/

/-- What a write, an upload or a copy is asked to write. -/
def Intended (filling : Filling) (request : HelperRequest) (disk : Node) (bytes : List UInt8) :
    Prop :=
  if request.command = .copy then
    ∃ stat, disk.lookup (segmentNames request.relativePath.value) =
      some (.leaf (.file stat bytes))
  else
    ∃ options, request.writeOptions = some options ∧
      ((options.streamSize = none ∧ bytes = options.data) ∨
        ∃ size source, options.streamSize = some size ∧ filling.stream = some source ∧
          size ≤ source.length ∧ bytes = source.take size)

/-- A file that was written under a path: it is new if nothing was there, and
within the budget. -/
structure NewFile (calls : Calls) (disk : Node) (path : List Text) (stat : Stat)
    (bytes : List UInt8) : Prop where
  created : disk.lookup path = none -> stat = calls.created
  within : forall budget, calls.budget = some budget -> bytes.length ≤ budget

theorem written_ok {filling : Filling} {options : HelperWriteOptions} {written : List UInt8}
    (done : filling.written options = (written, .ok ())) :
    (options.streamSize = none ∧ written = options.data) ∨
      ∃ size source, options.streamSize = some size ∧ filling.stream = some source ∧
        size ≤ source.length ∧ written = source.take size := by
  unfold Filling.written at done
  split at done
  · next whole =>
      have readable : 0 < u64Max := by decide
      rcases Pump.run_ok readable done with ⟨same, _⟩
      exact Or.inl ⟨whole, same.trans List.take_length⟩
  · next size streamed =>
      split at done
      · cases done
      · next source given =>
          have readable : 0 < 65536 := by decide
          rcases Pump.run_ok readable done with ⟨same, enough | impossible⟩
          · exact Or.inr ⟨size, source, streamed, given, enough, same⟩
          · cases impossible

theorem length_written {filling : Filling} {options : HelperWriteOptions} {written : List UInt8}
    (done : filling.written options = (written, .ok ())) :
    written.length ≤ options.streamSize.getD options.data.length := by
  rcases written_ok done with ⟨whole, rfl⟩ | ⟨size, source, streamed, _, _, rfl⟩
  · rw [whole, Option.getD_none]
  · rw [streamed, Option.getD_some]
    exact List.length_take_le _ _

/-- A copy within the budget copies the whole source. -/
theorem copied_ok {filling : Filling} {calls : Calls} {source written : List UInt8}
    (fits : source.length ≤ calls.budget.getD (u64Max - 1))
    (bounded : forall budget, calls.budget = some budget -> budget ≤ u64Max)
    (done : filling.copied calls source = (written, .ok ())) : written = source := by
  have readable : 0 < 8192 := by decide
  rcases Pump.run_ok readable done with ⟨same, _⟩
  rw [same]
  apply List.take_of_length_le
  dsimp only
  unfold saturateU64 u64Max at *
  cases given : calls.budget with
  | none =>
      rw [given] at fits
      rw [Option.getD_none] at fits ⊢
      omega
  | some budget =>
      rw [given] at fits
      have small := bounded budget given
      rw [Option.getD_some] at fits ⊢
      omega

/-- A file that is filled holds what was written, if nothing of it was kept. -/
theorem lookup_fill {calls : Calls} {disk : Node} {file : WritableFile} {exclusive truncate : Bool}
    (opened : OpenedNew calls disk exclusive truncate file)
    (fresh : exclusive = true ∨ truncate = true) (written : List UInt8) :
    (file.fill (disk.place file.parent file.name file.leaf) 0 written).lookup file.path =
      some (.leaf (.file file.stat written)) := by
  have empty : file.bytes = [] := by
    rcases opened.content with ⟨_, _, none_⟩ | ⟨shared, bytes, _, kept⟩
    · exact none_
    · rcases fresh with alone | cut
      · rw [alone] at shared
        cases shared
      · rw [kept, cut, if_pos rfl]
  have directory : (disk.place file.parent file.name file.leaf).HasBranch file.parent := by
    rcases opened.directory with ⟨label, entries, found⟩
    exact ⟨label, _, NamedTree.lookup_within found⟩
  have content : Splice.overwrite 0 file.bytes 0 written = written := by
    rw [Splice.overwrite_of_le (Nat.zero_le _), empty]
    simp
  unfold WritableFile.fill WritableFile.path
  rw [content]
  exact NamedTree.lookup_place_self _ directory

/-- A write that succeeds leaves at its path what it was asked to write. -/
theorem writeFileWithRoots_ok {filling : Filling} {config : AppConfig} {context : Context}
    {calls : Calls} {disk after : Node} {payload : TrashPayload}
    (notCopy : context.request.command ≠ .copy)
    (whole : forall options, context.request.writeOptions = some options ->
      options.offset = 0 ∧ options.truncate = true)
    (done : writeFileWithRoots filling config context calls disk = (after, .ok payload)) :
    ∃ stat bytes, after.lookup (segmentNames context.request.relativePath.value) =
        some (.leaf (.file stat bytes)) ∧
      Intended filling context.request disk bytes ∧
      NewFile calls disk (segmentNames context.request.relativePath.value) stat bytes := by
  unfold writeFileWithRoots at done
  split at done
  · cases done
  · next path options checked =>
      rcases checkWriting_ok checked with ⟨spelled, given, within⟩
      rcases whole options given with ⟨start, cut⟩
      split at done
      · cases done
      · next opened file made =>
          rcases (sandboxCreate_reaches made).2 file rfl with ⟨there, rfl, new⟩
          split at done
          · cases done
          · split at done
            · cases done
            · next written filled =>
                cases done
                refine ⟨file.stat, written, ?_, ?_, ?_⟩
                · rw [start, ← spelled, ← there]
                  exact lookup_fill new (Or.inr cut) written
                · unfold Intended
                  rw [if_neg notCopy]
                  exact ⟨options, given, written_ok filled⟩
                · rw [← spelled, ← there]
                  refine ⟨new.created, ?_⟩
                  intro budget limited
                  exact Nat.le_trans (length_written filled) (within budget limited)

/-- A copy that succeeds leaves at its target what the source holds. -/
theorem copyFileWithRoots_ok {filling : Filling} {config : AppConfig} {context : Context}
    {calls : Calls} {disk after : Node} {payload : TrashPayload} {destination : RelativePath}
    (command : context.request.command = .copy)
    (bounded : forall budget, calls.budget = some budget -> budget ≤ u64Max)
    (given : context.request.targetRelativePath = some destination)
    (done : copyFileWithRoots filling config context calls disk = (after, .ok payload)) :
    ∃ stat bytes, after.lookup (segmentNames destination.value) =
        some (.leaf (.file stat bytes)) ∧
      Intended filling context.request disk bytes ∧
      NewFile calls disk (segmentNames destination.value) stat bytes := by
  unfold copyFileWithRoots at done
  split at done
  · cases done
  · next target checked =>
      have spelled := checkCopying_ok checked given
      split at done
      · cases done
      · next stat source opened =>
          split at done
          · cases done
          · next fits =>
              split at done
              · cases done
              · next created file made =>
                  rcases (sandboxCreate_reaches made).2 file rfl with ⟨there, rfl, new⟩
                  split at done
                  · cases done
                  · next written filled =>
                      have same := copied_ok (Nat.le_of_not_lt fits) bounded filled
                      split at done
                      · cases done
                      · next room =>
                        split at done
                        · cases done
                        · cases done
                          refine ⟨file.stat, written, ?_, ?_, ?_⟩
                          · rw [← spelled, ← there]
                            exact lookup_fill new (Or.inl rfl) written
                          · unfold Intended
                            rw [if_pos command, same]
                            simp only [sandboxOpen, bind_eq_ok, mapError_eq_ok,
                              pure_eq_ok] at opened
                            rcases opened with ⟨path, validated, _, _, _, _, node, walked, _, _, _,
                              _, rfl⟩
                            rw [(validateRelativePath_eq_ok_iff.mp validated).2,
                              segmentNames_canonicalText] at walked
                            exact ⟨stat, walk_eq_ok.mp walked⟩
                          · rw [← spelled, ← there]
                            refine ⟨new.created, ?_⟩
                            intro budget limited
                            rw [limited, Option.getD_some] at room
                            exact Nat.le_of_not_lt room
      · cases done

end Context

end TealDrive
