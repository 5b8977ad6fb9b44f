import TealDrive.Config

namespace TealDrive

open Outcome

/-!
# Authorization of helper requests

The privileged helper authorizes a request twice over: `helper::access` asks
the shared path policy about every path of the request, and `helper::policy`
checks sizes, the root's switches, hidden and sensitive names and the web root
rules.  Each check is modelled on the text the source passes to it, because
some of them normalize that text first and some do not.

Trash identifiers are UUIDs in their canonical spelling.  The parser comes
from outside; `UuidFormat` says what is known about the spellings it accepts.
-/

inductive HelperCommand where
  | quotaUsage
  | listDirectory
  | fileMetadata
  | downloadFile
  | readFileRange
  | readTextFile
  | readFile
  | writeFile
  | uploadCommit
  | createFolder
  | rename
  | move
  | copy
  | moveToTrash
  | restoreFromTrash
  | deletePermanently
  | chmod
  | compressZip
  | compressTarGz
  | extractArchive
  | searchFiles
  | listTrash
deriving DecidableEq

structure HelperLimits where
  maxDirectoryPageSize : Nat
  maxTextEditSize : Nat
  maxChunkSize : Nat
  maxDownloadHelperBytes : Nat
deriving DecidableEq

structure HelperWriteOptions where
  streamSize : Option Nat
  expectedRevision : Option Text
  data : List UInt8
  offset : Nat
  truncate : Bool
deriving DecidableEq

structure HelperRequest where
  requestId : Nat
  username : Text
  uid : Nat
  gid : Nat
  command : HelperCommand
  rootId : RootId
  relativePath : RelativePath
  targetRelativePath : Option RelativePath
  limits : HelperLimits
  writeOptions : Option HelperWriteOptions
  chmodMode : Option Nat
  archiveSourcePaths : Option (List RelativePath)
deriving DecidableEq

/-- Upload of one file of the given path into the default root. -/
def uploadOf (path : Text) : HelperRequest where
  requestId := 1
  username := "alice".toList
  uid := 1000
  gid := 1000
  command := .uploadCommit
  rootId := ⟨"home".toList⟩
  relativePath := ⟨path⟩
  targetRelativePath := none
  limits := ⟨500, 131072, 262144, 1048576⟩
  writeOptions := some ⟨none, none, [104, 105], 0, true⟩
  chmodMode := none
  archiveSourcePaths := none

/-- `archive_source_paths.iter().flatten()`. -/
def HelperRequest.sources (request : HelperRequest) : List RelativePath :=
  request.archiveSourcePaths.getD []

/-! ## Trash identifiers -/

/-- A lower case hexadecimal digit or a hyphen. -/
def uuidSymbol (symbol : Char) : Bool :=
  "0123456789abcdef-".toList.contains symbol

/-- The texts that `Uuid::parse_str` reads and `to_string` writes back
unchanged: 36 lower case hexadecimal digits and hyphens. -/
structure UuidFormat where
  canonical : Text -> Bool
  length : forall id, canonical id = true -> id.length = 36
  symbols : forall id, canonical id = true -> forall symbol, symbol ∈ id -> uuidSymbol symbol = true

/-- The hyphenated form: groups of 8, 4, 4, 4 and 12 digits. -/
def hyphenatedUuid (id : Text) : Bool :=
  decide (id.length = 36) && id.all uuidSymbol &&
    ((id.splitOn '-').map (fun group => group.length) == [8, 4, 4, 4, 12])

def UuidFormat.hyphenated : UuidFormat where
  canonical := hyphenatedUuid
  length := by
    intro id accepted
    simp only [hyphenatedUuid, Bool.and_eq_true, decide_eq_true_eq] at accepted
    exact accepted.1.1
  symbols := by
    intro id accepted
    simp only [hyphenatedUuid, Bool.and_eq_true, List.all_eq_true] at accepted
    exact accepted.1.2

def trashFiles : Text := ".tealdrive-trash/files/".toList

section Authorize

variable (uuids : UuidFormat)

/-- `trash::internal_trash_id`. -/
def internalTrashId (path : RelativePath) : Option Text :=
  match Text.stripPrefix trashFiles path.value with
  | some id => if uuids.canonical id then some id else none
  | none => none

/-! ## `helper::access` -/

/-- Pairs of a private staging path and the path it stands for. -/
abbrev Aliases := List (RelativePath × RelativePath)

/-- One alias tried on a path. -/
def applyAlias (path : RelativePath) (entry : RelativePath × RelativePath) :
    Option RelativePath :=
  if path = entry.1 then some entry.2
  else
    match Text.stripPrefix (entry.1.value ++ ['/']) path.value with
    | some suffix => some ⟨entry.2.value ++ '/' :: suffix⟩
    | none => none

/-- The last alias that applies wins. -/
def translated (aliases : Aliases) (path : RelativePath) : RelativePath :=
  (aliases.reverse.findSome? (applyAlias path)).getD path

def operationAccess : HelperCommand -> Access
  | .listDirectory | .fileMetadata | .searchFiles | .listTrash | .quotaUsage => .discover
  | .downloadFile | .readFileRange | .readTextFile | .readFile | .copy | .compressZip
  | .compressTarGz | .extractArchive => .read
  | .writeFile | .uploadCommit | .createFolder | .restoreFromTrash => .write
  | .rename | .move => .move
  | .moveToTrash | .deletePermanently => .delete
  | .chmod => .chmod

def HelperRequest.checkPath (aliases : Aliases) (request : HelperRequest) (config : AppConfig)
    (path : RelativePath) (access : Access) : Except TealDriveError Unit :=
  config.accessPolicy.check request.username request.rootId (translated aliases path) access

/-- The path of the request is itself exempt from the path policy. -/
def HelperRequest.pathExempt (request : HelperRequest) : Bool :=
  request.command == .listTrash || request.command == .restoreFromTrash ||
    request.command == .quotaUsage ||
    (request.command == .deletePermanently &&
      (internalTrashId uuids request.relativePath).isSome)

/-- The parent that is cut off the raw text. -/
def rawParent (path : RelativePath) : Text :=
  ((Segments.rsplitOnce '/' path.value).map Prod.fst).getD []

/-- The new path of a rename: the target beside the renamed entry. -/
def siblingTarget (path target : RelativePath) : RelativePath :=
  if rawParent path = [] then target else ⟨rawParent path ++ '/' :: target.value⟩

/-- The destination that the path policy is asked about. -/
def HelperRequest.destination (request : HelperRequest) (target : RelativePath) : RelativePath :=
  if request.command = .rename then siblingTarget request.relativePath target else target

namespace HelperAccess

/-- `helper::access::authorize`. -/
def authorize (aliases : Aliases) (request : HelperRequest) (config : AppConfig) :
    Except TealDriveError Unit := do
  whenever (!request.pathExempt uuids)
    (request.checkPath aliases config request.relativePath (operationAccess request.command))
  forSome request.targetRelativePath
    (fun target => request.checkPath aliases config (request.destination target) .write)
  request.sources.forM (fun path => request.checkPath aliases config path .read)

end HelperAccess

/-! ## Names and patterns -/

def isReservedName (value : Text) : Bool :=
  value == ".".toList || value == "..".toList

def filenameError (value : Text) : TealDriveError :=
  if value.contains '\x00' then .nullByteRejected
  else if isReservedName value then .reservedNameRejected
  else .invalidFilename

/-- `SafeFileName::parse`, whose value is the text itself. -/
def parseSafeFileName (value : Text) : Except TealDriveError Text := do
  refuse (value == [] || value.contains '\x00' || value.contains '/' || value.contains '\\' ||
    value == ".".toList || value == "..".toList || isReservedName value) (filenameError value)
  return value

/-- `policy::sensitive::pattern_matches`. -/
def patternMatches (fileName pattern : Text) : Bool :=
  match Text.stripPrefix "*.".toList pattern with
  | some suffix => ('.' :: suffix).isSuffixOf fileName
  | none =>
      match Text.stripSuffix ".*".toList pattern with
      | some start => fileName == start || (start ++ ['.']).isPrefixOf fileName
      | none => fileName == pattern

/-- The `is_sensitive` of `detect_sensitive`.  The name is what follows the
last separator of the raw text. -/
def detectSensitive (path : RelativePath) (config : SensitivePolicyConfig) : Bool :=
  let name := Text.toAsciiLowercase (Segments.lastSegment '/' path.value)
  (config.denyEditPatterns ++ config.warnReadPatterns).any
    (fun pattern => patternMatches name (Text.toAsciiLowercase pattern))

/-- `check_webroot_upload` denies. -/
def deniesWebrootUpload (filename : Text) (config : WebRootPolicyConfig) : Bool :=
  config.blockExecutableUploads &&
    ((Segments.rsplitOnce '.' filename).any
      (fun parts => config.blockedExtensions.contains (Text.toAsciiLowercase parts.2)))

/-! ## `helper::policy` -/

def HelperCommand.isRead : HelperCommand -> Bool
  | .quotaUsage | .listDirectory | .fileMetadata | .downloadFile | .readFileRange
  | .readTextFile | .readFile | .searchFiles | .listTrash => true
  | _ => false

/-- The largest write a command may carry. -/
def writeBound (command : HelperCommand) (config : AppConfig) : Nat :=
  match command with
  | .writeFile => config.limits.maxTextEditSize
  | .uploadCommit => config.limits.maxInFlightUpload
  | _ => u64Max

def checkWriteOptions (command : HelperCommand) (options : HelperWriteOptions)
    (config : AppConfig) : Except TealDriveError Unit := do
  refuse (options.streamSize.isSome && (command != .uploadCommit || !options.data.isEmpty))
    .validation
  refuse (decide (options.streamSize.getD options.data.length > writeBound command config))
    .fileTooLarge
  refuse ((command == .writeFile || command == .uploadCommit) &&
    (options.offset != 0 || !options.truncate)) .validation

/-- The request reaches into the trash through its own commands. -/
def HelperRequest.internalTrash (request : HelperRequest) : Bool :=
  request.command == .restoreFromTrash || request.command == .listTrash ||
    (request.command == .deletePermanently && trashFiles.isPrefixOf request.relativePath.value)

/-- Commands that may name a sensitive file. -/
def HelperCommand.namesOnly : HelperCommand -> Bool
  | .listDirectory | .fileMetadata | .listTrash | .searchFiles => true
  | _ => false

/-- The archive sources and the target, in the order of the loop. -/
def HelperRequest.otherPaths (request : HelperRequest) : List RelativePath :=
  request.sources ++ request.targetRelativePath.toList

def HelperRequest.target (request : HelperRequest) : RelativePath :=
  request.targetRelativePath.getD request.relativePath

def checkWebroot (request : HelperRequest) (config : AppConfig) : Except TealDriveError Unit := do
  refuse (request.command == .extractArchive) .policyDenied
  forSome (fileName request.target.value) (fun name => do
    let name ← parseSafeFileName name
    refuse (deniesWebrootUpload name config.webrootPolicy) .policyDenied)

/-- The checks of `authorize` once the root is known. -/
def checkRoot (request : HelperRequest) (config : AppConfig) (root : AllowedRoot) :
    Except TealDriveError Unit := do
  refuse (!request.command.isRead && root.readOnly) .policyDenied
  refuse (request.command == .uploadCommit && !root.uploadsAllowed) .policyDenied
  refuse (!request.internalTrash && !root.hiddenFilesAllowed &&
    isHiddenRelative request.relativePath) .policyDenied
  refuse (request.otherPaths.any (fun path =>
    (!root.hiddenFilesAllowed && isHiddenRelative path) ||
      detectSensitive path config.sensitivePolicy)) .policyDenied
  refuse (!request.internalTrash && !request.command.namesOnly &&
    detectSensitive request.relativePath config.sensitivePolicy) .policyDenied
  whenever (!request.command.isRead && root.isWebRoot) (checkWebroot request config)

namespace HelperPolicy

/-- `helper::policy::authorize`, inside the staging aliases of the calling
thread.  A request that arrives from outside meets none. -/
def authorize (aliases : Aliases) (request : HelperRequest) (config : AppConfig) :
    Except TealDriveError Unit := do
  HelperAccess.authorize uuids aliases request config
  forSome request.writeOptions (fun options => checkWriteOptions request.command options config)
  let root ← okOr (config.roots.find? (fun root => root.rootId == request.rootId)) .invalidRootId
  checkRoot request config root

end HelperPolicy

/-! ## What an accepted request was checked for -/

/-- The path policy accepts every path of the request. -/
structure PathsAllowed (aliases : Aliases) (request : HelperRequest) (config : AppConfig) :
    Prop where
  path : request.pathExempt uuids = false ->
    request.checkPath aliases config request.relativePath (operationAccess request.command) = .ok ()
  target : forall target, request.targetRelativePath = some target ->
    request.checkPath aliases config (request.destination target) .write = .ok ()
  sources : forall path, path ∈ request.sources ->
    request.checkPath aliases config path .read = .ok ()

/-- The size and shape of a write fit the configuration. -/
structure WriteAllowed (command : HelperCommand) (options : HelperWriteOptions)
    (config : AppConfig) : Prop where
  stream : (options.streamSize.isSome && (command != .uploadCommit || !options.data.isEmpty)) = false
  size : options.streamSize.getD options.data.length ≤ writeBound command config
  whole : ((command == .writeFile || command == .uploadCommit) &&
    (options.offset != 0 || !options.truncate)) = false

/-- The web root rules accept the name a write would create. -/
structure WebrootAllowed (request : HelperRequest) (config : AppConfig) : Prop where
  noExtraction : request.command ≠ .extractArchive
  name : forall name, fileName request.target.value = some name ->
    parseSafeFileName name = .ok name ∧ deniesWebrootUpload name config.webrootPolicy = false

/-- The root's own switches accept the request. -/
structure RootAllows (request : HelperRequest) (config : AppConfig) (root : AllowedRoot) :
    Prop where
  writable : request.command.isRead = false -> root.readOnly = false
  uploads : request.command = .uploadCommit -> root.uploadsAllowed = true
  hiddenPath : request.internalTrash = false -> root.hiddenFilesAllowed = false ->
    isHiddenRelative request.relativePath = false
  hiddenOthers : forall path, path ∈ request.otherPaths -> root.hiddenFilesAllowed = false ->
    isHiddenRelative path = false
  sensitiveOthers : forall path, path ∈ request.otherPaths ->
    detectSensitive path config.sensitivePolicy = false
  sensitivePath : request.internalTrash = false -> request.command.namesOnly = false ->
    detectSensitive request.relativePath config.sensitivePolicy = false
  webroot : request.command.isRead = false -> root.isWebRoot = true ->
    WebrootAllowed request config

theorem HelperAccess.authorize_eq_ok_iff {aliases : Aliases} {request : HelperRequest}
    {config : AppConfig} :
    HelperAccess.authorize uuids aliases request config = .ok () ↔
      PathsAllowed uuids aliases request config := by
  simp only [HelperAccess.authorize, bind_eq_ok, whenever_eq_ok, forSome_eq_ok, forM_eq_ok,
    Bool.not_eq_true']
  constructor
  · rintro ⟨_, path, _, target, sources⟩
    exact ⟨path, target, sources⟩
  · intro allowed
    exact ⟨(), allowed.path, (), allowed.target, allowed.sources⟩

theorem checkWriteOptions_eq_ok_iff {command : HelperCommand} {options : HelperWriteOptions}
    {config : AppConfig} :
    checkWriteOptions command options config = .ok () ↔ WriteAllowed command options config := by
  simp only [checkWriteOptions, bind_eq_ok, refuse_eq_ok, decide_eq_false_iff_not, gt_iff_lt,
    Nat.not_lt]
  constructor
  · rintro ⟨_, stream, _, size, whole⟩
    exact ⟨stream, size, whole⟩
  · intro allowed
    exact ⟨⟨⟩, allowed.stream, ⟨⟩, allowed.size, allowed.whole⟩

theorem parseSafeFileName_eq_self {value name : Text}
    (parsed : parseSafeFileName value = .ok name) : name = value := by
  simp only [parseSafeFileName, bind_eq_ok, pure_eq_ok] at parsed
  rcases parsed with ⟨_, _, same⟩
  exact same.symm

theorem checkWebroot_eq_ok_iff {request : HelperRequest} {config : AppConfig} :
    checkWebroot request config = .ok () ↔ WebrootAllowed request config := by
  simp only [checkWebroot, bind_eq_ok, refuse_eq_ok, forSome_eq_ok, beq_eq_false_iff_ne]
  constructor
  · rintro ⟨_, command, named⟩
    refine ⟨command, ?_⟩
    intro name same
    rcases named name same with ⟨parsed, accepted, allowed⟩
    have equal := parseSafeFileName_eq_self accepted
    subst equal
    exact ⟨accepted, allowed⟩
  · intro allowed
    refine ⟨⟨⟩, allowed.noExtraction, ?_⟩
    intro name same
    exact ⟨name, allowed.name name same⟩

theorem checkRoot_eq_ok_iff {request : HelperRequest} {config : AppConfig} {root : AllowedRoot} :
    checkRoot request config root = .ok () ↔ RootAllows request config root := by
  unfold checkRoot
  simp only [bind_eq_ok, refuse_eq_ok, whenever_eq_ok, checkWebroot_eq_ok_iff, List.any_eq_false, Bool.not_eq_true,
    Bool.and_eq_false_iff, Bool.or_eq_false_iff, Bool.and_eq_true,
    Bool.not_eq_true', Bool.not_eq_false', beq_eq_false_iff_ne]
  constructor
  · rintro ⟨_, writable, _, uploads, _, hiddenPath, _, others, _, sensitivePath, webroot⟩
    refine ⟨?_, ?_, ?_, ?_, fun path member => (others path member).2, ?_, ?_⟩
    · intro write
      rcases writable with read | writable
      · rw [write] at read; cases read
      · exact writable
    · intro upload
      exact uploads.resolve_left (fun other => other upload)
    · intro general disallowed
      rcases hiddenPath with (trash | allowed) | visible
      · rw [general] at trash; cases trash
      · rw [disallowed] at allowed; cases allowed
      · exact visible
    · intro path member disallowed
      rcases (others path member).1 with allowed | visible
      · rw [disallowed] at allowed; cases allowed
      · exact visible
    · intro general contents
      rcases sensitivePath with (trash | names) | plain
      · rw [general] at trash; cases trash
      · rw [contents] at names; cases names
      · exact plain
    · intro write rooted
      exact webroot ⟨write, rooted⟩
  · intro allowed
    refine ⟨⟨⟩, ?_, ⟨⟩, ?_, ⟨⟩, ?_, ⟨⟩, ?_, ⟨⟩, ?_, fun both => allowed.webroot both.1 both.2⟩
    · cases write : request.command.isRead with
      | true => exact Or.inl rfl
      | false => exact Or.inr (allowed.writable write)
    · exact (em (request.command = .uploadCommit)).symm.imp id allowed.uploads
    · cases general : request.internalTrash with
      | true => exact Or.inl (Or.inl rfl)
      | false =>
          cases disallowed : root.hiddenFilesAllowed with
          | true => exact Or.inl (Or.inr rfl)
          | false => exact Or.inr (allowed.hiddenPath general disallowed)
    · intro path member
      refine ⟨?_, allowed.sensitiveOthers path member⟩
      cases disallowed : root.hiddenFilesAllowed with
      | true => exact Or.inl rfl
      | false => exact Or.inr (allowed.hiddenOthers path member disallowed)
    · cases general : request.internalTrash with
      | true => exact Or.inl (Or.inl rfl)
      | false =>
          cases contents : request.command.namesOnly with
          | true => exact Or.inl (Or.inr rfl)
          | false => exact Or.inr (allowed.sensitivePath general contents)

/-- Authorization succeeds exactly when the path policy, the write options and
the switches of the addressed root all accept the request. -/
theorem HelperPolicy.authorize_eq_ok_iff {aliases : Aliases} {request : HelperRequest}
    {config : AppConfig} :
    HelperPolicy.authorize uuids aliases request config = .ok () ↔
      PathsAllowed uuids aliases request config ∧
        (forall options, request.writeOptions = some options ->
          WriteAllowed request.command options config) ∧
        ∃ root, config.roots.find? (fun root => root.rootId == request.rootId) = some root ∧
          RootAllows request config root := by
  simp only [HelperPolicy.authorize, bind_eq_ok, forSome_eq_ok, okOr_eq_ok, checkRoot_eq_ok_iff]
  constructor
  · rintro ⟨_, paths, _, options, root, found, allowed⟩
    refine ⟨(HelperAccess.authorize_eq_ok_iff uuids).mp paths, ?_, root, found, allowed⟩
    intro written same
    exact checkWriteOptions_eq_ok_iff.mp (options written same)
  · rintro ⟨paths, options, root, found, allowed⟩
    refine ⟨(), (HelperAccess.authorize_eq_ok_iff uuids).mpr paths, (), ?_, root, found, allowed⟩
    intro written same
    exact checkWriteOptions_eq_ok_iff.mpr (options written same)

end Authorize

end TealDrive
