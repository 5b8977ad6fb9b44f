import TealDrive.Helper.Disk
import TealDrive.Library.Pages
import TealDrive.Library.Sorting

namespace TealDrive

open Outcome

/-!
# Listing a directory

A request for a page reads the whole directory, keeps what the caller may see
and asked for, sorts that and cuts the page out of it.  The cursor is the
offset behind the page, written in decimal.

An entry carries the time of its last change as a text, the whole seconds since
1970 in decimal, and nothing if the time is earlier.  The sort by time compares
these texts.  An entry's place below the root is what remains of its path when
the root's configured path is taken off, which fails when that path leads
through a link, since the directory was resolved before.
-/

/-! ## Requests and entries -/

/-- `protocol::schema::FileKind`. -/
inductive EntryKind where
  | file
  | directory
  | symlink
  | other
deriving DecidableEq

inductive FileFilter where
  | all
  | folders
  | code
  | images
  | media
  | documents
  | archives
  | hidden
  | writable
  | symlinks
deriving DecidableEq

structure FilterMode where
  extensions : Option (List Text)
  query : Option Text
  fileKind : Option EntryKind
  filter : Option FileFilter

inductive SortMode where
  | nameAsc
  | nameDesc
  | modifiedAsc
  | modifiedDesc
  | sizeAsc
  | sizeDesc
  | typeAsc
  | typeDesc
deriving DecidableEq

structure HelperListDirectoryOptions where
  cursor : Option Text
  limit : Nat
  includeHidden : Bool
  sort : SortMode
  filter : FilterMode

structure CapabilitySet where
  canList : Bool
  canDownload : Bool
  canUpload : Bool
  canCreateFolder : Bool
  canRename : Bool
  canMoveToTrash : Bool
  canRestoreFromTrash : Bool

structure HelperDirectoryEntry where
  name : Text
  fileType : EntryKind
  size : Nat
  modified : Option Text
  owner : Option Text
  group : Option Text
  mode : Option Nat
  permissions : Option Text
  isHidden : Bool
  isSensitive : Bool
  isProtected : Bool
  isSymlink : Bool
  symlinkTarget : Option RelativePath
  isWebRoot : Bool
  isWorldWritable : Bool
  capabilities : CapabilitySet

structure HelperDirectoryList where
  entries : List HelperDirectoryEntry
  hasMore : Bool
  nextCursor : Option Text
  totalEstimate : Option Nat

/-- What `lstat` reports.  The time is in whole seconds since 1970, rounded
down. -/
structure Metadata where
  kind : EntryKind
  len : Nat
  seconds : Int
  mode : Nat
  uid : Nat
  gid : Nat
  nlink : Nat

/-! ## Filters -/

namespace FilterMode

def validExtension (extension : Text) : Bool :=
  extension != [] && decide (extension.len ≤ 32) &&
    (extension.splitOn '.').all (fun part =>
      part != [] && part.all (fun symbol => symbol.isAlphanum))

def isValid (filter : FilterMode) : Bool :=
  filter.query.all (fun query => decide (query.len ≤ 1024) && !query.contains '\x00') &&
    filter.extensions.all (fun extensions =>
      decide (extensions.length ≤ 64) && extensions.all validExtension)

end FilterMode

def hasExt (name : Text) (extensions : List String) : Bool :=
  (Segments.rsplitOnce '.' name).any (fun parts =>
    extensions.any (fun candidate =>
      Text.toAsciiLowercase parts.2 == Text.toAsciiLowercase candidate.toList))

def isHiddenName (name : Text) : Bool :=
  name.head? == some '.'

def matchesFilter (name : Text) (fileType : EntryKind) (filter : FilterMode) : Bool :=
  filter.extensions.all (fun extensions => extensions.isEmpty ||
      (fileType == .file && extensions.any (fun extension =>
        ('.' :: Text.toAsciiLowercase extension).isSuffixOf (Text.toAsciiLowercase name)))) &&
    filter.query.all (fun query =>
      Text.containsStr (Text.toAsciiLowercase name) (Text.toAsciiLowercase query)) &&
    filter.fileKind.all (fun kind => kind == fileType) &&
    match filter.filter.getD .all with
    | .all => true
    | .folders => fileType == .directory
    | .hidden => isHiddenName name
    | .symlinks => fileType == .symlink
    | .code => hasExt name ["rs", "js", "ts", "php", "py", "rb", "sh", "html", "css"]
    | .images => hasExt name ["png", "jpg", "jpeg", "gif", "webp", "svg"]
    | .media => hasExt name ["mp3", "mp4", "mkv", "mov", "wav", "flac"]
    | .documents => hasExt name ["txt", "md", "pdf", "doc", "docx", "odt"]
    | .archives => hasExt name ["zip", "tar", "gz", "tgz", "xz", "7z"]
    | .writable => true

/-! ## Sorting -/

def fileKindOrder : EntryKind -> Nat
  | .directory => 0
  | .file => 1
  | .symlink => 2
  | .other => 3

/-- `Option<String>` compared: nothing comes before everything. -/
def textBefore : Option Text -> Option Text -> Bool
  | none, _ => true
  | some _, none => false
  | some first, some second => decide (first ≤ second)

/-- What the comparisons of `sort_entries` do not put behind. -/
def sortBefore (sort : SortMode) (first second : HelperDirectoryEntry) : Bool :=
  match sort with
  | .nameAsc => decide (first.name ≤ second.name)
  | .nameDesc => decide (second.name ≤ first.name)
  | .modifiedAsc => textBefore first.modified second.modified
  | .modifiedDesc => textBefore second.modified first.modified
  | .sizeAsc => decide (first.size ≤ second.size)
  | .sizeDesc => decide (second.size ≤ first.size)
  | .typeAsc => decide (fileKindOrder first.fileType ≤ fileKindOrder second.fileType)
  | .typeDesc => decide (fileKindOrder second.fileType ≤ fileKindOrder first.fileType)

/-- The sorts of the standard library are stable. -/
def sortEntries (entries : List HelperDirectoryEntry) (sort : SortMode) :
    List HelperDirectoryEntry :=
  entries.insertionSort (fun first second => sortBefore sort first second = true)

/-! ## Cursors -/

/-- `str::parse::<usize>`. -/
def parseUsize (text : Text) : Option Nat :=
  let digits := if text.head? = some '+' then text.tail else text
  if digits ≠ [] ∧ digits.all (fun symbol => symbol.isDigit) = true ∧
      Nat.ofDigitChars 10 digits 0 < 2 ^ 64 then
    some (Nat.ofDigitChars 10 digits 0)
  else none

def cursorPrefix : Text := "offset:".toList

def parseCursorOffset (cursor : Option Text) : Option Nat := do
  let digits ← Text.stripPrefix cursorPrefix (← cursor)
  parseUsize digits

def offsetCursor (offset : Nat) : Text :=
  cursorPrefix ++ Nat.toDigits 10 offset

/-! ## The file system -/

/-- The answers of the file system while a directory is listed.  A path is the
list of its names. -/
structure FileSystem where
  canonicalize : List Text -> Except IoError (List Text)
  symlinkMetadata : List Text -> Except IoError Metadata
  metadata : List Text -> Except IoError Metadata
  /-- The entries of a directory in the order of `readdir`.  Names that are not
  UTF-8 are absent. -/
  readDir : List Text -> Except IoError (List (Except IoError (Option Text)))

/-- A path below a root, from its names. -/
def belowRoot (names : List Text) : RelativePath :=
  ⟨Segments.join '/' names⟩

namespace Context

variable (context : Context) (files : FileSystem)

/-- `access::check_metadata`. -/
def metadataAllowed (metadata : Metadata) : Bool :=
  !(metadata.kind == .file && decide (metadata.nlink > 1) &&
    context.config.accessPolicy.rejectFileHardlinks)

def checkIsOk (path : RelativePath) (access : Access) : Bool :=
  match context.check path access with
  | .ok _ => true
  | .error _ => false

/-- `access::visible`. -/
def visible (path : RelativePath) (metadata : Metadata) : Bool :=
  context.checkIsOk path .discover && context.metadataAllowed metadata

/-- `resolve_existing_path` without following links. -/
def resolveDirectory (root : AllowedRoot) (path : RelativePath) :
    Except TealDriveError (List Text) := do
  let base ← mapError (fun _ => TealDriveError.invalidRootId)
    (files.canonicalize (segmentNames root.basePath))
  let validated ← validateRelativePath path
  context.check validated .discover
  let candidate := base ++ segmentNames validated.value
  let metadata ← mapError pathError (files.symlinkMetadata candidate)
  let canonical ← mapError pathError (files.canonicalize candidate)
  refuse (!base.isPrefixOf canonical)
    (if metadata.kind = .symlink then .symlinkEscape else .pathEscapesRoot)
  context.check (belowRoot (canonical.drop base.length)) .discover
  refuse (!context.metadataAllowed metadata) .notFound
  refuse (metadata.kind == .symlink) .symlinkDenied
  return canonical

/-! ## `collect_entries` -/

/-- One of the nine characters of `permission_string`. -/
def permissionSymbol (mode : Nat) (entry : Nat × Char) : Char :=
  if mode.testBit entry.1 then entry.2 else '-'

def permissionString (mode : Nat) : Text :=
  [(8, 'r'), (7, 'w'), (6, 'x'), (5, 'r'), (4, 'w'), (3, 'x'), (2, 'r'), (1, 'w'), (0, 'x')].map
    (permissionSymbol mode)

/-- The time of an entry, which the sort by time compares. -/
def modifiedText (seconds : Int) : Option Text :=
  if 0 ≤ seconds then some (Nat.toDigits 10 seconds.toNat) else none

def directoryEntryFromMetadata (name : Text) (metadata : Metadata) (root : AllowedRoot)
    (sensitive : SensitivePolicyConfig) : HelperDirectoryEntry where
  name := name
  fileType := metadata.kind
  size := if metadata.kind = .file then metadata.len else 0
  modified := modifiedText metadata.seconds
  owner := some (Nat.toDigits 10 metadata.uid)
  group := some (Nat.toDigits 10 metadata.gid)
  mode := some metadata.mode
  permissions := some (permissionString metadata.mode)
  isHidden := isHiddenName name
  isSensitive := detectSensitive ⟨name⟩ sensitive
  isProtected := false
  isSymlink := metadata.kind == .symlink
  symlinkTarget := none
  isWebRoot := root.isWebRoot
  isWorldWritable := metadata.mode.testBit 1
  capabilities := {
    canList := metadata.kind == .directory
    canDownload := metadata.kind == .file
    canUpload := root.uploadsAllowed && !root.readOnly
    canCreateFolder := !root.readOnly
    canRename := !root.readOnly
    canMoveToTrash := !root.readOnly
    canRestoreFromTrash := !root.readOnly }

def refineCapabilities (entry : HelperDirectoryEntry) (path : RelativePath) :
    HelperDirectoryEntry :=
  let allowed := context.checkIsOk path
  { entry with
    capabilities := {
      canList := entry.capabilities.canList
      canDownload := entry.capabilities.canDownload && allowed .read
      canUpload := entry.capabilities.canUpload && allowed .write
      canCreateFolder := entry.capabilities.canCreateFolder && allowed .write
      canRename := entry.capabilities.canRename && (allowed .move && allowed .read)
      canMoveToTrash := entry.capabilities.canMoveToTrash && allowed .delete
      canRestoreFromTrash := entry.capabilities.canRestoreFromTrash && allowed .write }
    isProtected := entry.isProtected || (!allowed .write || !allowed .chmod || !allowed .delete ||
      !allowed .move) }

/-- A hidden entry that is passed over. -/
def passesOver (root : AllowedRoot) (includeHidden : Bool) (name : Text) : Bool :=
  isHiddenName name && (!includeHidden || !root.hiddenFilesAllowed)

/-- What the listing says about an entry at a place below the root, unless the
caller may not see it or did not ask for it. -/
def listedEntry (root : AllowedRoot) (filter : FilterMode) (place : List Text) (name : Text)
    (metadata : Metadata) : Option HelperDirectoryEntry :=
  if context.visible (belowRoot place) metadata && matchesFilter name metadata.kind filter then
    some (context.refineCapabilities
      (directoryEntryFromMetadata name metadata root context.config.sensitivePolicy)
      (belowRoot place))
  else none

/-- One turn of the loop, for an entry that is not passed over. -/
def collectEntry (directory : List Text) (root : AllowedRoot) (filter : FilterMode)
    (name : Text) : Except IoError (Option HelperDirectoryEntry) := do
  let path := directory ++ [name]
  let metadata ← files.symlinkMetadata path
  refuse (!(segmentNames root.basePath).isPrefixOf path) .other
  return context.listedEntry root filter (path.drop (segmentNames root.basePath).length) name
    metadata

def collectLoop (directory : List Text) (root : AllowedRoot) (filter : FilterMode)
    (includeHidden : Bool) :
    List (Except IoError (Option Text)) -> Except IoError (List HelperDirectoryEntry)
  | [] => .ok []
  | entry :: rest => do
      match ← entry with
      | none => collectLoop directory root filter includeHidden rest
      | some name =>
          if passesOver root includeHidden name then
            collectLoop directory root filter includeHidden rest
          else do
            let item ← context.collectEntry files directory root filter name
            let items ← collectLoop directory root filter includeHidden rest
            return item.toList ++ items

def collectEntries (directory : List Text) (root : AllowedRoot) (filter : FilterMode)
    (includeHidden : Bool) : Except IoError (List HelperDirectoryEntry) := do
  let entries ← files.readDir directory
  context.collectLoop files directory root filter includeHidden entries

/-! ## `list_directory_with_roots` -/

def defaultListOptions : HelperListDirectoryOptions where
  cursor := none
  limit := min context.request.limits.maxDirectoryPageSize 200
  includeHidden := false
  sort := .nameAsc
  filter := ⟨none, none, none, some .all⟩

/-- The page that starts at an offset of the sorted entries. -/
def pageAt (entries : List HelperDirectoryEntry) (limit offset : Nat) : HelperDirectoryList :=
  let paged := (entries.drop offset).take (limit + 1)
  let hasMore := decide (paged.length > limit)
  let shown := if hasMore then paged.take limit else paged
  { entries := shown
    hasMore := hasMore
    nextCursor := if hasMore then some (offsetCursor (offset + shown.length)) else none
    totalEstimate := some entries.length }

/-- The size of a page.  The dispatcher has lowered the limit of the request to
the one of the configuration, so the sums below stay far from overflowing. -/
def pageLimit (options : HelperListDirectoryOptions) : Nat :=
  min options.limit context.request.limits.maxDirectoryPageSize

def listDirectoryWithRoots (options : Option HelperListDirectoryOptions) :
    Except Refusal HelperDirectoryList := do
  refuse (context.request.command != .listDirectory) .notImplemented
  refuse (context.request.uid == 0) (.permissionDenied "Helper refuses uid 0.")
  let root ← okOr (context.config.roots.find? (fun root => root.rootId == context.request.rootId))
    .unknownRoot
  let options := options.getD context.defaultListOptions
  refuse (!options.filter.isValid) ⟨.validationError, "Invalid directory filter.", "invalid_filter"⟩
  let directory ← mapError Refusal.ofTealDrive
    (context.resolveDirectory files root context.request.relativePath)
  let metadata ← mapError Refusal.ofIo (files.metadata directory)
  refuse (metadata.kind != .directory) ⟨.invalidPath, "Path is not a directory.", "not_directory"⟩
  let entries ← mapError Refusal.ofIo
    (context.collectEntries files directory root options.filter options.includeHidden)
  return pageAt (sortEntries entries options.sort) (context.pageLimit options)
    ((parseCursorOffset options.cursor).getD 0)

end Context

end TealDrive
