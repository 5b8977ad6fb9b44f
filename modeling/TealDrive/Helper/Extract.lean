import TealDrive.Helper.Transaction
import TealDrive.Library.Growth
import TealDrive.Library.Passes

namespace TealDrive

open Outcome

/-!
# Extracting an archive

An archive is a list of entries, as the `zip` and `tar` crates report them: the
names, kinds, sizes and streams are whatever its author wrote.  Both formats
have a loop of their own.  An entry is checked by its path, hidden names first,
then the path policy at its published path, then its sensitive name; links are
skipped.  A zip entry creates the directories above it, and counts what it
writes; a tar entry is unpacked by the crate, and counted by the size that its
header declares.

A link above the destination is taken for a failure to create the destination.
The code follows it and then fails to publish.  The names of entries are texts: a
tar archive can also have a name that is not UTF-8, which the code checks in its
lossy form and unpacks under its bytes, and such archives are not among those here.
-/

/-! ## What the archive crates report -/

/-- An entry of a zip archive.  The stream arrives in pieces, and may break off. -/
structure ZipEntry where
  unixMode : Option Nat
  enclosedName : Option Text
  isDir : Bool
  pieces : List (List UInt8)
  broken : Bool

/-- A header's entry type, as `unpack` reads it.  An old header with a name that
ends in a separator is a directory. -/
inductive TarKind where
  | symlink
  | hardLink
  | directory
  | globalHeader
  | file
deriving DecidableEq

/-- An entry of a tar archive.  `size` is what its own header declares, which
may differ from the length of its stream. -/
structure TarEntry where
  path : Except IoError Text
  kind : TarKind
  size : Option Nat
  mode : Nat
  pieces : List (List UInt8)
  broken : Bool

/-- The crates' readers.  A single entry may be unreadable. -/
structure ArchiveReaders where
  zip : List UInt8 -> Option (List (Option ZipEntry))
  tar : Bool -> List UInt8 -> Except IoError (List (Option TarEntry))

/-- Where a run is interrupted: before an entry, or in the middle of a piece
that is written, counted by the entry and the piece. -/
structure Interruptions where
  entry : Nat -> Bool
  write : Nat -> Nat -> Option (Nat × IoError)

/-- `unix_mode() & 0o170000 == 0o120000`. -/
def ZipEntry.isLink (entry : ZipEntry) : Bool :=
  entry.unixMode.any (fun mode => mode / 4096 % 16 == 10)

def TarKind.isLink : TarKind -> Bool
  | .symlink | .hardLink => true
  | _ => false

/-- A whole stream.  A read that returns nothing ends it. -/
def streamOf (pieces : List (List UInt8)) : List UInt8 :=
  (pieces.takeWhile (fun piece => piece != [])).flatten

inductive Archive where
  | zip (entries : List (Option ZipEntry))
  | tar (entries : List (Option TarEntry))

/-! ## Copying a stream -/

/-- `MAX_ARCHIVE_EXTRACT_BYTES`. -/
def maxArchiveExtractBytes : Nat := 500 * 1024 * 1024

/-- What an extraction may write. -/
def extractLimit (budget : Option Nat) : Nat :=
  min maxArchiveExtractBytes (budget.getD u64Max)

/-- `io::copy` of what is left of a stream: the bytes that are written, and how
it ends.  The reader is limited by `take`, the writer by its budget. -/
def copy (stop : Nat -> Option (Nat × IoError)) (take budget : Option Nat) (broken : Bool) :
    Nat -> List UInt8 -> List (List UInt8) -> List UInt8 × Except IoError Unit
  | _, written, [] =>
      if take.any (fun limit => decide (limit ≤ written.length)) then (written, .ok ())
      else (written, if broken then .error .other else .ok ())
  | index, written, piece :: rest =>
      let piece := match take with
        | some limit => piece.take (limit - written.length)
        | none => piece
      if piece = [] then (written, .ok ())
      else
        if budget.any (fun budget => decide (budget - written.length < piece.length)) then
          (written, .error .ENOSPC)
        else
          match stop index with
          | some (count, error) => (written ++ piece.take count, .error error)
          | none => copy stop take budget broken (index + 1) (written ++ piece) rest

/-! ## Directories and permissions -/

/-- `fs::create_dir_all`. -/
def createDirectories (calls : Calls) (disk : Node) (path : List Text) :
    Node × Except IoError Unit :=
  match createDirAll calls disk [] path with
  | (made, .ok ()) => (made, .ok ())
  | (made, .error error) =>
      (made, .error (if error = .EEXIST ∧ (disk.lookup path).isNone = true then .ENOTDIR else error))

/-- `fs::set_permissions`. -/
def withMode (mode : Nat) : Node -> Node
  | .leaf (.file stat bytes) =>
      .leaf (.file { stat with mode := stat.mode / 4096 * 4096 + mode % 512 } bytes)
  | .branch _ entries => .branch (mode % 512) entries
  | other => other

def isLink : Option Node -> Bool
  | some (.leaf (.symlink _)) => true
  | _ => false

def isDirectory : Option Node -> Bool
  | some (.branch _ _) => true
  | _ => false

/-- The state of an extraction.  What was written to which file is not kept by
the code. -/
structure Extraction where
  disk : Node
  totalExtracted : Nat
  log : List (List Text × List UInt8)

/-! ## Checks of an entry -/

def archiveHiddenAllowed (snapshot : AppConfig) (request : HelperRequest) : Bool :=
  ((snapshot.roots.find? (fun root => root.rootId == request.rootId)).map
    (fun root => root.hiddenFilesAllowed)).getD false

def Refusal.archiveSlip (reason : String) : Refusal :=
  ⟨.policyDenied, "Archive entry path attempts directory traversal.", reason⟩

def Refusal.extractLimit : Refusal :=
  ⟨.fileTooLarge, "Archive decompressed size exceeds maximum extraction limit (500 MB).",
    "decompression_limit_exceeded"⟩

/-- The path of an entry below the directory that is extracted to.  Rust paths
are equal when their components are. -/
def entryPath (target : RelativePath) (names : List Text) : RelativePath :=
  ⟨Segments.join '/' (segmentNames target.value ++ names)⟩

namespace Context

section Extract

variable (snapshot : AppConfig) (interrupt : Interruptions) (context : Context) (calls : Calls)
  (target : RelativePath)

/-- The checks of an entry's name.  A name that starts in a separator replaces
the directory it is joined to. -/
def checkEntry (slip : Refusal) (name : Text) : Except Refusal (List Text) := do
  refuse (!archiveHiddenAllowed snapshot context.request && isHiddenRelative ⟨name⟩)
    (.permissionDenied "Hidden archive entry denied.")
  refuse (isAbsolute name) slip
  let path := entryPath target (segmentNames name)
  mapError Refusal.ofTealDrive (context.check path .write)
  refuse (detectSensitive path context.config.sensitivePolicy)
    ⟨.policyDenied, "Archive entry extracts to sensitive path.", "sensitive_path"⟩
  return segmentNames name

/-- No directory above the entry, and nothing in its place, is a link. -/
def checkLinks (disk : Node) (names : List Text) : Except Refusal Unit := do
  refuse ((List.range names.length).any (fun count => decide (0 < count) &&
    isLink (disk.lookup (segmentNames target.value ++ names.take count))))
    ⟨.policyDenied, "Archive entry parent directory is a symlink.", "symlink_denied"⟩
  refuse (isLink (disk.lookup (segmentNames target.value ++ names)))
    ⟨.policyDenied, "Archive entry target is a symlink.", "symlink_denied"⟩

/-! ## `extract_zip` -/

/-- A file entry of a zip archive. -/
def zipFile (index : Nat) (entry : ZipEntry) (path : List Text) (state : Extraction) :
    Extraction × Except Refusal Unit :=
  match createDirectories calls state.disk path.dropLast with
  | (made, .error error) => ({ state with disk := made }, .error (.ofIo error))
  | (made, .ok ()) =>
      let remaining := extractLimit calls.budget - state.totalExtracted
      let (bytes, copied) := copy (interrupt.write index) (some (remaining + 1)) calls.budget
        entry.broken 0 [] entry.pieces
      match writeFile calls made path.dropLast (path.getLast?.getD []) bytes with
      | .error error => ({ state with disk := made }, .error (.ofIo error))
      | .ok filled =>
          let log := state.log ++ [(path, bytes)]
          match copied with
          | .error error => (⟨filled, state.totalExtracted, log⟩, .error (.ofIo error))
          | .ok () =>
              let total := state.totalExtracted + bytes.length
              if extractLimit calls.budget < total then (⟨filled, total, log⟩, .error .extractLimit)
              else (⟨filled, total, log⟩, .ok ())

/-- A directory entry of a zip archive. -/
def zipDirectory (path : List Text) (state : Extraction) : Extraction × Except Refusal Unit :=
  match createDirectories calls state.disk path with
  | (made, .error error) => ({ state with disk := made }, .error (.ofIo error))
  | (made, .ok ()) => ({ state with disk := made }, .ok ())

def zipEntry (index : Nat) (entry : Option ZipEntry) (state : Extraction) :
    Extraction × Except Refusal Unit :=
  match entry with
  | none => (state, .error ⟨.validationError, "Failed to read zip entry.", "zip_read_error"⟩)
  | some entry =>
      if entry.isLink then (state, .ok ())
      else
        let checked := do
          let name ← okOr entry.enclosedName (Refusal.archiveSlip "zip_slip_attempt")
          let names ← context.checkEntry snapshot target (.archiveSlip "zip_slip_attempt") name
          checkLinks target state.disk names
          return segmentNames target.value ++ names
        match checked with
        | .error refusal => (state, .error refusal)
        | .ok path =>
            let extracted := if entry.isDir then zipDirectory calls path state
              else zipFile interrupt calls index entry path state
            match extracted with
            | (made, .error refusal) => (made, .error refusal)
            | (made, .ok ()) =>
                match entry.unixMode with
                | some mode => ({ made with disk := made.disk.edit (withMode mode) path }, .ok ())
                | none => (made, .ok ())

/-! ## `extract_tar` -/

/-- `unpack` of a file: what was there is removed, and the stream is written to
its end.  The crate's errors carry no number. -/
def unpackFile (index : Nat) (entry : TarEntry) (path : List Text) (state : Extraction) :
    Extraction × Except Refusal Unit :=
  if isDirectory (state.disk.lookup path.dropLast) && !isDirectory (state.disk.lookup path) &&
      (calls.attempt (.write path)).isOk then
    let (bytes, copied) := copy (interrupt.write index) none none entry.broken 0 [] entry.pieces
    let filled := state.disk.place path.dropLast (path.getLast?.getD [])
      (.leaf (.file calls.created bytes))
    let log := state.log ++ [(path, bytes)]
    match copied with
    | .error _ => ({ state with disk := filled, log := log }, .error (.ofIo .other))
    | .ok () => ({ state with disk := filled.edit (withMode entry.mode) path, log := log }, .ok ())
  else (state, .error (.ofIo .other))

/-- `unpack` of a directory, whose parent must be there. -/
def unpackDirectory (entry : TarEntry) (path : List Text) (state : Extraction) :
    Extraction × Except Refusal Unit :=
  if isDirectory (state.disk.lookup path.dropLast) then
    match makeDirectory calls state.disk path.dropLast (path.getLast?.getD []) with
    | (made, .error _) => ({ state with disk := made }, .error (.ofIo .other))
    | (made, .ok ()) => ({ state with disk := made.edit (withMode entry.mode) path }, .ok ())
  else (state, .error (.ofIo .other))

/-- `entry.unpack`. -/
def unpack (index : Nat) (entry : TarEntry) (path : List Text) (state : Extraction) :
    Extraction × Except Refusal Unit :=
  match entry.kind with
  | .directory => unpackDirectory calls entry path state
  | .globalHeader => (state, .ok ())
  | _ => unpackFile interrupt calls index entry path state

/-- `u64::add` without overflow checks. -/
def wrappingAdd (left right : Nat) : Nat := (left + right) % 2 ^ 64

def tarEntry (index : Nat) (entry : Option TarEntry) (state : Extraction) :
    Extraction × Except Refusal Unit :=
  if interrupt.entry index then (state, .error (.permissionDenied "Operation cancelled."))
  else
    match entry with
    | none => (state, .error ⟨.validationError, "Failed to read tar entry.", "tar_read_error"⟩)
    | some entry =>
        let checked := do
          let name ← mapError Refusal.ofIo entry.path
          refuse (isAbsolute name ||
            (components name).any (fun part => part == Component.parentDir || part == Component.rootDir))
            (.archiveSlip "tar_slip_attempt")
          context.checkEntry snapshot target (.archiveSlip "tar_slip_attempt") name
        match checked with
        | .error refusal => (state, .error refusal)
        | .ok names =>
            if entry.kind.isLink then (state, .ok ())
            else
              match checkLinks target state.disk names with
              | .error refusal => (state, .error refusal)
              | .ok () =>
                  let total := wrappingAdd state.totalExtracted (entry.size.getD 0)
                  let state := { state with totalExtracted := total }
                  if extractLimit calls.budget < total then (state, .error .extractLimit)
                  else unpack interrupt calls index entry (segmentNames target.value ++ names) state

/-! ## `extract_archive_with_roots` -/

variable (readers : ArchiveReaders) (canonicalize : Node -> List Text -> Except IoError (List Text))

/-- `resolve_existing_path` without following a link in the last place.  Where
the links on the way lead is an argument. -/
def resolveSource (disk : Node) (path : RelativePath) : Except TealDriveError (List Text) := do
  mapError (fun _ => TealDriveError.invalidRootId) (calls.attempt .root)
  let validated ← validateRelativePath path
  context.check validated .discover
  let names := segmentNames validated.value
  mapError pathError (calls.attempt (.stat .resolve names))
  let parent ← mapError pathError (canonicalize disk names.dropLast)
  let node ← mapError pathError (okOr (disk.lookup (parent ++ names.drop (names.length - 1))) .ENOENT)
  let found ← mapError pathError (canonicalize disk names)
  context.check ⟨Segments.join '/' found⟩ .discover
  context.checkMetadata node
  refuse (isLink (some node)) .symlinkDenied
  return found

/-- What is checked before the destination is created: the archive's validated
path, the path it resolves to, and the destination. -/
def extractPaths (disk : Node) : Except Refusal (RelativePath × List Text × RelativePath) := do
  let request := context.request
  refuse (request.command != .extractArchive) .notImplemented
  refuse (request.uid == 0) (.permissionDenied "Helper refuses uid 0.")
  let root ← okOr context.root? .unknownRoot
  refuse root.readOnly ⟨.policyDenied, "Root is read-only.", "read_only_root"⟩
  refuse root.isWebRoot
    ⟨.policyDenied, "Archive extraction denied in webroot.", "webroot_archive_denied"⟩
  let archive ← mapError Refusal.ofTealDrive (validateRelativePath request.relativePath)
  refuse (archive.value == [])
    ⟨.invalidPath, "Cannot extract root directory.", "invalid_source"⟩
  refuse (detectSensitive archive context.config.sensitivePolicy)
    ⟨.policyDenied, "Archive path is sensitive.", "sensitive_path"⟩
  let source ← mapError Refusal.ofTealDrive (context.resolveSource calls canonicalize disk archive)
  let target ← okOr request.targetRelativePath
    ⟨.validationError, "Target relative path required.", "missing_target_relative_path"⟩
  let target ← mapError Refusal.ofTealDrive (validateRelativePath target)
  refuse (detectSensitive target context.config.sensitivePolicy)
    ⟨.policyDenied, "Target path is sensitive.", "sensitive_path"⟩
  return (archive, source, target)

/-- The archive's bytes.  A directory can be opened, but not be read. -/
def openSource (disk : Node) (source : List Text) : Except Refusal (Option (List UInt8)) := do
  let node ← mapError Refusal.ofIo
    (context.sandboxOpen calls disk .source ⟨Segments.join '/' source⟩ .read)
  match node with
  | .leaf (.file _ bytes) => return some bytes
  | _ => return none

def openZip (disk : Node) (source : List Text) : Except Refusal (List (Option ZipEntry)) := do
  let bytes ← context.openSource calls disk source
  okOr (bytes.bind readers.zip)
    ⟨.validationError, "Corrupted archive file.", "corrupted_archive"⟩

/-- A directory has one entry, which is unreadable. -/
def openTar (disk : Node) (zipped : Bool) (source : List Text) :
    Except Refusal (List (Option TarEntry)) := do
  let bytes ← context.openSource calls disk source
  mapError Refusal.ofIo ((bytes.map (readers.tar zipped)).getD (.ok [none]))

/-- The archive in the format that its name says. -/
def openArchive (disk : Node) (archive : RelativePath) (source : List Text) :
    Except Refusal Archive :=
  let lowerName := Text.toAsciiLowercase archive.value
  let endsWith := fun (suffix : String) => suffix.toList.isSuffixOf lowerName
  if endsWith ".zip" then (context.openZip calls readers disk source).map .zip
  else if endsWith ".tar.gz" || endsWith ".tgz" || endsWith ".tar" then
    (context.openTar calls readers disk (endsWith ".tar.gz" || endsWith ".tgz") source).map .tar
  else .error ⟨.validationError,
    "Unsupported archive extension. Supported: .zip, .tar.gz, .tgz, .tar",
    "unsupported_archive_format"⟩

/-- What happens before the first entry: the destination is created, and the
archive is opened. -/
def beginExtract (disk : Node) : Node × Except Refusal (RelativePath × Archive) :=
  match context.extractPaths calls canonicalize disk with
  | .error refusal => (disk, .error refusal)
  | .ok (archive, source, target) =>
      match createDirectories calls disk (segmentNames target.value) with
      | (made, .error error) => (made, .error (.ofIo error))
      | (made, .ok ()) =>
          (made, (context.openArchive calls readers made archive source).map
            (fun opened => (target, opened)))

/-- The loops of `extract_zip` and `extract_tar`. -/
def extractEntries (opened : Archive) (state : Extraction) : Extraction × Except Refusal Unit :=
  match opened with
  | .zip entries => Passes.pass (zipEntry snapshot interrupt context calls target) 0 entries state
  | .tar entries => Passes.pass (tarEntry snapshot interrupt context calls target) 0 entries state

def extractArchiveWithRoots (disk : Node) : Extraction × Except Refusal Unit :=
  match context.beginExtract calls readers canonicalize disk with
  | (made, .error refusal) => (⟨made, 0, []⟩, .error refusal)
  | (made, .ok (target, opened)) =>
      extractEntries snapshot interrupt context calls target opened ⟨made, 0, []⟩

/-- What a staged request for an extraction does. -/
def extractResponse (disk : Node) : Node × Except Refusal TrashPayload :=
  let (state, outcome) :=
    extractArchiveWithRoots snapshot interrupt context calls readers canonicalize disk
  (state.disk, outcome.map (fun _ => .operationDone "Archive extracted."))

end Extract

end Context

/-! ## What the checks say -/

section Checked

variable {snapshot : AppConfig} {context : Context} {target : RelativePath}

/-- The checks of a zip entry give the path of its name. -/
theorem zipChecked_ok {entry : ZipEntry} {disk : Node}
    {path : List Text}
    (done : (do
      let name ← okOr entry.enclosedName (Refusal.archiveSlip "zip_slip_attempt")
      let names ← context.checkEntry snapshot target (.archiveSlip "zip_slip_attempt") name
      Context.checkLinks target disk names
      return segmentNames target.value ++ names) = .ok path) :
    ∃ name, entry.enclosedName = some name ∧
      context.checkEntry snapshot target (.archiveSlip "zip_slip_attempt") name =
        .ok (segmentNames name) ∧
      path = segmentNames target.value ++ segmentNames name := by
  simp only [bind_eq_ok, okOr_eq_ok, pure_eq_ok] at done
  rcases done with ⟨name, enclosed, names, checked, _, _, same⟩
  have named : names = segmentNames name := by
    simp only [Context.checkEntry, bind_eq_ok, pure_eq_ok] at checked
    rcases checked with ⟨_, _, _, _, _, _, _, _, same⟩
    exact same.symm
  subst named
  exact ⟨name, enclosed, checked, same.symm⟩

/-- The checks of a tar entry give the names of its path. -/
theorem tarChecked_ok {entry : TarEntry} {names : List Text}
    (done : (do
      let name ← mapError Refusal.ofIo entry.path
      refuse (isAbsolute name ||
        (components name).any (fun part => part == Component.parentDir || part == Component.rootDir))
        (.archiveSlip "tar_slip_attempt")
      context.checkEntry snapshot target (.archiveSlip "tar_slip_attempt") name) = .ok names) :
    ∃ name, entry.path = .ok name ∧
      context.checkEntry snapshot target (.archiveSlip "tar_slip_attempt") name =
        .ok (segmentNames name) ∧ names = segmentNames name := by
  simp only [bind_eq_ok, mapError_eq_ok] at done
  rcases done with ⟨name, named, _, _, checked⟩
  have same : names = segmentNames name := by
    simp only [Context.checkEntry, bind_eq_ok, pure_eq_ok] at checked
    rcases checked with ⟨_, _, _, _, _, _, _, _, same⟩
    exact same.symm
  subst same
  exact ⟨name, named, checked, rfl⟩

end Checked

end TealDrive
