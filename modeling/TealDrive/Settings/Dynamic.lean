import TealDrive.Library.Runs
import TealDrive.Settings.Rewritten

namespace TealDrive

open Outcome

/-!
# Changing the configuration of a running server

`DynamicConfig` holds the live configuration, the path of the root file, and
when they are attached the audit sink and the runtime settings.  A change is
validated, then the audit section is prepared, then the file is written if the
change is to be saved, and last the sink and the live configuration are
switched over.

Files are known by the components of their paths.  Which calls to the system
fail is an input of each operation.  A log file that `prepare` creates before
the operation fails is not part of the state here.
-/

/-- The calls of one operation that may fail.  Reading the root file includes
the test of its owner and mode. -/
inductive ConfigCall where
  | readRoot
  | readConfig
  | readSettings
  | openLog
  | createTemporary
  | writeTemporary
  | syncTemporary
  | rename
  | syncDirectory
deriving DecidableEq

/-- What the code relies on from outside: the parsers of `validate`, and serde
for whole configurations and for patches. -/
structure ConfigCodecs where
  parsers : ConfigParsers
  configs : Serde AppConfig
  patches : Serde ConfigPatch

/-- The path and settings of a `JsonlAuditSink`. -/
structure AuditTarget where
  path : Text
  config : AuditConfig

structure DynamicConfig where
  inner : AppConfig
  configPath : Option Text
  auditSink : Option AuditTarget
  runtimeSettings : Option RuntimeSettings
  files : List Component -> StoredFile

/-! ## Whole configurations in files -/

/-- `audit_hours_serialize` and `audit_retention_serialize`: nothing is 0. -/
def AppConfig.serialized (config : AppConfig) : AppConfig :=
  { config with audit := { config.audit with
      retentionHours := some (config.audit.retentionHours.getD 0)
      retentionDays := some (config.audit.retentionDays.getD 0) } }

/-- `audit_hours_deserialize` and `audit_retention_deserialize`. -/
def AppConfig.deserialized (config : AppConfig) : AppConfig :=
  { config with audit := { config.audit with
      retentionHours := nonzero config.audit.retentionHours
      retentionDays := nonzero config.audit.retentionDays } }

def ConfigCodecs.parse (codecs : ConfigCodecs) (path text : Text) : Option AppConfig :=
  (codecs.configs.read (formatOf path) text).map AppConfig.deserialized

def ConfigCodecs.print (codecs : ConfigCodecs) (path : Text) (config : AppConfig) : Option Text :=
  codecs.configs.write (formatOf path) config.serialized

/-- The size up to which a trusted file is read. -/
def maxTrustedBytes : Nat := 1024 * 1024

namespace DynamicConfig

variable (codecs : ConfigCodecs) (fails : ConfigCall -> Bool)

/-- `DynamicConfig::new`. -/
def new (config : AppConfig) (path : Option Text) (files : List Component -> StoredFile) :
    DynamicConfig :=
  ⟨config, path, none, none, files⟩

def fileAt (state : DynamicConfig) (path : Text) : StoredFile :=
  state.files (components path)

/-- Parse and check a configuration file. -/
def parsed (path text : Text) : Except TealDriveError AppConfig := do
  let config ← okOr (codecs.parse path text) .validation
  config.validate codecs.parsers
  .ok config

def readRootConfig (state : DynamicConfig) (path : Text) : Except TealDriveError AppConfig := do
  refuse (fails .readRoot) .permissionDenied
  match state.fileAt path with
  | .missing | .unreadable => .error .permissionDenied
  | .binary => .error .validation
  | .content text => do
      refuse (decide (maxTrustedBytes < text.len)) .permissionDenied
      parsed codecs path text

/-- `AppConfig::from_file`. -/
def fromFile (state : DynamicConfig) (path : Text) : Except TealDriveError AppConfig := do
  refuse (fails .readConfig) .notFound
  match state.fileAt path with
  | .missing | .unreadable | .binary => .error .notFound
  | .content text => parsed codecs path text

def validateRuntime (state : DynamicConfig) (config : AppConfig) : Except TealDriveError Unit :=
  forSome state.runtimeSettings (fun _ => do
    let path ← okOr state.configPath .validation
    let ceiling ← state.readRootConfig codecs fails path
    RuntimeSettings.validate codecs.parsers config ceiling)

/-- `ServerConfig::same_transport`. -/
def sameTransport (left right : ServerConfig) : Bool :=
  left.bindAddr == right.bindAddr && left.behindTlsProxy == right.behindTlsProxy &&
    left.requireTls == right.requireTls && sameOptionalPath left.tlsCertPath right.tlsCertPath &&
    sameOptionalPath left.tlsKeyPath right.tlsKeyPath &&
    sameOptionalPath left.channelKeyPath right.channelKeyPath

/-- A configuration without a log path takes the sink's. -/
def filled (state : DynamicConfig) (config : AppConfig) : AppConfig :=
  if config.audit.path.isNone then
    match state.auditSink with
    | some sink => { config with audit := { config.audit with path := some sink.path } }
    | none => config
  else config

/-- `JsonlAuditSink::prepare`: a new path is opened. -/
def prepare (sink : AuditTarget) (config : AuditConfig) : Except TealDriveError AuditTarget := do
  refuse (!samePath (config.path.getD sink.path) sink.path && fails .openLog) .internal
  .ok ⟨config.path.getD sink.path, config⟩

/-- The configuration to install, and the target the sink is to switch to. -/
def prepareAudit (state : DynamicConfig) (config : AppConfig) :
    Except TealDriveError (AppConfig × Option AuditTarget) := do
  refuse ((state.filled config).audit.path.any (fun path =>
    state.configPath.any (fun other => samePath other path) ||
      state.runtimeSettings.any (fun settings => samePath settings.path path))) .validation
  match state.auditSink with
  | some sink => do
      let prepared ← prepare fails sink (state.filled config).audit
      .ok (state.filled config, some prepared)
  | none => .ok (state.filled config, none)

/-- `commit_audit`, and the new live configuration. -/
def installed (state : DynamicConfig) (config : AppConfig) (prepared : Option AuditTarget) :
    DynamicConfig :=
  { state with inner := config, auditSink := prepared.or state.auditSink }

/-! ## The operations -/

/-- Install what the checks let through. -/
def install (state : DynamicConfig)
    (checked : Except TealDriveError (AppConfig × Option AuditTarget)) :
    DynamicConfig × Except TealDriveError AppConfig :=
  match checked with
  | .ok (config, prepared) => (state.installed config prepared, .ok config)
  | .error error => (state, .error error)

def store (state : DynamicConfig) (config : AppConfig) :
    DynamicConfig × Except TealDriveError AppConfig :=
  state.install (do
    config.validate codecs.parsers
    refuse (!sameTransport config.server state.inner.server) .validation
    state.validateRuntime codecs fails config
    state.prepareAudit fails config)

/-- What `reload` reads. -/
def loaded (state : DynamicConfig) : Except TealDriveError AppConfig := do
  let path ← okOr state.configPath .notFound
  match state.runtimeSettings with
  | some settings => do
      let ceiling ← state.readRootConfig codecs fails path
      refuse (fails .readSettings) .validation
      settings.read codecs.parsers codecs.patches ceiling (state.fileAt settings.path)
  | none => state.fromFile codecs fails path

def reload (state : DynamicConfig) : DynamicConfig × Except TealDriveError AppConfig :=
  state.install (do
    let config ← state.loaded codecs fails
    refuse (!sameTransport config.server state.inner.server) .validation
    state.prepareAudit fails config)

/-- The path that is written, and the text. -/
def persisted (state : DynamicConfig) (config : AppConfig) :
    Except TealDriveError (Text × Text) :=
  match state.runtimeSettings with
  | some settings => do
      let text ← okOr (settings.written codecs.patches config) .internal
      .ok (settings.path, text)
  | none => do
      let path ← okOr state.configPath .notFound
      let text ← okOr (codecs.print path config) .internal
      .ok (path, text)

/-- `rename(2)` of the temporary file. -/
def replaced (state : DynamicConfig) (path text : Text) : DynamicConfig :=
  { state with
    files := fun other => if other = components path then .content text else state.files other }

/-- The directory is opened and synced after the rename, and a failure there
is reported like any other. -/
def persist (state : DynamicConfig) (config : AppConfig) :
    DynamicConfig × Except TealDriveError Unit :=
  let ready := do
    state.validateRuntime codecs fails config
    let file ← state.persisted codecs config
    refuse (fails .createTemporary || fails .writeTemporary || fails .syncTemporary ||
      fails .rename) .internal
    .ok file
  match ready with
  | .ok (path, text) =>
      (state.replaced path text, refuse (fails .syncDirectory) .internal)
  | .error error => (state, .error error)

/-- The checks of `apply_patch_saved` before anything is written. -/
def checkedPatch (state : DynamicConfig) (patch : ConfigPatch) :
    Except TealDriveError (AppConfig × Option AuditTarget) := do
  refuse patch.staticDir.isSome .permissionDenied
  forSome state.runtimeSettings (fun _ => RuntimeSettings.checkPatch patch)
  (patch.applyTo state.inner).validate codecs.parsers
  state.validateRuntime codecs fails (patch.applyTo state.inner)
  state.prepareAudit fails (patch.applyTo state.inner)

def applyPatchSaved (state : DynamicConfig) (patch : ConfigPatch) (save : Bool) :
    DynamicConfig × Except TealDriveError AppConfig :=
  match state.checkedPatch codecs fails patch with
  | .error error => (state, .error error)
  | .ok (config, prepared) =>
      if save then
        match state.persist codecs fails config with
        | (written, .ok _) => (written.installed config prepared, .ok config)
        | (written, .error error) => (written, .error error)
      else (state.installed config prepared, .ok config)

def withAuditSink (state : DynamicConfig) (sink : AuditTarget) : DynamicConfig :=
  { state with auditSink := some sink }

/-- The settings and the configuration read through them. -/
def runtimeOf (state : DynamicConfig) (path : Text) :
    Except TealDriveError (RuntimeSettings × AppConfig) := do
  let root ← okOr state.configPath .validation
  refuse (!isAbsolute root || samePath root path) .validation
  let ceiling ← state.readRootConfig codecs fails root
  refuse (!state.inner.same ceiling) .validation
  let settings ← RuntimeSettings.new path ceiling
  refuse (fails .readSettings) .validation
  let effective ← settings.read codecs.parsers codecs.patches ceiling (state.fileAt settings.path)
  .ok (settings, effective)

/-- On failure the configuration under construction is dropped. -/
def withRuntimeSettings (state : DynamicConfig) (path : Text) : DynamicConfig :=
  match state.runtimeOf codecs fails path with
  | .error _ => state
  | .ok (settings, effective) =>
      match { state with runtimeSettings := some settings }.store codecs fails effective with
      | (done, .ok _) => done
      | (_, .error _) => state

end DynamicConfig

end TealDrive
