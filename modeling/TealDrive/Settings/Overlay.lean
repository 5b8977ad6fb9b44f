import TealDrive.Settings.Patch

namespace TealDrive

open Outcome

/-!
# Runtime settings over a root configuration

`RuntimeSettings` reads a patch that the service may write and lays it over a
configuration that only root may write.  Patches of fields that belong to root
are refused, the result has to be valid, and every value that differs has to
stay below the base.

The patch is written and read back by serde in one of two formats.  All that
is used of it is that a written value reads back as itself.
-/

/-! ## Files and formats -/

inductive Format where
  | json
  | toml
deriving DecidableEq

/-- `Path::extension`. -/
def extension (path : Text) : Option Text :=
  (fileName path).bind (fun name =>
    match Segments.rsplitOnce '.' name with
    | some (before, after) => if before = [] then none else some after
    | none => none)

def formatOf (path : Text) : Format :=
  if extension path = some "json".toList then .json else .toml

/-- A type that serde reads and writes.  Writing fails on values that a format
cannot express. -/
structure Serde (Value : Type) where
  read : Format -> Text -> Option Value
  write : Format -> Value -> Option Text
  reads_back : forall format value text, write format value = some text ->
    read format text = some value

/-- What opening and reading a path gives.  A file that is not regular counts
as unreadable, and one that is not UTF-8 as binary. -/
inductive StoredFile where
  | missing
  | unreadable
  | binary
  | content (text : Text)
deriving DecidableEq

/-- The size up to which a settings file is read. -/
def maxSettingsBytes : Nat := 65536

/-! ## The settings -/

structure RuntimeSettings where
  path : Text
  ceiling : AppConfig

def RuntimeSettings.new (path : Text) (ceiling : AppConfig) :
    Except TealDriveError RuntimeSettings := do
  refuse (!isAbsolute path || hasParentDir path) .validation
  .ok ⟨path, ceiling⟩

/-- Fields that belong to root. -/
def RuntimeSettings.checkPatch (patch : ConfigPatch) : Except TealDriveError Unit :=
  refuse (patch.proxy.isSome || patch.security.isSome || patch.roots.isSome ||
    patch.allowedUsers.isSome || patch.adminUsers.isSome || patch.staticDir.isSome ||
    patch.denyEditPatterns.isSome || patch.warnReadPatterns.isSome ||
    patch.trashRetentionDays.isSome ||
    patch.session.any (fun session => session.cookieName.isSome || session.secureCookies.isSome ||
      session.sameSite.isSome)) .permissionDenied

/-- The configuration with every field that the overlay may set taken from the
base. -/
def AppConfig.immutable (config base : AppConfig) : AppConfig :=
  { config with
    quotaWarningPercent := base.quotaWarningPercent
    features := base.features
    limits := base.limits
    audit := base.audit
    session := { config.session with
      idleTimeoutSeconds := base.session.idleTimeoutSeconds
      absoluteTimeoutSeconds := base.session.absoluteTimeoutSeconds }
    helper := base.helper
    search := base.search
    rateLimit := base.rateLimit }

/-- The keys of the features as an object. -/
inductive FeatureName where
  | saveTextFile
  | chmodFile
  | extractArchive
  | deletePermanently
  | chown
deriving DecidableEq

def FeatureName.all : List FeatureName :=
  [.saveTextFile, .chmodFile, .extractArchive, .deletePermanently, .chown]

def FeatureFlags.get (flags : FeatureFlags) : FeatureName -> Bool
  | .saveTextFile => flags.saveTextFile
  | .chmodFile => flags.chmodFile
  | .extractArchive => flags.extractArchive
  | .deletePermanently => flags.deletePermanently
  | .chown => flags.chown

/-- The keys of the limits as an object. -/
inductive LimitName where
  | maxFramePayload
  | maxControlPayload
  | maxDecompressedControlPayload
  | maxChunkSize
  | maxInFlightUpload
  | maxDirectoryPageSize
  | defaultDirectoryPageSize
  | maxTextEditSize
  | maxPreviewSize
deriving DecidableEq

def LimitName.all : List LimitName :=
  [.maxFramePayload, .maxControlPayload, .maxDecompressedControlPayload, .maxChunkSize,
    .maxInFlightUpload, .maxDirectoryPageSize, .defaultDirectoryPageSize, .maxTextEditSize,
    .maxPreviewSize]

def Limits.get (limits : Limits) : LimitName -> Nat
  | .maxFramePayload => limits.maxFramePayload
  | .maxControlPayload => limits.maxControlPayload
  | .maxDecompressedControlPayload => limits.maxDecompressedControlPayload
  | .maxChunkSize => limits.maxChunkSize
  | .maxInFlightUpload => limits.maxInFlightUpload
  | .maxDirectoryPageSize => limits.maxDirectoryPageSize
  | .defaultDirectoryPageSize => limits.defaultDirectoryPageSize
  | .maxTextEditSize => limits.maxTextEditSize
  | .maxPreviewSize => limits.maxPreviewSize

/-- `Path::parent`, as components. -/
def parentComponents (path : Text) : Option (List Component) :=
  match (components path).getLast? with
  | some .rootDir | none => none
  | some _ => some (components path).dropLast

/-- A bound on the base's retention also bounds the overlay's. -/
def retentionExceeds (config base : AuditConfig) : Bool :=
  base.effectiveRetentionHours.any (fun max =>
    config.effectiveRetentionHours.all (fun hours => decide (max < hours)))

/-- Root chooses the log's directory, the overlay a file name in it. -/
def checkAuditPath (config base : AuditConfig) : Except TealDriveError Unit :=
  whenever (!sameOptionalPath config.path base.path) (do
    let parent ← okOr (base.path.bind parentComponents) .permissionDenied
    let path ← okOr config.path .permissionDenied
    refuse (parentComponents path != some parent || (fileName path).isNone) .permissionDenied)

def RuntimeSettings.validate (parsers : ConfigParsers) (config base : AppConfig) :
    Except TealDriveError Unit := do
  config.validate parsers
  refuse (!(config.immutable base).same base) .permissionDenied
  refuse (FeatureName.all.any (fun name =>
    config.features.get name && !base.features.get name)) .permissionDenied
  refuse (LimitName.all.any (fun name =>
    decide (base.limits.get name < config.limits.get name))) .permissionDenied
  refuse (decide (config.session.idleTimeoutSeconds > base.session.idleTimeoutSeconds) ||
    decide (config.session.absoluteTimeoutSeconds > base.session.absoluteTimeoutSeconds) ||
    decide (config.helper.timeoutSeconds > base.helper.timeoutSeconds) ||
    decide (config.search.maxDepth > base.search.maxDepth) ||
    decide (config.search.defaultMaxResults > base.search.defaultMaxResults) ||
    decide (config.search.maxResultsLimit > base.search.maxResultsLimit) ||
    decide (config.rateLimit.maxLoginFailures > base.rateLimit.maxLoginFailures) ||
    decide (config.rateLimit.lockoutDurationSeconds < base.rateLimit.lockoutDurationSeconds) ||
    decide (config.audit.maxFileBytes > base.audit.maxFileBytes) ||
    decide (config.audit.maxArchives > base.audit.maxArchives)) .permissionDenied
  refuse (retentionExceeds config.audit base.audit) .permissionDenied
  checkAuditPath config.audit base.audit

/-- Lay the settings file over a base. -/
def RuntimeSettings.read (settings : RuntimeSettings) (parsers : ConfigParsers)
    (serde : Serde ConfigPatch) (base : AppConfig) : StoredFile -> Except TealDriveError AppConfig
  | .missing => .ok base
  | .unreadable | .binary => .error .validation
  | .content text => do
      refuse (decide (maxSettingsBytes < text.len)) .validation
      let patch ← okOr (serde.read (formatOf settings.path) text) .validation
      RuntimeSettings.checkPatch patch
      RuntimeSettings.validate parsers (patch.applyTo base) base
      .ok (patch.applyTo base)

/-- The fields of a configuration that the overlay keeps. -/
def RuntimeSettings.project (config : AppConfig) : ConfigPatch :=
  { ConfigPatch.empty with
    quotaWarningPercent := some config.quotaWarningPercent
    features := some (FeaturesPatch.of config.features)
    limits := some (LimitsPatch.of config.limits)
    audit := some
      { path := config.audit.path
        maxFileBytes := some config.audit.maxFileBytes
        maxArchives := some config.audit.maxArchives
        retentionHours := some config.audit.effectiveRetentionHours
        retentionDays := none }
    session := some
      { cookieName := none
        idleTimeoutSeconds := some config.session.idleTimeoutSeconds
        absoluteTimeoutSeconds := some config.session.absoluteTimeoutSeconds
        secureCookies := none
        sameSite := none }
    rateLimit := some (RateLimitPatch.of config.rateLimit)
    helper := some (HelperPatch.of config.helper)
    search := some (SearchPatch.of config.search) }

/-- TOML has no null, so unlimited retention is written as 0. -/
def ConfigPatch.writable (patch : ConfigPatch) : ConfigPatch :=
  { patch with
    audit := patch.audit.map (fun audit =>
      if audit.retentionHours = some none then { audit with retentionHours := some (some 0) }
      else audit) }

/-- The text that `persist` writes for a configuration. -/
def RuntimeSettings.written (settings : RuntimeSettings) (serde : Serde ConfigPatch)
    (config : AppConfig) : Option Text :=
  serde.write (formatOf settings.path) (RuntimeSettings.project config).writable

end TealDrive
