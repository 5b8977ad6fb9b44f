import TealDrive.Audit.Log

namespace TealDrive

/-!
# Partial configuration updates

A patch names the fields it changes and leaves out the others.  Applying one
twice is applying it once.  The audit section has two spellings of its
retention, and a patch keeps at most one of them: in a patch, nothing means
unchanged, null and 0 mean unlimited.

`==` on configurations compares paths by their components.
`security.production_wire_protocol` is left out here as in `SecurityConfig`,
since its type has one value.
-/

deriving instance DecidableEq for SystemStorageConfig, ProxyConfig, AuditConfig, SessionConfig,
  SecurityConfig, SensitivePolicyConfig, WebRootPolicyConfig, AccountPolicyConfig, FeatureFlags,
  Limits, HelperConfig, SearchConfig

/-! ## The sections -/

structure FeaturesPatch where
  saveTextFile : Option Bool
  chmodFile : Option Bool
  extractArchive : Option Bool
  deletePermanently : Option Bool
  chown : Option Bool
deriving DecidableEq

structure LimitsPatch where
  maxFramePayload : Option Nat
  maxControlPayload : Option Nat
  maxDecompressedControlPayload : Option Nat
  maxChunkSize : Option Nat
  maxInFlightUpload : Option Nat
  maxDirectoryPageSize : Option Nat
  defaultDirectoryPageSize : Option Nat
  maxTextEditSize : Option Nat
  maxPreviewSize : Option Nat
deriving DecidableEq

structure SessionPatch where
  cookieName : Option Text
  idleTimeoutSeconds : Option Nat
  absoluteTimeoutSeconds : Option Nat
  secureCookies : Option Bool
  sameSite : Option SameSitePolicy
deriving DecidableEq

structure SecurityPatch where
  allowPlainWsLocalhostOnly : Option Bool
  allowedOrigins : Option (List Text)
deriving DecidableEq

structure RateLimitPatch where
  maxLoginFailures : Option Nat
  lockoutDurationSeconds : Option Nat
deriving DecidableEq

structure HelperPatch where
  timeoutSeconds : Option Nat
deriving DecidableEq

structure SearchPatch where
  maxDepth : Option Nat
  defaultMaxResults : Option Nat
  maxResultsLimit : Option Nat
deriving DecidableEq

structure ProxyPatch where
  trustedProxies : Option (List Text)
  clientIpHeader : Option ClientIpHeader
deriving DecidableEq

structure AuditPatch where
  retentionHours : Option (Option Nat)
  path : Option Text
  maxFileBytes : Option Nat
  maxArchives : Option Nat
  retentionDays : Option (Option Nat)
deriving DecidableEq

structure ConfigPatch where
  quotaWarningPercent : Option Nat
  proxy : Option ProxyPatch
  audit : Option AuditPatch
  features : Option FeaturesPatch
  limits : Option LimitsPatch
  trashRetentionDays : Option (Option Nat)
  roots : Option (List AllowedRoot)
  denyEditPatterns : Option (List Text)
  warnReadPatterns : Option (List Text)
  staticDir : Option (Option Text)
  session : Option SessionPatch
  security : Option SecurityPatch
  rateLimit : Option RateLimitPatch
  helper : Option HelperPatch
  search : Option SearchPatch
  adminUsers : Option (List Text)
  allowedUsers : Option (List Text)
deriving DecidableEq

/-- `ConfigPatch::default`. -/
def ConfigPatch.empty : ConfigPatch :=
  ⟨none, none, none, none, none, none, none, none, none, none, none, none, none, none, none, none,
    none⟩

/-! ## Applying a patch -/

def FeaturesPatch.applyTo (patch : FeaturesPatch) (target : FeatureFlags) : FeatureFlags where
  saveTextFile := patch.saveTextFile.getD target.saveTextFile
  chmodFile := patch.chmodFile.getD target.chmodFile
  extractArchive := patch.extractArchive.getD target.extractArchive
  deletePermanently := patch.deletePermanently.getD target.deletePermanently
  chown := patch.chown.getD target.chown

def LimitsPatch.applyTo (patch : LimitsPatch) (target : Limits) : Limits where
  maxFramePayload := patch.maxFramePayload.getD target.maxFramePayload
  maxControlPayload := patch.maxControlPayload.getD target.maxControlPayload
  maxDecompressedControlPayload :=
    patch.maxDecompressedControlPayload.getD target.maxDecompressedControlPayload
  maxChunkSize := patch.maxChunkSize.getD target.maxChunkSize
  maxInFlightUpload := patch.maxInFlightUpload.getD target.maxInFlightUpload
  maxDirectoryPageSize := patch.maxDirectoryPageSize.getD target.maxDirectoryPageSize
  defaultDirectoryPageSize := patch.defaultDirectoryPageSize.getD target.defaultDirectoryPageSize
  maxTextEditSize := patch.maxTextEditSize.getD target.maxTextEditSize
  maxPreviewSize := patch.maxPreviewSize.getD target.maxPreviewSize

def SessionPatch.applyTo (patch : SessionPatch) (target : SessionConfig) : SessionConfig where
  cookieName := patch.cookieName.getD target.cookieName
  idleTimeoutSeconds := patch.idleTimeoutSeconds.getD target.idleTimeoutSeconds
  absoluteTimeoutSeconds := patch.absoluteTimeoutSeconds.getD target.absoluteTimeoutSeconds
  secureCookies := patch.secureCookies.getD target.secureCookies
  sameSite := patch.sameSite.getD target.sameSite

def SecurityPatch.applyTo (patch : SecurityPatch) (target : SecurityConfig) : SecurityConfig where
  allowPlainWsLocalhostOnly :=
    patch.allowPlainWsLocalhostOnly.getD target.allowPlainWsLocalhostOnly
  allowedOrigins := patch.allowedOrigins.getD target.allowedOrigins

def RateLimitPatch.applyTo (patch : RateLimitPatch) (target : RateLimitConfig) :
    RateLimitConfig where
  maxLoginFailures := patch.maxLoginFailures.getD target.maxLoginFailures
  lockoutDurationSeconds := patch.lockoutDurationSeconds.getD target.lockoutDurationSeconds

def HelperPatch.applyTo (patch : HelperPatch) (target : HelperConfig) : HelperConfig where
  timeoutSeconds := patch.timeoutSeconds.getD target.timeoutSeconds

def SearchPatch.applyTo (patch : SearchPatch) (target : SearchConfig) : SearchConfig where
  maxDepth := patch.maxDepth.getD target.maxDepth
  defaultMaxResults := patch.defaultMaxResults.getD target.defaultMaxResults
  maxResultsLimit := patch.maxResultsLimit.getD target.maxResultsLimit

def ProxyPatch.applyTo (patch : ProxyPatch) (target : ProxyConfig) : ProxyConfig where
  trustedProxies := patch.trustedProxies.getD target.trustedProxies
  clientIpHeader := patch.clientIpHeader.getD target.clientIpHeader

/-- `value.filter(|n| *n != 0)`. -/
def nonzero (value : Option Nat) : Option Nat :=
  value.filter (fun number => number != 0)

/-- Days first, then hours; whichever is written last clears the other. -/
def AuditPatch.applyTo (patch : AuditPatch) (target : AuditConfig) : AuditConfig :=
  let target := { target with
    path := patch.path.or target.path
    maxFileBytes := patch.maxFileBytes.getD target.maxFileBytes
    maxArchives := patch.maxArchives.getD target.maxArchives }
  let target :=
    match patch.retentionDays with
    | some value => { target with retentionDays := nonzero value, retentionHours := none }
    | none => target
  match patch.retentionHours with
  | some value => { target with retentionHours := nonzero value, retentionDays := none }
  | none => target

/-- `if let Some(patch) = … { patch.apply_to(&mut target) }`. -/
def applied {Patch Target : Type} (apply : Patch -> Target -> Target) (patch : Option Patch)
    (target : Target) : Target :=
  match patch with
  | some patch => apply patch target
  | none => target

def ConfigPatch.applyTo (patch : ConfigPatch) (config : AppConfig) : AppConfig :=
  { config with
    quotaWarningPercent := patch.quotaWarningPercent.getD config.quotaWarningPercent
    accountPolicy := { config.accountPolicy with
      allowedUsers := patch.allowedUsers.getD config.accountPolicy.allowedUsers
      adminUsers := patch.adminUsers.getD config.accountPolicy.adminUsers }
    proxy := applied ProxyPatch.applyTo patch.proxy config.proxy
    audit := applied AuditPatch.applyTo patch.audit config.audit
    features := applied FeaturesPatch.applyTo patch.features config.features
    limits := applied LimitsPatch.applyTo patch.limits config.limits
    trashRetentionDays := patch.trashRetentionDays.getD config.trashRetentionDays
    roots := patch.roots.getD config.roots
    sensitivePolicy :=
      ⟨patch.denyEditPatterns.getD config.sensitivePolicy.denyEditPatterns,
        patch.warnReadPatterns.getD config.sensitivePolicy.warnReadPatterns⟩
    server := { config.server with staticDir := patch.staticDir.getD config.server.staticDir }
    session := applied SessionPatch.applyTo patch.session config.session
    security := applied SecurityPatch.applyTo patch.security config.security
    rateLimit := applied RateLimitPatch.applyTo patch.rateLimit config.rateLimit
    helper := applied HelperPatch.applyTo patch.helper config.helper
    search := applied SearchPatch.applyTo patch.search config.search }

/-! ## Patches that name every field -/

/-- `From<FeatureFlags>`. -/
def FeaturesPatch.of (value : FeatureFlags) : FeaturesPatch :=
  ⟨some value.saveTextFile, some value.chmodFile, some value.extractArchive,
    some value.deletePermanently, some value.chown⟩

/-- `From<Limits>`. -/
def LimitsPatch.of (value : Limits) : LimitsPatch :=
  ⟨some value.maxFramePayload, some value.maxControlPayload,
    some value.maxDecompressedControlPayload, some value.maxChunkSize,
    some value.maxInFlightUpload, some value.maxDirectoryPageSize,
    some value.defaultDirectoryPageSize, some value.maxTextEditSize, some value.maxPreviewSize⟩

/-- `From<RateLimitConfig>`. -/
def RateLimitPatch.of (value : RateLimitConfig) : RateLimitPatch :=
  ⟨some value.maxLoginFailures, some value.lockoutDurationSeconds⟩

/-- `From<HelperConfig>`. -/
def HelperPatch.of (value : HelperConfig) : HelperPatch :=
  ⟨some value.timeoutSeconds⟩

/-- `From<SearchConfig>`. -/
def SearchPatch.of (value : SearchConfig) : SearchPatch :=
  ⟨some value.maxDepth, some value.defaultMaxResults, some value.maxResultsLimit⟩

/-! ## Applying a patch twice -/

theorem getD_getD {Value : Type} (field : Option Value) (target : Value) :
    field.getD (field.getD target) = field.getD target := by
  cases field <;> rfl

theorem applied_applied {Patch Target : Type} {apply : Patch -> Target -> Target}
    (once : forall patch target, apply patch (apply patch target) = apply patch target)
    (patch : Option Patch) (target : Target) :
    applied apply patch (applied apply patch target) = applied apply patch target := by
  cases patch with
  | none => rfl
  | some patch => exact once patch target

theorem FeaturesPatch.applyTo_applyTo (patch : FeaturesPatch) (target : FeatureFlags) :
    patch.applyTo (patch.applyTo target) = patch.applyTo target := by
  simp only [applyTo, getD_getD]

theorem LimitsPatch.applyTo_applyTo (patch : LimitsPatch) (target : Limits) :
    patch.applyTo (patch.applyTo target) = patch.applyTo target := by
  simp only [applyTo, getD_getD]

theorem SessionPatch.applyTo_applyTo (patch : SessionPatch) (target : SessionConfig) :
    patch.applyTo (patch.applyTo target) = patch.applyTo target := by
  simp only [applyTo, getD_getD]

theorem SecurityPatch.applyTo_applyTo (patch : SecurityPatch) (target : SecurityConfig) :
    patch.applyTo (patch.applyTo target) = patch.applyTo target := by
  simp only [applyTo, getD_getD]

theorem RateLimitPatch.applyTo_applyTo (patch : RateLimitPatch) (target : RateLimitConfig) :
    patch.applyTo (patch.applyTo target) = patch.applyTo target := by
  simp only [applyTo, getD_getD]

theorem HelperPatch.applyTo_applyTo (patch : HelperPatch) (target : HelperConfig) :
    patch.applyTo (patch.applyTo target) = patch.applyTo target := by
  simp only [applyTo, getD_getD]

theorem SearchPatch.applyTo_applyTo (patch : SearchPatch) (target : SearchConfig) :
    patch.applyTo (patch.applyTo target) = patch.applyTo target := by
  simp only [applyTo, getD_getD]

theorem ProxyPatch.applyTo_applyTo (patch : ProxyPatch) (target : ProxyConfig) :
    patch.applyTo (patch.applyTo target) = patch.applyTo target := by
  simp only [applyTo, getD_getD]

theorem AuditPatch.applyTo_applyTo (patch : AuditPatch) (target : AuditConfig) :
    patch.applyTo (patch.applyTo target) = patch.applyTo target := by
  rcases patch with ⟨hours, path, bytes, archives, days⟩
  cases hours <;> cases path <;> cases bytes <;> cases archives <;> cases days <;> rfl

theorem ConfigPatch.applyTo_applyTo (patch : ConfigPatch) (config : AppConfig) :
    patch.applyTo (patch.applyTo config) = patch.applyTo config := by
  simp only [applyTo, getD_getD, applied_applied ProxyPatch.applyTo_applyTo,
    applied_applied AuditPatch.applyTo_applyTo, applied_applied FeaturesPatch.applyTo_applyTo,
    applied_applied LimitsPatch.applyTo_applyTo, applied_applied SessionPatch.applyTo_applyTo,
    applied_applied SecurityPatch.applyTo_applyTo, applied_applied RateLimitPatch.applyTo_applyTo,
    applied_applied HelperPatch.applyTo_applyTo, applied_applied SearchPatch.applyTo_applyTo]

/-! ## Equality of configurations -/

def sameOptionalPath : Option Text -> Option Text -> Bool
  | some left, some right => samePath left right
  | none, none => true
  | _, _ => false

def AuditConfig.same (left right : AuditConfig) : Bool :=
  left.retentionHours == right.retentionHours && sameOptionalPath left.path right.path &&
    left.maxFileBytes == right.maxFileBytes && left.maxArchives == right.maxArchives &&
    left.retentionDays == right.retentionDays

def ServerConfig.same (left right : ServerConfig) : Bool :=
  left.bindAddr == right.bindAddr && left.behindTlsProxy == right.behindTlsProxy &&
    left.requireTls == right.requireTls && sameOptionalPath left.tlsCertPath right.tlsCertPath &&
    sameOptionalPath left.tlsKeyPath right.tlsKeyPath &&
    sameOptionalPath left.channelKeyPath right.channelKeyPath &&
    sameOptionalPath left.staticDir right.staticDir

def AllowedRoot.same (left right : AllowedRoot) : Bool :=
  left.rootId == right.rootId && samePath left.basePath right.basePath &&
    left.readOnly == right.readOnly && left.uploadsAllowed == right.uploadsAllowed &&
    left.hiddenFilesAllowed == right.hiddenFilesAllowed && left.isWebRoot == right.isWebRoot &&
    left.quotaBytes == right.quotaBytes

def sameRoots : List AllowedRoot -> List AllowedRoot -> Bool
  | [], [] => true
  | left :: lefts, right :: rights => left.same right && sameRoots lefts rights
  | _, _ => false

def sameTemplate : Option AllowedRoot -> Option AllowedRoot -> Bool
  | some left, some right => left.same right
  | none, none => true
  | _, _ => false

/-- Maps are compared entry by entry, in their order. -/
def AccessPolicy.same (left right : AccessPolicy) : Bool :=
  left.denySystemComponents == right.denySystemComponents &&
    left.rejectFileHardlinks == right.rejectFileHardlinks && left.rootRules == right.rootRules &&
    left.users.entries == right.users.entries

/-- `AppConfig::eq`. -/
def AppConfig.same (left right : AppConfig) : Bool :=
  left.systemStorage == right.systemStorage && left.controlAudit == right.controlAudit &&
    left.lifecycle == right.lifecycle && left.virtualAccounts == right.virtualAccounts &&
    left.webAccounts == right.webAccounts && left.accessPolicy.same right.accessPolicy &&
    left.quotaWarningPercent == right.quotaWarningPercent && left.server.same right.server &&
    left.audit.same right.audit && left.journal == right.journal && left.proxy == right.proxy &&
    left.session == right.session && left.security == right.security &&
    sameRoots left.roots right.roots && sameTemplate left.homeTemplate right.homeTemplate &&
    left.sensitivePolicy == right.sensitivePolicy && left.webrootPolicy == right.webrootPolicy &&
    left.accountPolicy == right.accountPolicy && left.features == right.features &&
    left.limits == right.limits && left.trashRetentionDays == right.trashRetentionDays &&
    left.rateLimit == right.rateLimit && left.helper == right.helper && left.search == right.search

end TealDrive
