import TealDrive.Policy.Access

namespace TealDrive

open Outcome

/-!
# The application configuration

The fields are those of `AppConfig`, and `validate` makes the checks of the
source in its order.  Three parsers come from outside: socket addresses, IP
networks and origin URIs.  They are gathered in `ConfigParsers` and no result
here assumes anything about them.
-/

/-- `i64::MAX`. -/
def i64Max : Nat := 2 ^ 63 - 1

/-- `u64::MAX`, which is also `usize::MAX` on the supported targets. -/
def u64Max : Nat := 2 ^ 64 - 1

/-! ## Sections of the configuration -/

structure SystemStorageConfig where
  maxMetadataDbBytes : Nat
  maxStagingBytes : Nat
  maxStagingTransfers : Nat
  uploadResumeSeconds : Nat
  stagingMinFreeBytes : Nat

structure ControlAuditConfig where
  retentionHours : Nat
  maxRecords : Nat
deriving DecidableEq

structure LifecycleConfig where
  trashCleanupEnabled : Bool
  stagingCleanupEnabled : Bool
  trashRetentionHours : Nat
  stagingRetentionHours : Nat
  maxCleanupPerRun : Nat
deriving DecidableEq

inductive Enforcement where
  | application
  | userQuota
deriving DecidableEq

structure VirtualConfig where
  enabled : Bool
  allowAdminDelete : Bool
  deletedRetentionHours : Nat
  maxAccounts : Nat
  enforcement : Enforcement
  maxInodes : Nat
deriving DecidableEq

structure WebAccountsConfig where
  enabled : Bool
  serverUid : Option Nat
  selfRegistration : Bool
  deniedUsers : List Text
  virtualMinUid : Nat
  virtualMaxUid : Nat
  allowedNologinUsers : List Text
deriving DecidableEq

structure JournalConfig where
  enabled : Bool
  retentionHours : Nat
  undoMaxHours : Nat
  maxEntriesPerAccount : Nat
  maxTotalEntries : Nat
  maxRecordBytes : Nat
deriving DecidableEq

inductive ClientIpHeader where
  | xForwardedFor
  | xRealIp
  | cfConnectingIp
deriving DecidableEq

structure ProxyConfig where
  trustedProxies : List Text
  clientIpHeader : ClientIpHeader

structure AuditConfig where
  retentionHours : Option Nat
  path : Option Text
  maxFileBytes : Nat
  maxArchives : Nat
  retentionDays : Option Nat

structure ServerConfig where
  bindAddr : Text
  behindTlsProxy : Bool
  requireTls : Option Bool
  tlsCertPath : Option Text
  tlsKeyPath : Option Text
  channelKeyPath : Option Text
  staticDir : Option Text

inductive SameSitePolicy where
  | strict
  | lax
deriving DecidableEq

structure SessionConfig where
  cookieName : Text
  idleTimeoutSeconds : Nat
  absoluteTimeoutSeconds : Nat
  secureCookies : Bool
  sameSite : SameSitePolicy

structure SecurityConfig where
  allowPlainWsLocalhostOnly : Bool
  allowedOrigins : List Text

structure AllowedRoot where
  rootId : RootId
  basePath : Text
  readOnly : Bool
  uploadsAllowed : Bool
  hiddenFilesAllowed : Bool
  isWebRoot : Bool
  quotaBytes : Option Nat
deriving DecidableEq

structure SensitivePolicyConfig where
  denyEditPatterns : List Text
  warnReadPatterns : List Text

structure WebRootPolicyConfig where
  blockExecutableUploads : Bool
  blockedExtensions : List Text

structure AccountPolicyConfig where
  allowedUsers : List Text
  rejectRoot : Bool
  rejectSystemAccounts : Bool
  rejectDisabledShells : Bool
  minimumRegularUid : Nat
  adminUsers : List Text

structure FeatureFlags where
  saveTextFile : Bool
  chmodFile : Bool
  extractArchive : Bool
  deletePermanently : Bool
  chown : Bool

structure Limits where
  maxFramePayload : Nat
  maxControlPayload : Nat
  maxDecompressedControlPayload : Nat
  maxChunkSize : Nat
  maxInFlightUpload : Nat
  maxDirectoryPageSize : Nat
  defaultDirectoryPageSize : Nat
  maxTextEditSize : Nat
  maxPreviewSize : Nat

structure RateLimitConfig where
  maxLoginFailures : Nat
  lockoutDurationSeconds : Nat
deriving DecidableEq

structure HelperConfig where
  timeoutSeconds : Nat

structure SearchConfig where
  maxDepth : Nat
  defaultMaxResults : Nat
  maxResultsLimit : Nat

structure AppConfig where
  systemStorage : SystemStorageConfig
  controlAudit : ControlAuditConfig
  lifecycle : LifecycleConfig
  virtualAccounts : VirtualConfig
  webAccounts : WebAccountsConfig
  accessPolicy : AccessPolicy
  quotaWarningPercent : Nat
  server : ServerConfig
  audit : AuditConfig
  journal : JournalConfig
  proxy : ProxyConfig
  session : SessionConfig
  security : SecurityConfig
  roots : List AllowedRoot
  homeTemplate : Option AllowedRoot
  sensitivePolicy : SensitivePolicyConfig
  webrootPolicy : WebRootPolicyConfig
  accountPolicy : AccountPolicyConfig
  features : FeatureFlags
  limits : Limits
  trashRetentionDays : Option Nat
  rateLimit : RateLimitConfig
  helper : HelperConfig
  search : SearchConfig

/-! ## Constants of `limits` and the wire protocol -/

def maxFramePayload : Nat := 1024 * 1024
def maxChunkSize : Nat := 256 * 1024
def maxUploadFileBytes : Nat := 64 * 1024 * (1024 * 1024)
def maxDirectoryPageSize : Nat := 500
def rawChunkHeaderLen : Nat := 32

/-! ## Defaults -/

/-- `AllowedRoot::default`. -/
def AllowedRoot.standard : AllowedRoot where
  rootId := ⟨"home".toList⟩
  basePath := "/home".toList
  readOnly := false
  uploadsAllowed := true
  hiddenFilesAllowed := false
  isWebRoot := false
  quotaBytes := none

/-- `SensitivePolicyConfig::default`. -/
def SensitivePolicyConfig.standard : SensitivePolicyConfig where
  denyEditPatterns := [".env".toList, ".env.*".toList, "id_rsa".toList, "id_dsa".toList,
    "id_ecdsa".toList, "id_ed25519".toList, "*.pem".toList, "*.key".toList,
    "authorized_keys".toList, "known_hosts".toList, "*.sql".toList, "*.dump".toList]
  warnReadPatterns := [".env".toList, ".env.*".toList, "*.pem".toList, "*.key".toList]

/-- `WebRootPolicyConfig::default`. -/
def WebRootPolicyConfig.standard : WebRootPolicyConfig where
  blockExecutableUploads := true
  blockedExtensions := ["php".toList, "phtml".toList, "cgi".toList, "pl".toList, "py".toList,
    "rb".toList, "sh".toList]

/-- `Limits::default`. -/
def Limits.standard : Limits where
  maxFramePayload := TealDrive.maxFramePayload
  maxControlPayload := 256 * 1024
  maxDecompressedControlPayload := 4 * (1024 * 1024)
  maxChunkSize := TealDrive.maxChunkSize
  maxInFlightUpload := 1024 * (1024 * 1024)
  maxDirectoryPageSize := TealDrive.maxDirectoryPageSize
  defaultDirectoryPageSize := 200
  maxTextEditSize := 128 * 1024
  maxPreviewSize := 50 * (1024 * 1024)

/-- `AppConfig::default`. -/
def AppConfig.standard : AppConfig where
  systemStorage := ⟨512 * 1024 * 1024, 4 * 1024 * 1024 * 1024, 128, 1800, 1024 * 1024 * 1024⟩
  controlAudit := ⟨504, 16384⟩
  lifecycle := ⟨true, true, 504, 24, 100⟩
  virtualAccounts := ⟨false, false, 36, 4096, .application, 100000⟩
  webAccounts := ⟨false, none, true, [], 200000, 299999, []⟩
  accessPolicy := AccessPolicy.standard
  quotaWarningPercent := 80
  server := ⟨"127.0.0.1:3000".toList, true, none, none, none, none, none⟩
  audit := ⟨some 504, none, 10 * 1024 * 1024, 5, none⟩
  journal := ⟨false, 504, 24, 2048, 32768, 8192⟩
  proxy := ⟨[], .xForwardedFor⟩
  session := ⟨"tealdrive_session".toList, 30 * 60, 12 * 60 * 60, true, .strict⟩
  security := ⟨true, []⟩
  roots := [AllowedRoot.standard]
  homeTemplate := none
  sensitivePolicy := SensitivePolicyConfig.standard
  webrootPolicy := WebRootPolicyConfig.standard
  accountPolicy := ⟨[], true, true, true, 1000, []⟩
  features := ⟨false, false, false, false, false⟩
  limits := Limits.standard
  trashRetentionDays := none
  rateLimit := ⟨5, 300⟩
  helper := ⟨10⟩
  search := ⟨20, 100, 1000⟩

/-! ## Validation -/

/-- The parts of an origin URI that `validate` inspects. -/
structure OriginUri where
  scheme : Option Text
  hasAuthority : Bool
  hasQuery : Bool
  path : Text

/-- Parsers the configuration relies on.  A socket address is reduced to
whether its IP is a loopback address, a network to whether it parses. -/
structure ConfigParsers where
  socketAddrIsLoopback : Text -> Option Bool
  network : Text -> Bool
  uri : Text -> Option OriginUri
  isControl : Char -> Bool
  isWhitespace : Char -> Bool

def within (low high value : Nat) : Bool :=
  decide (low ≤ value) && decide (value ≤ high)

def ControlAuditConfig.valid (config : ControlAuditConfig) : Bool :=
  within 1 876000 config.retentionHours && within 100 100000 config.maxRecords

def LifecycleConfig.valid (config : LifecycleConfig) : Bool :=
  within 1 876000 config.trashRetentionHours && within 1 876000 config.stagingRetentionHours &&
    within 1 1000 config.maxCleanupPerRun

def JournalConfig.valid (config : JournalConfig) : Bool :=
  within 1 876000 config.retentionHours &&
    within 1 config.retentionHours config.undoMaxHours &&
    within 100 100000 config.maxEntriesPerAccount &&
    within config.maxEntriesPerAccount 1000000 config.maxTotalEntries &&
    within 4096 32768 config.maxRecordBytes

def VirtualConfig.valid (config : VirtualConfig) (webEnabled : Bool) : Bool :=
  !(config.enabled && !webEnabled) && within 1 876000 config.deletedRetentionHours &&
    within 1 100000 config.maxAccounts && within 32 1000000 config.maxInodes

section Validate

variable (parsers : ConfigParsers)

def invalidUserName (forbidden : List Char) (name : Text) : Bool :=
  name == [] || decide (name.len > 256) ||
    name.any (fun symbol => parsers.isControl symbol || parsers.isWhitespace symbol ||
      forbidden.contains symbol)

def WebAccountsConfig.valid (config : WebAccountsConfig) : Bool :=
  !((config.enabled && config.serverUid.all (fun uid => uid == 0)) ||
    decide (config.virtualMinUid < 1000) ||
    decide (config.virtualMinUid > config.virtualMaxUid) ||
    decide (config.deniedUsers.length > 1024) ||
    decide (config.allowedNologinUsers.length > 1024) ||
    config.allowedNologinUsers.any (invalidUserName parsers ['/', '\\', ':']) ||
    config.deniedUsers.any (invalidUserName parsers ['/', '\\', ':']))

def AccountPolicyConfig.valid (config : AccountPolicyConfig) : Bool :=
  decide (config.allowedUsers.length ≤ 1024) &&
    config.allowedUsers.all
      (fun name => !invalidUserName parsers [':', '/', '*', '?', ',', '\\'] name)

def ProxyConfig.valid (config : ProxyConfig) : Bool :=
  decide (config.trustedProxies.length ≤ 128) && config.trustedProxies.all parsers.network

def ServerConfig.directTls (config : ServerConfig) : Bool :=
  config.tlsCertPath.isSome && config.tlsKeyPath.isSome

/-- A configured path that is relative or climbs with `..`. -/
def invalidPath (path : Text) : Bool :=
  !isAbsolute path || hasParentDir path

def ServerConfig.validateTransport (config : ServerConfig) (session : SessionConfig)
    (security : SecurityConfig) : Except TealDriveError Unit := do
  let strict := config.requireTls == some true
  refuse (config.tlsCertPath.isSome != config.tlsKeyPath.isSome ||
    (config.directTls && config.behindTlsProxy) ||
    (config.tlsCertPath.toList ++ config.tlsKeyPath.toList ++ config.channelKeyPath.toList).any
      invalidPath ||
    (strict && !config.directTls && !config.behindTlsProxy) ||
    ((config.directTls || strict) &&
      (!session.secureCookies ||
        security.allowedOrigins.any (fun origin => !"https://".toList.isPrefixOf origin))))
    .validation
  if strict && config.behindTlsProxy then do
    let loopback ← okOr (parsers.socketAddrIsLoopback config.bindAddr) .validation
    refuse (!loopback) .validation

def SystemStorageConfig.valid (config : SystemStorageConfig) (limits : Limits) : Bool :=
  !(decide (config.maxMetadataDbBytes < 16 * 1024 * 1024) ||
    decide (config.maxMetadataDbBytes > 64 * 1024 * 1024 * 1024) ||
    decide (config.maxStagingBytes < limits.maxInFlightUpload) ||
    decide (config.maxStagingBytes > 64 * 1024 * 1024 * 1024) ||
    decide (config.stagingMinFreeBytes < 64 * 1024 * 1024) ||
    decide (config.uploadResumeSeconds > 86400) ||
    !within 1 4096 config.maxStagingTransfers)

def AuditConfig.valid (config : AuditConfig) : Bool :=
  !(config.retentionHours.any (fun hours => hours == 0 || decide (hours > 876000)) ||
    decide (config.maxFileBytes < 1024) ||
    decide (config.maxFileBytes > 1024 * 1024 * 1024) ||
    decide (config.maxArchives > 1000) ||
    config.retentionDays.any (fun days => days == 0 || decide (days > 36500)) ||
    config.path.any (fun path => !isAbsolute path || (fileName path).isNone || hasParentDir path))

def AppConfig.limitsValid (config : AppConfig) : Bool :=
  let limits := config.limits
  !(limits.maxChunkSize == 0 || decide (limits.maxChunkSize > maxChunkSize) ||
    limits.maxFramePayload == 0 || decide (limits.maxFramePayload > maxFramePayload) ||
    limits.maxControlPayload == 0 ||
    decide (limits.maxControlPayload > limits.maxFramePayload) ||
    decide (limits.maxChunkSize + rawChunkHeaderLen > limits.maxFramePayload) ||
    limits.maxTextEditSize == 0 ||
    decide (limits.maxTextEditSize > limits.maxControlPayload / 2) ||
    limits.maxInFlightUpload == 0 || decide (limits.maxInFlightUpload > maxUploadFileBytes) ||
    limits.maxDirectoryPageSize == 0 ||
    decide (limits.maxDirectoryPageSize > maxDirectoryPageSize) ||
    limits.defaultDirectoryPageSize == 0 ||
    decide (limits.defaultDirectoryPageSize > limits.maxDirectoryPageSize) ||
    config.session.idleTimeoutSeconds == 0 ||
    decide (config.session.absoluteTimeoutSeconds < config.session.idleTimeoutSeconds) ||
    config.rateLimit.maxLoginFailures == 0 || config.rateLimit.lockoutDurationSeconds == 0 ||
    config.helper.timeoutSeconds == 0 || decide (config.helper.timeoutSeconds > 3600) ||
    config.search.defaultMaxResults == 0 ||
    decide (config.search.defaultMaxResults > config.search.maxResultsLimit) ||
    decide (config.search.maxResultsLimit > 10000) || decide (config.search.maxDepth > 128))

/-- `u8::is_ascii_alphanumeric`. -/
def asciiAlphanumeric (symbol : Char) : Bool :=
  symbol.isAlpha || symbol.isDigit

/-- The loop over the roots, with the identifiers seen so far. -/
def validateRoots (seen : List RootId) : List AllowedRoot -> Except TealDriveError Unit
  | [] => .ok ()
  | root :: rest => do
      refuse (root.rootId.value == [] ||
        !root.rootId.value.all
          (fun symbol => asciiAlphanumeric symbol || symbol == '-' || symbol == '_') ||
        seen.contains root.rootId || invalidPath root.basePath) .validation
      validateRoots (root.rootId :: seen) rest

def validateOrigin (origin : Text) : Except TealDriveError Unit := do
  let uri ← okOr (parsers.uri origin) .validation
  refuse (!(uri.scheme == some "https".toList || uri.scheme == some "http".toList) ||
    !uri.hasAuthority || uri.hasQuery || uri.path != "/".toList) .validation

/-- The checks before the home template is looked at. -/
def AppConfig.validateHead (config : AppConfig) : Except TealDriveError Unit := do
  refuse (config.server.channelKeyPath.any
    (fun path => !isAbsolute path || config.server.requireTls != some true)) .validation
  refuse (!config.systemStorage.valid config.limits) .validation
  config.server.validateTransport parsers config.session config.security
  refuse (config.server.requireTls == some true && config.server.behindTlsProxy &&
    config.proxy.trustedProxies.isEmpty) .validation
  refuse (!config.webAccounts.valid parsers) .validation
  refuse (!config.controlAudit.valid) .validation
  refuse (!config.journal.valid) .validation
  refuse (!config.lifecycle.valid) .validation
  refuse (!config.virtualAccounts.valid config.webAccounts.enabled) .validation
  refuse (config.virtualAccounts.enforcement == .userQuota &&
    (config.homeTemplate.bind (fun root => root.quotaBytes)).any
      (fun bytes => decide (bytes < 4096) || bytes % 1024 != 0)) .validation
  config.accessPolicy.validate
  refuse (!within 1 100 config.quotaWarningPercent) .validation

/-- The checks after the home template has been replaced by a root. -/
def AppConfig.validateTail (config : AppConfig) : Except TealDriveError Unit := do
  refuse config.roots.isEmpty .validation
  refuse (parsers.socketAddrIsLoopback config.server.bindAddr).isNone .validation
  refuse (!config.audit.valid) .validation
  refuse (!config.proxy.valid parsers || !config.accountPolicy.valid parsers) .validation
  refuse (!config.limitsValid) .validation
  validateRoots [] config.roots
  config.security.allowedOrigins.forM (validateOrigin parsers)

/-- The configuration with its template materialized as the only root. -/
def AppConfig.materialized (config : AppConfig) (template : AllowedRoot) : AppConfig :=
  { config with
    homeTemplate := none
    roots := [{ template with basePath := "/home/verified-account".toList }] }

/-- `AppConfig::validate`.  With a template the source recurses once, on a
configuration that has none. -/
def AppConfig.validate (config : AppConfig) : Except TealDriveError Unit := do
  config.validateHead parsers
  match config.homeTemplate with
  | some template =>
      refuse (!config.webAccounts.enabled || !config.roots.isEmpty) .validation
      (config.materialized template).validateHead parsers
      (config.materialized template).validateTail parsers
  | none => config.validateTail parsers

end Validate

/-! ## What a valid configuration guarantees about its roots -/

theorem validateRoots_nodup {seen : List RootId} {roots : List AllowedRoot}
    (accepted : validateRoots seen roots = .ok ()) :
    (roots.map (fun root => root.rootId)).Nodup ∧
      forall root, root ∈ roots -> root.rootId ∉ seen := by
  induction roots generalizing seen with
  | nil => exact ⟨List.nodup_nil, fun _ member => absurd member List.not_mem_nil⟩
  | cons root rest ih =>
      simp only [validateRoots, bind_eq_ok, refuse_eq_ok, Bool.or_eq_false_iff] at accepted
      rcases accepted with ⟨_, ⟨⟨_, fresh⟩, _⟩, later⟩
      have unseen : root.rootId ∉ seen := by simpa using fresh
      have tail := ih later
      constructor
      · rw [List.map_cons, List.nodup_cons]
        refine ⟨?_, tail.1⟩
        intro repeated
        rcases List.mem_map.mp repeated with ⟨other, member, same⟩
        exact tail.2 other member (same ▸ List.mem_cons_self)
      · intro other member
        rcases List.mem_cons.mp member with here | there
        · rw [here]
          exact unseen
        · intro repeated
          exact tail.2 other there (List.mem_cons_of_mem _ repeated)

/-- A configuration with a home template has no roots of its own. -/
theorem AppConfig.roots_of_template {parsers : ConfigParsers} {config : AppConfig}
    {root : AllowedRoot} (accepted : config.validate parsers = .ok ())
    (template : config.homeTemplate = some root) : config.roots = [] := by
  unfold AppConfig.validate at accepted
  rcases bind_eq_ok.mp accepted with ⟨_, _, body⟩
  rw [template] at body
  simp only [bind_eq_ok, refuse_eq_ok, Bool.or_eq_false_iff] at body
  rcases body with ⟨_, ⟨_, unrooted⟩, _⟩
  simpa using unrooted

/-- Root identifiers of a valid configuration are pairwise distinct. -/
theorem AppConfig.rootIds_nodup {parsers : ConfigParsers} {config : AppConfig}
    (accepted : config.validate parsers = .ok ()) :
    (config.roots.map (fun root => root.rootId)).Nodup := by
  cases template : config.homeTemplate with
  | some root =>
      rw [AppConfig.roots_of_template accepted template]
      exact List.nodup_nil
  | none =>
      unfold AppConfig.validate at accepted
      rcases bind_eq_ok.mp accepted with ⟨_, _, body⟩
      rw [template] at body
      simp only [AppConfig.validateTail, bind_eq_ok] at body
      rcases body with ⟨_, _, _, _, _, _, _, _, _, _, _, roots, _⟩
      exact (validateRoots_nodup roots).1

theorem AppConfig.accessPolicy_valid {parsers : ConfigParsers} {config : AppConfig}
    (accepted : config.validate parsers = .ok ()) : config.accessPolicy.validate = .ok () := by
  unfold AppConfig.validate at accepted
  rcases bind_eq_ok.mp accepted with ⟨_, head, _⟩
  simp only [AppConfig.validateHead, bind_eq_ok] at head
  rcases head with ⟨_, _, _, _, _, _, _, _, _, _, _, _, _, _, _, _, _, _, _, _, _, policy, _⟩
  exact policy

end TealDrive
