import TealDrive.Policy.Restrict
import TealDrive.Settings.Ceiling

namespace TealDrive

open Outcome

/-!
# Reading back what was written

The base may spell its paths differently from the configuration that was
accepted over it.  Validation does not see the difference, because it reads
paths through their components.  What remains is the audit section, where the
written patch carries the retention in hours.
-/

/-! ## Validation and the spelling of paths -/

theorem head_components (path : Text) :
    (components path).head? = some .rootDir ↔ isAbsolute path = true := by
  unfold components leadingComponents
  cases isAbsolute path with
  | true => simp
  | false =>
      simp only [Bool.false_eq_true, if_false, iff_false]
      split
      · simp
      · rw [List.nil_append, List.head?_map]
        cases (segmentNames path).head? with
        | none => simp
        | some segment =>
            unfold Component.ofSegment
            simp only [Option.map_some, Option.some.injEq]
            split <;> simp

theorem isAbsolute_congr {left right : Text} (same : samePath left right = true) :
    isAbsolute left = isAbsolute right := by
  have parts := samePath_iff.mp same
  apply Bool.eq_iff_iff.mpr
  rw [← head_components, ← head_components, parts]

theorem invalidPath_congr {left right : Text} (same : samePath left right = true) :
    invalidPath left = invalidPath right := by
  unfold invalidPath hasParentDir
  rw [isAbsolute_congr same, samePath_iff.mp same]

theorem isSome_congr {left right : Option Text} (same : sameOptionalPath left right = true) :
    left.isSome = right.isSome := by
  cases left <;> cases right <;> first | rfl | cases same

theorem any_congr {left right : Option Text} {check : Text -> Bool}
    (respects : forall first second, samePath first second = true -> check first = check second)
    (same : sameOptionalPath left right = true) : left.any check = right.any check := by
  cases left with
  | none =>
      cases right with
      | none => rfl
      | some _ => cases same
  | some first =>
      cases right with
      | none => cases same
      | some second => exact respects first second same

theorem any_toList {Value : Type} (value : Option Value) (check : Value -> Bool) :
    value.toList.any check = value.any check := by
  cases value with
  | none => rfl
  | some item => simp

theorem validateTransport_congr (parsers : ConfigParsers) {left right : ServerConfig}
    (same : left.same right = true) (session : SessionConfig) (security : SecurityConfig) :
    left.validateTransport parsers session security =
      right.validateTransport parsers session security := by
  unfold ServerConfig.same at same
  simp only [Bool.and_eq_true, beq_iff_eq] at same
  rcases same with ⟨⟨⟨⟨⟨⟨address, proxied⟩, tls⟩, certificate⟩, key⟩, channel⟩, _⟩
  have respects := fun first second (same : samePath first second = true) => invalidPath_congr same
  unfold ServerConfig.validateTransport ServerConfig.directTls
  simp only [List.any_append, any_toList]
  rw [address, proxied, tls, isSome_congr certificate, isSome_congr key,
    any_congr respects certificate, any_congr respects key, any_congr respects channel]

theorem validateRoots_congr {left right : List AllowedRoot} (same : sameRoots left right = true)
    (seen : List RootId) : validateRoots seen left = validateRoots seen right := by
  induction left generalizing right seen with
  | nil =>
      cases right with
      | nil => rfl
      | cons _ _ => cases same
  | cons first rest ih =>
      cases right with
      | nil => cases same
      | cons second others =>
          unfold sameRoots AllowedRoot.same at same
          simp only [Bool.and_eq_true, beq_iff_eq] at same
          rcases same with ⟨⟨⟨⟨⟨⟨⟨named, based⟩, _⟩, _⟩, _⟩, _⟩, _⟩, later⟩
          unfold validateRoots
          rw [named, invalidPath_congr based, ih later]

/-- The configuration with paths of root as the base spells them, and another
audit section. -/
def AppConfig.respelled (config : AppConfig) (server : ServerConfig) (roots : List AllowedRoot)
    (template : Option AllowedRoot) (audit : AuditConfig) : AppConfig :=
  { config with server := server, roots := roots, homeTemplate := template, audit := audit }

section Respelled

variable (parsers : ConfigParsers) {config : AppConfig} {server : ServerConfig}
  {roots : List AllowedRoot} {template : Option AllowedRoot} {audit : AuditConfig}

theorem quota_congr {left right : Option AllowedRoot} (same : sameTemplate left right = true) :
    left.bind (fun root => root.quotaBytes) = right.bind (fun root => root.quotaBytes) := by
  cases left with
  | none =>
      cases right with
      | none => rfl
      | some _ => cases same
  | some first =>
      cases right with
      | none => cases same
      | some second =>
          unfold sameTemplate AllowedRoot.same at same
          simp only [Bool.and_eq_true, beq_iff_eq] at same
          exact same.2

theorem validateHead_respelled (servers : config.server.same server = true)
    (templates : sameTemplate config.homeTemplate template = true) :
    (config.respelled server roots template audit).validateHead parsers =
      config.validateHead parsers := by
  have transport := validateTransport_congr parsers servers
  have fields := servers
  unfold ServerConfig.same at fields
  simp only [Bool.and_eq_true, beq_iff_eq] at fields
  rcases fields with ⟨⟨⟨⟨⟨⟨_, proxied⟩, tls⟩, _⟩, _⟩, channel⟩, _⟩
  have respects : forall first second, samePath first second = true ->
      (!isAbsolute first || config.server.requireTls != some true) =
        (!isAbsolute second || config.server.requireTls != some true) := by
    intro first second same
    rw [isAbsolute_congr same]
  unfold AppConfig.validateHead
  simp only [AppConfig.respelled]
  rw [← tls, ← proxied, ← transport, ← quota_congr templates, ← any_congr respects channel]

theorem sameRoots_isEmpty {left right : List AllowedRoot} (same : sameRoots left right = true) :
    left.isEmpty = right.isEmpty := by
  cases left <;> cases right <;> first | rfl | cases same

theorem validateTail_respelled (servers : config.server.same server = true)
    (spelled : sameRoots config.roots roots = true) (audits : audit.valid = config.audit.valid) :
    (config.respelled server roots template audit).validateTail parsers =
      config.validateTail parsers := by
  have address : config.server.bindAddr = server.bindAddr := by
    unfold ServerConfig.same at servers
    simp only [Bool.and_eq_true, beq_iff_eq] at servers
    exact servers.1.1.1.1.1.1
  have limits : (config.respelled server roots template audit).limitsValid = config.limitsValid :=
    rfl
  unfold AppConfig.validateTail
  rw [limits]
  simp only [AppConfig.respelled]
  rw [← sameRoots_isEmpty spelled, ← address, audits, ← validateRoots_congr spelled]

theorem materialized_congr {first second : AllowedRoot} (same : first.same second = true) :
    ({ first with basePath := "/home/verified-account".toList } : AllowedRoot) =
      { second with basePath := "/home/verified-account".toList } := by
  unfold AllowedRoot.same at same
  simp only [Bool.and_eq_true, beq_iff_eq] at same
  rcases same with ⟨⟨⟨⟨⟨⟨named, _⟩, readOnly⟩, uploads⟩, hidden⟩, web⟩, quota⟩
  rw [named, readOnly, uploads, hidden, web, quota]

theorem sameRoots_refl (roots : List AllowedRoot) : sameRoots roots roots = true := by
  induction roots with
  | nil => rfl
  | cons first rest ih =>
      unfold sameRoots AllowedRoot.same
      rw [ih, samePath_refl]
      simp

/-- Validation does not see how paths are spelled. -/
theorem validate_respelled (servers : config.server.same server = true)
    (spelled : sameRoots config.roots roots = true)
    (templates : sameTemplate config.homeTemplate template = true)
    (audits : audit.valid = config.audit.valid) :
    (config.respelled server roots template audit).validate parsers = config.validate parsers := by
  have head : (config.respelled server roots template audit).validateHead parsers =
      config.validateHead parsers := validateHead_respelled parsers servers templates
  have tail : (config.respelled server roots template audit).validateTail parsers =
      config.validateTail parsers := validateTail_respelled parsers servers spelled audits
  have kept : (config.respelled server roots template audit).homeTemplate = template := rfl
  unfold AppConfig.validate
  rw [head, kept]
  cases before : config.homeTemplate with
  | none =>
      cases template with
      | some _ =>
          rw [before] at templates
          cases templates
      | none =>
          simp only
          rw [tail]
  | some first =>
      cases template with
      | none =>
          rw [before] at templates
          cases templates
      | some second =>
          rw [before] at templates
          have whole : (config.respelled server roots (some second) audit).materialized second =
              (config.materialized first).respelled server (config.materialized first).roots none
                audit := by
            unfold AppConfig.materialized AppConfig.respelled
            rw [materialized_congr templates]
          have web : (config.respelled server roots (some second) audit).webAccounts =
              config.webAccounts := rfl
          have listed : (config.respelled server roots (some second) audit).roots.isEmpty =
              config.roots.isEmpty := (sameRoots_isEmpty spelled).symm
          have innerHead : ((config.materialized first).respelled server
                (config.materialized first).roots none audit).validateHead parsers =
              (config.materialized first).validateHead parsers :=
            validateHead_respelled parsers servers rfl
          have innerTail : ((config.materialized first).respelled server
                (config.materialized first).roots none audit).validateTail parsers =
              (config.materialized first).validateTail parsers :=
            validateTail_respelled parsers servers (sameRoots_refl _) audits
          simp only
          rw [whole, innerHead, innerTail, web, listed]

end Respelled

/-! ## Retention in hours -/

/-- The same retention, written in hours. -/
def AuditConfig.inHours (config : AuditConfig) : AuditConfig :=
  { config with retentionHours := config.effectiveRetentionHours, retentionDays := none }

def AppConfig.inHours (config : AppConfig) : AppConfig :=
  { config with audit := config.audit.inHours }

/-- What a valid audit section says about its retention. -/
theorem retention_of_valid {config : AuditConfig} (valid : config.valid = true) {hours : Nat}
    (found : config.effectiveRetentionHours = some hours) : 0 < hours ∧ hours ≤ 876000 := by
  unfold AuditConfig.valid at valid
  simp only [Bool.not_eq_true', Bool.or_eq_false_iff, decide_eq_false_iff_not] at valid
  rcases valid with ⟨⟨⟨⟨⟨inHours, _⟩, _⟩, _⟩, inDays⟩, _⟩
  unfold AuditConfig.effectiveRetentionHours at found
  cases days : config.retentionDays with
  | some count =>
      rw [days, Option.any_some, Bool.or_eq_false_iff, beq_eq_false_iff_ne,
        decide_eq_false_iff_not] at inDays
      rw [days] at found
      have same : count * 24 = hours := Option.some.inj found
      omega
  | none =>
      rw [days] at found
      have there : config.retentionHours = some hours := found
      rw [there, Option.any_some, Bool.or_eq_false_iff, beq_eq_false_iff_ne,
        decide_eq_false_iff_not] at inHours
      omega

theorem valid_inHours {config : AuditConfig} (valid : config.valid = true) :
    config.inHours.valid = true := by
  have bounds := fun hours (found : config.effectiveRetentionHours = some hours) =>
    retention_of_valid valid found
  unfold AuditConfig.valid at valid ⊢
  simp only [Bool.not_eq_true', Bool.or_eq_false_iff] at valid ⊢
  rcases valid with ⟨⟨⟨⟨⟨_, small⟩, large⟩, many⟩, _⟩, path⟩
  refine ⟨⟨⟨⟨⟨?_, small⟩, large⟩, many⟩, rfl⟩, path⟩
  change config.effectiveRetentionHours.any _ = false
  cases found : config.effectiveRetentionHours with
  | none => rfl
  | some hours =>
      have bound := bounds hours found
      rw [Option.any_some, Bool.or_eq_false_iff, beq_eq_false_iff_ne, decide_eq_false_iff_not]
      omega

theorem auditValid_of_validate {parsers : ConfigParsers} {config : AppConfig}
    (valid : config.validate parsers = .ok ()) : config.audit.valid = true := by
  unfold AppConfig.validate at valid
  rw [bind_eq_ok] at valid
  rcases valid with ⟨_, _, rest⟩
  cases template : config.homeTemplate with
  | none =>
      rw [template] at rest
      unfold AppConfig.validateTail at rest
      simp only [bind_eq_ok, refuse_eq_ok, Bool.not_eq_false'] at rest
      rcases rest with ⟨_, _, _, _, _, audit, _⟩
      exact audit
  | some root =>
      rw [template] at rest
      unfold AppConfig.validateTail at rest
      simp only [bind_eq_ok, refuse_eq_ok, Bool.not_eq_false'] at rest
      rcases rest with ⟨_, _, _, _, _, _, _, _, _, audit, _⟩
      exact audit

/-! ## The written patch over the base -/

/-- The audit section that the written patch makes of the base's. -/
theorem writable_audit {config base : AuditConfig} (valid : config.valid = true)
    (path : config.path = none -> base.path = none) :
    AuditPatch.applyTo
      (if some config.effectiveRetentionHours = some none then
        ⟨some (some 0), config.path, some config.maxFileBytes, some config.maxArchives, none⟩
      else
        ⟨some config.effectiveRetentionHours, config.path, some config.maxFileBytes,
          some config.maxArchives, none⟩) base = config.inHours := by
  have spelled : config.path.or base.path = config.path := by
    cases found : config.path with
    | none => exact path found
    | some file => rfl
  unfold AuditConfig.inHours
  cases found : config.effectiveRetentionHours with
  | none =>
      rw [if_pos rfl]
      unfold AuditPatch.applyTo
      simp only [spelled]
      rfl
  | some hours =>
      have positive := (retention_of_valid valid found).1
      have kept : nonzero (some hours) = some hours := by
        unfold nonzero
        rw [Option.filter_some, if_pos]
        rw [bne_iff_ne]
        omega
      rw [if_neg (by simp)]
      unfold AuditPatch.applyTo
      simp only [spelled, kept]
      rfl

/-- What `==` of the fixed fields says. -/
structure SameFixed (config base : AppConfig) : Prop where
  systemStorage : config.systemStorage = base.systemStorage
  controlAudit : config.controlAudit = base.controlAudit
  lifecycle : config.lifecycle = base.lifecycle
  virtualAccounts : config.virtualAccounts = base.virtualAccounts
  webAccounts : config.webAccounts = base.webAccounts
  accessPolicy : config.accessPolicy = base.accessPolicy
  server : config.server.same base.server = true
  journal : config.journal = base.journal
  proxy : config.proxy = base.proxy
  session : config.session = { base.session with
    idleTimeoutSeconds := config.session.idleTimeoutSeconds
    absoluteTimeoutSeconds := config.session.absoluteTimeoutSeconds }
  security : config.security = base.security
  roots : sameRoots config.roots base.roots = true
  homeTemplate : sameTemplate config.homeTemplate base.homeTemplate = true
  sensitivePolicy : config.sensitivePolicy = base.sensitivePolicy
  webrootPolicy : config.webrootPolicy = base.webrootPolicy
  accountPolicy : config.accountPolicy = base.accountPolicy
  trashRetentionDays : config.trashRetentionDays = base.trashRetentionDays

theorem AccessPolicy.same_iff {left right : AccessPolicy} :
    left.same right = true ↔ left = right := by
  rcases left with ⟨deny, hardlinks, rules, users⟩
  rcases right with ⟨otherDeny, otherHardlinks, otherRules, otherUsers⟩
  unfold AccessPolicy.same
  simp only [Bool.and_eq_true, beq_iff_eq, AccessPolicy.mk.injEq, AList.ext_iff, and_assoc]

theorem SameFixed.of_immutable {config base : AppConfig}
    (same : (config.immutable base).same base = true) : SameFixed config base := by
  unfold AppConfig.same AppConfig.immutable at same
  simp only [Bool.and_eq_true, beq_iff_eq] at same
  rcases same with ⟨⟨⟨⟨⟨⟨⟨⟨⟨⟨⟨⟨⟨⟨⟨⟨⟨⟨⟨⟨⟨⟨⟨storage, control⟩, lifecycle⟩, virtuals⟩, web⟩, access⟩, _⟩,
    server⟩, _⟩, journal⟩, proxy⟩, session⟩, security⟩, roots⟩, template⟩, sensitive⟩, webroot⟩,
    account⟩, _⟩, _⟩, trash⟩, _⟩, _⟩, _⟩
  refine ⟨storage, control, lifecycle, virtuals, web, AccessPolicy.same_iff.mp access, server,
    journal, proxy, ?_, security,
    roots, template, sensitive, webroot, account, trash⟩
  rw [← session]

theorem sameTemplate_refl (template : Option AllowedRoot) : sameTemplate template template = true := by
  cases template with
  | none => rfl
  | some root =>
      have alone := sameRoots_refl [root]
      unfold sameRoots at alone
      rw [Bool.and_eq_true] at alone
      exact alone.1

theorem ServerConfig.same_refl (server : ServerConfig) : server.same server = true := by
  unfold ServerConfig.same
  simp only [sameOptionalPath_refl, beq_self_eq_true, Bool.and_self]

theorem AuditConfig.same_refl (audit : AuditConfig) : audit.same audit = true := by
  unfold AuditConfig.same
  simp only [sameOptionalPath_refl, beq_self_eq_true, Bool.and_self]

theorem AppConfig.same_refl (config : AppConfig) : config.same config = true := by
  unfold AppConfig.same
  simp only [ServerConfig.same_refl, AuditConfig.same_refl, sameRoots_refl, sameTemplate_refl,
    AccessPolicy.same_iff.mpr, beq_self_eq_true, Bool.and_self]

/-- The patch as it is written, laid over the base: the configuration with its
retention in hours and the paths of root as the base spells them. -/
theorem writable_applyTo {config base : AppConfig} (fixed : SameFixed config base)
    (valid : config.audit.valid = true)
    (path : config.audit.path = none -> base.audit.path = none) :
    (RuntimeSettings.project config).writable.applyTo base =
      config.respelled base.server base.roots base.homeTemplate config.audit.inHours := by
  unfold ConfigPatch.writable RuntimeSettings.project ConfigPatch.empty ConfigPatch.applyTo
    AppConfig.respelled
  rw [AppConfig.mk.injEq]
  exact ⟨fixed.systemStorage.symm, fixed.controlAudit.symm, fixed.lifecycle.symm,
    fixed.virtualAccounts.symm, fixed.webAccounts.symm, fixed.accessPolicy.symm, rfl, rfl,
    writable_audit valid path, fixed.journal.symm, fixed.proxy.symm, fixed.session.symm,
    fixed.security.symm, rfl, rfl, fixed.sensitivePolicy.symm, fixed.webrootPolicy.symm,
    fixed.accountPolicy.symm, rfl, rfl, fixed.trashRetentionDays.symm, rfl, rfl, rfl⟩

theorem pathless_of_beside {path base : Option Text} (beside : SameOrBeside path base)
    (absent : path = none) : base = none := by
  rcases beside with same | ⟨file, _, found, _⟩
  · cases base with
    | none => rfl
    | some _ =>
        rw [absent] at same
        cases same
  · rw [absent] at found
    cases found

/-- The configuration that was accepted is accepted again as it is reread. -/
theorem validate_respelled_base {parsers : ConfigParsers} {config base : AppConfig}
    (accepted : RuntimeSettings.validate parsers config base = .ok ()) :
    RuntimeSettings.validate parsers
      (config.respelled base.server base.roots base.homeTemplate config.audit.inHours) base =
        .ok () := by
  rcases RuntimeSettings.validate_eq_ok accepted with ⟨valid, equal, unrelaxed⟩
  have fixed := SameFixed.of_immutable equal
  have audit := auditValid_of_validate valid
  have respelled := validate_respelled parsers fixed.server fixed.roots fixed.homeTemplate
    ((valid_inHours audit).trans audit.symm)
  have whole : (config.respelled base.server base.roots base.homeTemplate
      config.audit.inHours).immutable base = base := by
    rw [← writable_applyTo fixed audit (pathless_of_beside unrelaxed.auditPath)]
    rfl
  unfold RuntimeSettings.validate at accepted ⊢
  simp only [bind_eq_ok, refuse_eq_ok] at accepted ⊢
  rcases accepted with ⟨_, _, _, _, _, features, _, limits, _, bounds, _, retention, path⟩
  refine ⟨(), respelled.trans valid, (), ?_, (), features, (), limits, (), bounds, (), retention, path⟩
  rw [whole, AppConfig.same_refl]
  rfl

theorem read_written {settings : RuntimeSettings} {parsers : ConfigParsers}
    {serde : Serde ConfigPatch} {config base : AppConfig} {text : Text}
    (accepted : RuntimeSettings.validate parsers config base = .ok ())
    (wrote : settings.written serde config = some text) (small : text.len ≤ maxSettingsBytes) :
    ∃ reread, settings.read parsers serde base (.content text) = .ok reread ∧
      config.inHours.same reread = true := by
  rcases RuntimeSettings.validate_eq_ok accepted with ⟨valid, equal, unrelaxed⟩
  have fixed := SameFixed.of_immutable equal
  have audit := auditValid_of_validate valid
  refine ⟨config.respelled base.server base.roots base.homeTemplate config.audit.inHours, ?_, ?_⟩
  · unfold RuntimeSettings.read
    rw [← writable_applyTo fixed audit (pathless_of_beside unrelaxed.auditPath)]
    simp only [bind_eq_ok, refuse_eq_ok, okOr_eq_ok]
    refine ⟨(), ?_, _, serde.reads_back _ _ _ wrote, (), rfl, (), ?_, rfl⟩
    · rw [decide_eq_false_iff_not]
      omega
    · rw [writable_applyTo fixed audit (pathless_of_beside unrelaxed.auditPath)]
      exact validate_respelled_base accepted
  · unfold AppConfig.same AppConfig.inHours AppConfig.respelled
    simp only [beq_self_eq_true, fixed.server, fixed.roots, fixed.homeTemplate,
      AuditConfig.same_refl, AccessPolicy.same_iff.mpr, Bool.and_self]

/-- A configuration read through the overlay is the base in the fields of root
and no looser in the others, and an accepted configuration that was written in
a file of readable size reads back as itself, with its retention in hours. -/
theorem overlay_stays_below_root (settings : RuntimeSettings) (parsers : ConfigParsers)
    (serde : Serde ConfigPatch) (base : AppConfig) :
    (forall file config, settings.read parsers serde base file = .ok config ->
      Overlaid config base ∧ Unrelaxed config base) ∧
    (forall config text, RuntimeSettings.validate parsers config base = .ok () ->
      settings.written serde config = some text -> text.len ≤ maxSettingsBytes ->
      ∃ reread, settings.read parsers serde base (.content text) = .ok reread ∧
        config.inHours.same reread = true) :=
  ⟨fun _ _ accepted => read_unrelaxed accepted,
    fun _ _ accepted wrote small => read_written accepted wrote small⟩

/-! ## A file that is too long to read -/

/-- A serde that knows one patch and its text. -/
def Serde.only (patch : ConfigPatch) (text : Text) : Serde ConfigPatch where
  read := fun _ other => if other = text then some patch else none
  write := fun _ other => if other = patch then some text else none
  reads_back := by
    intro _ other written wrote
    split at wrote
    · next same =>
        cases wrote
        rw [if_pos rfl, same]
    · cases wrote

/-- The standard configuration with a log beside the root directory. -/
def loggedConfig : AppConfig :=
  { AppConfig.standard with
    audit := { AppConfig.standard.audit with path := some "/audit.jsonl".toList } }

/-- What `persist` writes for it under another file name of the log. -/
def settingsText (file : Text) : Text :=
  "quota_warning_percent = 80\n\n[audit]\nretention_hours = 504\npath = \"".toList ++ file ++
  ("\"\nmax_file_bytes = 10485760\nmax_archives = 5\n\n[features]\nsave_text_file = false\n" ++
    "chmod_file = false\nextract_archive = false\ndelete_permanently = false\nchown = false\n\n" ++
    "[limits]\nmax_frame_payload = 1048576\nmax_control_payload = 262144\n" ++
    "max_decompressed_control_payload = 4194304\nmax_chunk_size = 262144\n" ++
    "max_in_flight_upload = 1073741824\nmax_directory_page_size = 500\n" ++
    "default_directory_page_size = 200\nmax_text_edit_size = 131072\n" ++
    "max_preview_size = 52428800\n\n[session]\nidle_timeout_seconds = 1800\n" ++
    "absolute_timeout_seconds = 43200\n\n[rate_limit]\nmax_login_failures = 5\n" ++
    "lockout_duration_seconds = 300\n\n[helper]\ntimeout_seconds = 10\n\n[search]\n" ++
    "max_depth = 20\ndefault_max_results = 100\nmax_results_limit = 1000\n").toList

def renamedLog (file : Text) : AppConfig :=
  { loggedConfig with audit := { loggedConfig.audit with path := some file } }

def settingsSerde (file : Text) : Serde ConfigPatch :=
  Serde.only (RuntimeSettings.project (renamedLog file)).writable (settingsText file)

def settingsAt : RuntimeSettings := ⟨"/settings.toml".toList, loggedConfig⟩

theorem written_settings (file : Text) :
    settingsAt.written (settingsSerde file) (renamedLog file) = some (settingsText file) := by
  unfold RuntimeSettings.written settingsSerde Serde.only
  exact if_pos rfl

theorem len_append (first second : Text) : (first ++ second).len = first.len + second.len := by
  unfold Text.len
  rw [List.map_append, List.sum_append]

/-- A literal is read as its list of characters, which is short to evaluate. -/
theorem len_ofList_le {symbols : List Char} {bound : Nat} (short : Text.len symbols ≤ bound) :
    Text.len (String.ofList symbols).toList ≤ bound := by
  rw [String.toList_ofList]
  exact short

theorem settingsText_short : (settingsText "/new.jsonl".toList).len ≤ maxSettingsBytes := by
  unfold settingsText
  simp only [len_append, String.toList_append]
  refine Nat.le_trans (?_ : _ ≤ 100 + 100 +
    (100 + 100 + 100 + 100 + 100 + 100 + 100 + 100 + 100 + 100)) (by decide)
  repeat' first
    | exact len_ofList_le (by decide)
    | apply Nat.add_le_add

theorem renamed_log_reread :
    ∃ reread, settingsAt.read .loopbackOnly (settingsSerde "/new.jsonl".toList) loggedConfig
        (.content (settingsText "/new.jsonl".toList)) = .ok reread ∧
      (renamedLog "/new.jsonl".toList).inHours.same reread = true := by
  have stays := overlay_stays_below_root settingsAt .loopbackOnly
    (settingsSerde "/new.jsonl".toList) loggedConfig
  have accepted : RuntimeSettings.validate .loopbackOnly (renamedLog "/new.jsonl".toList)
      loggedConfig = .ok () := by decide
  have wrote : settingsAt.written (settingsSerde "/new.jsonl".toList)
      (renamedLog "/new.jsonl".toList) = some (settingsText "/new.jsonl".toList) :=
    written_settings _
  exact stays.2 _ _ accepted wrote settingsText_short

theorem components_rooted {name : Text} (clean : '/' ∉ name) (named : dullSegment name = false)
    (ordinary : name ≠ "..".toList) : components ('/' :: name) = [.rootDir, .normal name] := by
  have names : segmentNames ('/' :: name) = [name] := by
    unfold segmentNames
    rw [Segments.names_cons_separator dullSegment_nil, Segments.names_of_separator_not_mem clean,
      named]
    rfl
  have leading : leadingComponents ('/' :: name) = [.rootDir] := rfl
  unfold components
  rw [names, leading, List.map_singleton]
  unfold Component.ofSegment
  rw [if_neg ordinary]
  rfl

theorem len_le_settingsText (file : Text) : file.len ≤ (settingsText file).len := by
  unfold settingsText
  rw [len_append, len_append]
  omega

def longName : Text := List.replicate 70000 'a'

theorem components_longName : components ('/' :: longName) = [.rootDir, .normal longName] := by
  have long : longName.length = 70000 := List.length_replicate
  have differs : forall other : Text, other.length < 3 -> longName ≠ other := by
    intro other short same
    rw [same] at long
    omega
  apply components_rooted
  · intro member
    exact absurd (List.eq_of_mem_replicate member) (by decide)
  · unfold dullSegment
    rw [Bool.or_eq_false_iff, beq_eq_false_iff_ne, beq_eq_false_iff_ne]
    exact ⟨differs _ (by decide), differs _ (by decide)⟩
  · exact differs _ (by decide)

/-- What is read of a path with one name under the root. -/
theorem fileName_rooted {path name : Text} (parts : components path = [.rootDir, .normal name]) :
    fileName path = some name := by
  unfold fileName
  rw [parts]
  rfl

theorem hasParentDir_rooted {path name : Text} (parts : components path = [.rootDir, .normal name]) :
    hasParentDir path = false := by
  unfold hasParentDir
  rw [parts]
  rfl

theorem parentComponents_rooted {path name : Text}
    (parts : components path = [.rootDir, .normal name]) :
    parentComponents path = some [.rootDir] := by
  unfold parentComponents
  rw [parts]
  rfl

/-- A log whose name alone is longer than a settings file may be: it is
accepted beside the base's, and the file that is written for it is refused. -/
theorem long_log_name_not_reread :
    RuntimeSettings.validate .loopbackOnly (renamedLog ('/' :: longName)) loggedConfig = .ok () ∧
      settingsAt.written (settingsSerde ('/' :: longName)) (renamedLog ('/' :: longName)) =
        some (settingsText ('/' :: longName)) ∧
      settingsAt.read .loopbackOnly (settingsSerde ('/' :: longName)) loggedConfig
        (.content (settingsText ('/' :: longName))) = .error .validation := by
  have logged : loggedConfig.validate .loopbackOnly = .ok () := by decide
  have audit : (renamedLog ('/' :: longName)).audit.valid = loggedConfig.audit.valid := by
    have before : loggedConfig.audit.valid = true := by decide
    rw [before]
    have path : (!isAbsolute ('/' :: longName) || (fileName ('/' :: longName)).isNone ||
        hasParentDir ('/' :: longName)) = false := by
      rw [fileName_rooted components_longName, hasParentDir_rooted components_longName]
      rfl
    unfold AuditConfig.valid renamedLog
    rw [Option.any_some, path]
    decide
  refine ⟨?_, written_settings _, ?_⟩
  · unfold RuntimeSettings.validate
    simp only [bind_eq_ok, refuse_eq_ok]
    refine ⟨(), ?_, (), ?_, (), rfl, (), rfl, (), rfl, (), rfl, ?_⟩
    · exact (validate_respelled .loopbackOnly (ServerConfig.same_refl _) (sameRoots_refl _)
        (sameTemplate_refl _) audit).trans logged
    · have whole : (renamedLog ('/' :: longName)).immutable loggedConfig = loggedConfig := rfl
      rw [whole, AppConfig.same_refl]
      rfl
    · unfold checkAuditPath
      rw [whenever_eq_ok]
      intro _
      simp only [bind_eq_ok, okOr_eq_ok, refuse_eq_ok]
      have base : loggedConfig.audit.path.bind parentComponents = some [.rootDir] := by
        decide
      refine ⟨[.rootDir], base, '/' :: longName, rfl, ?_⟩
      rw [parentComponents_rooted components_longName, fileName_rooted components_longName]
      decide
  · have long : maxSettingsBytes < (settingsText ('/' :: longName)).len := by
      have whole := len_le_settingsText ('/' :: longName)
      have name : Text.len ('/' :: longName) = 70001 := by
        unfold Text.len longName
        rw [List.map_cons, List.map_replicate, List.sum_cons, List.sum_replicate_nat]
        rfl
      rw [name] at whole
      exact Nat.lt_of_lt_of_le (by decide) whole
    unfold RuntimeSettings.read
    simp only
    rw [decide_eq_true long]
    rfl

end TealDrive
