import TealDrive.Settings.Overlay

namespace TealDrive

open Outcome

/-!
# What an overlay can be

A configuration read through an overlay is the base except in the fields that
the overlay may set, and there it is no looser.  Writing an accepted
configuration and reading it back gives the same configuration, with its
retention in hours.
-/

/-! ## No looser than the base -/

/-- The audit log is the base's, or a file beside it. -/
def SameOrBeside (path base : Option Text) : Prop :=
  sameOptionalPath path base = true ∨
    ∃ file baseFile, path = some file ∧ base = some baseFile ∧
      parentComponents file = parentComponents baseFile ∧ (parentComponents file).isSome = true ∧
      (fileName file).isSome = true

structure Unrelaxed (config base : AppConfig) : Prop where
  features : forall name, config.features.get name = true -> base.features.get name = true
  limits : forall name, config.limits.get name ≤ base.limits.get name
  idleTimeout : config.session.idleTimeoutSeconds ≤ base.session.idleTimeoutSeconds
  absoluteTimeout : config.session.absoluteTimeoutSeconds ≤ base.session.absoluteTimeoutSeconds
  helperTimeout : config.helper.timeoutSeconds ≤ base.helper.timeoutSeconds
  searchDepth : config.search.maxDepth ≤ base.search.maxDepth
  searchDefault : config.search.defaultMaxResults ≤ base.search.defaultMaxResults
  searchLimit : config.search.maxResultsLimit ≤ base.search.maxResultsLimit
  loginFailures : config.rateLimit.maxLoginFailures ≤ base.rateLimit.maxLoginFailures
  lockout : base.rateLimit.lockoutDurationSeconds ≤ config.rateLimit.lockoutDurationSeconds
  fileBytes : config.audit.maxFileBytes ≤ base.audit.maxFileBytes
  archives : config.audit.maxArchives ≤ base.audit.maxArchives
  retention : forall max, base.audit.effectiveRetentionHours = some max ->
    ∃ hours, config.audit.effectiveRetentionHours = some hours ∧ hours ≤ max
  auditPath : SameOrBeside config.audit.path base.audit.path

theorem samePath_refl (path : Text) : samePath path path = true :=
  samePath_iff.mpr rfl

theorem sameOptionalPath_refl (path : Option Text) : sameOptionalPath path path = true := by
  cases path with
  | none => rfl
  | some path => exact samePath_refl path

theorem Unrelaxed.refl (base : AppConfig) : Unrelaxed base base where
  features _ on := on
  limits _ := Nat.le_refl _
  idleTimeout := Nat.le_refl _
  absoluteTimeout := Nat.le_refl _
  helperTimeout := Nat.le_refl _
  searchDepth := Nat.le_refl _
  searchDefault := Nat.le_refl _
  searchLimit := Nat.le_refl _
  loginFailures := Nat.le_refl _
  lockout := Nat.le_refl _
  fileBytes := Nat.le_refl _
  archives := Nat.le_refl _
  retention max found := ⟨max, found, Nat.le_refl _⟩
  auditPath := Or.inl (sameOptionalPath_refl _)

theorem FeatureName.mem_all (name : FeatureName) : name ∈ FeatureName.all := by
  cases name <;> decide

theorem LimitName.mem_all (name : LimitName) : name ∈ LimitName.all := by
  cases name <;> decide

theorem retention_of_not_exceeds {config base : AuditConfig}
    (kept : retentionExceeds config base = false) {max : Nat}
    (bounded : base.effectiveRetentionHours = some max) :
    ∃ hours, config.effectiveRetentionHours = some hours ∧ hours ≤ max := by
  unfold retentionExceeds at kept
  rw [bounded, Option.any_some] at kept
  cases found : config.effectiveRetentionHours with
  | none =>
      rw [found] at kept
      cases kept
  | some hours =>
      rw [found, Option.all_some, decide_eq_false_iff_not] at kept
      exact ⟨hours, rfl, Nat.le_of_not_lt kept⟩

theorem beside_of_checkAuditPath {config base : AuditConfig}
    (accepted : checkAuditPath config base = .ok ()) : SameOrBeside config.path base.path := by
  unfold checkAuditPath at accepted
  rw [whenever_eq_ok] at accepted
  cases same : sameOptionalPath config.path base.path with
  | true => exact Or.inl same
  | false =>
      right
      rw [same] at accepted
      have checks := accepted rfl
      simp only [bind_eq_ok, okOr_eq_ok, refuse_eq_ok, Bool.or_eq_false_iff, bne_eq_false_iff_eq,
        Option.isNone_eq_false_iff] at checks
      rcases checks with ⟨parent, directory, file, found, beside, named⟩
      rcases Option.bind_eq_some_iff.mp directory with ⟨baseFile, baseFound, isParent⟩
      refine ⟨file, baseFile, found, baseFound, beside.trans isParent.symm, ?_, named⟩
      rw [beside]
      rfl

/-- What `validate` accepts: a valid configuration, equal to the base outside
the fields of the overlay and no looser in them. -/
theorem RuntimeSettings.validate_eq_ok {parsers : ConfigParsers} {config base : AppConfig}
    (accepted : RuntimeSettings.validate parsers config base = .ok ()) :
    config.validate parsers = .ok () ∧ (config.immutable base).same base = true ∧
      Unrelaxed config base := by
  unfold RuntimeSettings.validate at accepted
  simp only [bind_eq_ok, refuse_eq_ok] at accepted
  rcases accepted with ⟨_, valid, _, equal, _, features, _, limits, _, bounds, _, retention, path⟩
  simp only [Bool.or_eq_false_iff, decide_eq_false_iff_not, Nat.not_lt, gt_iff_lt] at bounds
  rw [Bool.not_eq_false'] at equal
  rcases bounds with ⟨⟨⟨⟨⟨⟨⟨⟨⟨idle, absolute⟩, helper⟩, depth⟩, default⟩, limit⟩, failures⟩, lockout⟩,
    bytes⟩, archives⟩
  refine ⟨valid, equal, ⟨?_, ?_, idle, absolute, helper, depth, default, limit, failures, lockout,
    bytes, archives, fun max found => retention_of_not_exceeds retention found,
    beside_of_checkAuditPath path⟩⟩
  · intro name on
    have kept := List.any_eq_false.mp features name name.mem_all
    rw [on, Bool.true_and, Bool.not_eq_true', Bool.not_eq_false] at kept
    exact kept
  · intro name
    have kept := List.any_eq_false.mp limits name name.mem_all
    rw [decide_eq_true_eq] at kept
    exact Nat.le_of_not_lt kept

/-! ## What reading gives -/

/-- The fields that an overlay may set. -/
def Overlaid (config base : AppConfig) : Prop :=
  config = { base with
    quotaWarningPercent := config.quotaWarningPercent
    features := config.features
    limits := config.limits
    audit := config.audit
    session := { base.session with
      idleTimeoutSeconds := config.session.idleTimeoutSeconds
      absoluteTimeoutSeconds := config.session.absoluteTimeoutSeconds }
    rateLimit := config.rateLimit
    helper := config.helper
    search := config.search }

/-- A patch without the fields of root changes only the others. -/
theorem overlaid_of_checkPatch {patch : ConfigPatch} {base : AppConfig}
    (allowed : RuntimeSettings.checkPatch patch = .ok ()) : Overlaid (patch.applyTo base) base := by
  unfold RuntimeSettings.checkPatch at allowed
  rw [refuse_eq_ok] at allowed
  simp only [Bool.or_eq_false_iff, Option.isSome_eq_false_iff, Option.isNone_iff_eq_none] at allowed
  rcases allowed with ⟨⟨⟨⟨⟨⟨⟨⟨⟨proxy, security⟩, roots⟩, users⟩, admins⟩, staticDir⟩, deny⟩, warn⟩,
    trash⟩, session⟩
  have kept : applied SessionPatch.applyTo patch.session base.session =
      { base.session with
        idleTimeoutSeconds :=
          (applied SessionPatch.applyTo patch.session base.session).idleTimeoutSeconds
        absoluteTimeoutSeconds :=
          (applied SessionPatch.applyTo patch.session base.session).absoluteTimeoutSeconds } := by
    cases found : patch.session with
    | none => rfl
    | some part =>
        rw [found, Option.any_some] at session
        simp only [Bool.or_eq_false_iff, Option.isSome_eq_false_iff, Option.isNone_iff_eq_none]
          at session
        rcases part with ⟨cookieName, idle, absolute, secureCookies, sameSite⟩
        rcases session with ⟨⟨cookie, secure⟩, site⟩
        cases cookie
        cases secure
        cases site
        rfl
  unfold Overlaid ConfigPatch.applyTo
  simp only
  rw [← kept, proxy, security, roots, users, admins, staticDir, deny, warn, trash]
  rfl

/-- A configuration read through an overlay. -/
theorem read_unrelaxed {settings : RuntimeSettings} {parsers : ConfigParsers}
    {serde : Serde ConfigPatch} {base config : AppConfig} {file : StoredFile}
    (accepted : settings.read parsers serde base file = .ok config) :
    Overlaid config base ∧ Unrelaxed config base := by
  cases file with
  | missing =>
      cases accepted
      exact ⟨rfl, Unrelaxed.refl base⟩
  | unreadable => cases accepted
  | binary => cases accepted
  | content text =>
      unfold RuntimeSettings.read at accepted
      simp only [bind_eq_ok, refuse_eq_ok, okOr_eq_ok] at accepted
      rcases accepted with ⟨_, _, patch, _, _, allowed, _, valid, same⟩
      cases same
      exact ⟨overlaid_of_checkPatch allowed, (RuntimeSettings.validate_eq_ok valid).2.2⟩

end TealDrive
