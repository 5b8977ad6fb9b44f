import TealDrive.Policy.Authorize

namespace TealDrive

open Outcome

/-!
# Restriction by the root-owned ceiling

A network process sends a policy snapshot with each operation.  `restrict`
merges it with the helper's own configuration.  The merge goes field by
field, by conjunction, disjunction, minimum or union, and what matters is
that each field goes in the direction `authorize` reads it.

The direction is stated once, as a relation between two configurations:
`Tightens` says that every check of `authorize` which succeeds under the first
also succeeds under the second.  A restricted configuration tightens both of
its inputs.
-/

/-! ## Configurations that allow no more -/

/-- A missing quota is no limit. -/
def quotaAtMost (small large : Option Nat) : Prop :=
  forall limit, large = some limit -> ∃ bound, small = some bound ∧ bound ≤ limit

/-- The same root with switches and quota at least as strict. -/
structure StricterRoot (strict loose : AllowedRoot) : Prop where
  rootId : strict.rootId = loose.rootId
  basePath : samePath strict.basePath loose.basePath = true
  readOnly : loose.readOnly ≤ strict.readOnly
  uploadsAllowed : strict.uploadsAllowed ≤ loose.uploadsAllowed
  hiddenFilesAllowed : strict.hiddenFilesAllowed ≤ loose.hiddenFilesAllowed
  isWebRoot : loose.isWebRoot ≤ strict.isWebRoot
  quotaBytes : quotaAtMost strict.quotaBytes loose.quotaBytes

/-- The root that a request with the given identifier addresses. -/
def AppConfig.rootFor (config : AppConfig) (id : RootId) : Option AllowedRoot :=
  config.roots.find? (fun root => root.rootId == id)

/-- Every denial of the loose configuration is a denial of the strict one. -/
structure Tightens (strict loose : AppConfig) : Prop where
  access : AccessPolicy.Covers strict.accessPolicy loose.accessPolicy
  textEdit : strict.limits.maxTextEditSize ≤ loose.limits.maxTextEditSize
  upload : strict.limits.maxInFlightUpload ≤ loose.limits.maxInFlightUpload
  roots : forall id root, strict.rootFor id = some root ->
    ∃ other, loose.rootFor id = some other ∧ StricterRoot root other
  sensitive : forall path, detectSensitive path strict.sensitivePolicy = false ->
    detectSensitive path loose.sensitivePolicy = false
  webroot : forall name, deniesWebrootUpload name strict.webrootPolicy = false ->
    deniesWebrootUpload name loose.webrootPolicy = false

section Tightens

variable {strict loose : AppConfig} {request : HelperRequest}

theorem WriteAllowed.of_tightens (tight : Tightens strict loose) {command : HelperCommand}
    {options : HelperWriteOptions} (allowed : WriteAllowed command options strict) :
    WriteAllowed command options loose := by
  refine ⟨allowed.stream, Nat.le_trans allowed.size ?_, allowed.whole⟩
  cases command with
  | writeFile => exact tight.textEdit
  | uploadCommit => exact tight.upload
  | _ => exact Nat.le_refl _

theorem RootAllows.of_tightens (tight : Tightens strict loose) {root other : AllowedRoot}
    (stricter : StricterRoot root other) (allowed : RootAllows request strict root) :
    RootAllows request loose other where
  writable := by
    intro write
    have off := allowed.writable write
    have less := stricter.readOnly
    rw [off] at less
    exact le_bot_iff.mp less
  uploads := by
    intro upload
    have on := allowed.uploads upload
    have less := stricter.uploadsAllowed
    rw [on] at less
    exact top_le_iff.mp less
  hiddenPath := by
    intro general disallowed
    have less := stricter.hiddenFilesAllowed
    rw [disallowed] at less
    exact allowed.hiddenPath general (le_bot_iff.mp less)
  hiddenOthers := by
    intro path member disallowed
    have less := stricter.hiddenFilesAllowed
    rw [disallowed] at less
    exact allowed.hiddenOthers path member (le_bot_iff.mp less)
  sensitiveOthers := fun path member => tight.sensitive path (allowed.sensitiveOthers path member)
  sensitivePath := fun general contents =>
    tight.sensitive _ (allowed.sensitivePath general contents)
  webroot := by
    intro write rooted
    have less := stricter.isWebRoot
    rw [rooted] at less
    have checked := allowed.webroot write (top_le_iff.mp less)
    refine ⟨checked.noExtraction, ?_⟩
    intro name same
    have named := checked.name name same
    exact ⟨named.1, tight.webroot name named.2⟩

/-- A configuration that tightens another authorizes no more, in whatever
staging aliases the request meets. -/
theorem HelperPolicy.authorize_of_tightens (tight : Tightens strict loose) {uuids : UuidFormat}
    {aliases : Aliases}
    (accepted : HelperPolicy.authorize uuids aliases request strict = .ok ()) :
    HelperPolicy.authorize uuids aliases request loose = .ok () := by
  rcases (HelperPolicy.authorize_eq_ok_iff uuids).mp accepted with
    ⟨paths, options, root, found, allowed⟩
  rcases tight.roots request.rootId root found with ⟨other, addressed, stricter⟩
  refine (HelperPolicy.authorize_eq_ok_iff uuids).mpr
    ⟨⟨?_, ?_, ?_⟩, ?_, other, addressed, RootAllows.of_tightens tight stricter allowed⟩
  · intro checked
    exact tight.access.check (paths.path checked)
  · intro target same
    exact tight.access.check (paths.target target same)
  · intro path member
    exact tight.access.check (paths.sources path member)
  · intro written same
    exact WriteAllowed.of_tightens tight (options written same)

end Tightens

/-! ## `restrict` -/

structure PolicySnapshot where
  revision : List UInt8
  config : AppConfig

section Restrict

variable (parsers : ConfigParsers) (digest : AppConfig -> List UInt8)

/-- The snapshot of a configuration carries the digest of its serialization. -/
def PolicySnapshot.new (config : AppConfig) : PolicySnapshot :=
  ⟨digest config, config⟩

def PolicySnapshot.validate (snapshot : PolicySnapshot) : Except TealDriveError Unit := do
  snapshot.config.validate parsers
  refuse ((PolicySnapshot.new digest snapshot.config).revision != snapshot.revision) .validation

def mergeQuota : Option Nat -> Option Nat -> Option Nat
  | some own, some trusted => some (min own trusted)
  | own, none => own
  | none, trusted => trusted

def restrictRoot (root trusted : AllowedRoot) : AllowedRoot :=
  { root with
    readOnly := root.readOnly || trusted.readOnly
    uploadsAllowed := root.uploadsAllowed && trusted.uploadsAllowed
    hiddenFilesAllowed := root.hiddenFilesAllowed && trusted.hiddenFilesAllowed
    isWebRoot := root.isWebRoot || trusted.isWebRoot
    quotaBytes := mergeQuota root.quotaBytes trusted.quotaBytes }

/-- The ceiling's root with the same identifier and the same directory. -/
def trustedRoot (ceiling : List AllowedRoot) (root : AllowedRoot) : Option AllowedRoot :=
  ceiling.find? (fun trusted =>
    trusted.rootId == root.rootId && samePath trusted.basePath root.basePath)

def restrictRoots (ceiling : List AllowedRoot) :
    List AllowedRoot -> Except TealDriveError (List AllowedRoot)
  | [] => .ok []
  | root :: rest => do
      let trusted ← okOr (trustedRoot ceiling root) .permissionDenied
      let others ← restrictRoots ceiling rest
      return restrictRoot root trusted :: others

def restrictFeatures (own ceiling : FeatureFlags) : FeatureFlags where
  saveTextFile := own.saveTextFile && ceiling.saveTextFile
  chmodFile := own.chmodFile && ceiling.chmodFile
  extractArchive := own.extractArchive && ceiling.extractArchive
  deletePermanently := own.deletePermanently && ceiling.deletePermanently
  chown := own.chown && ceiling.chown

def restrictLimits (own ceiling : Limits) : Limits :=
  { own with
    maxInFlightUpload := min own.maxInFlightUpload ceiling.maxInFlightUpload
    maxChunkSize := min own.maxChunkSize ceiling.maxChunkSize
    maxTextEditSize := min own.maxTextEditSize ceiling.maxTextEditSize
    maxDirectoryPageSize := min own.maxDirectoryPageSize ceiling.maxDirectoryPageSize }

def restrictSensitive (own ceiling : SensitivePolicyConfig) : SensitivePolicyConfig where
  denyEditPatterns := own.denyEditPatterns ++ ceiling.denyEditPatterns
  warnReadPatterns := own.warnReadPatterns ++ ceiling.warnReadPatterns

def restrictWebroot (own ceiling : WebRootPolicyConfig) : WebRootPolicyConfig where
  blockExecutableUploads := own.blockExecutableUploads || ceiling.blockExecutableUploads
  blockedExtensions := own.blockedExtensions ++ ceiling.blockedExtensions

def restrict (snapshot : PolicySnapshot) (ceiling : AppConfig) :
    Except TealDriveError AppConfig := do
  snapshot.validate parsers digest
  let accessPolicy := snapshot.config.accessPolicy.extendCeiling ceiling.accessPolicy
  accessPolicy.validate
  let roots ← restrictRoots ceiling.roots snapshot.config.roots
  return { snapshot.config with
    virtualAccounts := ceiling.virtualAccounts
    webAccounts := ceiling.webAccounts
    journal := ceiling.journal
    lifecycle := ceiling.lifecycle
    controlAudit := ceiling.controlAudit
    accessPolicy := accessPolicy
    roots := roots
    sensitivePolicy := restrictSensitive snapshot.config.sensitivePolicy ceiling.sensitivePolicy
    webrootPolicy := restrictWebroot snapshot.config.webrootPolicy ceiling.webrootPolicy
    features := restrictFeatures snapshot.config.features ceiling.features
    limits := restrictLimits snapshot.config.limits ceiling.limits }

end Restrict

/-! ## The direction of each merge -/

theorem quotaAtMost_mergeQuota_left (own trusted : Option Nat) :
    quotaAtMost (mergeQuota own trusted) own := by
  intro limit same
  subst same
  cases trusted with
  | none => exact ⟨limit, rfl, Nat.le_refl limit⟩
  | some other => exact ⟨min limit other, rfl, Nat.min_le_left limit other⟩

theorem quotaAtMost_mergeQuota_right (own trusted : Option Nat) :
    quotaAtMost (mergeQuota own trusted) trusted := by
  intro limit same
  subst same
  cases own with
  | none => exact ⟨limit, rfl, Nat.le_refl limit⟩
  | some other => exact ⟨min other limit, rfl, Nat.min_le_right other limit⟩

theorem restrictRoot_rootId (root trusted : AllowedRoot) :
    (restrictRoot root trusted).rootId = root.rootId := rfl

theorem restrictRoot_stricter_own (root trusted : AllowedRoot) :
    StricterRoot (restrictRoot root trusted) root where
  rootId := rfl
  basePath := samePath_iff.mpr rfl
  readOnly := Bool.left_le_or _ _
  uploadsAllowed := Bool.and_le_left _ _
  hiddenFilesAllowed := Bool.and_le_left _ _
  isWebRoot := Bool.left_le_or _ _
  quotaBytes := quotaAtMost_mergeQuota_left _ _

theorem trustedRoot_eq_some {ceiling : List AllowedRoot} {root trusted : AllowedRoot}
    (found : trustedRoot ceiling root = some trusted) :
    trusted ∈ ceiling ∧ trusted.rootId = root.rootId ∧
      components trusted.basePath = components root.basePath := by
  have same := List.find?_some found
  simp only [Bool.and_eq_true, beq_iff_eq, samePath_iff] at same
  exact ⟨List.mem_of_find?_eq_some found, same⟩

theorem restrictRoot_stricter_trusted {ceiling : List AllowedRoot} {root trusted : AllowedRoot}
    (found : trustedRoot ceiling root = some trusted) :
    StricterRoot (restrictRoot root trusted) trusted where
  rootId := (trustedRoot_eq_some found).2.1.symm
  basePath := samePath_iff.mpr (trustedRoot_eq_some found).2.2.symm
  readOnly := Bool.right_le_or _ _
  uploadsAllowed := Bool.and_le_right _ _
  hiddenFilesAllowed := Bool.and_le_right _ _
  isWebRoot := Bool.right_le_or _ _
  quotaBytes := quotaAtMost_mergeQuota_right _ _

/-- Restriction keeps the identifiers of the roots, and each restricted root
comes from one of its own and one trusted root. -/
theorem restrictRoots_spec {ceiling roots restricted : List AllowedRoot}
    (accepted : restrictRoots ceiling roots = .ok restricted) :
    List.Forall₂ (fun root result => ∃ trusted, trustedRoot ceiling root = some trusted ∧
      result = restrictRoot root trusted) roots restricted := by
  induction roots generalizing restricted with
  | nil =>
      cases accepted
      exact List.Forall₂.nil
  | cons root rest ih =>
      simp only [restrictRoots, bind_eq_ok, okOr_eq_ok, pure_eq_ok] at accepted
      rcases accepted with ⟨trusted, found, others, later, same⟩
      subst same
      exact List.Forall₂.cons ⟨trusted, found, rfl⟩ (ih later)

theorem detectSensitive_restrictSensitive {own ceiling : SensitivePolicyConfig}
    {path : RelativePath} :
    detectSensitive path (restrictSensitive own ceiling) = false ↔
      detectSensitive path own = false ∧ detectSensitive path ceiling = false := by
  simp only [detectSensitive, restrictSensitive, List.any_append, Bool.or_eq_false_iff]
  constructor
  · rintro ⟨⟨ownDeny, ceilingDeny⟩, ownWarn, ceilingWarn⟩
    exact ⟨⟨ownDeny, ownWarn⟩, ceilingDeny, ceilingWarn⟩
  · rintro ⟨⟨ownDeny, ownWarn⟩, ceilingDeny, ceilingWarn⟩
    exact ⟨⟨ownDeny, ceilingDeny⟩, ownWarn, ceilingWarn⟩

/-- A web root policy that blocks at least the same extensions denies at least
the same names. -/
theorem deniesWebrootUpload_mono {strict loose : WebRootPolicyConfig}
    (blocks : loose.blockExecutableUploads ≤ strict.blockExecutableUploads)
    (extensions : forall extension, extension ∈ loose.blockedExtensions ->
      extension ∈ strict.blockedExtensions) {name : Text}
    (allowed : deniesWebrootUpload name strict = false) :
    deniesWebrootUpload name loose = false := by
  cases denied : deniesWebrootUpload name loose with
  | false => rfl
  | true =>
      simp only [deniesWebrootUpload, Bool.and_eq_true, Option.any_eq_true_iff_get,
        List.contains_iff_mem] at denied
      rcases denied with ⟨blocking, split, listed⟩
      rw [blocking] at blocks
      have still : deniesWebrootUpload name strict = true := by
        simp only [deniesWebrootUpload, Bool.and_eq_true, Option.any_eq_true_iff_get,
          List.contains_iff_mem]
        exact ⟨top_le_iff.mp blocks, split, extensions _ listed⟩
      rw [still] at allowed
      cases allowed

/-! ## Addressed roots -/

theorem rootFor_of_mem {config : AppConfig} {root : AllowedRoot}
    (unique : (config.roots.map (fun root => root.rootId)).Nodup) (member : root ∈ config.roots) :
    config.rootFor root.rootId = some root := by
  unfold AppConfig.rootFor
  generalize config.roots = roots at unique member
  induction roots with
  | nil => cases member
  | cons first rest ih =>
      rw [List.map_cons, List.nodup_cons] at unique
      rcases List.mem_cons.mp member with here | there
      · rw [here, List.find?_cons_of_pos (by simp)]
      · have different : first.rootId ≠ root.rootId := by
          intro same
          exact unique.1 (same ▸ List.mem_map_of_mem there)
        rw [List.find?_cons_of_neg (by simpa using different)]
        exact ih unique.2 there

/-- The root found among restricted roots is the restriction of the root found
among the original ones. -/
theorem find?_of_restricted {ceiling roots restricted : List AllowedRoot}
    (pairs : List.Forall₂ (fun root result => ∃ trusted, trustedRoot ceiling root = some trusted ∧
      result = restrictRoot root trusted) roots restricted) {id : RootId} {result : AllowedRoot}
    (found : restricted.find? (fun root => root.rootId == id) = some result) :
    ∃ root trusted, roots.find? (fun root => root.rootId == id) = some root ∧
      trustedRoot ceiling root = some trusted ∧ result = restrictRoot root trusted := by
  induction pairs with
  | nil => cases found
  | cons head tail ih =>
      rename_i root first rest others
      rcases head with ⟨trusted, matched, same⟩
      subst same
      by_cases named : root.rootId = id
      · rw [List.find?_cons_of_pos (by simpa [restrictRoot] using named)] at found
        cases found
        exact ⟨root, trusted, List.find?_cons_of_pos (beq_iff_eq.mpr named), matched, rfl⟩
      · rw [List.find?_cons_of_neg (by simpa [restrictRoot] using named)] at found
        rcases ih found with ⟨other, matching, addressed, merged⟩
        refine ⟨other, matching, ?_, merged⟩
        rw [List.find?_cons_of_neg (by simpa using named)]
        exact addressed

/-! ## Restriction never widens -/

/-- Switches, limits and roots of the strict configuration, against those of
the loose one. -/
structure NoLarger (strict loose : AppConfig) : Prop where
  saveTextFile : strict.features.saveTextFile ≤ loose.features.saveTextFile
  chmodFile : strict.features.chmodFile ≤ loose.features.chmodFile
  extractArchive : strict.features.extractArchive ≤ loose.features.extractArchive
  deletePermanently : strict.features.deletePermanently ≤ loose.features.deletePermanently
  chown : strict.features.chown ≤ loose.features.chown
  maxInFlightUpload : strict.limits.maxInFlightUpload ≤ loose.limits.maxInFlightUpload
  maxChunkSize : strict.limits.maxChunkSize ≤ loose.limits.maxChunkSize
  maxTextEditSize : strict.limits.maxTextEditSize ≤ loose.limits.maxTextEditSize
  maxDirectoryPageSize : strict.limits.maxDirectoryPageSize ≤ loose.limits.maxDirectoryPageSize
  present : forall root, root ∈ strict.roots ->
    ∃ other, other ∈ loose.roots ∧ other.rootId = root.rootId
  roots : forall root, root ∈ strict.roots ->
    forall other, other ∈ loose.roots -> other.rootId = root.rootId -> StricterRoot root other

/-- What a successful `restrict` established and returned. -/
structure Restricted (parsers : ConfigParsers) (snapshot : PolicySnapshot)
    (ceiling config : AppConfig) : Prop where
  valid : snapshot.config.validate parsers = .ok ()
  accessPolicy : config.accessPolicy =
    snapshot.config.accessPolicy.extendCeiling ceiling.accessPolicy
  roots : List.Forall₂ (fun root result => ∃ trusted,
    trustedRoot ceiling.roots root = some trusted ∧ result = restrictRoot root trusted)
    snapshot.config.roots config.roots
  sensitivePolicy : config.sensitivePolicy =
    restrictSensitive snapshot.config.sensitivePolicy ceiling.sensitivePolicy
  webrootPolicy : config.webrootPolicy =
    restrictWebroot snapshot.config.webrootPolicy ceiling.webrootPolicy
  features : config.features = restrictFeatures snapshot.config.features ceiling.features
  limits : config.limits = restrictLimits snapshot.config.limits ceiling.limits

section Restricted

variable {parsers : ConfigParsers} {digest : AppConfig -> List UInt8} {snapshot : PolicySnapshot}
  {ceiling config : AppConfig}

theorem restricted_of_ok (accepted : restrict parsers digest snapshot ceiling = .ok config) :
    Restricted parsers snapshot ceiling config := by
  simp only [restrict, PolicySnapshot.validate, bind_eq_ok, pure_eq_ok] at accepted
  rcases accepted with ⟨_, ⟨_, valid, _⟩, _, _, roots, merged, same⟩
  subst same
  exact ⟨valid, rfl, restrictRoots_spec merged, rfl, rfl, rfl, rfl⟩

namespace Restricted

theorem tightens_own (restricted : Restricted parsers snapshot ceiling config) :
    Tightens config snapshot.config where
  access := by
    rw [restricted.accessPolicy]
    exact AccessPolicy.extendCeiling_covers_policy _ _
  textEdit := by
    rw [restricted.limits]
    exact Nat.min_le_left _ _
  upload := by
    rw [restricted.limits]
    exact Nat.min_le_left _ _
  roots := by
    intro id root found
    rcases find?_of_restricted restricted.roots found with ⟨own, trusted, addressed, _, same⟩
    exact ⟨own, addressed, same ▸ restrictRoot_stricter_own own trusted⟩
  sensitive := by
    intro path plain
    rw [restricted.sensitivePolicy] at plain
    exact (detectSensitive_restrictSensitive.mp plain).1
  webroot := by
    intro name allowed
    rw [restricted.webrootPolicy] at allowed
    refine deniesWebrootUpload_mono (Bool.left_le_or _ _) ?_ allowed
    intro extension member
    exact List.mem_append_left _ member

theorem tightens_ceiling (restricted : Restricted parsers snapshot ceiling config)
    (unique : (ceiling.roots.map (fun root => root.rootId)).Nodup) :
    Tightens config ceiling where
  access := by
    rw [restricted.accessPolicy]
    exact AccessPolicy.extendCeiling_covers_ceiling _ _
  textEdit := by
    rw [restricted.limits]
    exact Nat.min_le_right _ _
  upload := by
    rw [restricted.limits]
    exact Nat.min_le_right _ _
  roots := by
    intro id root found
    rcases find?_of_restricted restricted.roots found with ⟨own, trusted, addressed, matched, same⟩
    have origin := trustedRoot_eq_some matched
    have named : own.rootId = id := by simpa using List.find?_some addressed
    refine ⟨trusted, ?_, same ▸ restrictRoot_stricter_trusted matched⟩
    rw [← named, ← origin.2.1]
    exact rootFor_of_mem unique origin.1
  sensitive := by
    intro path plain
    rw [restricted.sensitivePolicy] at plain
    exact (detectSensitive_restrictSensitive.mp plain).2
  webroot := by
    intro name allowed
    rw [restricted.webrootPolicy] at allowed
    refine deniesWebrootUpload_mono (Bool.right_le_or _ _) ?_ allowed
    intro extension member
    exact List.mem_append_right _ member

/-- Each restricted root with the two roots it was merged from. -/
theorem merged_of_mem (restricted : Restricted parsers snapshot ceiling config)
    {root : AllowedRoot} (member : root ∈ config.roots) :
    ∃ own trusted, own ∈ snapshot.config.roots ∧
      trustedRoot ceiling.roots own = some trusted ∧ root = restrictRoot own trusted := by
  have pairs := restricted.roots
  generalize config.roots = results at pairs member
  generalize snapshot.config.roots = owns at pairs
  induction pairs with
  | nil => cases member
  | cons head tail ih =>
      rename_i own first rest others
      rcases List.mem_cons.mp member with here | there
      · rcases head with ⟨trusted, matched, same⟩
        exact ⟨own, trusted, List.mem_cons_self, matched, here.trans same⟩
      · rcases ih there with ⟨other, trusted, present, matched, same⟩
        exact ⟨other, trusted, List.mem_cons_of_mem own present, matched, same⟩

theorem noLarger_own (restricted : Restricted parsers snapshot ceiling config) :
    NoLarger config snapshot.config where
  saveTextFile := restricted.features ▸ Bool.and_le_left _ _
  chmodFile := restricted.features ▸ Bool.and_le_left _ _
  extractArchive := restricted.features ▸ Bool.and_le_left _ _
  deletePermanently := restricted.features ▸ Bool.and_le_left _ _
  chown := restricted.features ▸ Bool.and_le_left _ _
  maxInFlightUpload := restricted.limits ▸ Nat.min_le_left _ _
  maxChunkSize := restricted.limits ▸ Nat.min_le_left _ _
  maxTextEditSize := restricted.limits ▸ Nat.min_le_left _ _
  maxDirectoryPageSize := restricted.limits ▸ Nat.min_le_left _ _
  present := by
    intro root member
    rcases restricted.merged_of_mem member with ⟨own, trusted, present, _, same⟩
    exact ⟨own, present, by rw [same, restrictRoot_rootId]⟩
  roots := by
    intro root member other present named
    rcases restricted.merged_of_mem member with ⟨own, trusted, origin, _, same⟩
    have unique := AppConfig.rootIds_nodup restricted.valid
    have ownFound := rootFor_of_mem unique origin
    have otherFound := rootFor_of_mem unique present
    have sameId : other.rootId = own.rootId := by rw [named, same, restrictRoot_rootId]
    rw [sameId, ownFound] at otherFound
    cases otherFound
    exact same ▸ restrictRoot_stricter_own _ trusted

theorem noLarger_ceiling (restricted : Restricted parsers snapshot ceiling config)
    (unique : (ceiling.roots.map (fun root => root.rootId)).Nodup) :
    NoLarger config ceiling where
  saveTextFile := restricted.features ▸ Bool.and_le_right _ _
  chmodFile := restricted.features ▸ Bool.and_le_right _ _
  extractArchive := restricted.features ▸ Bool.and_le_right _ _
  deletePermanently := restricted.features ▸ Bool.and_le_right _ _
  chown := restricted.features ▸ Bool.and_le_right _ _
  maxInFlightUpload := restricted.limits ▸ Nat.min_le_right _ _
  maxChunkSize := restricted.limits ▸ Nat.min_le_right _ _
  maxTextEditSize := restricted.limits ▸ Nat.min_le_right _ _
  maxDirectoryPageSize := restricted.limits ▸ Nat.min_le_right _ _
  present := by
    intro root member
    rcases restricted.merged_of_mem member with ⟨own, trusted, _, matched, same⟩
    have origin := trustedRoot_eq_some matched
    exact ⟨trusted, origin.1, by rw [same, restrictRoot_rootId, origin.2.1]⟩
  roots := by
    intro root member other present named
    rcases restricted.merged_of_mem member with ⟨own, trusted, _, matched, same⟩
    have origin := trustedRoot_eq_some matched
    have trustedFound := rootFor_of_mem unique origin.1
    have otherFound := rootFor_of_mem unique present
    have sameId : other.rootId = trusted.rootId := by
      rw [named, same, restrictRoot_rootId, origin.2.1]
    rw [sameId, trustedFound] at otherFound
    cases otherFound
    exact same ▸ restrictRoot_stricter_trusted matched

end Restricted

end Restricted

/-- Restriction never widens.  Whatever the restricted configuration
authorizes, the ceiling alone and the snapshot alone authorize too, and its
switches, limits and roots are no larger than in either. -/
theorem restrict_never_widens (parsers : ConfigParsers) (digest : AppConfig -> List UInt8)
    (uuids : UuidFormat) (snapshot : PolicySnapshot) (ceiling config : AppConfig)
    (valid : ceiling.validate parsers = .ok ())
    (accepted : restrict parsers digest snapshot ceiling = .ok config) :
    (forall (aliases : Aliases) (request : HelperRequest),
      HelperPolicy.authorize uuids aliases request config = .ok () ->
        HelperPolicy.authorize uuids aliases request ceiling = .ok () ∧
          HelperPolicy.authorize uuids aliases request snapshot.config = .ok ()) ∧
      NoLarger config ceiling ∧ NoLarger config snapshot.config := by
  have restricted := restricted_of_ok accepted
  have unique := AppConfig.rootIds_nodup valid
  refine ⟨?_, restricted.noLarger_ceiling unique, restricted.noLarger_own⟩
  intro aliases request authorized
  exact ⟨HelperPolicy.authorize_of_tightens (restricted.tightens_ceiling unique) authorized,
    HelperPolicy.authorize_of_tightens restricted.tightens_own authorized⟩

/-- Parsers that read the default bind address. -/
def ConfigParsers.loopbackOnly : ConfigParsers where
  socketAddrIsLoopback := fun text => if text = "127.0.0.1:3000".toList then some true else none
  network := fun _ => false
  uri := fun _ => none
  isControl := fun symbol => decide (symbol.toNat < 32)
  isWhitespace := fun symbol => symbol.isWhitespace

/-- The default configuration with hidden files switched on and a quota. -/
def widerSnapshot : AppConfig :=
  { AppConfig.standard with
    roots := [{ AllowedRoot.standard with hiddenFilesAllowed := true, quotaBytes := some 4096 }] }

theorem restrict_never_widens_standard :
    ∃ config, restrict .loopbackOnly (fun _ => List.replicate 32 0)
        (PolicySnapshot.new (fun _ => List.replicate 32 0) widerSnapshot) .standard = .ok config ∧
      HelperPolicy.authorize .hyphenated [] (uploadOf "notes.txt".toList) config = .ok () ∧
      HelperPolicy.authorize .hyphenated [] (uploadOf "notes.txt".toList) .standard = .ok () ∧
      NoLarger config .standard := by
  refine ⟨_, rfl, by decide, ?_⟩
  have narrow := restrict_never_widens .loopbackOnly (fun _ => List.replicate 32 0) .hyphenated
    (PolicySnapshot.new (fun _ => List.replicate 32 0) widerSnapshot) .standard _ (by decide) rfl
  exact ⟨(narrow.1 [] (uploadOf "notes.txt".toList) (by decide)).1, narrow.2.1⟩

end TealDrive
