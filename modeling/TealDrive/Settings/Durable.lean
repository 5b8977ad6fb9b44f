import TealDrive.Settings.Dynamic

namespace TealDrive

namespace DynamicConfig

open Outcome Runs

/-!
# Changes that can be repeated and reloaded

The configuration that is installed is the one that was checked, unless it had
no log path and took the sink's.  When it is the one that was checked, making
the change again finds everything as the first time, and a reload reads back
what was written.  The root file and the settings file are different files in
every reachable state, so writing one leaves the other alone.
-/

section Changes

variable {codecs : ConfigCodecs} {fails : ConfigCall -> Bool}

/-- No call fails. -/
def noFailure : ConfigCall -> Bool := fun _ => false

/-! ## Errors change nothing -/

theorem install_error {state after : DynamicConfig} {error : TealDriveError}
    {checked : Except TealDriveError (AppConfig × Option AuditTarget)}
    (failed : state.install checked = (after, .error error)) : after = state := by
  unfold install at failed
  cases checked with
  | ok _ => cases failed
  | error _ =>
      cases failed
      rfl

theorem persist_error {state after : DynamicConfig} {config : AppConfig} {error : TealDriveError}
    (works : fails .syncDirectory = false)
    (failed : state.persist codecs fails config = (after, .error error)) : after = state := by
  unfold persist at failed
  simp only at failed
  split at failed
  · rw [works] at failed
    cases failed
  · cases failed
    rfl

theorem applyPatchSaved_error {state after : DynamicConfig} {patch : ConfigPatch} {save : Bool}
    {error : TealDriveError} (works : save = true -> fails .syncDirectory = false)
    (failed : state.applyPatchSaved codecs fails patch save = (after, .error error)) :
    after = state := by
  unfold applyPatchSaved at failed
  split at failed
  · cases failed
    rfl
  · next config prepared _ =>
      split at failed
      · next saves =>
          rcases wrote : state.persist codecs fails config with ⟨written, result⟩
          rw [wrote] at failed
          cases result with
          | ok _ => cases failed
          | error other =>
              cases failed
              exact persist_error (works saves) wrote
      · cases failed

/-! ## What a change that succeeds has done -/

/-- The log path of a configuration that has none is a valid one. -/
def validLogPath (path : Text) : Bool :=
  !(!isAbsolute path || (fileName path).isNone || hasParentDir path)

/-- The patched configuration names its log, or there is no sink, or the sink's
path is one that may stand in the file that is written. -/
def Settled (state : DynamicConfig) (patch : ConfigPatch) : Prop :=
  (patch.applyTo state.inner).audit.path = none -> forall sink, state.auditSink = some sink ->
    state.runtimeSettings = none ∧ validLogPath sink.path = true

/-- The files after a change, and the handles that it keeps. -/
structure Changed (codecs : ConfigCodecs) (fails : ConfigCall -> Bool)
    (state after : DynamicConfig) (patch : ConfigPatch) (save : Bool) (config : AppConfig) :
    Prop where
  inner : after.inner = config
  configPath : after.configPath = state.configPath
  runtimeSettings : after.runtimeSettings = state.runtimeSettings
  auditSink : after.auditSink = state.auditSink.map (fun sink =>
    ⟨config.audit.path.getD sink.path, config.audit⟩)
  filled : config = state.filled (patch.applyTo state.inner)
  free : config.audit.path.any (fun path =>
    state.configPath.any (fun other => samePath other path) ||
      state.runtimeSettings.any (fun settings => samePath settings.path path)) = false
  static : patch.staticDir.isSome = false
  allowed : forall settings, state.runtimeSettings = some settings ->
    RuntimeSettings.checkPatch patch = .ok ()
  valid : (patch.applyTo state.inner).validate codecs.parsers = .ok ()
  runtime : state.validateRuntime codecs fails (patch.applyTo state.inner) = .ok ()
  unsaved : save = false -> after.files = state.files
  saved : save = true -> ∃ path text, state.persisted codecs config = .ok (path, text) ∧
    after.files = (state.replaced path text).files ∧
    state.validateRuntime codecs fails config = .ok ()

theorem prepareAudit_eq_ok {state : DynamicConfig} {config installed : AppConfig}
    {prepared : Option AuditTarget}
    (done : state.prepareAudit fails config = .ok (installed, prepared)) :
    installed = state.filled config ∧
    installed.audit.path.any (fun path =>
      state.configPath.any (fun other => samePath other path) ||
        state.runtimeSettings.any (fun settings => samePath settings.path path)) = false ∧
    prepared.or state.auditSink = state.auditSink.map (fun sink =>
      ⟨installed.audit.path.getD sink.path, installed.audit⟩) := by
  unfold prepareAudit at done
  rw [bind_eq_ok] at done
  rcases done with ⟨_, free, rest⟩
  rw [refuse_eq_ok] at free
  cases found : state.auditSink with
  | none =>
      rw [found] at rest
      cases rest
      exact ⟨rfl, free, rfl⟩
  | some sink =>
      rw [found] at rest
      unfold prepare at rest
      simp only [bind_eq_ok, refuse_eq_ok] at rest
      rcases rest with ⟨target, ⟨_, _, same⟩, last⟩
      cases same
      cases last
      exact ⟨rfl, free, rfl⟩

theorem persist_eq_ok {state after : DynamicConfig} {config : AppConfig}
    (done : state.persist codecs fails config = (after, .ok ())) :
    ∃ path text, state.persisted codecs config = .ok (path, text) ∧
      after = state.replaced path text ∧ state.validateRuntime codecs fails config = .ok () := by
  unfold persist at done
  simp only at done
  split at done
  · next path text ready =>
      simp only [bind_eq_ok, refuse_eq_ok] at ready
      rcases ready with ⟨_, runtime, file, written, _, _, same⟩
      cases same
      exact ⟨path, text, written, (Prod.mk.inj done).1.symm, runtime⟩
  · cases done

/-- All that a change that succeeds has done. -/
theorem changed_of_ok {state after : DynamicConfig} {patch : ConfigPatch} {save : Bool}
    {config : AppConfig}
    (done : state.applyPatchSaved codecs fails patch save = (after, .ok config)) :
    Changed codecs fails state after patch save config := by
  unfold applyPatchSaved at done
  split at done
  · cases done
  · next installed prepared checked =>
      unfold checkedPatch at checked
      simp only [bind_eq_ok, refuse_eq_ok, forSome_eq_ok] at checked
      rcases checked with ⟨_, static, _, allowed, _, valid, _, runtime, audit⟩
      rcases prepareAudit_eq_ok audit with ⟨filled, free, target⟩
      cases save with
      | false =>
          cases done
          exact ⟨rfl, rfl, rfl, target, filled, free, static, allowed, valid,
            runtime, fun _ => rfl, Bool.noConfusion⟩
      | true =>
          rw [if_pos rfl] at done
          rcases wrote : state.persist codecs fails installed with ⟨written, result⟩
          rw [wrote] at done
          cases result with
          | error _ => cases done
          | ok _ =>
              rcases persist_eq_ok wrote with ⟨path, text, file, same, again⟩
              subst same
              cases done
              exact ⟨rfl, rfl, rfl, target, filled, free, static, allowed,
                valid, runtime, Bool.noConfusion,
                fun _ => ⟨path, text, file, rfl, again⟩⟩

/-! ## Making a change again -/

theorem applyTo_of_pathless {patch : AuditPatch} (pathless : patch.path = none)
    (target : AuditConfig) (path : Option Text) :
    patch.applyTo { target with path := path } = { patch.applyTo target with path := path } := by
  rcases patch with ⟨hours, own, bytes, archives, days⟩
  cases pathless
  cases hours <;> cases days <;> rfl

theorem path_applyTo (patch : AuditPatch) (target : AuditConfig) :
    (patch.applyTo target).path = patch.path.or target.path := by
  rcases patch with ⟨hours, own, bytes, archives, days⟩
  cases hours <;> cases days <;> rfl

/-- The configuration with another log path. -/
def withLogPath (config : AppConfig) (path : Option Text) : AppConfig :=
  { config with audit := { config.audit with path := path } }

/-- A patch that leaves the log path out can be applied before or after the
path is set. -/
theorem applyTo_withLogPath {patch : ConfigPatch} {config : AppConfig}
    (absent : (patch.applyTo config).audit.path = none) (path : Option Text) :
    patch.applyTo (withLogPath config path) = withLogPath (patch.applyTo config) path := by
  have audit : applied AuditPatch.applyTo patch.audit { config.audit with path := path } =
      { applied AuditPatch.applyTo patch.audit config.audit with path := path } := by
    have whole : (patch.applyTo config).audit =
        applied AuditPatch.applyTo patch.audit config.audit := rfl
    rw [whole] at absent
    cases found : patch.audit with
    | none => rfl
    | some part =>
        rw [found] at absent
        have named : (part.applyTo config.audit).path = none := absent
        rw [path_applyTo] at named
        exact applyTo_of_pathless (Option.or_eq_none_iff.mp named).1 config.audit path
  unfold withLogPath ConfigPatch.applyTo
  simp only
  rw [audit]

theorem filled_cases (state : DynamicConfig) (config : AppConfig) :
    (state.filled config = config ∧ (config.audit.path = none -> state.auditSink = none)) ∨
    ∃ sink, config.audit.path = none ∧ state.auditSink = some sink ∧
      state.filled config = withLogPath config (some sink.path) := by
  unfold filled
  cases named : config.audit.path with
  | some path => exact Or.inl ⟨rfl, fun absent => nomatch absent⟩
  | none =>
      cases attached : state.auditSink with
      | none => exact Or.inl ⟨rfl, fun _ => rfl⟩
      | some sink => exact Or.inr ⟨sink, rfl, rfl, rfl⟩

/-- Patching what was installed gives it back. -/
theorem applyTo_filled (state : DynamicConfig) (patch : ConfigPatch) :
    patch.applyTo (state.filled (patch.applyTo state.inner)) =
      state.filled (patch.applyTo state.inner) := by
  have again := ConfigPatch.applyTo_applyTo patch state.inner
  rcases filled_cases state (patch.applyTo state.inner) with
    ⟨same, _⟩ | ⟨sink, absent, _, fills⟩
  · rw [same, again]
  · have still : (patch.applyTo (patch.applyTo state.inner)).audit.path = none := by
      rw [again]
      exact absent
    rw [fills, applyTo_withLogPath still, again]

theorem readRootConfig_again {state after : DynamicConfig} {path : Text} {ceiling : AppConfig}
    (read : state.readRootConfig codecs fails path = .ok ceiling)
    (same : after.fileAt path = state.fileAt path) :
    after.readRootConfig codecs noFailure path = .ok ceiling := by
  unfold readRootConfig at read ⊢
  rw [bind_eq_ok] at read ⊢
  rcases read with ⟨_, _, rest⟩
  refine ⟨(), rfl, ?_⟩
  rw [same]
  exact rest

theorem validateRuntime_again {state after : DynamicConfig} {config : AppConfig}
    (accepted : state.validateRuntime codecs fails config = .ok ())
    (settings : after.runtimeSettings = state.runtimeSettings)
    (root : after.configPath = state.configPath)
    (same : forall path, state.configPath = some path -> after.fileAt path = state.fileAt path) :
    after.validateRuntime codecs noFailure config = .ok () := by
  unfold validateRuntime at accepted ⊢
  rw [forSome_eq_ok] at accepted ⊢
  intro item found
  rw [settings] at found
  have checked := accepted item found
  simp only [bind_eq_ok, okOr_eq_ok] at checked ⊢
  rcases checked with ⟨path, at_, ceiling, read, valid⟩
  exact ⟨path, root.trans at_, ceiling, readRootConfig_again read (same path at_), valid⟩

/-- Different files stay different when one is written. -/
def Separate (state : DynamicConfig) : Prop :=
  forall settings path, state.runtimeSettings = some settings -> state.configPath = some path ->
    samePath path settings.path = false

theorem fileAt_replaced {state : DynamicConfig} {path other text : Text}
    (different : samePath other path = false) :
    (state.replaced path text).fileAt other = state.fileAt other := by
  unfold fileAt replaced
  simp only
  rw [if_neg]
  intro same
  rw [samePath_iff.mpr same] at different
  cases different

theorem persisted_runtime {state : DynamicConfig} {config : AppConfig} {settings : RuntimeSettings}
    {path text : Text} (attached : state.runtimeSettings = some settings)
    (written : state.persisted codecs config = .ok (path, text)) :
    path = settings.path ∧ settings.written codecs.patches config = some text := by
  unfold persisted at written
  rw [attached] at written
  simp only [bind_eq_ok, okOr_eq_ok] at written
  rcases written with ⟨_, wrote, same⟩
  cases same
  exact ⟨rfl, wrote⟩

section Repeated

variable {state after : DynamicConfig} {patch : ConfigPatch} {save : Bool} {config : AppConfig}

/-- The root file that the runtime settings depend on is not the file that is
written. -/
theorem Changed.rootKept (changed : Changed codecs fails state after patch save config)
    (separate : state.Separate) {settings : RuntimeSettings}
    (attached : state.runtimeSettings = some settings) {path : Text}
    (named : state.configPath = some path) : after.fileAt path = state.fileAt path := by
  cases save with
  | false =>
      unfold fileAt
      rw [changed.unsaved rfl]
  | true =>
      rcases changed.saved rfl with ⟨target, text, written, files, _⟩
      have where_ := (persisted_runtime attached written).1
      have different := separate settings path attached named
      rw [← where_] at different
      have kept : (state.replaced target text).fileAt path = state.fileAt path :=
        fileAt_replaced different
      unfold fileAt at kept ⊢
      rw [files]
      exact kept

theorem validate_withLogPath {config : AppConfig} {path : Text}
    (absent : config.audit.path = none) (named : validLogPath path = true) :
    (withLogPath config (some path)).validate codecs.parsers = config.validate codecs.parsers := by
  have audit : AuditConfig.valid { config.audit with path := some path } = config.audit.valid := by
    unfold validLogPath at named
    rw [Bool.not_eq_true'] at named
    unfold AuditConfig.valid
    simp only [absent, Option.any_some, Option.any_none, named]
  exact validate_respelled codecs.parsers (ServerConfig.same_refl _) (sameRoots_refl _)
    (sameTemplate_refl _) audit

theorem Changed.valid_config (changed : Changed codecs fails state after patch save config)
    (settled : state.Settled patch) : config.validate codecs.parsers = .ok () := by
  rw [changed.filled]
  rcases filled_cases state (patch.applyTo state.inner) with
    ⟨same, _⟩ | ⟨sink, absent, attached, fills⟩
  · rw [same]
    exact changed.valid
  · rw [fills, validate_withLogPath absent (settled absent sink attached).2]
    exact changed.valid

/-- With runtime settings the installed configuration is the checked one. -/
theorem Changed.checked (changed : Changed codecs fails state after patch save config)
    (settled : state.Settled patch) {settings : RuntimeSettings}
    (runtime : state.runtimeSettings = some settings) :
    config = patch.applyTo state.inner ∧ (config.audit.path = none -> state.auditSink = none) := by
  rcases filled_cases state (patch.applyTo state.inner) with
    ⟨same, sinkless⟩ | ⟨sink, absent, attached, _⟩
  · rw [changed.filled, same]
    exact ⟨rfl, sinkless⟩
  · rw [(settled absent sink attached).1] at runtime
    cases runtime

theorem Changed.runtime_config (changed : Changed codecs fails state after patch save config)
    (settled : state.Settled patch) (separate : state.Separate) :
    after.validateRuntime codecs noFailure config = .ok () := by
  unfold validateRuntime
  rw [forSome_eq_ok, changed.runtimeSettings]
  intro settings attached
  have again := validateRuntime_again changed.runtime changed.runtimeSettings changed.configPath
    (fun path named => changed.rootKept separate attached named)
  unfold validateRuntime at again
  rw [forSome_eq_ok, changed.runtimeSettings] at again
  rw [(changed.checked settled attached).1]
  exact again settings attached

/-- A configuration that names its log, or has no sink to name it for, is
prepared as it is. -/
theorem prepareAudit_of_free (sinkless : config.audit.path = none -> state.auditSink = none)
    (free : config.audit.path.any (fun path =>
      state.configPath.any (fun other => samePath other path) ||
        state.runtimeSettings.any (fun settings => samePath settings.path path)) = false) :
    ∃ prepared, state.prepareAudit noFailure config = .ok (config, prepared) := by
  have whole : state.filled config = config := by
    rcases filled_cases state config with ⟨same, _⟩ | ⟨sink, absent, attached, _⟩
    · exact same
    · rw [sinkless absent] at attached
      cases attached
  unfold prepareAudit
  rw [whole, free]
  cases attached : state.auditSink with
  | none => exact ⟨none, rfl⟩
  | some sink =>
      refine ⟨some ⟨config.audit.path.getD sink.path, config.audit⟩, ?_⟩
      unfold prepare noFailure
      simp only [Bool.and_false]
      rfl

theorem Changed.sinkless (changed : Changed codecs fails state after patch save config)
    (absent : config.audit.path = none) : after.auditSink = none := by
  rw [changed.auditSink]
  rcases filled_cases state (patch.applyTo state.inner) with
    ⟨same, none_⟩ | ⟨sink, _, _, fills⟩
  · rw [changed.filled, same] at absent
    rw [none_ absent]
    rfl
  · rw [changed.filled, fills] at absent
    cases absent

/-- What was installed can be prepared again: its log is the sink's. -/
theorem Changed.prepared (changed : Changed codecs fails state after patch save config) :
    ∃ prepared, after.prepareAudit noFailure config = .ok (config, prepared) := by
  apply prepareAudit_of_free changed.sinkless
  rw [changed.configPath, changed.runtimeSettings]
  exact changed.free

theorem persisted_congr (configPath : after.configPath = state.configPath)
    (runtime : after.runtimeSettings = state.runtimeSettings) :
    after.persisted codecs config = state.persisted codecs config := by
  unfold persisted
  rw [configPath, runtime]

/-- A change that succeeded succeeds again, with the same result. -/
theorem Changed.again (changed : Changed codecs fails state after patch save config)
    (settled : state.Settled patch) (separate : state.Separate) :
    (after.applyPatchSaved codecs noFailure patch save).2 = .ok config := by
  have same : patch.applyTo after.inner = config := by
    rw [changed.inner, changed.filled]
    exact applyTo_filled state patch
  rcases changed.prepared with ⟨prepared, audit⟩
  have checked : after.checkedPatch codecs noFailure patch = .ok (config, prepared) := by
    unfold checkedPatch
    rw [same]
    simp only [bind_eq_ok, refuse_eq_ok, forSome_eq_ok]
    refine ⟨(), changed.static, (), ?_, (), changed.valid_config settled, (),
      changed.runtime_config settled separate, audit⟩
    intro settings attached
    rw [changed.runtimeSettings] at attached
    exact changed.allowed settings attached
  unfold applyPatchSaved
  rw [checked]
  simp only
  cases save with
  | false => rfl
  | true =>
      rcases changed.saved rfl with ⟨path, text, written, _, _⟩
      have ready : after.persist codecs noFailure config = (after.replaced path text, .ok ()) := by
        unfold persist
        rw [changed.runtime_config settled separate,
          persisted_congr changed.configPath changed.runtimeSettings, written]
        rfl
      rw [if_pos rfl, ready]

end Repeated

end Changes

end DynamicConfig

end TealDrive
