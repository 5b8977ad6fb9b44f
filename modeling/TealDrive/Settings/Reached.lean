import TealDrive.Settings.Durable

namespace TealDrive

namespace DynamicConfig

open Outcome Runs

/-!
# Reloading what was saved

A reload reads the file that was saved.  With runtime settings it is a patch
over the root file, and the paths of root come back as the root file spells
them.  Without them it is the whole configuration.  A reload and the states
that any sequence of operations reaches are put together at the end.
-/

/-! ## The configuration that is reread -/

theorem effective_congr {left right : AuditConfig} (hours : left.retentionHours = right.retentionHours)
    (days : left.retentionDays = right.retentionDays) :
    left.effectiveRetentionHours = right.effectiveRetentionHours := by
  unfold AuditConfig.effectiveRetentionHours
  rw [hours, days]

/-- A configuration equal to one with its retention in hours stays so when its
own is written in hours. -/
theorem same_inHours {config reread : AppConfig} (same : config.inHours.same reread = true) :
    config.inHours.same reread.inHours = true := by
  unfold AppConfig.same at same ⊢
  simp only [Bool.and_eq_true] at same ⊢
  have audit : config.inHours.audit.same reread.inHours.audit = true := by
    have whole := same.1.1.1.1.1.1.1.1.1.1.1.1.1.1.1.2
    unfold AuditConfig.same at whole ⊢
    simp only [Bool.and_eq_true, beq_iff_eq] at whole ⊢
    rcases whole with ⟨⟨⟨⟨hours, path⟩, bytes⟩, archives⟩, days⟩
    have kept : config.inHours.audit.effectiveRetentionHours =
        reread.audit.effectiveRetentionHours := effective_congr hours days
    exact ⟨⟨⟨⟨kept, path⟩, bytes⟩, archives⟩, rfl⟩
  simp only [AppConfig.inHours] at same audit ⊢
  simp only [same, audit, and_self]

theorem server_of_same {config reread : AppConfig} (same : config.inHours.same reread = true) :
    config.server.same reread.server = true := by
  unfold AppConfig.same at same
  simp only [Bool.and_eq_true] at same
  exact same.1.1.1.1.1.1.1.1.1.1.1.1.1.1.1.1.2

theorem auditPath_of_same {config reread : AppConfig} (same : config.inHours.same reread = true) :
    sameOptionalPath config.audit.path reread.audit.path = true := by
  unfold AppConfig.same at same
  simp only [Bool.and_eq_true] at same
  have audit := same.1.1.1.1.1.1.1.1.1.1.1.1.1.1.1.2
  unfold AuditConfig.same at audit
  simp only [Bool.and_eq_true] at audit
  exact audit.1.1.1.2

theorem sameOptionalPath_symm {left right : Option Text}
    (same : sameOptionalPath left right = true) : sameOptionalPath right left = true := by
  cases left with
  | none =>
      cases right with
      | none => rfl
      | some _ => cases same
  | some first =>
      cases right with
      | none => cases same
      | some second =>
          unfold sameOptionalPath at same ⊢
          rw [samePath_iff] at same ⊢
          exact same.symm

/-- Transport is compared as part of the server section. -/
theorem sameTransport_of_same {left right : ServerConfig} (same : left.same right = true) :
    sameTransport right left = true := by
  unfold ServerConfig.same at same
  simp only [Bool.and_eq_true, beq_iff_eq] at same
  rcases same with ⟨⟨⟨⟨⟨⟨address, proxied⟩, tls⟩, certificate⟩, key⟩, channel⟩, _⟩
  unfold sameTransport
  rw [address, proxied, tls, sameOptionalPath_symm certificate, sameOptionalPath_symm key,
    sameOptionalPath_symm channel]
  simp only [beq_self_eq_true, Bool.and_self]

theorem nonzero_getD {value : Option Nat} (positive : value ≠ some 0) :
    nonzero (some (value.getD 0)) = value := by
  cases value with
  | none => rfl
  | some count =>
      unfold nonzero
      rw [Option.getD_some, Option.filter_some, if_pos]
      rw [bne_iff_ne]
      intro zero
      exact positive (congrArg some zero)

/-- A valid audit section has no retention of 0, which is how nothing is
written. -/
theorem deserialized_serialized {config : AppConfig} (valid : config.audit.valid = true) :
    config.serialized.deserialized = config := by
  unfold AuditConfig.valid at valid
  simp only [Bool.not_eq_true', Bool.or_eq_false_iff] at valid
  rcases valid with ⟨⟨⟨⟨⟨inHours, _⟩, _⟩, _⟩, inDays⟩, _⟩
  have hours : nonzero (some (config.audit.retentionHours.getD 0)) =
      config.audit.retentionHours := by
    apply nonzero_getD
    intro zero
    rw [zero] at inHours
    cases inHours
  have days : nonzero (some (config.audit.retentionDays.getD 0)) = config.audit.retentionDays := by
    apply nonzero_getD
    intro zero
    rw [zero] at inDays
    cases inDays
  unfold AppConfig.serialized AppConfig.deserialized
  simp only [hours, days]

/-! ## Reloading -/

section Reloaded

variable {codecs : ConfigCodecs} {fails : ConfigCall -> Bool} {state after : DynamicConfig}
  {patch : ConfigPatch} {config : AppConfig}

/-- What is written for the patched configuration can be read back: a settings
file may not be longer than the bound on reading it. -/
def Readable (codecs : ConfigCodecs) (state : DynamicConfig) (patch : ConfigPatch) : Prop :=
  forall settings text, state.runtimeSettings = some settings ->
    settings.written codecs.patches (patch.applyTo state.inner) = some text ->
    text.len ≤ maxSettingsBytes

/-- A configuration that is equal to the live one can be reloaded. -/
theorem reload_of_loaded {reread : AppConfig}
    (read : after.loaded codecs noFailure = .ok reread)
    (transport : sameTransport reread.server after.inner.server = true)
    (sinkless : reread.audit.path = none -> after.auditSink = none)
    (free : reread.audit.path.any (fun path =>
      after.configPath.any (fun other => samePath other path) ||
        after.runtimeSettings.any (fun settings => samePath settings.path path)) = false) :
    (after.reload codecs noFailure).2 = .ok reread := by
  rcases prepareAudit_of_free sinkless free with ⟨prepared, audit⟩
  have checked : (do
      let config ← after.loaded codecs noFailure
      refuse (!sameTransport config.server after.inner.server) .validation
      after.prepareAudit noFailure config) = .ok (reread, prepared) := by
    rw [read]
    simp only [bind_eq_ok, refuse_eq_ok]
    refine ⟨reread, rfl, (), ?_, audit⟩
    rw [transport]
    rfl
  unfold reload
  rw [checked]
  rfl

/-- With runtime settings the file is laid over the root file again. -/
theorem Changed.loaded_runtime (changed : Changed codecs fails state after patch true config)
    (settled : state.Settled patch) (separate : state.Separate)
    (readable : Readable codecs state patch) {settings : RuntimeSettings}
    (attached : state.runtimeSettings = some settings) :
    ∃ reread, after.loaded codecs noFailure = .ok reread ∧ config.inHours.same reread = true := by
  have again := changed.runtime_config settled separate
  unfold validateRuntime at again
  rw [forSome_eq_ok, changed.runtimeSettings] at again
  have accepted := again settings attached
  simp only [bind_eq_ok, okOr_eq_ok] at accepted
  rcases accepted with ⟨root, named, ceiling, read, valid⟩
  rcases changed.saved rfl with ⟨path, text, written, files, _⟩
  rcases persisted_runtime attached written with ⟨where_, wrote⟩
  have short : text.len ≤ maxSettingsBytes := by
    apply readable settings text attached
    rw [← (changed.checked settled attached).1]
    exact wrote
  rcases read_written valid wrote short with ⟨reread, laid, same⟩
  have stored : after.fileAt settings.path = .content text := by
    unfold fileAt
    rw [files, ← where_]
    exact if_pos rfl
  refine ⟨reread, ?_, same⟩
  unfold loaded
  rw [changed.runtimeSettings, attached]
  simp only [bind_eq_ok, okOr_eq_ok, refuse_eq_ok]
  refine ⟨root, named, ceiling, read, (), rfl, ?_⟩
  rw [stored]
  exact laid

/-- Without runtime settings the file is the whole configuration. -/
theorem Changed.loaded_root (changed : Changed codecs fails state after patch true config)
    (settled : state.Settled patch) (detached : state.runtimeSettings = none) :
    after.loaded codecs noFailure = .ok config := by
  rcases changed.saved rfl with ⟨path, text, written, files, _⟩
  unfold persisted at written
  rw [detached] at written
  simp only [bind_eq_ok, okOr_eq_ok] at written
  rcases written with ⟨root, named, _, printed, same⟩
  cases same
  have stored : after.fileAt path = .content text := by
    unfold fileAt
    rw [files]
    exact if_pos rfl
  have valid := changed.valid_config settled
  have reread : codecs.parse path text = some config := by
    unfold ConfigCodecs.print at printed
    unfold ConfigCodecs.parse
    rw [codecs.configs.reads_back _ _ _ printed, Option.map_some,
      deserialized_serialized (auditValid_of_validate valid)]
  have read : after.fromFile codecs noFailure path = .ok config := by
    unfold fromFile
    simp only [stored]
    unfold parsed
    simp only [bind_eq_ok, okOr_eq_ok, refuse_eq_ok]
    exact ⟨(), rfl, config, reread, (), valid, rfl⟩
  unfold loaded
  rw [changed.configPath, changed.runtimeSettings, named, detached]
  exact read

/-- A change that was saved is reloaded, up to the form of its retention and
the spelling of paths. -/
theorem Changed.reloaded (changed : Changed codecs fails state after patch true config)
    (settled : state.Settled patch) (separate : state.Separate)
    (readable : Readable codecs state patch) :
    ∃ reread, (after.reload codecs noFailure).2 = .ok reread ∧
      config.inHours.same reread.inHours = true := by
  cases attached : state.runtimeSettings with
  | none =>
      refine ⟨config, ?_, AppConfig.same_refl _⟩
      apply reload_of_loaded (changed.loaded_root settled attached)
      · rw [changed.inner]
        exact sameTransport_of_same (ServerConfig.same_refl _)
      · exact changed.sinkless
      · rw [changed.configPath, changed.runtimeSettings]
        exact changed.free
  | some settings =>
      rcases changed.loaded_runtime settled separate readable attached with ⟨reread, read, same⟩
      have path := auditPath_of_same same
      refine ⟨reread, ?_, same_inHours same⟩
      apply reload_of_loaded read
      · rw [changed.inner]
        exact sameTransport_of_same (server_of_same same)
      · intro absent
        apply changed.sinkless
        rw [absent] at path
        cases found : config.audit.path with
        | none => rfl
        | some _ =>
            rw [found] at path
            cases path
      · rw [changed.configPath, changed.runtimeSettings, ← changed.free]
        apply (any_congr _ path).symm
        intro first second spelled
        have parts := samePath_iff.mp spelled
        simp only [samePath, parts]

end Reloaded

/-! ## States that are reached -/

/-- An operation on the configuration, or any change of files by others. -/
inductive ConfigStep where
  | withAuditSink (sink : AuditTarget)
  | withRuntimeSettings (fails : ConfigCall -> Bool) (path : Text)
  | store (fails : ConfigCall -> Bool) (config : AppConfig)
  | reload (fails : ConfigCall -> Bool)
  | applyPatchSaved (fails : ConfigCall -> Bool) (patch : ConfigPatch) (save : Bool)
  | outside (files : List Component -> StoredFile)

def apply (codecs : ConfigCodecs) (state : DynamicConfig) : ConfigStep -> DynamicConfig
  | .withAuditSink sink => state.withAuditSink sink
  | .withRuntimeSettings fails path => state.withRuntimeSettings codecs fails path
  | .store fails config => (state.store codecs fails config).1
  | .reload fails => (state.reload codecs fails).1
  | .applyPatchSaved fails patch save => (state.applyPatchSaved codecs fails patch save).1
  | .outside files => { state with files := files }

/-- The paths that a configuration works with are chosen when it is built. -/
structure SamePaths (state after : DynamicConfig) : Prop where
  configPath : after.configPath = state.configPath
  runtimeSettings : after.runtimeSettings = state.runtimeSettings

section Paths

variable {codecs : ConfigCodecs} {fails : ConfigCall -> Bool}

theorem SamePaths.separate {state after : DynamicConfig} (same : SamePaths state after)
    (separate : state.Separate) : after.Separate := by
  intro settings path attached named
  rw [same.runtimeSettings] at attached
  rw [same.configPath] at named
  exact separate settings path attached named

theorem install_samePaths (state : DynamicConfig)
    (checked : Except TealDriveError (AppConfig × Option AuditTarget)) :
    SamePaths state (state.install checked).1 := by
  cases checked with
  | ok _ => exact ⟨rfl, rfl⟩
  | error _ => exact ⟨rfl, rfl⟩

theorem persist_samePaths (state : DynamicConfig) (config : AppConfig) :
    SamePaths state (state.persist codecs fails config).1 := by
  unfold persist
  simp only
  split
  · exact ⟨rfl, rfl⟩
  · exact ⟨rfl, rfl⟩

theorem applyPatchSaved_samePaths (state : DynamicConfig) (patch : ConfigPatch) (save : Bool) :
    SamePaths state (state.applyPatchSaved codecs fails patch save).1 := by
  unfold applyPatchSaved
  split
  · exact ⟨rfl, rfl⟩
  · next config prepared _ =>
      cases save with
      | false => exact ⟨rfl, rfl⟩
      | true =>
          have kept : SamePaths state (state.persist codecs fails config).1 :=
            persist_samePaths state config
          rw [if_pos rfl]
          rcases wrote : state.persist codecs fails config with ⟨written, result⟩
          rw [wrote] at kept
          cases result with
          | ok _ => exact ⟨kept.configPath, kept.runtimeSettings⟩
          | error _ => exact kept

/-- The settings file is another file than the root file. -/
theorem runtimeOf_separate {state : DynamicConfig} {path root : Text} {settings : RuntimeSettings}
    {effective : AppConfig}
    (built : state.runtimeOf codecs fails path = .ok (settings, effective))
    (named : state.configPath = some root) : samePath root settings.path = false := by
  unfold runtimeOf RuntimeSettings.new at built
  simp only [bind_eq_ok, okOr_eq_ok, refuse_eq_ok, Bool.or_eq_false_iff] at built
  rcases built with ⟨_, found, _, ⟨_, different⟩, _, _, _, _, _, ⟨_, _, same⟩, _, _, _, _, last⟩
  cases same
  cases last
  rw [named] at found
  cases found
  exact different

theorem withRuntimeSettings_separate {state : DynamicConfig} (separate : state.Separate)
    (path : Text) : (state.withRuntimeSettings codecs fails path).Separate := by
  unfold withRuntimeSettings
  cases built : state.runtimeOf codecs fails path with
  | error _ => exact separate
  | ok both =>
      rcases both with ⟨settings, effective⟩
      have kept : SamePaths { state with runtimeSettings := some settings }
          (({ state with runtimeSettings := some settings } : DynamicConfig).store codecs fails
            effective).1 := install_samePaths _ _
      simp only
      split
      · next done _ stored =>
          rw [stored] at kept
          apply kept.separate
          intro attached root same named
          cases same
          exact runtimeOf_separate built named
      · exact separate

theorem apply_separate {state : DynamicConfig} (step : ConfigStep) (separate : state.Separate) :
    (state.apply codecs step).Separate := by
  cases step with
  | withAuditSink sink => exact separate
  | withRuntimeSettings fails path => exact withRuntimeSettings_separate separate path
  | store fails config => exact (install_samePaths _ _).separate separate
  | reload fails => exact (install_samePaths _ _).separate separate
  | applyPatchSaved fails patch save => exact (applyPatchSaved_samePaths _ _ _).separate separate
  | outside files => exact separate

/-- In every reachable state the settings file is not the root file. -/
theorem run_separate (config : AppConfig) (path : Option Text)
    (files : List Component -> StoredFile) (steps : List ConfigStep) :
    (run (apply codecs) (new config path files) steps).Separate := by
  apply invariant Separate
  · intro state step separate
    exact apply_separate step separate
  · intro settings _ attached
    cases attached

end Paths

/-- In every state that is reached, an operation that fails changes nothing,
except when the directory cannot be synced after a save.  A change that
succeeds succeeds again, and is reloaded when it was saved, if its log path was
checked with it and a settings file for it is not too long. -/
theorem changes_repeat_and_reload (codecs : ConfigCodecs) (config : AppConfig) (path : Option Text)
    (files : List Component -> StoredFile) (steps : List ConfigStep) :
    let state := run (apply codecs) (new config path files) steps
    (forall fails stored after error,
      state.store codecs fails stored = (after, .error error) -> after = state) ∧
    (forall fails after error, state.reload codecs fails = (after, .error error) -> after = state) ∧
    (forall fails patch save after error, (save = true -> fails .syncDirectory = false) ->
      state.applyPatchSaved codecs fails patch save = (after, .error error) -> after = state) ∧
    (forall fails patch save after changed,
      state.applyPatchSaved codecs fails patch save = (after, .ok changed) ->
      state.Settled patch ->
      (after.applyPatchSaved codecs noFailure patch save).2 = .ok changed ∧
      (save = true -> Readable codecs state patch ->
        ∃ reread, (after.reload codecs noFailure).2 = .ok reread ∧
          changed.inHours.same reread.inHours = true)) := by
  intro state
  have separate : state.Separate := run_separate config path files steps
  refine ⟨?_, ?_, ?_, ?_⟩
  · intro fails stored after error failed
    exact install_error failed
  · intro fails after error failed
    exact install_error failed
  · intro fails patch save after error works failed
    exact applyPatchSaved_error works failed
  · intro fails patch save after changed done settled
    have whole := changed_of_ok done
    refine ⟨whole.again settled separate, ?_⟩
    intro saves readable
    cases saves
    exact whole.reloaded settled separate readable

/-! ## A renamed log, and a log that was never checked -/

/-- A serde that reads one text. -/
def reading {Value : Type} (value : Value) (text : Text) : Serde Value where
  read := fun _ other => if other = text then some value else none
  write := fun _ _ => none
  reads_back := by
    intro _ _ _ impossible
    cases impossible

def rootPath : Text := "/root.toml".toList

def rootAlone (text : Text) (path : List Component) : StoredFile :=
  if path = components rootPath then .content text else .missing

theorem rootAlone_other (text : Text) {path : List Component} (other : path ≠ components rootPath) :
    rootAlone text path = .missing :=
  if_neg other

/-- All calls work up to the rename. -/
def Early (fails : ConfigCall -> Bool) : Prop :=
  forall call, call ≠ .syncDirectory -> fails call = false

theorem noFailure_early : Early noFailure := fun _ _ => rfl

section Rooted

variable {codecs : ConfigCodecs} {fails : ConfigCall -> Bool} {state : DynamicConfig}
  {root config : AppConfig} {text : Text}

/-- The root file has been written by root, and is valid. -/
structure Rooted (codecs : ConfigCodecs) (root : AppConfig) (text : Text) : Prop where
  short : text.len ≤ maxTrustedBytes
  known : codecs.parse rootPath text = some root
  valid : root.validate codecs.parsers = .ok ()

theorem Rooted.readRootConfig (rooted : Rooted codecs root text) (early : Early fails)
    (files : state.files = rootAlone text) :
    state.readRootConfig codecs fails rootPath = .ok root := by
  have stored : state.fileAt rootPath = .content text := by
    unfold fileAt
    rw [files]
    exact if_pos rfl
  unfold DynamicConfig.readRootConfig
  simp only [stored]
  unfold parsed
  simp only [bind_eq_ok, okOr_eq_ok, refuse_eq_ok]
  refine ⟨(), early _ (by decide), (), ?_, root, rooted.known, (), rooted.valid, rfl⟩
  rw [decide_eq_false_iff_not]
  exact Nat.not_lt_of_le rooted.short

theorem Rooted.validateRuntime (rooted : Rooted codecs root text) (early : Early fails)
    (files : state.files = rootAlone text) (named : state.configPath = some rootPath)
    {settings : RuntimeSettings} (attached : state.runtimeSettings = some settings) :
    state.validateRuntime codecs fails config =
      RuntimeSettings.validate codecs.parsers config root := by
  unfold DynamicConfig.validateRuntime
  rw [attached, named]
  have read := rooted.readRootConfig early files
  change (do
    let ceiling ← state.readRootConfig codecs fails rootPath
    RuntimeSettings.validate codecs.parsers config ceiling) = _
  rw [read]
  rfl

/-- Settings that have no file yet leave the root configuration as it is. -/
theorem Rooted.runtimeOf (rooted : Rooted codecs root text)
    (files : state.files = rootAlone text) (named : state.configPath = some rootPath)
    (inner : state.inner = root) :
    state.runtimeOf codecs noFailure "/settings.toml".toList =
      .ok (⟨"/settings.toml".toList, root⟩, root) := by
  have other : components "/settings.toml".toList ≠ components rootPath := by decide
  have absent : state.fileAt "/settings.toml".toList = .missing := by
    unfold fileAt
    rw [files]
    exact rootAlone_other text other
  unfold DynamicConfig.runtimeOf RuntimeSettings.new
  simp only [bind_eq_ok, okOr_eq_ok, refuse_eq_ok]
  refine ⟨rootPath, named, (), by decide, root, rooted.readRootConfig noFailure_early files,
    (), ?_, _, ⟨(), by decide, rfl⟩, (), rfl, root, ?_, rfl⟩
  · rw [inner, AppConfig.same_refl]
    rfl
  · rw [absent]
    rfl

/-- The configuration that is read is stored at once. -/
theorem Rooted.store (rooted : Rooted codecs root text)
    (files : state.files = rootAlone text) (named : state.configPath = some rootPath)
    (inner : state.inner = root) {settings : RuntimeSettings}
    (attached : state.runtimeSettings = some settings)
    (accepted : RuntimeSettings.validate codecs.parsers root root = .ok ())
    {prepared : Option AuditTarget}
    (audit : state.prepareAudit noFailure root = .ok (root, prepared)) :
    state.store codecs noFailure root = (state.installed root prepared, .ok root) := by
  have transport : sameTransport root.server state.inner.server = true := by
    rw [inner]
    exact sameTransport_of_same (ServerConfig.same_refl _)
  unfold DynamicConfig.store
  rw [rooted.valid, transport, rooted.validateRuntime noFailure_early files named attached,
    accepted, audit]
  rfl

end Rooted

def loggedText : Text := "[audit]\npath = \"/audit.jsonl\"\n".toList

def loggedCodecs : ConfigCodecs :=
  ⟨.loopbackOnly, reading loggedConfig loggedText, settingsSerde "/new.jsonl".toList⟩

theorem logged_rooted : Rooted loggedCodecs loggedConfig loggedText where
  short := by decide
  known := by
    unfold ConfigCodecs.parse loggedCodecs reading
    simp only [if_pos, Option.map_some]
    rfl
  valid := by decide

def loggedSink : AuditTarget := ⟨"/audit.jsonl".toList, loggedConfig.audit⟩

/-- The order in which the server starts. -/
def startup : List ConfigStep :=
  [.withAuditSink loggedSink, .withRuntimeSettings noFailure settingsAt.path]

def started : DynamicConfig :=
  ⟨loggedConfig, some rootPath, some loggedSink, some settingsAt, rootAlone loggedText⟩

theorem run_startup :
    run (apply loggedCodecs) (new loggedConfig (some rootPath) (rootAlone loggedText)) startup =
      started := by
  have whole : run (apply loggedCodecs)
      (new loggedConfig (some rootPath) (rootAlone loggedText)) startup =
        withRuntimeSettings loggedCodecs noFailure
          ⟨loggedConfig, some rootPath, some loggedSink, none, rootAlone loggedText⟩
          "/settings.toml".toList := rfl
  have audit : started.prepareAudit noFailure loggedConfig = .ok (loggedConfig, some loggedSink) := by
    unfold prepareAudit
    simp only [bind_eq_ok, refuse_eq_ok]
    exact ⟨(), by decide, rfl⟩
  have stored : started.store loggedCodecs noFailure loggedConfig =
      (started.installed loggedConfig (some loggedSink), .ok loggedConfig) :=
    logged_rooted.store rfl rfl rfl rfl (by decide) audit
  unfold started settingsAt at stored
  rw [whole]
  unfold withRuntimeSettings
  rw [logged_rooted.runtimeOf rfl rfl rfl]
  simp only
  rw [stored]
  rfl

def renameLog : ConfigPatch :=
  { ConfigPatch.empty with audit := some ⟨none, some "/new.jsonl".toList, none, none, none⟩ }

/-- Renaming the log passes every check. -/
theorem renameLog_checked {fails : ConfigCall -> Bool} (early : Early fails) :
    started.checkedPatch loggedCodecs fails renameLog =
      .ok (renamedLog "/new.jsonl".toList,
        some ⟨"/new.jsonl".toList, (renamedLog "/new.jsonl".toList).audit⟩) := by
  have patched : renameLog.applyTo started.inner = renamedLog "/new.jsonl".toList := rfl
  have runtime : started.validateRuntime loggedCodecs fails (renamedLog "/new.jsonl".toList) =
      .ok () := by
    rw [logged_rooted.validateRuntime early rfl rfl rfl]
    decide
  have opened : fails .openLog = false := early _ (by decide)
  unfold checkedPatch
  rw [patched, runtime]
  simp only [bind_eq_ok, refuse_eq_ok, forSome_eq_ok]
  refine ⟨(), rfl, (), fun _ _ => rfl, (), by decide, (), trivial, ?_⟩
  unfold prepareAudit
  simp only [bind_eq_ok, refuse_eq_ok]
  refine ⟨(), by decide, ?_⟩
  unfold started prepare
  simp only [opened, Bool.and_false]
  rfl

/-- It is written, and the directory is synced last. -/
theorem renameLog_persisted {fails : ConfigCall -> Bool} (early : Early fails) :
    started.persist loggedCodecs fails (renamedLog "/new.jsonl".toList) =
      (started.replaced settingsAt.path (settingsText "/new.jsonl".toList),
        refuse (fails .syncDirectory) .internal) := by
  have runtime : started.validateRuntime loggedCodecs fails (renamedLog "/new.jsonl".toList) =
      .ok () := by
    rw [logged_rooted.validateRuntime early rfl rfl rfl]
    decide
  have file : started.persisted loggedCodecs (renamedLog "/new.jsonl".toList) =
      .ok (settingsAt.path, settingsText "/new.jsonl".toList) := by
    have wrote := written_settings "/new.jsonl".toList
    unfold started persisted
    simp only [bind_eq_ok, okOr_eq_ok]
    exact ⟨_, wrote, rfl⟩
  have works : (fails .createTemporary || fails .writeTemporary || fails .syncTemporary ||
      fails .rename) = false := by
    rw [early .createTemporary (by decide), early .writeTemporary (by decide),
      early .syncTemporary (by decide), early .rename (by decide)]
    rfl
  unfold persist
  rw [runtime, file, works]
  rfl

/-- The live configuration after the log was renamed and saved. -/
def renamed : DynamicConfig :=
  (started.replaced settingsAt.path (settingsText "/new.jsonl".toList)).installed
    (renamedLog "/new.jsonl".toList)
    (some ⟨"/new.jsonl".toList, (renamedLog "/new.jsonl".toList).audit⟩)

theorem renameLog_applied :
    started.applyPatchSaved loggedCodecs noFailure renameLog true =
      (renamed, .ok (renamedLog "/new.jsonl".toList)) := by
  unfold applyPatchSaved
  rw [renameLog_checked noFailure_early]
  simp only [if_true]
  rw [renameLog_persisted noFailure_early]
  rfl

theorem renameLog_readable : Readable loggedCodecs started renameLog := by
  intro settings text attached wrote
  cases attached
  have written : settingsAt.written (settingsSerde "/new.jsonl".toList)
      (renamedLog "/new.jsonl".toList) = some text := wrote
  rw [written_settings] at written
  rw [← Option.some.inj written]
  exact settingsText_short

/-- The renamed log is repeated and reloaded. -/
theorem renamed_log_kept :
    (renamed.applyPatchSaved loggedCodecs noFailure renameLog true).2 =
        .ok (renamedLog "/new.jsonl".toList) ∧
      ∃ reread, (renamed.reload loggedCodecs noFailure).2 = .ok reread ∧
        (renamedLog "/new.jsonl".toList).inHours.same reread.inHours = true := by
  have kept := (changes_repeat_and_reload loggedCodecs loggedConfig (some rootPath)
    (rootAlone loggedText) startup).2.2.2 noFailure renameLog true renamed
      (renamedLog "/new.jsonl".toList)
  rw [run_startup] at kept
  have settled : started.Settled renameLog := fun absent => nomatch absent
  rcases kept renameLog_applied settled with ⟨again, reloaded⟩
  exact ⟨again, reloaded rfl renameLog_readable⟩

/-! A root file without a log path, and a sink that is attached after the
settings. -/

def lateCodecs : ConfigCodecs :=
  ⟨.loopbackOnly, reading AppConfig.standard [], reading ConfigPatch.empty []⟩

theorem late_rooted : Rooted lateCodecs AppConfig.standard [] where
  short := by decide
  known := by
    unfold ConfigCodecs.parse lateCodecs reading
    simp only [if_pos, Option.map_some]
    rfl
  valid := by decide

def lateSink : List ConfigStep :=
  [.withRuntimeSettings noFailure "/settings.toml".toList, .withAuditSink loggedSink]

def sinkless : DynamicConfig :=
  ⟨AppConfig.standard, some rootPath, none, some ⟨"/settings.toml".toList, AppConfig.standard⟩,
    rootAlone []⟩

theorem run_lateSink :
    run (apply lateCodecs) (new AppConfig.standard (some rootPath) (rootAlone [])) lateSink =
      sinkless.withAuditSink loggedSink := by
  have whole : run (apply lateCodecs)
      (new AppConfig.standard (some rootPath) (rootAlone [])) lateSink =
        (withRuntimeSettings lateCodecs noFailure
          ⟨AppConfig.standard, some rootPath, none, none, rootAlone []⟩
          "/settings.toml".toList).withAuditSink loggedSink := rfl
  have audit : sinkless.prepareAudit noFailure AppConfig.standard =
      .ok (AppConfig.standard, none) := by
    unfold prepareAudit
    simp only [bind_eq_ok, refuse_eq_ok]
    exact ⟨(), by decide, rfl⟩
  have stored : sinkless.store lateCodecs noFailure AppConfig.standard =
      (sinkless.installed AppConfig.standard none, .ok AppConfig.standard) :=
    late_rooted.store rfl rfl rfl rfl (by decide) audit
  unfold sinkless at stored
  rw [whole]
  unfold withRuntimeSettings
  rw [late_rooted.runtimeOf rfl rfl rfl]
  simp only
  rw [stored]
  rfl

/-- The sink's path enters the configuration after the checks. -/
def lateConfig : AppConfig := withLogPath AppConfig.standard (some loggedSink.path)

def filledIn : DynamicConfig :=
  (sinkless.withAuditSink loggedSink).installed lateConfig
    (some ⟨loggedSink.path, lateConfig.audit⟩)

theorem late_applied :
    (sinkless.withAuditSink loggedSink).applyPatchSaved lateCodecs noFailure ConfigPatch.empty
      false = (filledIn, .ok lateConfig) := by
  have patched : ConfigPatch.empty.applyTo (sinkless.withAuditSink loggedSink).inner =
      AppConfig.standard := rfl
  have runtime : (sinkless.withAuditSink loggedSink).validateRuntime lateCodecs noFailure
      AppConfig.standard = .ok () := by
    rw [late_rooted.validateRuntime noFailure_early rfl rfl rfl]
    decide
  have checked : (sinkless.withAuditSink loggedSink).checkedPatch lateCodecs noFailure
      ConfigPatch.empty = .ok (lateConfig, some ⟨loggedSink.path, lateConfig.audit⟩) := by
    unfold checkedPatch
    rw [patched, runtime]
    simp only [bind_eq_ok, refuse_eq_ok, forSome_eq_ok]
    refine ⟨(), rfl, (), fun _ _ => rfl, (), by decide, (), trivial, ?_⟩
    unfold prepareAudit
    simp only [bind_eq_ok, refuse_eq_ok]
    exact ⟨(), by decide, rfl⟩
  unfold applyPatchSaved
  rw [checked]
  rfl

theorem late_refused :
    (filledIn.applyPatchSaved lateCodecs noFailure ConfigPatch.empty false).2 =
      .error .permissionDenied := by
  have patched : ConfigPatch.empty.applyTo filledIn.inner = lateConfig := rfl
  have valid : lateConfig.validate lateCodecs.parsers = .ok () := by decide
  have runtime : filledIn.validateRuntime lateCodecs noFailure lateConfig =
      .error .permissionDenied := by
    rw [late_rooted.validateRuntime noFailure_early rfl rfl rfl]
    decide
  have checked : filledIn.checkedPatch lateCodecs noFailure ConfigPatch.empty =
      .error .permissionDenied := by
    unfold checkedPatch
    rw [patched, valid, runtime]
    rfl
  unfold applyPatchSaved
  rw [checked]

/-- Only the sync of the directory fails. -/
def unsynced (call : ConfigCall) : Bool := call == .syncDirectory

/-- A change that succeeded is refused when it is made again, and a change that
fails has written its file. -/
theorem late_log_and_unsynced_save :
    (∃ after changed,
      (run (apply lateCodecs) (new AppConfig.standard (some rootPath) (rootAlone []))
        lateSink).applyPatchSaved lateCodecs noFailure ConfigPatch.empty false =
          (after, .ok changed) ∧
      (after.applyPatchSaved lateCodecs noFailure ConfigPatch.empty false).2 =
        .error .permissionDenied) ∧
    ∃ after, (run (apply loggedCodecs) (new loggedConfig (some rootPath) (rootAlone loggedText))
        startup).applyPatchSaved loggedCodecs unsynced renameLog true =
          (after, .error .internal) ∧
      (run (apply loggedCodecs) (new loggedConfig (some rootPath) (rootAlone loggedText))
        startup).fileAt settingsAt.path = .missing ∧
      after.fileAt settingsAt.path = .content (settingsText "/new.jsonl".toList) := by
  have early : Early unsynced := by
    intro call other
    unfold unsynced
    rw [beq_eq_false_iff_ne]
    exact other
  rw [run_lateSink, run_startup]
  refine ⟨⟨filledIn, lateConfig, late_applied, late_refused⟩,
    started.replaced settingsAt.path (settingsText "/new.jsonl".toList), ?_, ?_, ?_⟩
  · unfold applyPatchSaved
    rw [renameLog_checked early]
    simp only [if_true]
    rw [renameLog_persisted early]
    rfl
  · have other : components settingsAt.path ≠ components rootPath := by decide
    exact rootAlone_other loggedText other
  · simp only [fileAt, replaced, if_true]

end DynamicConfig

end TealDrive
