import TealDrive.Accounts.Cleanup
import TealDrive.Accounts.HistoryPages
import TealDrive.Helper.Rename

namespace TealDrive

open Outcome

/-!
# Publishing a result

Writes, uploads, copies, archives and extractions grow their result under a
private name beside the destination, and rename it when it is complete.  The
private name carries the identifier of the operation.  The journal writes down
the same path beforehand, and the clean-up worker reads it from there when a
crash left the private entry behind.

The journal cuts the parent off the text of the destination, the transaction
off its canonical spelling.  The two are one path exactly when the text ends in
a name.
-/

/-- The path whose entry is new after the operation. -/
def HelperRequest.result (request : HelperRequest) : Option RelativePath :=
  match request.command with
  | .writeFile | .uploadCommit => some request.relativePath
  | _ => request.targetRelativePath

/-- The request with another path for its result. -/
def HelperRequest.withResult (request : HelperRequest) (path : RelativePath) : HelperRequest :=
  match request.command with
  | .writeFile | .uploadCommit => { request with relativePath := path }
  | _ => { request with targetRelativePath := some path }

/-- `extension`. -/
def HelperCommand.extension : HelperCommand -> Text
  | .compressZip => ".zip".toList
  | .compressTarGz => ".tar.gz".toList
  | _ => []

def stagingName (artifact : Text) (command : HelperCommand) : Text :=
  ".tdrv-transaction-".toList ++ (artifact ++ command.extension)

/-- The private path beside a destination. -/
def stagingEntry (artifact : Text) (command : HelperCommand) (clean : RelativePath) :
    RelativePath :=
  let name := stagingName artifact command
  let parent := rawParent clean
  if parent = [] then ⟨name⟩ else ⟨parent ++ '/' :: name⟩

/-- The private name is hidden, the destination may not be. -/
def AppConfig.showHidden (config : AppConfig) : AppConfig :=
  { config with roots := config.roots.map (fun root => { root with hiddenFilesAllowed := true }) }

namespace Context

section Revision

/-! ## Revisions and permissions -/

variable (fingerprint : Stat -> List UInt8 -> Text)

/-- `revision::matches`.  The digest of a file's identity and content is an
argument. -/
def revisionMatches (context : Context) (calls : Calls) (disk : Node) (path : RelativePath)
    (expected : Text) : Bool :=
  if expected = "missing".toList then
    match context.sandboxOpen calls disk .item path .path with
    | .error error => error.isNotFound
    | .ok _ => false
  else
    match context.sandboxOpen calls disk .item path .read with
    | .ok (.leaf (.file stat bytes)) =>
        decide (bytes.length ≤ context.request.limits.maxTextEditSize) &&
          fingerprint stat bytes == expected
    | _ => false

/-- A write whose expected revision is not the one found. -/
def revisionChanged (context : Context) (calls : Calls) (disk : Node) (clean : RelativePath) :
    Bool :=
  context.request.command == .writeFile &&
    (context.request.writeOptions.bind (fun options => options.expectedRevision)).any
      (fun expected => !context.revisionMatches fingerprint calls disk clean expected)

/-- `preserve_permissions`.  Access control lists are not part of the tree. -/
def preservePermissions (context : Context) (calls : Calls) (disk : Node)
    (original staged : RelativePath) : Except IoError Node :=
  match context.sandboxOpen calls disk .source original .read with
  | .error error => if error.isNotFound then .ok disk else .error error
  | .ok (.leaf (.file stat _)) => do
      let target ← context.sandboxOpen calls disk .target staged .write
      calls.attempt (.write (segmentNames staged.value))
      match target, (segmentNames staged.value).getLast? with
      | .leaf (.file own bytes), some name =>
          .ok (disk.place (segmentNames staged.value).dropLast name
            (.leaf (.file { own with
              uid := stat.uid, gid := stat.gid
              mode := own.mode / 4096 * 4096 + stat.mode % 512 } bytes)))
      | _, _ => .ok disk
  | .ok _ => .ok disk

end Revision

/-! ## `execute_inner` -/

section Execute

variable (uuids : UuidFormat) (codec : TrashCodec) (fingerprint : Stat -> List UInt8 -> Text)

/-- What is checked before anything is written: the private path and the
destination in its canonical spelling. -/
def prepare (context : Context) (calls : Calls) (disk : Node) :
    Except Refusal (RelativePath × RelativePath) := do
  let request := context.request
  let _ ← okOr context.root? (.permissionDenied "Unknown root.")
  mapError Refusal.ofTealDrive
    (HelperAccess.authorize uuids context.aliases request context.config)
  mapError (fun _ => Refusal.permissionDenied "Operation denied by helper policy.")
    (HelperPolicy.authorize uuids context.aliases request context.config)
  let destination ← okOr request.result (.permissionDenied "Missing destination.")
  let clean ← mapError
    (fun _ => Refusal.permissionDenied "Destination must be a new file or directory.")
    (validateRelativePath destination)
  refuse (clean.value == [])
    (.permissionDenied "Destination must be a new file or directory.")
  refuse (context.revisionChanged fingerprint calls disk clean)
    ⟨.revisionConflict, "File revision changed.", "revision_conflict"⟩
  return (stagingEntry calls.artifact request.command clean, clean)

/-- The length of the file that a write replaces. -/
def previousLength (context : Context) (calls : Calls) (disk : Node) (clean : RelativePath) : Nat :=
  match context.sandboxOpen calls disk .target clean .path with
  | .ok (.leaf (.file _ bytes)) => bytes.length
  | _ => 0

/-- What the operation may write: a write may use again what it replaces. -/
def available (context : Context) (calls : Calls) (disk : Node) (clean : RelativePath) :
    Option Nat :=
  calls.budget.map (fun remaining =>
    if context.request.command = .writeFile then
      saturateU64 (remaining + context.previousLength calls disk clean)
    else remaining)

/-- The request that grows the result under the private path. -/
def staged (context : Context) (staging clean : RelativePath) : Context where
  config := context.config.showHidden
  request := context.request.withResult staging
  aliases := context.aliases ++ [(staging, clean)]

/-- The result gets its name. -/
def publish (context : Context) (calls : Calls) (written : Node) (staging clean : RelativePath) :
    Node × Except Refusal Unit :=
  match calls.attempt .cancelled with
  | .error _ => (written, .error (.permissionDenied "Operation cancelled before publication."))
  | .ok () =>
      if context.revisionChanged fingerprint calls written clean then
        (written, .error ⟨.revisionConflict, "File revision changed before publication.",
          "revision_conflict"⟩)
      else
        let preserved :=
          if context.request.command = .writeFile then
            context.preservePermissions calls written clean staging
          else .ok written
        match preserved with
        | .error error => (written, .error (.ofIo error))
        | .ok preserved =>
            match context.rename calls preserved staging clean
                (context.request.command == .writeFile) with
            | .error error => (preserved, .error (.ofIo error))
            | .ok published => (published, .ok ())

/-- What is left under the private path is removed. -/
def dropStaging (calls : Calls) (disk : Node) (staging : RelativePath) : Node :=
  match calls.attempt (.remove (segmentNames staging.value)), removePath disk staging with
  | .ok (), .ok removed => removed
  | _, _ => disk

/-- `execute_inner`.  What handles a request is given the policy in force, and
`closing` are the calls after it. -/
def executeInner
    (others : AppConfig -> Context -> Calls -> Node -> Node × Except Refusal TrashPayload)
    (context : Context) (calls closing : Calls) (disk : Node) :
    Node × Except Refusal TrashPayload :=
  if context.request.command.staged then
    match context.prepare uuids fingerprint calls disk with
    | .error refusal => (disk, .error refusal)
    | .ok (staging, clean) =>
        match (context.staged staging clean).handleHelperRequest uuids codec (others context.config)
            { calls with budget := context.available calls disk clean } disk with
        | (written, .error refusal) => (dropStaging closing written staging, .error refusal)
        | (written, .ok payload) =>
            match (context.withAlias staging clean).publish fingerprint closing written staging
                clean with
            | (left, .error refusal) => (dropStaging closing left staging, .error refusal)
            | (published, .ok ()) => (dropStaging closing published staging, .ok payload)
  else context.handleHelperRequest uuids codec (others context.config) calls disk

end Execute

end Context

/-! ## The recorded path -/

section Recorded

variable {format : JournalFormat} {request : HelperRequest} {destination : RelativePath}

theorem HelperCommand.extension_eq (command : HelperCommand) :
    command.extension = stagingSuffix command := by
  cases command <;> rfl

theorem stagingName_eq (artifact : Text) (command : HelperCommand) :
    stagingName artifact command =
      ".tdrv-transaction-".toList ++ (artifact ++ stagingSuffix command) :=
  congrArg (fun suffix => ".tdrv-transaction-".toList ++ (artifact ++ suffix))
    command.extension_eq

/-- A name after the parent's text is the name beside the path. -/
theorem siblingTarget_eq_parentText (path : RelativePath) (name : Text) :
    siblingTarget path ⟨name⟩ = ⟨parentText path ++ name⟩ := by
  rw [siblingTarget, parentText]
  by_cases top : rawParent path = []
  · simp [top]
  · simp [top]

theorem stagingPath_eq (id : Uuid) (staged : request.command.staged = true) :
    stagingPath format request id = request.result.map (fun path =>
      ⟨parentText path ++ ".tdrv-transaction-".toList ++ format.idText id ++
        stagingSuffix request.command⟩) := by
  rw [stagingPath, if_pos staged]
  rfl

/-- The recorded path is the private name beside the text of the destination. -/
theorem stagingPath_of_result (id : Uuid) (staged : request.command.staged = true)
    (given : request.result = some destination) :
    stagingPath format request id =
      some (siblingTarget destination ⟨stagingName (format.idText id) request.command⟩) := by
  rw [stagingPath_eq id staged, given, siblingTarget_eq_parentText, Option.map_some]
  apply congrArg (fun text => some (RelativePath.mk text))
  rw [stagingName_eq, List.append_assoc, List.append_assoc]

/-- The record says where the result goes. -/
theorem recordedResult_newRecord (actor : Account) (id epoch : Uuid) (at_ : Nat)
    (staged : request.command.staged = true) (given : request.result = some destination) :
    recordedResult (newRecord format actor request id epoch at_) = .ok destination := by
  change (if request.command.action = .write ∨ request.command.action = .upload then
    .ok request.relativePath
    else okOr (recordTarget format request id) StoreError.invalidInput) = _
  cases command : request.command with
  | writeFile | uploadCommit =>
      rw [HelperRequest.result, command] at given
      cases given
      rfl
  | copy | compressZip | compressTarGz | extractArchive =>
      rw [HelperRequest.result, command] at given
      rw [recordTarget, command]
      change okOr request.targetRelativePath _ = _
      rw [okOr_eq_ok]
      exact given
  | _ =>
      rw [command] at staged
      cases staged

/-- The private name is one of the three that the worker knows. -/
theorem stagingName_mem (stem id : Text) (command : HelperCommand) :
    stem ++ stagingName id command ∈
      [stem ++ ".tdrv-transaction-".toList ++ id,
        stem ++ ".tdrv-transaction-".toList ++ id ++ ".zip".toList,
        stem ++ ".tdrv-transaction-".toList ++ id ++ ".tar.gz".toList] := by
  have spelled : stem ++ stagingName id command =
      stem ++ ".tdrv-transaction-".toList ++ id ++ stagingSuffix command := by
    rw [stagingName_eq, List.append_assoc, List.append_assoc]
  rw [spelled]
  cases command with
  | compressZip => exact List.mem_cons_of_mem _ List.mem_cons_self
  | compressTarGz => exact List.mem_cons_of_mem _ (List.mem_cons_of_mem _ List.mem_cons_self)
  | _ =>
      change _ ++ [] ∈ _
      rw [List.append_nil]
      exact List.mem_cons_self

/-- The clean-up worker accepts the record of an operation that has begun. -/
theorem stageTarget_newRecord (actor : Account) (id epoch : Uuid) (at_ : Nat)
    (staged : request.command.staged = true) (given : request.result = some destination) :
    stageTarget format (newRecord format actor request id epoch at_) =
      .ok (siblingTarget destination ⟨stagingName (format.idText id) request.command⟩,
        destination) := by
  have allowed : stagedActions.contains request.command.action = true := by
    cases command : request.command <;> rw [command] at staged <;> first | rfl | cases staged
  simp only [stageTarget, bind_eq_ok, refuse_eq_ok, pure_eq_ok, okOr_eq_ok]
  refine ⟨_, stagingPath_of_result id staged given, _,
    recordedResult_newRecord actor id epoch at_ staged given, (), ?_, (), ?_, rfl⟩
  · rw [siblingTarget_eq_parentText, Bool.not_eq_false', List.contains_eq_mem, decide_eq_true_iff]
    exact stagingName_mem _ _ _
  · change (!stagedActions.contains request.command.action || false) = false
    rw [allowed]
    rfl

/-! ## The private path -/

theorem stagingEntry_eq (artifact : Text) (command : HelperCommand) (clean : RelativePath) :
    stagingEntry artifact command clean = siblingTarget clean ⟨stagingName artifact command⟩ := rfl

/-- The private name is one name, when the identifier is written in hexadecimal
digits and hyphens. -/
theorem stagingName_single {artifact : Text} (command : HelperCommand)
    (plain : forall symbol, symbol ∈ artifact -> uuidSymbol symbol = true) :
    segmentNames (stagingName artifact command) = [stagingName artifact command] ∧
      ValidPath ⟨stagingName artifact command⟩ := by
  have absent : forall symbol, (symbol = '/' ∨ symbol = '\x00') ->
      symbol ∉ stagingName artifact command := by
    intro symbol bad member
    rw [stagingName_eq] at member
    rcases List.mem_append.mp member with marked | later
    · rcases bad with rfl | rfl <;> exact absurd marked (by decide)
    · rcases List.mem_append.mp later with digit | suffix
      · have written := plain symbol digit
        rcases bad with rfl | rfl <;> cases written
      · cases command <;> rcases bad with rfl | rfl <;> exact absurd suffix (by decide)
  have start : ∃ rest, stagingName artifact command = '.' :: 't' :: rest := ⟨_, rfl⟩
  rcases start with ⟨rest, spelled⟩
  have single : segmentNames (stagingName artifact command) = [stagingName artifact command] := by
    rw [segmentNames, Segments.names_of_separator_not_mem (absent '/' (.inl rfl)), spelled]
    rfl
  refine ⟨single, absent '\x00' (.inr rfl), ?_, ?_⟩
  · change isAbsolute (stagingName artifact command) = false
    rw [spelled]
    rfl
  · change "..".toList ∉ segmentNames (stagingName artifact command)
    rw [single, List.mem_singleton, spelled]
    intro parent
    cases parent

/-- The recorded path and the private path are one exactly when the text of the
destination ends in a name. -/
theorem recorded_iff {clean : RelativePath} {artifact : Text} (command : HelperCommand)
    (plain : forall symbol, symbol ∈ artifact -> uuidSymbol symbol = true)
    (validated : validateRelativePath destination = .ok clean) (filled : clean.value ≠ []) :
    validateRelativePath (siblingTarget destination ⟨stagingName artifact command⟩) =
        .ok (stagingEntry artifact command clean) ↔ endsDull destination = false := by
  rcases validateRelativePath_eq_ok_iff.mp validated with ⟨valid, rfl⟩
  rcases stagingName_single command plain with ⟨single, nameValid⟩
  have named : segmentNames destination.value ≠ [] := by
    intro none
    exact filled (congrArg (Segments.join '/') none)
  rw [stagingEntry_eq]
  apply siblingTarget_destination_iff valid named nameValid single
    (validate_siblingTarget valid nameValid single)
  rw [segmentNames_siblingTarget, segmentNames_rawParent_canonicalText, single]

end Recorded

/-! ## What a transaction does to the tree -/

theorem HelperRequest.checkPath_result {uuids : UuidFormat} {request : HelperRequest}
    {config : AppConfig} {destination : RelativePath} (staged : request.command.staged = true)
    (given : request.result = some destination)
    (allowed : PathsAllowed uuids [] request config) :
    ∃ access, request.checkPath [] config destination access = .ok () := by
  have path : request.result = some request.relativePath ∨
      (request.result = request.targetRelativePath ∧ request.command ≠ .rename) := by
    unfold HelperRequest.result
    cases command : request.command <;> rw [command] at staged <;>
      first | exact .inl rfl | exact .inr ⟨rfl, by decide⟩ | cases staged
  have open_ : request.pathExempt uuids = false := by
    unfold HelperRequest.pathExempt
    cases command : request.command <;> rw [command] at staged <;> first | rfl | cases staged
  rcases path with same | ⟨same, other⟩
  · rw [same] at given
    cases given
    exact ⟨_, allowed.path open_⟩
  · have target := allowed.target destination (same ▸ given)
    rw [HelperRequest.destination, if_neg other] at target
    exact ⟨_, target⟩

namespace Context

section Published

variable {uuids : UuidFormat} {fingerprint : Stat -> List UInt8 -> Text} {config : AppConfig}
  {request : HelperRequest} {calls : Calls} {disk : Node} {staging clean : RelativePath}

theorem prepare_ok
    (prepared : prepare uuids fingerprint ⟨config, request, []⟩ calls disk = .ok (staging, clean)) :
    ∃ destination, request.result = some destination ∧
      validateRelativePath destination = .ok clean ∧ clean.value ≠ [] ∧
      staging = stagingEntry calls.artifact request.command clean ∧
      PathsAllowed uuids [] request config := by
  simp only [prepare, bind_eq_ok, okOr_eq_ok, mapError_eq_ok, refuse_eq_ok, pure_eq_ok,
    Prod.mk.injEq] at prepared
  rcases prepared with ⟨_, _, _, allowed, _, _, destination, given, _, validated, _, filled, _, _,
    rfl, rfl⟩
  exact ⟨destination, given, validated, beq_eq_false_iff_ne.mp filled, rfl,
    (HelperAccess.authorize_eq_ok_iff uuids).mp allowed⟩

/-- The private path and the destination are two entries of one directory. -/
theorem prepare_beside (staged : request.command.staged = true)
    (plain : forall symbol, symbol ∈ calls.artifact -> uuidSymbol symbol = true)
    (prepared : prepare uuids fingerprint ⟨config, request, []⟩ calls disk = .ok (staging, clean)) :
    ∃ parent name other, segmentNames staging.value = parent ++ [name] ∧
      segmentNames clean.value = parent ++ [other] ∧ other ≠ name := by
  rcases prepare_ok prepared with ⟨destination, given, validated, filled, rfl, allowed⟩
  rcases HelperRequest.checkPath_result staged given allowed with ⟨access, accepted⟩
  rcases validateRelativePath_eq_ok_iff.mp validated with ⟨_, rfl⟩
  have single := (stagingName_single request.command plain).1
  cases listed : segmentNames destination.value using List.reverseRecOn with
  | nil => exact absurd (congrArg (Segments.join '/') listed) filled
  | append_singleton parent other =>
      refine ⟨parent, stagingName calls.artifact request.command, other, ?_, ?_, ?_⟩
      · rw [stagingEntry_eq, segmentNames_siblingTarget, segmentNames_rawParent_canonicalText,
          listed, List.dropLast_concat, single]
      · rw [segmentNames_canonicalText, listed]
      · rintro rfl
        have member : stagingName calls.artifact request.command ∈
            segmentNames destination.value := by
          rw [listed]
          exact List.mem_append_right _ List.mem_cons_self
        have denied := AccessPolicy.deniesComponent_of_check accepted member
        have marked : ".tdrv-transaction-".toList.isPrefixOf
            (stagingName calls.artifact request.command) = true :=
          List.isPrefixOf_iff_prefix.mpr (List.prefix_append _ _)
        rw [AccessPolicy.deniesComponent, marked, Bool.or_true] at denied
        cases denied

/-- A published entry is moved. -/
theorem publish_moved {context : Context} {written published : Node} {closing : Calls}
    (apart : ¬ segmentNames clean.value <+: segmentNames staging.value)
    (done : context.publish fingerprint closing written staging clean = (published, .ok ())) :
    ∃ preserved, Moved preserved published (segmentNames staging.value)
      (segmentNames clean.value) := by
  unfold publish at done
  split at done
  · cases done
  · split at done
    · cases done
    · dsimp only at done
      split at done
      · cases done
      · next preserved _ =>
          split at done
          · cases done
          · next renamed =>
              cases done
              exact ⟨preserved, rename_moved (fun _ => apart) renamed⟩

/-- Removing what is left under the private path keeps the published entry. -/
theorem dropStaging_moved {before published : Node} {closing : Calls} {parent : List Text}
    {name other : Text} (private_ : segmentNames staging.value = parent ++ [name])
    (public_ : segmentNames clean.value = parent ++ [other]) (different : other ≠ name)
    (moved : Moved before published (segmentNames staging.value) (segmentNames clean.value)) :
    Moved before (dropStaging closing published staging) (segmentNames staging.value)
      (segmentNames clean.value) := by
  unfold dropStaging
  split
  · next removed done =>
      unfold removePath at done
      rw [private_, List.getLast?_concat, List.dropLast_concat] at done
      cases done
      rcases moved with ⟨⟨item, found, there⟩, gone⟩
      refine ⟨⟨item, found, ?_⟩, ?_⟩
      · rw [public_] at there ⊢
        rw [NamedTree.lookup_remove_of_ne, there]
        · intro inside
          have sizes := inside.length_le
          rw [List.length_append, List.length_singleton] at sizes
          omega
        · intro inside
          have same := inside.eq_of_length (by simp)
          exact different (List.singleton_inj.mp (List.append_cancel_left same)).symm
      · rw [private_]
        exact NamedTree.lookup_remove_self
  · exact moved

/-- A transaction that succeeds has moved an entry from the private path to the
destination. -/
theorem executeInner_published {codec : TrashCodec}
    {others : AppConfig -> Context -> Calls -> Node -> Node × Except Refusal TrashPayload}
    {closing : Calls} {after : Node} {payload : TrashPayload}
    (staged : request.command.staged = true)
    (plain : forall symbol, symbol ∈ calls.artifact -> uuidSymbol symbol = true)
    (prepared : prepare uuids fingerprint ⟨config, request, []⟩ calls disk = .ok (staging, clean))
    (done : executeInner uuids codec fingerprint others ⟨config, request, []⟩ calls closing disk =
      (after, .ok payload)) :
    ∃ before, Moved before after (segmentNames staging.value) (segmentNames clean.value) := by
  rcases prepare_beside staged plain prepared with ⟨parent, name, other, private_, public_, different⟩
  unfold executeInner at done
  rw [if_pos staged, prepared] at done
  dsimp only at done
  split at done
  · cases done
  · split at done
    · cases done
    · next published renamed =>
        cases done
        have apart : ¬ segmentNames clean.value <+: segmentNames staging.value := by
          rw [private_, public_]
          intro inside
          have same := inside.eq_of_length (by simp)
          exact different (List.singleton_inj.mp (List.append_cancel_left same))
        rcases publish_moved apart renamed with ⟨before, moved⟩
        exact ⟨before, dropStaging_moved private_ public_ different moved⟩

end Published

end Context

/-! ## Clean-up -/

/-- The record leads the clean-up worker to the private entry, and tells it the
destination. -/
def StagingReached (format : JournalFormat) (record : OperationRecord)
    (destination staging : RelativePath) : Prop :=
  ∃ path, record.stagingPath = some path ∧ validateRelativePath path = .ok staging ∧
    stageTarget format record = .ok (path, destination)

/-- The record of a staged operation is new. -/
theorem beginOperation_staged {format : JournalFormat} {journal : JournalConfig}
    {draws : Store.Draws} {ledger : Store.Ledger} {account : Account} {request : HelperRequest}
    {at_ : Nat} {store after : Store} {record : OperationRecord}
    (staged : request.command.staged = true)
    (begun : store.beginOperation format journal draws ledger account request at_ =
      (.ok record, after)) :
    ∃ actor epoch, record = newRecord format actor request draws.id epoch at_ ∧
      ∃ kept trash staging, Store.Inserted account.id record (store.ensureEpoch draws.epoch) after
        kept trash staging := by
  have other : request.command ≠ .readFileRange := by
    intro range
    rw [range] at staged
    cases staged
  unfold Store.beginOperation at begun
  dsimp only at begun
  split at begun
  · cases begun
  · next actor outcome =>
      simp only [bind_eq_ok, pure_eq_ok, Prod.mk.injEq] at outcome
      rcases outcome with ⟨_, _, _, acting, _, _, rfl, _⟩
      rcases Store.operationActor_ok acting with ⟨row, caller, rfl⟩
      rcases Store.beginNew_ok begun with ⟨made, inserted⟩
      exact ⟨_, _, made, inserted⟩
  · next outcome =>
      simp only [bind_eq_ok, pure_eq_ok, Prod.mk.injEq] at outcome
      rcases outcome with ⟨_, _, _, _, _, earlier, _, rfl⟩
      simp only [Store.earlierRecord] at earlier
      cases earlier

/-- The record of an accepted operation that gets to its private path leads the
clean-up worker to that path exactly when the text of the destination ends in a
name, and not in a separator or a dot.  What is published comes from there. -/
theorem staging_reached (uuids : UuidFormat) (codec : TrashCodec)
    (fingerprint : Stat -> List UInt8 -> Text)
    (others : AppConfig -> Context -> Calls -> Node -> Node × Except Refusal TrashPayload)
    (format : JournalFormat) (texts : UuidTexts format) (journal : JournalConfig)
    (draws : Store.Draws) (fits : draws.id < 2 ^ 128) (ledger : Store.Ledger) (account : Account)
    (request : HelperRequest) (staged : request.command.staged = true) (at_ : Nat)
    (store after : Store) (record : OperationRecord)
    (begun : store.beginOperation format journal draws ledger account request at_ =
      (.ok record, after))
    (config : AppConfig) (calls closing : Calls) (disk : Node)
    (artifact : calls.artifact = format.idText record.id) (staging clean : RelativePath)
    (prepared : Context.prepare uuids fingerprint ⟨config, request, []⟩ calls disk =
      .ok (staging, clean)) :
    after.operations.find record.key = some record ∧
      after.stagingExpiry.find (record.accountId, record.id) = some record ∧
      (∃ destination, request.result = some destination ∧
        validateRelativePath destination = .ok clean ∧
        (StagingReached format record destination staging ↔ endsDull destination = false)) ∧
      forall final payload,
        Context.executeInner uuids codec fingerprint others ⟨config, request, []⟩ calls closing
          disk = (final, .ok payload) ->
        ∃ before, Moved before final (segmentNames staging.value) (segmentNames clean.value) := by
  rcases beginOperation_staged staged begun with ⟨actor, epoch, made, kept, trash, tokens, inserted⟩
  rcases Context.prepare_ok prepared with ⟨destination, given, validated, filled, entry, _⟩
  have id : record.id = draws.id := by rw [made]; rfl
  have plain := texts.symbols draws.id fits
  rw [id] at artifact
  have path : record.stagingPath =
      some (siblingTarget destination ⟨stagingName calls.artifact request.command⟩) := by
    rw [made, artifact]
    exact stagingPath_of_result draws.id staged given
  have accepted : stageTarget format record =
      .ok (siblingTarget destination ⟨stagingName calls.artifact request.command⟩,
        destination) := by
    rw [made, artifact]
    exact stageTarget_newRecord actor draws.id epoch at_ staged given
  have same := recorded_iff request.command (artifact ▸ plain) validated filled
  refine ⟨?_, ?_, ⟨destination, given, validated, ?_⟩, ?_⟩
  · rw [inserted.stored]
    exact Register.find_insert_self record
  · have wanted : (record.action != .trash && record.stagingPath.isSome) = true := by
      rw [path, made]
      change (request.command.action != .trash && true) = true
      cases command : request.command <;> rw [command] at staged <;> first | rfl | cases staged
    have own := inserted.stagingTokens
    rw [wanted] at own
    rw [inserted.stored]
    exact own.own
  · rw [← same, ← entry]
    constructor
    · rintro ⟨found, named, reached, _⟩
      rw [path, Option.some.injEq] at named
      rw [named]
      exact reached
    · intro reached
      exact ⟨_, path, reached, accepted⟩
  · intro final payload done
    exact Context.executeInner_published staged (artifact ▸ plain) prepared done

namespace OneUpload

/-- A file is uploaded. -/
def request (path : Text) : HelperRequest := OneTrash.request .uploadCommit 7 path

def begun (path : Text) : Except StoreError OperationRecord × Store :=
  OneTrash.store.beginOperation OneTrash.format OneTrash.config ⟨OneTrash.ids 1, OneTrash.ids 0⟩
    OneTrash.ledger OneTrash.actor (request path) 1000

def record (path : Text) : OperationRecord :=
  newRecord OneTrash.format OneTrash.actor (request path) (OneTrash.ids 1) (OneTrash.ids 0) 1000

def calls : Calls :=
  { OneRename.calls with artifact := OneTrash.format.idText (OneTrash.ids 1) }

def fingerprint : Stat -> List UInt8 -> Text := fun _ _ => []

/-- The uploaded byte is written. -/
def write (_ : AppConfig) (context : Context) (calls : Calls) (disk : Node) :
    Node × Except Refusal TrashPayload :=
  match writeFile calls disk (segmentNames context.request.relativePath.value).dropLast
      (Segments.lastSegment '/' context.request.relativePath.value) [1] with
  | .error error => (disk, .error (.ofIo error))
  | .ok written => (written, .ok (.operationDone "Written."))

def executed (path : Text) : Node × Except Refusal TrashPayload :=
  Context.executeInner .hyphenated OneRename.codec fingerprint write ⟨.standard, request path, []⟩
    calls calls OneRename.disk

def name : Text := ".tdrv-transaction-00000000-0000-0000-0000-000000000065".toList

end OneUpload

open OneUpload in
theorem staging_reached_upload :
    (begun "docs//b.txt".toList).1 = .ok (record "docs//b.txt".toList) ∧
      StagingReached OneTrash.format (record "docs//b.txt".toList) ⟨"docs//b.txt".toList⟩
        ⟨"docs/".toList ++ name⟩ ∧
      (executed "docs//b.txt".toList).2.isOk = true := by
  have accepted : (begun "docs//b.txt".toList).1 = .ok (record "docs//b.txt".toList) := by
    decide
  rcases staging_reached .hyphenated OneRename.codec fingerprint write OneTrash.format
    OneTrash.uuidTexts OneTrash.config ⟨OneTrash.ids 1, OneTrash.ids 0⟩ (by decide)
    OneTrash.ledger OneTrash.actor (request "docs//b.txt".toList) rfl 1000 OneTrash.store
    (begun "docs//b.txt".toList).2 (record "docs//b.txt".toList) (Prod.ext accepted rfl) .standard
    calls calls OneRename.disk rfl ⟨"docs/".toList ++ name⟩ ⟨"docs/b.txt".toList⟩
    (by decide) with ⟨_, _, ⟨destination, given, _, reached⟩, _⟩
  have same : destination = ⟨"docs//b.txt".toList⟩ := (Option.some.inj given).symm
  rw [same] at reached
  exact ⟨accepted, reached.mpr (by decide), by decide⟩

open OneUpload in
/-- An upload of `docs/b.txt/` grows beside `docs/b.txt`, recorded is a path
below it. -/
theorem staging_trailing_separator :
    (begun "docs/b.txt/".toList).1 = .ok (record "docs/b.txt/".toList) ∧
      (executed "docs/b.txt/".toList).2.isOk = true ∧
      Context.prepare .hyphenated fingerprint ⟨.standard, request "docs/b.txt/".toList, []⟩ calls
        OneRename.disk = .ok (⟨"docs/".toList ++ name⟩, ⟨"docs/b.txt".toList⟩) ∧
      (record "docs/b.txt/".toList).stagingPath = some ⟨"docs/b.txt/".toList ++ name⟩ ∧
      stageTarget OneTrash.format (record "docs/b.txt/".toList) =
        .ok (⟨"docs/b.txt/".toList ++ name⟩, ⟨"docs/b.txt/".toList⟩) ∧
      ¬ StagingReached OneTrash.format (record "docs/b.txt/".toList) ⟨"docs/b.txt/".toList⟩
        ⟨"docs/".toList ++ name⟩ := by
  have stored : (record "docs/b.txt/".toList).stagingPath =
      some ⟨"docs/b.txt/".toList ++ name⟩ := by
    decide
  refine ⟨by decide, by decide, by decide, stored, by decide, ?_⟩
  rintro ⟨path, named, reached, _⟩
  rw [stored, Option.some.injEq] at named
  rw [← named] at reached
  revert reached
  decide

end TealDrive
