import TealDrive.Helper.Writing

namespace TealDrive

open Outcome

/-!
# A result appears at once or not at all

A transaction grows its result beside the destination and renames it in the
end.  Whatever goes wrong, the destination is what it was before.  When it goes
well, the destination is what the handler left under the private name.

This is said of writes, uploads and copies, whose handlers touch nothing but the
destination they are given.  The handlers of archives are an argument of which
nothing is used: an extraction makes the directories above its destination, and
leaves them when it fails.
-/

theorem HelperRequest.command_withResult (request : HelperRequest) (path : RelativePath) :
    (request.withResult path).command = request.command := by
  unfold withResult
  split <;> rfl

/-- A request has the result it is given. -/
theorem HelperRequest.result_withResult (request : HelperRequest) (path : RelativePath) :
    (request.withResult path).result = some path := by
  unfold result
  rw [command_withResult]
  unfold withResult
  cases request.command <;> rfl

namespace OneSave

def filling : Filling := ⟨none, ⟨fun _ => none, fun _ => 0⟩⟩

def archives : Handlers := fun _ _ _ disk => (disk, .error .notImplemented)

theorem artifact_plain :
    forall symbol, symbol ∈ OneUpload.calls.artifact -> uuidSymbol symbol = true :=
  Text.forall_mem (by decide)

/-- `docs/a.txt` is copied to `docs/b.txt`. -/
def copying : HelperRequest :=
  { OneTrash.request .copy 7 "docs//a.txt".toList with
    targetRelativePath := some ⟨"docs/b.txt".toList⟩ }

def copied : Node × Except Refusal TrashPayload :=
  Context.executeInner .hyphenated OneRename.codec OneUpload.fingerprint
    (Context.handlers filling archives) ⟨.standard, copying, []⟩ OneUpload.calls OneUpload.calls
    OneRename.disk

end OneSave

namespace Context

/-! ## Renaming and removing -/

/-- A rename touches its source and its target only. -/
theorem rename_untouched {context : Context} {calls : Calls} {disk after : Node}
    {source destination : RelativePath} {replace : Bool}
    (renamed : context.rename calls disk source destination replace = .ok after) :
    Untouched [segmentNames source.value, segmentNames destination.value] disk after ∧
      (replace = true ∨ disk.lookup (segmentNames destination.value) = none) := by
  rcases rename_ok renamed with ⟨parent, name, target, newName, from_, to_, _, done⟩
  rcases renameAt_ok done with ⟨item, _, _, free, rfl⟩
  rw [from_, to_]
  refine ⟨?_, free⟩
  apply Untouched.trans
  · exact (Untouched.remove disk parent name).widen (List.cons_subset_cons _ (List.nil_subset _))
  · exact (Untouched.place _ target newName item).widen (List.subset_cons_self _ _)

/-- What is left under a private name is dropped, or stays when that fails. -/
theorem dropStaging_untouched {closing : Calls} {disk : Node} {staging : RelativePath}
    {parent : List Text} {name : Text} (private_ : segmentNames staging.value = parent ++ [name]) :
    Untouched [segmentNames staging.value] disk (dropStaging closing disk staging) ∧
      (closing.faults (.remove (segmentNames staging.value)) = none ->
        (dropStaging closing disk staging).lookup (segmentNames staging.value) = none) := by
  have removal : removePath disk staging = .ok (disk.remove parent name) := by
    unfold removePath
    rw [private_, List.getLast?_concat, List.dropLast_concat]
  unfold dropStaging Calls.attempt
  rw [removal]
  cases closing.faults (.remove (segmentNames staging.value)) with
  | some error =>
      refine ⟨Untouched.refl _ _, ?_⟩
      intro impossible
      cases impossible
  | none =>
      rw [private_]
      exact ⟨Untouched.remove disk parent name, fun _ => NamedTree.lookup_remove_self⟩

/-! ## The content of a file -/

/-- The same item, up to the owner and the permission bits of a file. -/
def SameContent (item published : Node) : Prop :=
  item = published ∨
    ∃ own stat bytes, item = .leaf (.file own bytes) ∧ published = .leaf (.file stat bytes) ∧
      stat.dev = own.dev ∧ stat.ino = own.ino

/-- Keeping permissions changes nothing but the metadata of the private file. -/
theorem preservePermissions_ok {context : Context} {calls : Calls} {disk after : Node}
    {original staging : RelativePath}
    (done : context.preservePermissions calls disk original staging = .ok after) :
    Untouched [segmentNames staging.value] disk after ∧
      forall published, after.lookup (segmentNames staging.value) = some published ->
        ∃ item, disk.lookup (segmentNames staging.value) = some item ∧
          SameContent item published := by
  have unchanged : Untouched [segmentNames staging.value] disk disk ∧
      forall published, disk.lookup (segmentNames staging.value) = some published ->
        ∃ item, disk.lookup (segmentNames staging.value) = some item ∧
          SameContent item published :=
    ⟨Untouched.refl _ _, fun published found => ⟨published, found, Or.inl rfl⟩⟩
  unfold preservePermissions at done
  split at done
  · split at done
    · cases done
      exact unchanged
    · cases done
  · next stat _ _ =>
      simp only [bind_eq_ok] at done
      rcases done with ⟨target, opened, _, _, placed⟩
      split at placed
      · next own bytes name last =>
          cases placed
          have whole := (List.dropLast_append_getLast? name last).symm
          simp only [sandboxOpen, bind_eq_ok, mapError_eq_ok, pure_eq_ok] at opened
          rcases opened with ⟨path, validated, _, _, _, _, node, walked, _, _, _, _, rfl⟩
          rw [(validateRelativePath_eq_ok_iff.mp validated).2, segmentNames_canonicalText] at walked
          have found := walk_eq_ok.mp walked
          rw [whole] at found ⊢
          rcases NamedTree.lookup_concat_eq_some.mp found with ⟨label, entries, directory, _⟩
          rw [List.dropLast_concat]
          refine ⟨Untouched.place _ _ _ _, ?_⟩
          intro published there
          rw [NamedTree.lookup_place_self _ ⟨label, entries, directory⟩] at there
          cases there
          exact ⟨_, found, Or.inr ⟨own, _, bytes, rfl, rfl, rfl, rfl⟩⟩
      · cases placed
        exact unchanged
  · cases done
    exact unchanged

/-! ## Transactions -/

section Transactions

variable {uuids : UuidFormat} {codec : TrashCodec} {fingerprint : Stat -> List UInt8 -> Text}
  {others : Handlers} {context : Context} {calls closing : Calls} {disk : Node}
  {staging clean : RelativePath}

/-- A request under a private name is refused, or handled by its own handler. -/
theorem handleHelperRequest_staged {config : AppConfig} {context : Context} {after : Node}
    {outcome : Except Refusal TrashPayload} (staged : context.request.command.staged = true)
    (done : context.handleHelperRequest uuids codec (others config) calls disk = (after, outcome)) :
    (after = disk ∧ ∃ refusal, outcome = .error refusal) ∨
      (context.admitted uuids calls disk = .ok () ∧
        others config context calls disk = (after, outcome)) := by
  unfold handleHelperRequest handleHelperOperation at done
  cases admitted : context.admitted uuids calls disk with
  | error refusal =>
      rw [admitted] at done
      cases command : context.request.command <;> rw [command] at staged done <;> cases staged
      all_goals
        cases done
        exact Or.inl ⟨rfl, refusal, rfl⟩
  | ok _ =>
      rw [admitted] at done
      cases command : context.request.command <;> rw [command] at staged done <;> cases staged
      all_goals exact Or.inr ⟨rfl, done⟩

/-- What is renamed in the end. -/
theorem publish_ok {written published : Node}
    (done : context.publish fingerprint closing written staging clean = (published, .ok ())) :
    context.revisionChanged fingerprint closing written clean = false ∧
      ∃ preserved, Untouched [segmentNames staging.value] written preserved ∧
        (forall item, preserved.lookup (segmentNames staging.value) = some item ->
          ∃ own, written.lookup (segmentNames staging.value) = some own ∧ SameContent own item ∧
            (context.request.command ≠ .writeFile -> own = item)) ∧
        context.rename closing preserved staging clean
          (context.request.command == .writeFile) = .ok published := by
  unfold publish at done
  split at done
  · cases done
  · split at done
    · cases done
    · next unrevised =>
        refine ⟨Bool.eq_false_iff.mpr unrevised, ?_⟩
        dsimp only at done
        split at done
        · cases done
        · next preserved kept =>
            split at done
            · cases done
            · next renamed =>
                cases done
                refine ⟨preserved, ?_, ?_, renamed⟩
                · split at kept
                  · exact (preservePermissions_ok kept).1
                  · cases kept
                    exact Untouched.refl _ _
                · intro item found
                  split at kept
                  · next write =>
                      rcases (preservePermissions_ok kept).2 item found with ⟨own, there, same⟩
                      exact ⟨own, there, same, fun other => absurd write other⟩
                  · cases kept
                    exact ⟨item, found, Or.inl rfl, fun _ => rfl⟩

/-- Whatever the end is, publishing touches the private name and the
destination only, and the destination only when it succeeds. -/
theorem publish_error {written left : Node} {refusal : Refusal}
    (failed : context.publish fingerprint closing written staging clean = (left, .error refusal)) :
    Untouched [segmentNames staging.value] written left := by
  unfold publish at failed
  split at failed
  · cases failed
    exact Untouched.refl _ _
  · split at failed
    · cases failed
      exact Untouched.refl _ _
    · dsimp only at failed
      split at failed
      · cases failed
        exact Untouched.refl _ _
      · next preserved kept =>
          split at failed
          · cases failed
            split at kept
            · exact (preservePermissions_ok kept).1
            · cases kept
              exact Untouched.refl _ _
          · cases failed

end Transactions

/-- What a failed transaction leaves: nothing changed but what is private, and
the private entry is gone unless its removal fails as well. -/
structure Discarded (closing : Calls) (disk after : Node) (staging clean : RelativePath) :
    Prop where
  untouched : Untouched [segmentNames staging.value] disk after
  destination : after.lookup (segmentNames clean.value) = disk.lookup (segmentNames clean.value)
  dropped : closing.faults (.remove (segmentNames staging.value)) = none ->
    after.lookup (segmentNames staging.value) = none

/-- What a successful transaction leaves: the handler's result at the
destination. -/
structure Published (command : HelperCommand) (disk written after : Node)
    (staging clean : RelativePath) : Prop where
  untouched : Untouched [segmentNames staging.value, segmentNames clean.value] disk after
  result : ∃ item published, written.lookup (segmentNames staging.value) = some item ∧
    after.lookup (segmentNames clean.value) = some published ∧ SameContent item published ∧
    (command ≠ .writeFile -> item = published)
  dropped : after.lookup (segmentNames staging.value) = none
  fresh : command ≠ .writeFile ->
    disk.lookup (segmentNames clean.value) = none

section Atomic

variable {uuids : UuidFormat} {codec : TrashCodec} {fingerprint : Stat -> List UInt8 -> Text}
  {others : Handlers} {config : AppConfig} {request : HelperRequest} {calls closing : Calls}
  {disk written : Node} {staging clean : RelativePath}

/-- A failure after the private name was made. -/
theorem discarded {left : Node}
    (private_ : ∃ parent name, segmentNames staging.value = parent ++ [name])
    (beside : Beside (segmentNames clean.value) (segmentNames staging.value))
    (untouched : Untouched [segmentNames staging.value] disk left) :
    Discarded closing disk (dropStaging closing left staging) staging clean := by
  rcases private_ with ⟨parent, name, spelled⟩
  rcases @dropStaging_untouched closing left staging parent name spelled with ⟨kept, dropped⟩
  have whole := untouched.trans kept
  refine ⟨whole, whole.beside _ ?_, dropped⟩
  intro path listed
  rw [List.mem_singleton.mp listed]
  exact beside

/-- The handler's result is published. -/
theorem published {context : Context} {after : Node} {parent : List Text} {name other : Text}
    (private_ : segmentNames staging.value = parent ++ [name])
    (public_ : segmentNames clean.value = parent ++ [other]) (different : other ≠ name)
    (untouched : Untouched [segmentNames staging.value] disk written)
    (done : context.publish fingerprint closing written staging clean = (after, .ok ())) :
    Published context.request.command disk written (dropStaging closing after staging) staging
      clean := by
  rcases publish_ok done with ⟨_, preserved, kept, content, renamed⟩
  have beside : Beside (segmentNames clean.value) (segmentNames staging.value) := by
    rw [private_, public_]
    exact beside_of_ne different
  have alone : forall path, path ∈ [segmentNames staging.value] ->
      Beside (segmentNames clean.value) path := by
    intro path listed
    rw [List.mem_singleton.mp listed]
    exact beside
  have moved := rename_moved (fun _ => beside.1) renamed
  rcases rename_untouched renamed with ⟨others, free⟩
  have final := @dropStaging_moved staging clean preserved after closing parent name other private_
    public_ different moved
  rcases final with ⟨⟨item, found, there⟩, gone⟩
  rcases content item found with ⟨own, source, same, exact_⟩
  have narrow : [segmentNames staging.value] ⊆
      [segmentNames staging.value, segmentNames clean.value] := by simp
  have dropped := (@dropStaging_untouched closing after staging parent name private_).1
  refine ⟨?_, ⟨own, item, source, there, same, exact_⟩, gone, ?_⟩
  · exact ((untouched.trans kept).widen narrow).trans (others.trans (dropped.widen narrow))
  · intro notWrite
    rcases free with replace | absent
    · exact absurd (eq_of_beq replace) notWrite
    · rw [← (untouched.trans kept).beside _ alone]
      exact absent

/-- The request of a transaction under its private name. -/
theorem handled_untouched (contained : Contained others request.command) {written : Node}
    {outcome : Except Refusal TrashPayload} (staged : request.command.staged = true)
    (handled : (Context.staged ⟨config, request, []⟩ staging clean).handleHelperRequest uuids codec
      (others config) calls disk = (written, outcome)) :
    Untouched [segmentNames staging.value] disk written := by
  have command := request.command_withResult staging
  have same := (congrArg HelperCommand.staged command).trans staged
  rcases handleHelperRequest_staged same handled with ⟨rfl, _⟩ | ⟨_, done⟩
  · exact Untouched.refl _ _
  · have reached := contained config (Context.staged ⟨config, request, []⟩ staging clean) calls disk
      staging command (request.result_withResult staging)
    rw [done] at reached
    exact reached

/-- A transaction that fails. -/
theorem executeInner_error (contained : Contained others request.command) {after : Node}
    {refusal : Refusal}
    (staged : request.command.staged = true)
    (plain : forall symbol, symbol ∈ calls.artifact -> uuidSymbol symbol = true)
    (failed : executeInner uuids codec fingerprint others ⟨config, request, []⟩ calls closing disk =
      (after, .error refusal)) :
    after = disk ∨ ∃ staging clean, prepare uuids fingerprint ⟨config, request, []⟩ calls disk =
        .ok (staging, clean) ∧
      Discarded closing disk after staging clean := by
  unfold executeInner at failed
  rw [if_pos staged] at failed
  cases prepared : prepare uuids fingerprint ⟨config, request, []⟩ calls disk with
  | error refusal =>
      rw [prepared] at failed
      cases failed
      exact Or.inl rfl
  | ok pair =>
      rcases pair with ⟨staging, clean⟩
      rw [prepared] at failed
      rcases prepare_beside staged plain prepared with
        ⟨parent, name, other, private_, public_, different⟩
      have beside : Beside (segmentNames clean.value) (segmentNames staging.value) := by
        rw [private_, public_]
        exact beside_of_ne different
      refine Or.inr ⟨staging, clean, rfl, ?_⟩
      dsimp only at failed
      split at failed
      · next written _ handled =>
          have untouched := handled_untouched contained staged handled
          cases failed
          exact discarded ⟨parent, name, private_⟩ beside untouched
      · next written _ handled =>
          have untouched := handled_untouched contained staged handled
          split at failed
          · next left _ unpublished =>
              cases failed
              exact discarded ⟨parent, name, private_⟩ beside
                (untouched.trans (publish_error unpublished))
          · cases failed

/-- A transaction that succeeds. -/
theorem executeInner_ok (contained : Contained others request.command) {after : Node}
    {payload : TrashPayload}
    (staged : request.command.staged = true)
    (plain : forall symbol, symbol ∈ calls.artifact -> uuidSymbol symbol = true)
    (done : executeInner uuids codec fingerprint others ⟨config, request, []⟩ calls closing disk =
      (after, .ok payload)) :
    ∃ staging clean written, prepare uuids fingerprint ⟨config, request, []⟩ calls disk =
        .ok (staging, clean) ∧
      (Context.staged ⟨config, request, []⟩ staging clean).handleHelperRequest uuids codec
        (others config) { calls with budget := available ⟨config, request, []⟩ calls disk clean }
        disk = (written, .ok payload) ∧
      Published request.command disk written after staging clean := by
  unfold executeInner at done
  rw [if_pos staged] at done
  cases prepared : prepare uuids fingerprint ⟨config, request, []⟩ calls disk with
  | error refusal =>
      rw [prepared] at done
      cases done
  | ok pair =>
      rcases pair with ⟨staging, clean⟩
      rw [prepared] at done
      rcases prepare_beside staged plain prepared with
        ⟨parent, name, other, private_, public_, different⟩
      dsimp only at done
      split at done
      · cases done
      · next written _ handled =>
          have untouched := handled_untouched contained staged handled
          split at done
          · cases done
          · next final renamed =>
              cases done
              exact ⟨staging, clean, written, rfl, handled,
                published private_ public_ different untouched renamed⟩

end Atomic

/-- A write, an upload or a copy is all or nothing.  A failed one leaves the
destination and everything else as it was, and no private entry unless removing
it fails too.  A successful one leaves at the destination exactly what the
handler made, and only a write may have replaced something there. -/
theorem transaction_atomic (uuids : UuidFormat) (codec : TrashCodec)
    (fingerprint : Stat -> List UInt8 -> Text) (filling : Filling) (archives : Handlers)
    (config : AppConfig) (request : HelperRequest) (calls closing : Calls) (disk after : Node)
    (outcome : Except Refusal TrashPayload) (staged : request.command.staged = true)
    (file : request.command.isArchive = false)
    (plain : forall symbol, symbol ∈ calls.artifact -> uuidSymbol symbol = true)
    (ran : executeInner uuids codec fingerprint (handlers filling archives) ⟨config, request, []⟩
      calls closing disk = (after, outcome)) :
    (forall refusal, outcome = .error refusal -> after = disk ∨
      ∃ staging clean, prepare uuids fingerprint ⟨config, request, []⟩ calls disk =
          .ok (staging, clean) ∧
        Discarded closing disk after staging clean) ∧
    (forall payload, outcome = .ok payload ->
      ∃ staging clean written, prepare uuids fingerprint ⟨config, request, []⟩ calls disk =
          .ok (staging, clean) ∧
        (Context.staged ⟨config, request, []⟩ staging clean).handleHelperRequest uuids codec
          (handlers filling archives config)
          { calls with budget := available ⟨config, request, []⟩ calls disk clean } disk =
            (written, .ok payload) ∧
        Published request.command disk written after staging clean) := by
  have reach := @handlers_contained filling archives request.command staged file
  constructor
  · intro refusal failed
    rw [failed] at ran
    exact executeInner_error reach staged plain ran
  · intro payload done
    rw [done] at ran
    exact executeInner_ok reach staged plain ran

open OneSave in
theorem transaction_atomic_copy :
    copied.2.isOk = true ∧ ∃ staging clean written,
      Published .copy OneRename.disk written copied.1 staging clean := by
  have succeeded : copied.2 = .ok (.operationDone "Copied.") := by rfl
  rcases (transaction_atomic .hyphenated OneRename.codec OneUpload.fingerprint filling archives
    .standard copying OneUpload.calls OneUpload.calls OneRename.disk copied.1 copied.2 rfl rfl
    artifact_plain rfl).2 _ succeeded with
    ⟨staging, clean, written, _, _, published⟩
  exact ⟨by rw [succeeded]; rfl, staging, clean, written, published⟩

/-! ## The content that is published -/

section Content

variable {uuids : UuidFormat} {codec : TrashCodec} {fingerprint : Stat -> List UInt8 -> Text}
  {filling : Filling} {archives : Handlers} {config : AppConfig} {request : HelperRequest}
  {calls closing : Calls} {disk after : Node} {payload : TrashPayload}

/-- What is to be written does not depend on the name of the result. -/
theorem intended_withResult (path : RelativePath) {bytes : List UInt8}
    (intended : Intended filling (request.withResult path) disk bytes) :
    Intended filling request disk bytes := by
  unfold Intended at intended ⊢
  rw [request.command_withResult path] at intended
  unfold HelperRequest.withResult at intended
  cases command : request.command <;> rw [command] at intended <;> exact intended

/-- A request that was let in writes its data whole. -/
theorem whole_of_admitted {context : Context} {options : HelperWriteOptions}
    (allowed : context.admitted uuids calls disk = .ok ())
    (writes : context.request.command = .writeFile ∨ context.request.command = .uploadCommit)
    (given : context.request.writeOptions = some options) :
    options.offset = 0 ∧ options.truncate = true := by
  unfold admitted at allowed
  simp only [bind_eq_ok, refuse_eq_ok, mapError_eq_ok] at allowed
  rcases allowed with ⟨_, _, _, _, _, _, _, authorized, _⟩
  have whole := (((HelperPolicy.authorize_eq_ok_iff uuids).mp authorized).2.1 options given).whole
  rcases writes with write | write <;> rw [write] at whole <;> simpa using whole

/-- What the handler of a write, an upload or a copy leaves under its path. -/
theorem handlers_ok {context : Context} {destination : RelativePath}
    (staged : context.request.command.staged = true)
    (file : context.request.command.isArchive = false)
    (bounded : context.request.command = .copy ->
      forall budget, calls.budget = some budget -> budget ≤ u64Max)
    (given : context.request.result = some destination)
    (allowed : context.admitted uuids calls disk = .ok ())
    (done : handlers filling archives config context calls disk = (after, .ok payload)) :
    ∃ stat bytes, after.lookup (segmentNames destination.value) = some (.leaf (.file stat bytes)) ∧
      Intended filling context.request disk bytes ∧
      NewFile calls disk (segmentNames destination.value) stat bytes := by
  unfold handlers at done
  unfold HelperRequest.result at given
  cases command : context.request.command <;> rw [command] at staged file done given <;>
    cases staged <;> cases file
  · cases given
    exact writeFileWithRoots_ok (by rw [command]; intro impossible; cases impossible)
      (fun options => whole_of_admitted allowed (Or.inl command)) done
  · cases given
    exact writeFileWithRoots_ok (by rw [command]; intro impossible; cases impossible)
      (fun options => whole_of_admitted allowed (Or.inr command)) done
  · exact copyFileWithRoots_ok command (bounded command) given done

/-- A file that a transaction has published: it has the inode of a new file,
and is within what was available. -/
structure Stored (calls : Calls) (available : Option Nat) (disk : Node) (staging : List Text)
    (stat : Stat) (bytes : List UInt8) : Prop where
  inode : disk.lookup staging = none ->
    stat.dev = calls.created.dev ∧ stat.ino = calls.created.ino
  within : forall budget, available = some budget -> bytes.length ≤ budget

/-- What a transaction that succeeds leaves at its destination. -/
theorem executeInner_content (staged : request.command.staged = true)
    (file : request.command.isArchive = false)
    (plain : forall symbol, symbol ∈ calls.artifact -> uuidSymbol symbol = true)
    (bounded : request.command = .copy ->
      forall budget, calls.budget = some budget -> budget ≤ u64Max)
    (done : executeInner uuids codec fingerprint (handlers filling archives) ⟨config, request, []⟩
      calls closing disk = (after, .ok payload)) :
    ∃ staging clean written stat bytes,
      prepare uuids fingerprint ⟨config, request, []⟩ calls disk = .ok (staging, clean) ∧
      Published request.command disk written after staging clean ∧
      after.lookup (segmentNames clean.value) = some (.leaf (.file stat bytes)) ∧
      Intended filling request disk bytes ∧
      Stored calls (available ⟨config, request, []⟩ calls disk clean) disk
        (segmentNames staging.value) stat bytes := by
  have reach := @handlers_contained filling archives request.command staged file
  rcases executeInner_ok reach staged plain done with
    ⟨staging, clean, written, prepared, handled, published⟩
  have command := request.command_withResult staging
  have fits : (Context.staged ⟨config, request, []⟩ staging clean).request.command = .copy ->
      forall budget, available ⟨config, request, []⟩ calls disk clean = some budget ->
        budget ≤ u64Max := by
    intro renamed budget left
    have copy : request.command = .copy := command.symm.trans renamed
    unfold available at left
    rcases Option.map_eq_some_iff.mp left with ⟨remaining, given, rfl⟩
    rw [if_neg (by rw [copy]; decide)]
    exact bounded copy remaining given
  have same := (congrArg HelperCommand.staged command).trans staged
  rcases handleHelperRequest_staged same handled with
    ⟨_, refusal, impossible⟩ | ⟨admitted, done⟩
  · cases impossible
  · rcases handlers_ok same ((congrArg HelperCommand.isArchive command).trans file) fits
      (request.result_withResult staging) admitted done with
      ⟨stat, bytes, source, intended, new⟩
    have meant := intended_withResult staging intended
    rcases published.result with ⟨item, final, there, arrived, same, _⟩
    rw [source] at there
    cases there
    rcases same with rfl | ⟨own, other, _, spelled, rfl, device, inode⟩
    · refine ⟨staging, clean, written, stat, bytes, prepared, published, arrived, meant, ?_,
        new.within⟩
      intro absent
      rw [new.created absent]
      exact ⟨rfl, rfl⟩
    · cases spelled
      refine ⟨staging, clean, written, other, bytes, prepared, published, arrived, meant, ?_,
        new.within⟩
      intro absent
      rw [device, inode, new.created absent]
      exact ⟨rfl, rfl⟩

end Content

/-- A write, an upload or a copy that succeeds has put at its destination, byte
for byte, what it was asked to write: the data of the request, the upload as far
as its size, or the content of the source.  Uploads and copies replace nothing,
and nothing else has changed but the private name. -/
theorem publishes_intended (uuids : UuidFormat) (codec : TrashCodec)
    (fingerprint : Stat -> List UInt8 -> Text) (filling : Filling) (archives : Handlers)
    (config : AppConfig) (request : HelperRequest) (calls closing : Calls) (disk after : Node)
    (payload : TrashPayload) (destination : RelativePath) (staged : request.command.staged = true)
    (file : request.command.isArchive = false)
    (plain : forall symbol, symbol ∈ calls.artifact -> uuidSymbol symbol = true)
    (bounded : request.command = .copy ->
      forall budget, calls.budget = some budget -> budget ≤ u64Max)
    (given : request.result = some destination)
    (done : executeInner uuids codec fingerprint (handlers filling archives) ⟨config, request, []⟩
      calls closing disk = (after, .ok payload)) :
    ∃ staging stat bytes,
      after.lookup (segmentNames destination.value) = some (.leaf (.file stat bytes)) ∧
      Intended filling request disk bytes ∧
      (request.command ≠ .writeFile -> disk.lookup (segmentNames destination.value) = none) ∧
      after.lookup (segmentNames staging) = none ∧
      Untouched [segmentNames staging, segmentNames destination.value] disk after := by
  rcases executeInner_content staged file plain bounded done with
    ⟨staging, clean, written, stat, bytes, prepared, published, there, intended, _⟩
  rcases prepare_ok prepared with ⟨named, result, validated, _, _, _⟩
  have same : segmentNames clean.value = segmentNames destination.value := by
    rw [(validateRelativePath_eq_ok_iff.mp validated).2, segmentNames_canonicalText]
    rw [given] at result
    cases result
    rfl
  have untouched := published.untouched
  have fresh := published.fresh
  rw [same] at there untouched fresh
  exact ⟨staging.value, stat, bytes, there, intended, fresh, published.dropped, untouched⟩

open OneSave in
theorem publishes_intended_copy :
    ∃ staging stat bytes,
      copied.1.lookup ["docs".toList, "b.txt".toList] = some (.leaf (.file stat bytes)) ∧
      Intended filling copying OneRename.disk bytes ∧
      Untouched [segmentNames staging, ["docs".toList, "b.txt".toList]] OneRename.disk
        copied.1 := by
  have unlimited : forall budget, OneUpload.calls.budget = some budget -> budget ≤ u64Max := by
    intro budget impossible
    cases impossible
  rcases publishes_intended .hyphenated OneRename.codec OneUpload.fingerprint filling archives
    .standard copying OneUpload.calls OneUpload.calls OneRename.disk copied.1
    (.operationDone "Copied.") ⟨"docs/b.txt".toList⟩ rfl rfl artifact_plain (fun _ => unlimited) rfl
    rfl with
    ⟨staging, stat, bytes, there, intended, _, _, untouched⟩
  exact ⟨staging, stat, bytes, there, intended, untouched⟩

/-! ## Revisions -/

/-- A revision that matches is that of the file at the path. -/
theorem revisionMatches_ok {fingerprint : Stat -> List UInt8 -> Text} {context : Context}
    {calls : Calls} {disk : Node} {path : RelativePath} {expected : Text}
    (known : expected ≠ "missing".toList)
    (matched : context.revisionMatches fingerprint calls disk path expected = true) :
    ∃ stat bytes, disk.lookup (segmentNames path.value) = some (.leaf (.file stat bytes)) ∧
      fingerprint stat bytes = expected := by
  unfold revisionMatches at matched
  rw [if_neg known] at matched
  split at matched
  · next stat bytes opened =>
      simp only [sandboxOpen, bind_eq_ok, mapError_eq_ok, pure_eq_ok] at opened
      rcases opened with ⟨clean, validated, _, _, _, _, node, walked, _, _, _, _, rfl⟩
      rw [(validateRelativePath_eq_ok_iff.mp validated).2, segmentNames_canonicalText] at walked
      exact ⟨stat, bytes, walk_eq_ok.mp walked, eq_of_beq (Bool.and_eq_true_iff.mp matched).2⟩
  · cases matched

end Context

/-- A save of a file, or something that leaves the file alone. -/
inductive Edit where
  | save (filling : Filling) (config : AppConfig) (request : HelperRequest) (calls closing : Calls)
  | elsewhere (change : Node -> Node)

namespace Edit

section Runs

variable (uuids : UuidFormat) (codec : TrashCodec) (fingerprint : Stat -> List UInt8 -> Text)
  (archives : Handlers)

/-- What a save does and answers. -/
def execute (disk : Node) : Edit -> Node × Except Refusal TrashPayload
  | .save filling config request calls closing =>
      Context.executeInner uuids codec fingerprint (Context.handlers filling archives)
        ⟨config, request, []⟩ calls closing disk
  | .elsewhere change => (change disk, .error .notImplemented)

def step (disk : Node) (edit : Edit) : Node :=
  (edit.execute uuids codec fingerprint archives disk).1

def saves (disk : Node) (edit : Edit) : Bool :=
  (edit.execute uuids codec fingerprint archives disk).2.isOk

end Runs

/-- The revision that a save expects. -/
def expectedRevision : Edit -> Option Text
  | .save _ _ request _ _ => request.writeOptions.bind (fun options => options.expectedRevision)
  | .elsewhere _ => none

/-- A save of the file at a path, or no change of it. -/
def Concerns (target : List Text) : Edit -> Prop
  | .save _ _ request calls _ => request.command = .writeFile ∧
      segmentNames request.relativePath.value = target ∧
      forall symbol, symbol ∈ calls.artifact -> uuidSymbol symbol = true
  | .elsewhere change => forall disk : Node, (change disk).lookup target = disk.lookup target

/-- A save writes this content to a file. -/
def Writes (disk : Node) (bytes : List UInt8) : Edit -> Prop
  | .save filling _ request _ _ => Context.Intended filling request disk bytes
  | .elsewhere _ => False

variable {uuids : UuidFormat} {codec : TrashCodec} {fingerprint : Stat -> List UInt8 -> Text}
  {archives : Handlers} {target : List Text} {disk : Node} {edit : Edit}

/-- What `prepare` says about a save of the file at a path. -/
theorem prepare_target {config : AppConfig} {request : HelperRequest} {calls : Calls}
    {staging clean : RelativePath} (command : request.command = .writeFile)
    (at_ : segmentNames request.relativePath.value = target)
    (prepared : Context.prepare uuids fingerprint ⟨config, request, []⟩ calls disk =
      .ok (staging, clean)) :
    segmentNames clean.value = target ∧
      Context.revisionChanged fingerprint ⟨config, request, []⟩ calls disk clean = false := by
  rcases Context.prepare_ok prepared with ⟨destination, given, validated, _, _, _⟩
  have same : destination = request.relativePath := by
    unfold HelperRequest.result at given
    rw [command] at given
    exact (Option.some.inj given).symm
  constructor
  · rw [(validateRelativePath_eq_ok_iff.mp validated).2, segmentNames_canonicalText, same, at_]
  · simp only [Context.prepare, bind_eq_ok, okOr_eq_ok, mapError_eq_ok, refuse_eq_ok,
      pure_eq_ok, Prod.mk.injEq] at prepared
    rcases prepared with ⟨_, _, _, _, _, _, _, _, _, _, _, _, _, current, _, rfl⟩
    exact current

/-- Writes of a file need nothing of the handlers of archives. -/
theorem contained_of_write {filling : Filling} {command : HelperCommand}
    (write : command = .writeFile) : Contained (Context.handlers filling archives) command := by
  rw [write]
  exact Context.handlers_contained rfl rfl

/-- A save that fails leaves the file as it was, and so does what happens
elsewhere. -/
theorem lookup_of_failed (concerns : edit.Concerns target)
    (failed : edit.saves uuids codec fingerprint archives disk = false) :
    (edit.step uuids codec fingerprint archives disk).lookup target = disk.lookup target := by
  cases edit with
  | elsewhere change => exact concerns disk
  | save filling config request calls closing =>
      rcases concerns with ⟨command, at_, plain⟩
      have staged : request.command.staged = true := by
        rw [command]
        rfl
      unfold saves execute at failed
      unfold step execute
      dsimp only at failed ⊢
      cases ran : Context.executeInner uuids codec fingerprint (Context.handlers filling archives)
          ⟨config, request, []⟩ calls closing disk with
      | mk after outcome =>
          rw [ran] at failed
          cases outcome with
          | ok payload => cases failed
          | error refusal =>
              rcases Context.executeInner_error (contained_of_write command) staged plain ran with
                same | ⟨staging, clean, prepared, left⟩
              · exact congrArg (fun tree => NamedTree.lookup tree target) same
              · have destination := left.destination
                rw [(prepare_target command at_ prepared).1] at destination
                exact destination

/-- Edits that all fail leave the file as it was. -/
theorem lookup_of_undisturbed {edits : List Edit}
    (concerns : forall edit, edit ∈ edits -> edit.Concerns target)
    (failed : forall visit,
      visit ∈ Runs.visits (step uuids codec fingerprint archives) disk edits ->
        visit.2.saves uuids codec fingerprint archives visit.1 = false) :
    (Runs.run (step uuids codec fingerprint archives) disk edits).lookup target =
      disk.lookup target := by
  refine Runs.invariant_of_visits (fun tree : Node => tree.lookup target = disk.lookup target) ?_
    rfl
  intro visit visited same
  have listed := Runs.mem_of_visits visited
  exact (lookup_of_failed (concerns _ listed) (failed visit visited)).trans same

/-- A save that succeeds has found the revision it expects, and leaves what it
was to write. -/
theorem saved (concerns : edit.Concerns target)
    (done : edit.saves uuids codec fingerprint archives disk = true) :
    (forall token, edit.expectedRevision = some token -> token ≠ "missing".toList ->
      ∃ stat bytes, disk.lookup target = some (.leaf (.file stat bytes)) ∧
        fingerprint stat bytes = token) ∧
      ∃ stat bytes, edit.Writes disk bytes ∧
        (edit.step uuids codec fingerprint archives disk).lookup target =
          some (.leaf (.file stat bytes)) := by
  cases edit with
  | elsewhere change => cases done
  | save filling config request calls closing =>
      rcases concerns with ⟨command, at_, plain⟩
      have staged : request.command.staged = true := by
        rw [command]
        rfl
      unfold saves execute at done
      unfold step execute
      dsimp only at done ⊢
      cases ran : Context.executeInner uuids codec fingerprint (Context.handlers filling archives)
          ⟨config, request, []⟩ calls closing disk with
      | mk after outcome =>
          rw [ran] at done
          cases outcome with
          | error refusal => cases done
          | ok payload =>
              have file : request.command.isArchive = false := by
                rw [command]
                rfl
              rcases Context.executeInner_content staged file plain
                (fun copy => absurd (copy.symm.trans command) (by decide)) ran with
                ⟨staging, clean, _, stat, bytes, prepared, _, there, intended, _⟩
              rcases prepare_target command at_ prepared with ⟨reached, unchanged⟩
              rw [reached] at there
              refine ⟨?_, stat, bytes, intended, there⟩
              intro token named known
              change request.writeOptions.bind _ = _ at named
              unfold Context.revisionChanged at unchanged
              rw [command, named] at unchanged
              simp only [beq_self_eq_true, Bool.true_and, Option.any_some,
                Bool.not_eq_eq_eq_not, Bool.not_false] at unchanged
              rw [← reached]
              exact Context.revisionMatches_ok known unchanged

end Edit

/-- No update is lost.  Between a save that succeeds and the next one of the
same file that succeeds nothing changes the file.  So a save that names the
revision it was made from names the digest of exactly what the former save
wrote. -/
theorem no_lost_update (uuids : UuidFormat) (codec : TrashCodec)
    (fingerprint : Stat -> List UInt8 -> Text) (archives : Handlers) (target : List Text)
    (disk : Node) (first later : Edit) (middle : List Edit) (token : Text)
    (concerns : forall edit, edit ∈ first :: (middle ++ [later]) -> edit.Concerns target)
    (saved : first.saves uuids codec fingerprint archives disk = true)
    (failed : forall visit,
      visit ∈ Runs.visits (Edit.step uuids codec fingerprint archives)
        (first.step uuids codec fingerprint archives disk) middle ->
      visit.2.saves uuids codec fingerprint archives visit.1 = false)
    (expected : later.expectedRevision = some token) (known : token ≠ "missing".toList)
    (again : later.saves uuids codec fingerprint archives
      (Runs.run (Edit.step uuids codec fingerprint archives) disk (first :: middle)) = true) :
    ∃ stat bytes, first.Writes disk bytes ∧
      (Runs.run (Edit.step uuids codec fingerprint archives) disk (first :: middle)).lookup target =
        some (.leaf (.file stat bytes)) ∧
      fingerprint stat bytes = token := by
  have listed : later ∈ first :: (middle ++ [later]) := by simp
  have inner : forall edit, edit ∈ middle -> edit.Concerns target :=
    fun edit there => concerns edit (List.mem_cons_of_mem _ (List.mem_append_left _ there))
  rcases (Edit.saved (concerns first List.mem_cons_self) saved).2 with
    ⟨stat, bytes, wrote, published⟩
  have still := (Edit.lookup_of_undisturbed inner failed).trans published
  rcases (Edit.saved (concerns later listed) again).1 token expected known with
    ⟨other, data, found, same⟩
  have arrived : some (NamedTree.leaf (Leaf.file other data)) =
      some (NamedTree.leaf (Leaf.file stat bytes)) :=
    found.symm.trans still
  cases arrived
  exact ⟨_, _, wrote, found, same⟩

namespace OneSave

/-- A digest that tells contents apart. -/
def fingerprint : Stat -> List UInt8 -> Text := fun _ bytes =>
  bytes.map (fun byte => Char.ofNat byte.toNat)

def config : AppConfig :=
  { AppConfig.standard with features := { AppConfig.standard.features with saveTextFile := true } }

/-- `docs/a.txt` is saved. -/
def edit (data : List UInt8) (expected : Option Text) : Edit :=
  .save filling config
    { OneTrash.request .writeFile 7 "docs//a.txt".toList with
      writeOptions := some ⟨none, expected, data, 0, true⟩ }
    OneUpload.calls OneUpload.calls

/-- Beside it `docs/b.txt` is made. -/
def other : Edit :=
  .elsewhere (fun disk => disk.place ["docs".toList] "b.txt".toList
    (.leaf (.file OneRename.stat [2])))

/-- A save from a revision that the file never had, and the change beside it. -/
def middle : List Edit := [edit [67] (some ['B']), other]

theorem edit_concerns (data : List UInt8) (expected : Option Text) :
    (edit data expected).Concerns ["docs".toList, "a.txt".toList] :=
  ⟨rfl, show segmentNames "docs//a.txt".toList = _ by decide, artifact_plain⟩

theorem other_concerns : other.Concerns ["docs".toList, "a.txt".toList] :=
  fun _ => NamedTree.lookup_place_of_ne _ (by decide) (by decide)

end OneSave

open OneSave in
/-- After a save, one from a revision that the file never had and a change of another
file, a save from the revision of the first succeeds. -/
theorem no_lost_update_note :
    ∃ stat bytes, (edit [65] none).Writes OneRename.disk bytes ∧
      (Runs.run (Edit.step .hyphenated OneRename.codec fingerprint archives) OneRename.disk
          (edit [65] none :: middle)).lookup ["docs".toList, "a.txt".toList] =
        some (.leaf (.file stat bytes)) ∧
      fingerprint stat bytes = ['A'] := by
  apply no_lost_update .hyphenated OneRename.codec fingerprint archives
    ["docs".toList, "a.txt".toList] OneRename.disk (edit [65] none) (edit [66] (some ['A'])) middle
    ['A']
  · intro edit listed
    simp only [middle, List.cons_append, List.nil_append, List.mem_cons, List.not_mem_nil,
      or_false] at listed
    rcases listed with rfl | rfl | rfl | rfl
    · exact edit_concerns _ _
    · exact edit_concerns _ _
    · exact other_concerns
    · exact edit_concerns _ _
  · decide
  · intro visit visited
    rcases List.mem_cons.mp visited with rfl | visited
    · decide
    · rcases List.mem_cons.mp visited with rfl | visited
      · rfl
      · cases visited
  · rfl
  · decide
  · decide

end TealDrive
