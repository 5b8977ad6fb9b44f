import Mathlib.Data.List.Chain
import TealDrive.Download.Continuation

namespace TealDrive

open Outcome JsonText

/-!
# What a download delivers

Each request of a body leaves the journal ready for the next one, whatever other
processes do in between, and each brings the bytes that follow those before.  The
body is the interval that was announced, or a beginning of it when the journal
refuses a request.
-/

/-! ## One request -/

/-- What the worker reads when the file has the given content: something of what
there is at the offset, and no more than it was asked for. -/
structure ReadsRange (content : List UInt8) (offset length : Nat) (answer : HelperResponse) :
    Prop where
  success : answer.success = true
  producible : answer.Producible
  payload : ∃ data, answer.payload = .fileRange content.length offset data ∧
    data <+: content.drop offset ∧ data.length ≤ length ∧
    (0 < length -> offset < content.length -> data ≠ [])

/-- The account whose journal has the records of downloads. -/
def HelperSide.journaled (side : HelperSide) : Option Account :=
  if side.config.enabled then side.account else none

/-- A helper that reads a file of the given content.  Its identifiers are drawn
apart from all others, and less than 300 seconds pass between two requests. -/
structure HelperSide.Serves (side : HelperSide) (idText : Uuid -> Text)
    (parseId : Text -> Option Uuid) (target : DownloadTarget) (content : List UInt8) : Prop where
  format : side.format = jsonFormat idText parseId
  chunk : 0 < side.maxChunkSize
  small : content.length ≤ u64Max
  answers : forall index offset request, ForTarget target offset request ->
    ∃ answer, side.answers index request = some answer ∧
      ReadsRange content offset request.limits.maxChunkSize answer
  apart : forall index, ¬ side.Draws (side.ids index)
  spared : forall index account record, (side.turns index).ledger account record ≠ .error .conflict
  begins : forall index, (side.turns index).begunAt ≤ u64Max
  ends : forall index, (side.turns index).finishedAt ≤ u64Max
  reserves : forall index, (side.turns index).logReserveBytes ≤ u64Max
  timely : forall index, 0 < index ->
    (side.turns (index + 1)).begunAt ≤ (side.turns index).finishedAt + 300

/-- A journal in which a download can go on at the offset with the record that its
last request left. -/
structure Ready (side : HelperSide) (idText : Uuid -> Text) (target : DownloadTarget)
    (prior : Option OperationKey) (offset at_ : Nat) (state : JournalState) : Prop where
  standing : forall account, side.journaled = some account ->
    Standing account.id target.requestId side.Draws
      (Resumable side idText target account prior offset at_) state
  unjournaled : side.journaled = none -> prior = none
  drawn : forall key, prior = some key -> side.Draws key.id

namespace Handled

/-- The record of a request that has one. -/
def key (handled : Handled) : Option OperationKey :=
  match handled.begun with
  | .ok (some record) => some record.key
  | _ => none

/-- The request goes on with the record, as long as the journal has it. -/
def Resumes (prior : Option OperationKey) (handled : Handled) : Prop :=
  forall key, prior = some key -> (handled.found.store.operations.find key).isSome = true ->
    ∃ record, handled.begun = .ok (some record) ∧ record.key = key ∧
      record.rangeNextOffset = some handled.offset

end Handled

/-- What becomes of a request at the offset for a number of bytes. -/
inductive Handles (side : HelperSide) (idText : Uuid -> Text) (target : DownloadTarget)
    (content : List UInt8) (prior : Option OperationKey) (offset length at_ : Nat)
    (handled : Handled) : Prop where
  | refused (problem : StoreError) (account : Account) (journal : side.journaled = some account)
      (begun : handled.begun = .error problem) (sound : problem ≠ .conflict)
      (fresh : handled.found.store.previousRecord account.id target.requestId = none)
      (answered : handled.answer = some (journalUnavailable problem))
  | served (answer : HelperResponse) (data : List UInt8) (answered : handled.answer = some answer)
      (success : answer.success = true)
      (payload : answer.payload = .fileRange content.length offset data)
      (read : data <+: content.drop offset) (short : data.length ≤ length)
      (some_ : 0 < length -> offset < content.length -> data ≠ [])
      (begun : forall problem, handled.begun ≠ .error problem)
      (ready : Ready side idText target handled.key (offset + data.length) at_ handled.left)

section Requests

variable {side : HelperSide} {idText : Uuid -> Text} {parseId : Text -> Option Uuid}
  {target : DownloadTarget} {account : Account} {content : List UInt8}
  {prior : Option OperationKey} {offset before index : Nat} {state : JournalState}
  {request : HelperRequest} {record : OperationRecord}

/-- The outcome of a request is what its record says, unless the record is gone. -/
theorem Standing.finished {answer : HelperResponse} {data : List UInt8} {total begunAt : Nat}
    (serves : side.Serves idText parseId target content)
    (standing : Standing account.id target.requestId side.Draws (fun row => row = record) state)
    (ranged : Ranged side idText target account .pending offset begunAt record)
    (success : answer.success = true) (producible : answer.Producible)
    (payload : answer.payload = .fileRange total offset data)
    (inside : offset + data.length ≤ u64Max) :
    Standing account.id target.requestId side.Draws
      (Resumable side idText target account (some record.key) (offset + data.length)
        (side.turns index).finishedAt)
      (side.finish (side.turns index) record (some answer) state) := by
  cases found : state.store.operations.find record.key with
  | none =>
      have lost : side.finish (side.turns index) record (some answer) state = state := by
        unfold HelperSide.finish
        rw [Store.finishOperation_lost found]
      rw [lost]
      refine ⟨?_, standing.returned, standing.continued⟩
      intro key row stored
      rcases standing.rows key row stored with ⟨_, rfl⟩ | foreign
      · rw [state.store.operations.keyed key _ stored, stored] at found
        cases found
      · exact Or.inr foreign
  | some current =>
      have same : current = record := by
        rcases standing.rows _ current found with ⟨_, same⟩ | foreign
        · exact same
        · have id : current.id = record.id :=
            congrArg OperationKey.id (state.store.operations.keyed _ _ found)
          exact absurd (id ▸ ranged.drawn) foreign.apart
      subst same
      rcases ranged.finishes parseId (side.turns index).logStorage success producible payload
        (serves.ends index) (serves.reserves index) inside with
        ⟨finished, done, fits, named, later⟩
      rw [← serves.format] at done fits
      rcases Store.finishOperation_done found done fits with ⟨after, outcome, rows⟩
      have written : side.finish (side.turns index) current (some answer) state =
          state.withStore after := by
        unfold HelperSide.finish
        rw [outcome]
      rw [written]
      refine ⟨?_, standing.returned, standing.continued⟩
      intro key row stored
      change after.operations.find key = some row at stored
      rw [rows] at stored
      by_cases own : key = finished.key
      · subst own
        rw [Register.find_replace_self] at stored
        rcases Option.map_eq_some_iff.mp stored with ⟨_, _, rfl⟩
        exact Or.inl ⟨later.own, congrArg some named, later⟩
      · rw [Register.find_replace_of_ne own] at stored
        rcases standing.rows key row stored with ⟨_, rfl⟩ | foreign
        · exact absurd ((state.store.operations.keyed key _ stored).symm.trans named.symm) own
        · exact Or.inr foreign

/-- The request as the helper takes it. -/
def HelperSide.capped (side : HelperSide) (request : HelperRequest) : HelperRequest :=
  request.withChunkSize (min request.limits.maxChunkSize side.maxChunkSize)

/-- The journal that a request finds. -/
def HelperSide.foundAt (side : HelperSide) (index : Nat) (state : JournalState) : JournalState :=
  Runs.run side.step state (side.turns index).before

theorem handle_unjournaled (unjournaled : side.journal (side.capped request) = none) :
    side.handle index request state =
      { offset := (side.capped request).offset
        found := side.foundAt index state
        begun := .ok none
        answer := side.answers index (side.capped request)
        left := Runs.run side.step (side.foundAt index state) (side.turns index).during
        moves := Runs.visits side.step state (side.turns index).before ++
          Runs.visits side.step (side.foundAt index state) (side.turns index).during } := by
  unfold HelperSide.capped at unjournaled
  unfold HelperSide.handle
  dsimp only
  rw [unjournaled]
  rfl

theorem handle_refused {problem : StoreError} {store : Store}
    (journal : side.journal (side.capped request) = some account)
    (refused : (side.foundAt index state).store.beginOperation side.format side.config
      (side.turns index).draws (side.turns index).ledger account (side.capped request)
      (side.turns index).begunAt = (.error problem, store)) :
    side.handle index request state =
      { offset := (side.capped request).offset
        found := side.foundAt index state
        begun := .error problem
        answer := some (journalUnavailable problem)
        left := (side.foundAt index state).withStore store
        moves := Runs.visits side.step state (side.turns index).before } := by
  unfold HelperSide.capped at journal
  unfold HelperSide.capped HelperSide.foundAt at refused
  unfold HelperSide.handle
  dsimp only
  rw [journal]
  dsimp only
  rw [refused]
  rfl

theorem handle_begun {store : Store}
    (journal : side.journal (side.capped request) = some account)
    (begun : (side.foundAt index state).store.beginOperation side.format side.config
      (side.turns index).draws (side.turns index).ledger account (side.capped request)
      (side.turns index).begunAt = (.ok record, store)) :
    side.handle index request state =
      { offset := (side.capped request).offset
        found := side.foundAt index state
        begun := .ok (some record)
        answer := side.answers index (side.capped request)
        left := side.finish (side.turns index) record (side.answers index (side.capped request))
          (Runs.run side.step ((side.foundAt index state).withStore store)
            (side.turns index).during)
        moves := Runs.visits side.step state (side.turns index).before ++
          Runs.visits side.step ((side.foundAt index state).withStore store)
            (side.turns index).during } := by
  unfold HelperSide.capped at journal
  unfold HelperSide.capped HelperSide.foundAt at begun
  unfold HelperSide.handle
  dsimp only
  rw [journal]
  dsimp only
  rw [begun]
  rfl

theorem ForTarget.capped (asked : ForTarget target offset request) :
    ForTarget target offset (side.capped request) :=
  ⟨asked.command, asked.requestId, asked.user, asked.place, asked.noTarget, asked.options⟩

theorem ForTarget.offset_eq (asked : ForTarget target offset request) :
    request.offset = offset := by
  unfold HelperRequest.offset
  rw [asked.options]
  rfl

theorem ForTarget.journal_eq (asked : ForTarget target offset request)
    (some_ : 0 < request.limits.maxChunkSize) : side.journal request = side.journaled := by
  unfold HelperSide.journal HelperSide.journaled
  rw [asked.command]
  simp [HelperCommand.tracked, some_]

/-- A helper that has a chunk size of its own leaves room for a byte. -/
theorem HelperSide.Serves.room (serves : side.Serves idText parseId target content)
    (some_ : 0 < request.limits.maxChunkSize) :
    0 < (side.capped request).limits.maxChunkSize :=
  Nat.lt_min.mpr ⟨some_, serves.chunk⟩

/-- What is read for a request. -/
theorem HelperSide.Serves.reads (serves : side.Serves idText parseId target content)
    (asked : ForTarget target offset request) (some_ : 0 < request.limits.maxChunkSize) :
    ∃ answer data, side.answers index (side.capped request) = some answer ∧
      answer.success = true ∧ answer.Producible ∧
      answer.payload = .fileRange content.length offset data ∧ data <+: content.drop offset ∧
      data.length ≤ request.limits.maxChunkSize ∧ (offset < content.length -> data ≠ []) := by
  have again : ForTarget target offset (side.capped request) := asked.capped
  rcases serves.answers index offset _ again with ⟨answer, given, reads⟩
  rcases reads.payload with ⟨data, payload, read, short, filled⟩
  have bounded : data.length ≤ request.limits.maxChunkSize := short.trans (Nat.min_le_left _ _)
  exact ⟨answer, data, given, reads.success, reads.producible, payload, read, bounded,
    filled (serves.room some_)⟩

/-- What becomes of a request at an offset that the download has reached. -/
theorem Ready.handles (serves : side.Serves idText parseId target content)
    (ready : Ready side idText target prior offset before state)
    (asked : ForTarget target offset request) (some_ : 0 < request.limits.maxChunkSize)
    (inside : offset + request.limits.maxChunkSize ≤ content.length)
    (timely : prior.isSome = true -> (side.turns index).begunAt ≤ before + 300)
    (alone : forall account move, side.journaled = some account ->
      move ∈ (side.handle index request state).moves ->
        move.2.asks account.id target.requestId = false)
    (acting : forall account, side.journaled = some account ->
      ∃ actor, (side.handle index request state).found.store.operationActor account = .ok actor) :
    Handles side idText target content prior offset request.limits.maxChunkSize
        (side.turns index).finishedAt (side.handle index request state) ∧
      (side.handle index request state).Resumes prior := by
  have again : ForTarget target offset (side.capped request) := asked.capped
  have capped := serves.room some_
  have tracked : side.journal (side.capped request) = side.journaled := again.journal_eq capped
  rcases serves.reads asked some_ with
    ⟨answer, data, given, success, producible, payload, read, short, filled⟩
  have reached : offset + data.length ≤ u64Max := by
    have small := serves.small
    omega
  cases journal : side.journaled with
  | none =>
      rw [journal] at tracked
      have handled := @handle_unjournaled side index state request tracked
      rw [handled]
      constructor
      · refine .served answer data given success payload read short (fun _ => filled) ?_ ?_
        · intro problem same
          cases same
        · refine ⟨?_, fun _ => rfl, ?_⟩
          · intro account some_
            rw [journal] at some_
            cases some_
          · intro key named
            cases named
      · intro key named
        rw [ready.unjournaled journal] at named
        cases named
  | some account =>
      rw [journal] at tracked
      have standing := ready.standing account journal
      cases begun : (side.foundAt index state).store.beginOperation side.format side.config
          (side.turns index).draws (side.turns index).ledger account (side.capped request)
          (side.turns index).begunAt with
      | mk outcome store =>
          have small : offset ≤ u64Max := Nat.le_of_add_right_le reached
          cases outcome with
          | error problem =>
              have handled := handle_refused tracked begun
              rw [handled] at alone acting ⊢
              have found := standing.run serves.apart (fun row fine => fine.2.settled)
                (fun visit visited => alone account visit journal visited)
              rw [serves.format] at begun
              cases found.begins ready.drawn again capped (acting account journal) timely
                (serves.begins index) small (serves.spared index) begun with
              | refused _ _ sound fresh =>
                  refine ⟨.refused problem account journal rfl sound fresh rfl, ?_⟩
                  intro key named there
                  have still := found.resumed there (ready.drawn key named)
                  rw [fresh] at still
                  cases still
          | ok record =>
              have handled := handle_begun tracked begun
              rw [handled] at alone acting ⊢
              have found := standing.run serves.apart (fun row fine => fine.2.settled)
                (fun visit visited => alone account visit journal (List.mem_append_left _ visited))
              rw [serves.format] at begun
              cases found.begins ready.drawn again capped (acting account journal) timely
                (serves.begins index) small (serves.spared index) begun with
              | record _ _ ranged kept same =>
                  have worked := kept.run serves.apart (fun row fine => fine ▸ ranged.settled)
                    (fun visit visited =>
                      alone account visit journal (List.mem_append_right _ visited))
                  rw [given]
                  constructor
                  · refine .served answer data rfl success payload read short (fun _ => filled)
                      ?_ ?_
                    · intro problem same
                      cases same
                    · refine ⟨?_, ?_, ?_⟩
                      · intro other some_
                        rw [journal] at some_
                        cases some_
                        exact worked.finished serves ranged success producible payload reached
                      · intro none_
                        rw [journal] at none_
                        cases none_
                      · intro key named
                        cases named
                        exact ranged.drawn
                  · intro key named there
                    refine ⟨record, rfl, same key named there, ?_⟩
                    rw [ranged.next, again.offset_eq]

end Requests

/-! ## The body -/

/-- What is sent of a number of bytes at the offset, and what becomes of the requests
for it.  The body breaks off only where the journal takes no record, which can happen
only when it has none of the download. -/
structure Delivers (side : HelperSide) (target : DownloadTarget) (content : List UInt8)
    (offset length : Nat) (stream : Stream) : Prop where
  body : stream.body <+: (content.drop offset).take length
  whole : stream.broken = none -> stream.body = (content.drop offset).take length
  broken : forall handled, stream.broken = some handled ->
    ∃ problem, handled.begun = .error problem
  refused : forall handled problem, handled ∈ stream.handled -> handled.begun = .error problem ->
    problem ≠ .conflict ∧ forall account, side.journaled = some account ->
      handled.found.store.previousRecord account.id target.requestId = none
  linked : stream.handled.IsChain (fun earlier next => next.Resumes earlier.key)

section Streams

variable {side : HelperSide} {idText : Uuid -> Text} {parseId : Text -> Option Uuid}
  {target : DownloadTarget} {account : Account} {content : List UInt8}
  {prior : Option OperationKey} {offset before index remaining fuel policyChunkSize : Nat}
  {state : JournalState} {request : HelperRequest}

/-- The request for the next bytes of a body. -/
def nextRequest (policyChunkSize remaining : Nat) (request : HelperRequest) : HelperRequest :=
  request.withChunkSize (min (min streamChunkSize policyChunkSize) remaining)

theorem createHelperStream_done :
    createHelperStream side policyChunkSize fuel index request 0 state = ⟨[], none⟩ := by
  cases fuel with
  | zero => rfl
  | succ fuel =>
      unfold createHelperStream
      exact if_pos rfl

theorem createHelperStream_failed {failure : ReadFailure} (some_ : remaining ≠ 0)
    (failed : readRange (side.handle index (nextRequest policyChunkSize remaining request)
      state).answer = .error failure) :
    createHelperStream side policyChunkSize (fuel + 1) index request remaining state =
      ⟨[], some (side.handle index (nextRequest policyChunkSize remaining request) state)⟩ := by
  unfold nextRequest at failed
  unfold createHelperStream
  rw [if_neg some_]
  dsimp only
  rw [failed]
  rfl

theorem createHelperStream_read {size : Nat} {data : List UInt8} (some_ : remaining ≠ 0)
    (read : readRange (side.handle index (nextRequest policyChunkSize remaining request)
      state).answer = .ok (size, data)) (filled : data ≠ []) :
    createHelperStream side policyChunkSize (fuel + 1) index request remaining state =
      ⟨⟨side.handle index (nextRequest policyChunkSize remaining request) state, data⟩ ::
          (createHelperStream side policyChunkSize fuel (index + 1)
            ((nextRequest policyChunkSize remaining request).advance data.length)
            (remaining - data.length)
            (side.handle index (nextRequest policyChunkSize remaining request) state).left).chunks,
        (createHelperStream side policyChunkSize fuel (index + 1)
          ((nextRequest policyChunkSize remaining request).advance data.length)
          (remaining - data.length)
          (side.handle index (nextRequest policyChunkSize remaining request)
            state).left).broken⟩ := by
  unfold nextRequest at read ⊢
  rw [createHelperStream, if_neg some_]
  dsimp only
  rw [read]
  dsimp only
  rw [if_neg filled]

/-- A body of some bytes begins with a request. -/
theorem head_createHelperStream (some_ : remaining ≠ 0) :
    (createHelperStream side policyChunkSize (fuel + 1) index request remaining
        state).handled.head? =
      some (side.handle index (nextRequest policyChunkSize remaining request) state) := by
  unfold nextRequest createHelperStream
  rw [if_neg some_]
  dsimp only
  split
  · rfl
  · split <;> rfl

/-- The journal's refusal is no bytes. -/
theorem readRange_unavailable (problem : StoreError) :
    ∃ failure, readRange (some (journalUnavailable problem)) = .error failure := by
  unfold readRange journalUnavailable
  dsimp only
  rw [if_neg Bool.false_ne_true]
  split
  · exact ⟨_, rfl⟩
  · exact ⟨_, rfl⟩

theorem readRange_of_payload {answer : HelperResponse} {size : Nat} {data : List UInt8}
    (success : answer.success = true) (payload : answer.payload = .fileRange size offset data) :
    readRange (some answer) = .ok (size, data) := by
  unfold readRange
  dsimp only
  rw [if_pos success, payload]

/-- What was read is followed by what is read from there on. -/
theorem take_of_read {data : List UInt8} (read : data <+: content.drop offset)
    (short : data.length ≤ remaining) :
    (content.drop offset).take remaining =
      data ++ (content.drop (offset + data.length)).take (remaining - data.length) := by
  rcases read with ⟨rest, whole⟩
  have later : content.drop (offset + data.length) = rest := by
    rw [← List.drop_drop, ← whole, List.drop_left]
  rw [later, ← whole, List.take_append, List.take_of_length_le short]

theorem ForTarget.next (asked : ForTarget target offset request) :
    ForTarget target offset (nextRequest policyChunkSize remaining request) :=
  ⟨asked.command, asked.requestId, asked.user, asked.place, asked.noTarget, asked.options⟩

theorem ForTarget.advance (asked : ForTarget target offset request) (count : Nat) :
    ForTarget target (offset + count) (request.advance count) := by
  refine ⟨asked.command, asked.requestId, asked.user, asked.place, asked.noTarget, ?_⟩
  unfold HelperRequest.advance
  rw [asked.options]
  rfl

theorem Delivers.nothing : Delivers side target content offset 0 ⟨[], none⟩ where
  body := List.nil_prefix
  whole := fun _ => rfl
  broken := fun _ none_ => by cases none_
  refused := fun _ _ member => by cases member
  linked := .nil

/-- A request that is refused is the last one. -/
theorem Delivers.refusal {handled : Handled} {problem : StoreError}
    (begun : handled.begun = .error problem) (sound : problem ≠ .conflict)
    (journal : side.journaled = some account)
    (fresh : handled.found.store.previousRecord account.id target.requestId = none) :
    Delivers side target content offset remaining ⟨[], some handled⟩ where
  body := List.nil_prefix
  whole := fun none_ => by cases none_
  broken := by
    intro other same
    cases same
    exact ⟨problem, begun⟩
  refused := by
    intro other different member failed
    rw [List.mem_singleton.mp member] at failed ⊢
    rw [begun, Except.error.injEq] at failed
    refine ⟨failed ▸ sound, ?_⟩
    intro same named
    rw [journal, Option.some.injEq] at named
    exact named ▸ fresh
  linked := .singleton _

/-- A piece is followed by what the later requests bring. -/
theorem Delivers.piece {handled : Handled} {data : List UInt8} {stream : Stream}
    (begun : forall problem, handled.begun ≠ .error problem)
    (read : data <+: content.drop offset) (short : data.length ≤ remaining)
    (rest : Delivers side target content (offset + data.length) (remaining - data.length) stream)
    (next : forall first, stream.handled.head? = some first -> first.Resumes handled.key) :
    Delivers side target content offset remaining
      ⟨⟨handled, data⟩ :: stream.chunks, stream.broken⟩ where
  body := by
    rw [take_of_read read short]
    exact (List.prefix_append_right_inj data).mpr rest.body
  whole := by
    intro unbroken
    rw [take_of_read read short, ← rest.whole unbroken]
    rfl
  broken := rest.broken
  refused := by
    intro other problem member failed
    rcases List.mem_cons.mp member with rfl | member
    · exact absurd failed (begun problem)
    · exact rest.refused other problem member failed
  linked := rest.linked.cons next

/-- By induction on the requests, each of which leaves the journal ready for the
next one. -/
theorem Ready.delivers (serves : side.Serves idText parseId target content)
    (chunk : 0 < policyChunkSize) (later : 0 < index)
    (ready : Ready side idText target prior offset before state)
    (asked : ForTarget target offset request) (enough : remaining ≤ fuel)
    (inside : offset + remaining ≤ content.length)
    (timely : prior.isSome = true -> (side.turns index).begunAt ≤ before + 300)
    (alone : forall account handled move, side.journaled = some account ->
      handled ∈ (createHelperStream side policyChunkSize fuel index request remaining
          state).handled ->
        move ∈ handled.moves -> move.2.asks account.id target.requestId = false)
    (acting : forall account handled, side.journaled = some account ->
      handled ∈ (createHelperStream side policyChunkSize fuel index request remaining
          state).handled ->
        ∃ actor, handled.found.store.operationActor account = .ok actor) :
    Delivers side target content offset remaining
        (createHelperStream side policyChunkSize fuel index request remaining state) ∧
      forall first, (createHelperStream side policyChunkSize fuel index request remaining
        state).handled.head? = some first -> first.Resumes prior := by
  induction fuel generalizing index request remaining state prior offset before with
  | zero =>
      cases Nat.le_zero.mp enough
      exact ⟨.nothing, fun _ none_ => by cases none_⟩
  | succ fuel ih =>
      by_cases some_ : remaining = 0
      · subst some_
        rw [createHelperStream_done]
        exact ⟨.nothing, fun _ none_ => by cases none_⟩
      · have head := @head_createHelperStream side index remaining fuel policyChunkSize state
          request some_
        have listed := List.mem_of_mem_head? head
        have room : 0 < (nextRequest policyChunkSize remaining request).limits.maxChunkSize ∧
            (nextRequest policyChunkSize remaining request).limits.maxChunkSize ≤ remaining := by
          have size : 0 < streamChunkSize := by decide
          change 0 < min (min streamChunkSize policyChunkSize) remaining ∧
            min (min streamChunkSize policyChunkSize) remaining ≤ remaining
          omega
        rcases ready.handles serves asked.next room.1 (by omega) timely
          (fun account move journal => alone account _ move journal listed)
          (fun account journal => acting account _ journal listed) with ⟨handles, resumes⟩
        have first : forall first, (createHelperStream side policyChunkSize (fuel + 1) index request
            remaining state).handled.head? = some first -> first.Resumes prior := by
          intro first same
          rw [head, Option.some.injEq] at same
          exact same ▸ resumes
        refine ⟨?_, first⟩
        cases handles with
        | refused problem account journal begun sound fresh answered =>
            rcases readRange_unavailable problem with ⟨failure, failed⟩
            rw [← answered] at failed
            rw [createHelperStream_failed some_ failed]
            exact .refusal begun sound journal fresh
        | served answer data answered success payload read short filled begun ready =>
            have bytes := readRange_of_payload success payload
            rw [← answered] at bytes
            have some_data := filled room.1 (by omega)
            have progress := List.length_pos_iff.mpr some_data
            have fits := short.trans room.2
            rw [createHelperStream_read some_ bytes some_data] at alone acting ⊢
            have rest := ih (Nat.succ_pos index) ready (asked.next.advance data.length) (by omega)
              (by omega) (fun _ => serves.timely index later)
              (fun account handled move journal member =>
                alone account handled move journal (List.mem_cons_of_mem _ member))
              (fun account handled journal member =>
                acting account handled journal (List.mem_cons_of_mem _ member))
            exact .piece begun read fits rest.1 rest.2

end Streams

/-! ## The answer -/

/-- A text as a header carries it. -/
def headerValue (text : Text) : List UInt8 := text.map (fun symbol => UInt8.ofNat symbol.toNat)

section Served

variable {side : HelperSide} {idText : Uuid -> Text} {parseId : Text -> Option Uuid}
  {target : DownloadTarget} {account : Account} {content : List UInt8} {state : JournalState}
  {policy : DownloadPolicy} {header : Option (List UInt8)}

theorem visible_digits {number : Nat} {symbol : Char} (member : symbol ∈ Nat.toDigits 10 number) :
    32 ≤ symbol.toNat ∧ symbol.toNat ≤ 126 := by
  have digit := Nat.isDigit_of_mem_toDigits (by decide) (by decide) member
  simp only [Char.isDigit, Bool.and_eq_true, decide_eq_true_eq] at digit
  have low : 48 ≤ symbol.toNat := digit.1
  have high : symbol.toNat ≤ 57 := digit.2
  omega

theorem RangeSpec.visible (spec : RangeSpec) :
    forall symbol, symbol ∈ spec.spell -> 32 ≤ symbol.toNat ∧ symbol.toNat ≤ 126 := by
  have unit : forall symbol, symbol ∈ "bytes=".toList -> 32 ≤ symbol.toNat ∧ symbol.toNat ≤ 126 :=
    Text.forall_mem (by decide)
  intro symbol member
  cases spec with
  | bounded first last =>
      rcases List.mem_append.mp member with front | member
      · exact unit symbol front
      · rcases List.mem_append.mp member with digit | member
        · exact visible_digits digit
        · rcases List.mem_cons.mp member with rfl | digit
          · decide
          · exact visible_digits digit
  | openEnded first =>
      rcases List.mem_append.mp member with front | member
      · exact unit symbol front
      · rcases List.mem_append.mp member with digit | member
        · exact visible_digits digit
        · rw [List.mem_singleton.mp member]
          decide
  | suffix count =>
      rcases List.mem_append.mp member with front | member
      · exact unit symbol front
      · rcases List.mem_cons.mp member with rfl | digit
        · decide
        · exact visible_digits digit

theorem Standing.mono {requestId : Nat} {drawn : Uuid -> Prop}
    {allowed wider : OperationRecord -> Prop}
    (standing : Standing account.id requestId drawn allowed state)
    (weaker : forall row, allowed row -> wider row) :
    Standing account.id requestId drawn wider state :=
  ⟨fun key row found => (standing.rows key row found).imp_left (fun both =>
    ⟨both.1, weaker row both.2⟩), standing.returned, standing.continued⟩

end Served

namespace ThreeBytes

open OneTrash

def target : DownloadTarget := ⟨7, "ben".toList, 2000, 2000, ⟨"home".toList⟩, ⟨"notes".toList⟩⟩

def content : List UInt8 := [1, 2, 3]

/-- What the worker answers. -/
def read (offset length : Nat) : HelperResponse :=
  let data := (content.drop offset).take length
  ⟨true, none, data.length, 0, none, .fileRange content.length offset data⟩

/-- Another request of the same account. -/
def meanwhile (requestId : Nat) : List JournalStep :=
  [.drawEpoch, .readEpoch,
    .insert config ledger actor (request .createFolder requestId "photos".toList) 0 1000]

/-- It is made while the first piece is read. -/
def turn (requestId index : Nat) : Turn where
  before := []
  draws := ⟨2 * index, 0⟩
  ledger := ledger
  begunAt := 1000
  during := if index = 1 then meanwhile requestId else []
  logReserveBytes := 0
  logStorage := .systemBudget
  finishedAt := 1000

def side (requestId : Nat) : HelperSide where
  env := environment
  format := jsonFormat hyphenated parse
  ids := fun index => 2 * index + 1
  config := OneTrash.config
  account := some actor
  maxChunkSize := 2
  answers := fun _ request => some (read request.offset request.limits.maxChunkSize)
  turns := turn requestId

def policy : DownloadPolicy := ⟨1, 100, false⟩

/-- `bytes=1-`. -/
def tail : List UInt8 := headerValue (RangeSpec.openEnded 1).spell

def served (requestId : Nat) (header : Option (List UInt8)) : Served :=
  serveFileHttp (side requestId) policy target header (.initial store)

theorem reads (offset length : Nat) : ReadsRange content offset length (read offset length) where
  success := rfl
  producible := by
    have size : ((content.drop offset).take length).length ≤ 3 :=
      (List.length_take_le' _ _).trans (List.length_drop.trans_le (Nat.sub_le 3 offset))
    refine ⟨size.trans (by decide), Nat.zero_le _, ?_, ?_, ?_, ?_⟩ <;>
      intro metadata _ given <;> cases given
  payload := by
    refine ⟨_, rfl, List.take_prefix _ _, List.length_take_le _ _, ?_⟩
    intro some_ inside none_
    rw [← List.length_eq_zero_iff, List.length_take, List.length_drop] at none_
    omega

theorem serves (requestId : Nat) : (side requestId).Serves hyphenated parse target content where
  format := rfl
  chunk := Nat.two_pos
  small := by decide
  answers := by
    intro _ offset request asked
    exact ⟨_, rfl, asked.offset_eq ▸ reads request.offset request.limits.maxChunkSize⟩
  apart := by
    rintro index ⟨other, same⟩
    change 2 * other = 2 * index + 1 at same
    omega
  spared := fun _ _ _ same => by cases same
  begins := fun _ => show 1000 ≤ u64Max by decide
  ends := fun _ => show 1000 ≤ u64Max by decide
  reserves := fun _ => Nat.zero_le _
  timely := fun _ _ => Nat.le_add_right _ _

theorem fresh (requestId : Nat) : forall account, (side requestId).journaled = some account ->
    Standing account.id target.requestId (side requestId).Draws (fun _ => False)
      (.initial store) := by
  intro account _
  refine ⟨?_, ?_, ?_⟩
  · intro key row found
    cases found
  · intro row member
    cases member
  · intro row member
    cases member

/-- The caller of a journal, when it may still act. -/
def acts (handled : Handled) : Bool :=
  (handled.found.store.operationActor actor).toOption.isSome

/-- The problem that a request was refused with. -/
def refusal (handled : Handled) : Option StoreError :=
  match handled.begun with
  | .ok _ => none
  | .error problem => some problem

theorem acting {requestId : Nat} {header : Option (List UInt8)}
    (all : (served requestId header).handled.all acts = true) :
    forall account handled, (side requestId).journaled = some account ->
      handled ∈ (served requestId header).handled ->
        ∃ actor, handled.found.store.operationActor account = .ok actor := by
  intro account handled journal member
  have same : actor = account := Option.some.inj journal
  have act := List.all_eq_true.mp all handled member
  unfold acts at act
  rw [← same]
  cases found : handled.found.store.operationActor actor with
  | error problem =>
      rw [found] at act
      cases act
  | ok actor => exact ⟨actor, rfl⟩

theorem alone {requestId : Nat} {header : Option (List UInt8)}
    (all : (served requestId header).moves.all (fun move => !move.2.asks actor.id 7) = true) :
    forall account move, (side requestId).journaled = some account ->
      move ∈ (served requestId header).moves ->
        move.2.asks account.id target.requestId = false := by
  intro account move journal member
  have same : actor = account := Option.some.inj journal
  have asks := List.all_eq_true.mp all move member
  rw [← same]
  rwa [Bool.not_eq_true'] at asks

end ThreeBytes

end TealDrive
