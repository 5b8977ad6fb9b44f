import TealDrive.Download.Range
import TealDrive.Accounts.JournalRuns

namespace TealDrive

/-!
# Downloads over HTTP

A download is read from the helper in pieces.  The server asks for the size of the
file, picks the bytes the `Range` header names and then sends one request after the
other, each for as much as a request may carry, until the body is complete or a
request fails.  Around each of them the helper keeps the journal, in which other
processes work at the same time.

All requests of a download carry the identifier of its HTTP request.
-/

def HelperLimits.withChunkSize (limits : HelperLimits) (length : Nat) : HelperLimits :=
  { limits with maxChunkSize := length }

namespace HelperRequest

/-- The request for the given number of bytes. -/
def withChunkSize (request : HelperRequest) (length : Nat) : HelperRequest :=
  { request with limits := request.limits.withChunkSize length }

/-- The offset of the write options, which a ranged read starts at. -/
def offset (request : HelperRequest) : Nat :=
  (request.writeOptions.map (fun options => options.offset)).getD 0

/-- `request.write_options.offset += count`. -/
def advance (request : HelperRequest) (count : Nat) : HelperRequest :=
  { request with
    writeOptions := request.writeOptions.map (fun options =>
      { options with offset := options.offset + count }) }

end HelperRequest

/-! ## The helper -/

/-- Where the file of a record is stored. -/
inductive LogStorage where
  | systemBudget
  | userQuota
  | systemReserve
deriving DecidableEq

def LogStorage.text : LogStorage -> Text
  | .systemBudget => "systemBudget".toList
  | .userQuota => "userQuota".toList
  | .systemReserve => "systemReserve".toList

/-- What happens around one request: what other processes do to the journal
before the helper opens it and while the worker runs, and what the helper draws
and reads. -/
structure Turn where
  before : List JournalStep
  draws : Store.Draws
  ledger : Store.Ledger
  begunAt : Nat
  during : List JournalStep
  logReserveBytes : Nat
  logStorage : LogStorage
  finishedAt : Nat

/-- The helper as a download meets it. -/
structure HelperSide where
  env : Environment
  format : JournalFormat
  ids : Nat -> Uuid
  config : JournalConfig
  /-- The account of the grant, when there is one. -/
  account : Option Account
  /-- `limits.max_chunk_size` of the helper's policy. -/
  maxChunkSize : Nat
  /-- What the worker answers to the requests, one after the other.  Where the ledger
  refuses to be charged for a record, the answer is a failure. -/
  answers : Nat -> HelperRequest -> Option HelperResponse
  turns : Nat -> Turn

/-- What became of one request. -/
structure Handled where
  offset : Nat
  /-- The journal that `begin_operation` found. -/
  found : JournalState
  /-- The record it returned, when the request is journaled. -/
  begun : Except StoreError (Option OperationRecord)
  /-- The answer, when the worker came to one. -/
  answer : Option HelperResponse
  left : JournalState
  /-- What other processes did, and to which journal. -/
  moves : List (JournalState × JournalStep)

/-- The journal with another store. -/
def JournalState.withStore (state : JournalState) (store : Store) : JournalState :=
  { state with store := store }

/-- `Protected history unavailable; operation not started.` -/
def journalUnavailable (problem : StoreError) : HelperResponse where
  success := false
  errorKind := some (if problem = .quotaExceeded then .diskFull else .internalError)
  bytesRead := 0
  bytesWritten := 0
  auditMetadata := none
  payload := .other

namespace HelperSide

variable (side : HelperSide)

/-- One step of another process. -/
def step : JournalState -> JournalStep -> JournalState :=
  JournalState.step side.env side.format side.ids

/-- The account whose journal a request goes to, when it goes to one. -/
def journal (request : HelperRequest) : Option Account :=
  if side.config.enabled && request.command.tracked &&
      (request.command != .readFileRange || decide (request.limits.maxChunkSize > 0)) then
    side.account
  else none

/-- The outcome of the worker is journaled before it is answered.  A journal that
does not take it is only mentioned in the answer. -/
def finish (turn : Turn) (record : OperationRecord) (answer : Option HelperResponse)
    (state : JournalState) : JournalState :=
  match state.store.finishOperation side.format side.config
      (JournalState.charged record turn.logReserveBytes (some turn.logStorage.text)) answer
      turn.finishedAt with
  | .error _ => state
  | .ok (_, store) => state.withStore store

def handle (index : Nat) (request : HelperRequest) (state : JournalState) : Handled :=
  let turn := side.turns index
  let request := request.withChunkSize (min request.limits.maxChunkSize side.maxChunkSize)
  let found := Runs.run side.step state turn.before
  let before := Runs.visits side.step state turn.before
  let answer := side.answers index request
  match side.journal request with
  | none =>
      { offset := request.offset
        found := found
        begun := .ok none
        answer := answer
        left := Runs.run side.step found turn.during
        moves := before ++ Runs.visits side.step found turn.during }
  | some account =>
      match found.store.beginOperation side.format side.config turn.draws turn.ledger account
          request turn.begunAt with
      | (.error problem, store) =>
          { offset := request.offset
            found := found
            begun := .error problem
            answer := some (journalUnavailable problem)
            left := found.withStore store
            moves := before }
      | (.ok record, store) =>
          let working := found.withStore store
          { offset := request.offset
            found := found
            begun := .ok (some record)
            answer := answer
            left := side.finish turn record answer (Runs.run side.step working turn.during)
            moves := before ++ Runs.visits side.step working turn.during }

end HelperSide

/-! ## The server -/

/-- The user of a session, and the file a download is for. -/
structure DownloadTarget where
  requestId : Nat
  username : Text
  uid : Nat
  gid : Nat
  rootId : RootId
  path : RelativePath

def rangeRequest (target : DownloadTarget) (offset length : Nat) : HelperRequest where
  requestId := target.requestId
  username := target.username
  uid := target.uid
  gid := target.gid
  command := .readFileRange
  rootId := target.rootId
  relativePath := target.path
  targetRelativePath := none
  limits := ⟨1, 1, length, length⟩
  writeOptions := some ⟨none, none, [], offset, false⟩
  chmodMode := none
  archiveSourcePaths := none

/-- The failures of `read_range` that an answer tells apart. -/
inductive ReadFailure where
  | denied
  | other
deriving DecidableEq

/-- The size of the file, and the bytes that were read. -/
def readRange : Option HelperResponse -> Except ReadFailure (Nat × List UInt8)
  | none => .error .other
  | some response =>
      if response.success then
        match response.payload with
        | .fileRange totalSize _ data => .ok (totalSize, data)
        | _ => .error .other
      else if response.errorKind = some .permissionDenied ∨
          response.errorKind = some .policyDenied then .error .denied
      else .error .other

/-- A request, and the piece of the body it brought. -/
structure Chunk where
  handled : Handled
  data : List UInt8

/-- A body, as it is sent. -/
structure Stream where
  chunks : List Chunk
  /-- The request that broke the body off. -/
  broken : Option Handled

namespace Stream

def body (stream : Stream) : List UInt8 := stream.chunks.flatMap Chunk.data

/-- The requests of a stream. -/
def handled (stream : Stream) : List Handled :=
  stream.chunks.map Chunk.handled ++ stream.broken.toList

end Stream

/-- `STREAM_CHUNK_SIZE`. -/
def streamChunkSize : Nat := maxChunkSize

/-- The requests of a body of the given length, the first of them with the given
index.  Every piece has a byte, so that as many requests as bytes are enough. -/
def createHelperStream (side : HelperSide) (policyChunkSize : Nat) :
    Nat -> Nat -> HelperRequest -> Nat -> JournalState -> Stream
  | 0, _, _, _, _ => ⟨[], none⟩
  | fuel + 1, index, request, remaining, state =>
      if remaining = 0 then ⟨[], none⟩
      else
        let request := request.withChunkSize
          (min (min streamChunkSize policyChunkSize) remaining)
        let handled := side.handle index request state
        match readRange handled.answer with
        | .error _ => ⟨[], some handled⟩
        | .ok (_, data) =>
            if data = [] then ⟨[], some handled⟩
            else
              let later := createHelperStream side policyChunkSize fuel (index + 1)
                (request.advance data.length) (remaining - data.length) handled.left
              ⟨⟨handled, data⟩ :: later.chunks, later.broken⟩

/-- The limits of the server's policy. -/
structure DownloadPolicy where
  maxChunkSize : Nat
  maxPreviewSize : Nat
  /-- The file is shown, not saved. -/
  inline : Bool

structure DownloadResponse where
  status : Nat
  contentRange : Option Text
  contentLength : Option Nat
  body : Option Stream

/-- An answer without a body. -/
def DownloadResponse.bare (status : Nat) : DownloadResponse := ⟨status, none, none, none⟩

/-- What the `Range` header asks for, if it is understood. -/
def requestedRange (header : Option (List UInt8)) (fileSize : Nat) :
    Option (Except Unit ByteRange) := do
  let text ← headerText (← header)
  parseRangeHeader text fileSize

/-- The answer for a file of the given size. -/
def answerRange (side : HelperSide) (policy : DownloadPolicy) (target : DownloadTarget)
    (header : Option (List UInt8)) (fileSize : Nat) (state : JournalState) : DownloadResponse :=
  let request := rangeRequest target 0 (min streamChunkSize policy.maxChunkSize)
  let stream := fun request length =>
    createHelperStream side policy.maxChunkSize length 1 request length state
  match requestedRange header fileSize with
  | some (.ok range) =>
      ⟨206, some (contentRangeText range fileSize), some range.length,
        some (stream (request.advance range.start) range.length)⟩
  | some (.error ()) => ⟨416, some (unsatisfiedRangeText fileSize), none, none⟩
  | none => ⟨200, none, some fileSize, some (stream request fileSize)⟩

/-- A download: the request for the size, and the answer. -/
structure Served where
  probe : Handled
  response : DownloadResponse

def serveFileHttp (side : HelperSide) (policy : DownloadPolicy) (target : DownloadTarget)
    (header : Option (List UInt8)) (state : JournalState) : Served :=
  let probe := side.handle 0 (rangeRequest target 0 0) state
  { probe := probe
    response := match readRange probe.answer with
      | .error .denied => .bare 403
      | .error .other => .bare 404
      | .ok (fileSize, _) =>
          if policy.inline && decide (fileSize > policy.maxPreviewSize) then .bare 413
          else answerRange side policy target header fileSize probe.left }

/-- The requests for bytes of the file. -/
def Served.handled (served : Served) : List Handled :=
  (served.response.body.map Stream.handled).getD []

/-- What other processes did to the journal during a download. -/
def Served.moves (served : Served) : List (JournalState × JournalStep) :=
  served.probe.moves ++ served.handled.flatMap Handled.moves

end TealDrive
