import TealDrive.Library.History
import TealDrive.Library.Table
import TealDrive.Upload.Transfer

namespace TealDrive

open Outcome

/-!
# Uploads of a server

An upload lives in the map of its connection.  When the connection goes, the
upload either moves to the table `PENDING`, where the same browser session can
fetch it back for a while, or it is given up and its staging file removed.
This is the state of `upload::resume` and the upload handlers of
`ws::dispatch`, over the functions of `upload::transfer`.

The transfer of an identifier is owned by whoever has its record, so that one
request is one step.  Dropping a closed connection takes one step for each of
its uploads, since the source treats them one after the other.  The server
keeps the identifiers it has drawn; a random UUID never comes twice.  The log
is not part of the source.  It says what happened, the newest first.
-/

/-- Who is at the other end of a connection. -/
structure Identity where
  session : Uuid
  username : Text
  uid : Nat
  gid : Nat
deriving DecidableEq

/-- `WsConnectionContext`, as far as uploads need it.  A connection that is not
live only waits for its uploads to be dropped. -/
structure Connection where
  who : Identity
  live : Bool
  uploads : Table Uuid ActiveUpload

structure Suspended where
  who : Identity
  expires : Nat
  upload : ActiveUpload

structure UploadResumeResponse where
  transferId : Uuid
  rootId : RootId
  relativePath : RelativePath
  filename : Text
  totalSize : Nat
  bytesReceived : Nat
  chunkSize : Nat
  prefixSha256 : Text
deriving DecidableEq

namespace Uploads

inductive Event where
  | began (id : Uuid) (totalSize : Nat) (sha256 : Option Text)
  | accepted (id : Uuid) (data : Bytes)
  | suspended (id : Uuid) (who : Identity)
  | taken (id : Uuid) (who : Identity)
  | handed (id : Uuid) (content : Bytes) (succeeded : Bool)
  | ended (id : Uuid) (unlinked : Bool)
deriving DecidableEq

/-- The transfer an event is about. -/
def Event.id : Event -> Uuid
  | .began id _ _ => id
  | .accepted id _ => id
  | .suspended id _ => id
  | .taken id _ => id
  | .handed id _ _ => id
  | .ended id _ => id

/-- The chunks of a transfer that were acknowledged, put together. -/
def received (id : Uuid) : List Event -> Bytes
  | [] => []
  | .accepted other data :: log => if other = id then received id log ++ data else received id log
  | _ :: log => received id log

/-- The size and the hash declared at the begin. -/
def declared (id : Uuid) : List Event -> Option (Nat × Option Text)
  | [] => none
  | .began other totalSize sha256 :: log =>
      if other = id then some (totalSize, sha256) else declared id log
  | _ :: log => declared id log

structure Server where
  files : Table Uuid Bytes
  connections : Table Nat Connection
  pending : Table Uuid Suspended
  now : Nat
  used : List Uuid
  log : List Event

namespace Server

def initial : Server where
  files := Table.empty
  connections := Table.empty
  pending := Table.empty
  now := 0
  used := []
  log := []

/-- A connection that still takes requests. -/
def client (server : Server) (number : Nat) : Option Connection :=
  (server.connections.find number).filter Connection.live

def setFile (server : Server) (id : Uuid) : Option Bytes -> Server
  | none => { server with files := server.files.erase id }
  | some content => { server with files := server.files.insert id content }

def setUploads (server : Server) (number : Nat) (uploads : Table Uuid ActiveUpload) : Server :=
  { server with
    connections := server.connections.modify number (fun connection =>
      { connection with uploads := uploads }) }

def note (server : Server) (event : Event) : Server :=
  { server with log := event :: server.log }

/-- Transfers are over: their staging files are removed, unless that fails. -/
def dispose (server : Server) (ids : List Uuid) (unlinks : Uuid -> Bool) : Server :=
  { server with
    files := server.files.filter (fun id _ => !(ids.contains id && unlinks id))
    log := ids.map (fun id => .ended id (unlinks id)) ++ server.log }

/-! ## `upload::resume` -/

/-- `PENDING` loses the records that are not kept; dropping a record removes
its staging file. -/
def retain (server : Server) (keep : Suspended -> Bool) (unlinks : Uuid -> Bool) : Server :=
  let gone := (server.pending.rows.filter (fun row => !keep row.2)).map Prod.fst
  { server with pending := server.pending.filter (fun _ record => keep record) }.dispose gone unlinks

def unexpired (server : Server) (record : Suspended) : Bool :=
  server.now < record.expires

/-- The bound on `PENDING`. -/
def maxPending : Nat := 4096

def suspend (server : Server) (who : Identity) (upload : ActiveUpload) (seconds : Nat)
    (unlinks : Uuid -> Bool) : Server :=
  let record : Suspended :=
    { who := who, expires := min (server.now + seconds) u64Max, upload := upload }
  let server := server.retain server.unexpired unlinks
  if server.pending.size < maxPending then
    { server with pending := server.pending.insert upload.transferId record }.note
      (.suspended upload.transferId who)
  else server.dispose [upload.transferId] unlinks

def purge (server : Server) (session : Option Uuid) (unlinks : Uuid -> Bool) : Server :=
  server.retain (fun record => server.unexpired record && session != some record.who.session) unlinks

def clear (server : Server) (unlinks : Uuid -> Bool) : Server :=
  server.retain (fun _ => false) unlinks

/-- `take_for_abort`.  It does not look at the time. -/
def takeForAbort (server : Server) (who : Identity) (id : Uuid) :
    Except TealDriveError ActiveUpload × Server :=
  match server.pending.find id with
  | none => (.error .notFound, server)
  | some record =>
      if record.who ≠ who then (.error .notFound, server)
      else
        (.ok record.upload,
          { server with pending := server.pending.erase id }.note (.taken id who))

/-- How the file operations of `take` end: opening the staging file, its
metadata, whether it is a private regular file of the server, and reading it. -/
structure ResumeCalls where
  opens : Bool
  stats : Bool
  ownFile : Bool
  reads : Bool
  unlinks : Uuid -> Bool

section Digest

variable (digest : Bytes -> Text)

/-- The checks of `take` on a record it has removed. -/
def checkResumed (username : Text) (upload : ActiveUpload) (config : AppConfig)
    (calls : ResumeCalls) (file : Option Bytes) : Except TealDriveError UploadResumeResponse := do
  let request : UploadBeginRequest :=
    { retainOnDisconnect := true
      rootId := upload.rootId
      relativePath := upload.parentRelativePath
      filename := upload.filename
      totalSize := upload.totalSize
      chunkSize := upload.chunkSize
      sha256 := upload.sha256 }
  let _ ← validateUpload username request config
  let content ← okOr (if calls.opens then file else none) .notFound
  refuse (!calls.stats) .internal
  refuse (!calls.ownFile || content.length != upload.bytesReceived) .permissionDenied
  refuse (!calls.reads) .internal
  return { transferId := upload.transferId
           rootId := upload.rootId
           relativePath := upload.parentRelativePath
           filename := upload.filename
           totalSize := upload.totalSize
           bytesReceived := upload.bytesReceived
           chunkSize := upload.chunkSize
           prefixSha256 := digest content }

/-- `take`.  A record that was removed and fails a check is dropped, with its
staging file. -/
def take (server : Server) (who : Identity) (id : Uuid) (config : AppConfig)
    (calls : ResumeCalls) : Except TealDriveError (ActiveUpload × UploadResumeResponse) × Server :=
  if config.systemStorage.uploadResumeSeconds = 0 then (.error .permissionDenied, server)
  else
    let server := server.retain server.unexpired calls.unlinks
    match server.pending.find id with
    | none => (.error .notFound, server)
    | some record =>
        if record.who ≠ who then (.error .notFound, server)
        else
          let server := { server with pending := server.pending.erase id }
          match checkResumed digest who.username record.upload config calls
              (server.files.find id) with
          | .error error => (.error error, server.dispose [id] calls.unlinks)
          | .ok response => (.ok (record.upload, response), server.note (.taken id who))

/-! ## Requests -/

/-- `UploadBegin`.  The identifier is drawn once the request is accepted. -/
def begin_ (server : Server) (number : Nat) (request : UploadBeginRequest) (id : Uuid)
    (config : AppConfig) (calls : BeginCalls) : Except TealDriveError ActiveUpload × Server :=
  match server.client number with
  | none => (.error .validation, server)
  | some connection =>
      if server.used.contains id then (.error .internal, server)
      else
        let drawn := { server with used := id :: server.used }
        match uploadBeginRequest connection.who.username request config id calls
            (server.files.find id) with
        | (.error error, file) =>
            (.error error, (drawn.setFile id file).note (.ended id file.isNone))
        | (.ok upload, file) =>
            (.ok upload,
              ((drawn.setFile id file).setUploads number (connection.uploads.insert id upload)).note
                (.began id upload.totalSize upload.sha256))

/-- `UploadChunk`. -/
def chunk (server : Server) (number : Nat) (chunk : RawChunk) (config : AppConfig)
    (written : Written) : Except TealDriveError Nat × Server :=
  match server.client number with
  | none => (.error .validation, server)
  | some connection =>
      match connection.uploads.find chunk.transferId with
      | none => (.error .notFound, server)
      | some upload =>
          match uploadChunkRequest upload chunk config written
              (server.files.find chunk.transferId) with
          | (result, upload, file) =>
              let stored := (server.setFile chunk.transferId file).setUploads number
                (connection.uploads.insert chunk.transferId upload)
              match result with
              | .error error => (.error error, stored)
              | .ok done =>
                  (.ok done, stored.note (.accepted chunk.transferId chunk.chunkBytes))

/-- `UploadEnd`.  The upload leaves the map before anything is checked. -/
def finish (server : Server) (number : Nat) (request : UploadEndRequest) (requestId : Nat)
    (config : AppConfig) (calls : EndCalls) : Except TealDriveError UploadEndResponse × Server :=
  match server.client number with
  | none => (.error .validation, server)
  | some connection =>
      match connection.uploads.find request.transferId with
      | none => (.error .notFound, server)
      | some upload =>
          let removed := server.setUploads number (connection.uploads.erase request.transferId)
          match uploadEndRequest digest connection.who.username connection.who.uid
              connection.who.gid requestId upload request config calls
              (server.files.find upload.transferId) with
          | (result, none) =>
              (result, removed.dispose [upload.transferId] (fun _ => calls.unlinks))
          | (result, some (_, content)) =>
              (result,
                (removed.note (.handed upload.transferId content result.isOk)).dispose
                  [upload.transferId] (fun _ => calls.unlinks))

/-- `upload_abort_request` on an upload that left its map. -/
def abortUpload (server : Server) (upload : ActiveUpload) (id : Uuid) (unlinks : Bool) :
    Except TealDriveError Unit × Server :=
  if id ≠ upload.transferId then (.error .validation, server)
  else (.ok (), server.dispose [upload.transferId] (fun _ => unlinks))

/-- `UploadAbort`. -/
def abort (server : Server) (number : Nat) (id : Uuid) (unlinks : Bool) :
    Except TealDriveError Unit × Server :=
  match server.client number with
  | none => (.error .validation, server)
  | some connection =>
      match connection.uploads.find id with
      | some upload =>
          (server.setUploads number (connection.uploads.erase id)).abortUpload upload id unlinks
      | none =>
          match server.takeForAbort connection.who id with
          | (.error error, server) => (.error error, server)
          | (.ok upload, server) => server.abortUpload upload id unlinks

/-- `UploadResume`. -/
def resume (server : Server) (number : Nat) (id : Uuid) (config : AppConfig)
    (calls : ResumeCalls) : Except TealDriveError UploadResumeResponse × Server :=
  match server.client number with
  | none => (.error .validation, server)
  | some connection =>
      match server.take digest connection.who id config calls with
      | (.error error, server) => (.error error, server)
      | (.ok (upload, response), server) =>
          (.ok response,
            server.setUploads number (connection.uploads.insert upload.transferId upload))

end Digest

/-! ## Connections -/

def connect (server : Server) (number : Nat) (who : Identity) : Server :=
  match server.connections.find number with
  | some _ => server
  | none =>
      { server with
        connections := server.connections.insert number
          { who := who, live := true, uploads := Table.empty } }

def close (server : Server) (number : Nat) : Server :=
  { server with
    connections := server.connections.modify number (fun connection =>
      { connection with live := false }) }

/-- Whether `UploadCleanup` keeps an upload for a reconnect. -/
def retained (upload : ActiveUpload) (seconds : Nat) (draining : Bool) : Bool :=
  upload.retainOnDisconnect && 0 < upload.bytesReceived && 0 < seconds && !draining

/-- `UploadCleanup::drop` for one upload of a closed connection. -/
def part (server : Server) (number : Nat) (id : Uuid) (seconds : Nat) (draining : Bool)
    (unlinks : Uuid -> Bool) : Server :=
  match server.connections.find number with
  | none => server
  | some connection =>
      match connection.live, connection.uploads.find id with
      | false, some upload =>
          let removed := server.setUploads number (connection.uploads.erase id)
          if retained upload seconds draining then
            removed.suspend connection.who upload seconds unlinks
          else removed.dispose [upload.transferId] unlinks
      | _, _ => server

end Server

/-- One request, one step of a connection's end, or a look at the clock. -/
inductive Operation where
  | connect (number : Nat) (who : Identity)
  | clock (now : Nat)
  | begin_ (number : Nat) (request : UploadBeginRequest) (id : Uuid) (config : AppConfig)
      (calls : BeginCalls)
  | chunk (number : Nat) (chunk : RawChunk) (config : AppConfig) (written : Written)
  | finish (number : Nat) (request : UploadEndRequest) (requestId : Nat) (config : AppConfig)
      (calls : EndCalls)
  | abort (number : Nat) (id : Uuid) (unlinks : Bool)
  | resume (number : Nat) (id : Uuid) (config : AppConfig) (calls : Server.ResumeCalls)
  | close (number : Nat)
  | part (number : Nat) (id : Uuid) (seconds : Nat) (draining : Bool) (unlinks : Uuid -> Bool)
  | purge (session : Option Uuid) (unlinks : Uuid -> Bool)
  | clear (unlinks : Uuid -> Bool)

def step (digest : Bytes -> Text) (server : Server) : Operation -> Server
  | .connect number who => server.connect number who
  | .clock now => { server with now := now }
  | .begin_ number request id config calls => (server.begin_ number request id config calls).2
  | .chunk number chunk config written => (server.chunk number chunk config written).2
  | .finish number request requestId config calls =>
      (server.finish digest number request requestId config calls).2
  | .abort number id unlinks => (server.abort number id unlinks).2
  | .resume number id config calls => (server.resume digest number id config calls).2
  | .close number => server.close number
  | .part number id seconds draining unlinks => server.part number id seconds draining unlinks
  | .purge session unlinks => server.purge session unlinks
  | .clear unlinks => server.clear unlinks

end Uploads

end TealDrive
