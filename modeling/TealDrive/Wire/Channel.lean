import TealDrive.Library.Fragments
import TealDrive.Wire.Frame

namespace TealDrive

open Fragments

/-!
# The encrypted record channel

Both ends of a connection cut their messages into fragments, seal each as one
Noise record and put the fragments of the other end together again.  The server
does so in `ws::channel::Socket`, the browser in the client of its SDK.  The
first byte of a record says whether it is the last of its message.

Noise is a parameter: two functions on a state that writing and reading
advance.  Setting the channel up is left out, so both ends hold a state here.
-/

def maxRecord : Nat := 65535

def maxFragment : Nat := 60000

/-- Length of the authentication tag Noise adds to a plaintext. -/
def tagLength : Nat := 16

/-- `snow::TransportState`, with results of at most `MAX_RECORD` bytes. -/
structure Noise where
  State : Type
  writeMessage : State -> Bytes -> Option (State × Bytes)
  readMessage : State -> Bytes -> Option (State × Bytes)

/-- The Noise layer returns exactly the sealed plaintexts: what one of two linked
states seals, the other opens, and they stay linked.  A plaintext fails to be
sealed only when it does not fit into a record with its tag. -/
structure Noise.Linked (noise : Noise) (linked : noise.State -> noise.State -> Prop) : Prop where
  delivers : forall {sender receiver}, linked sender receiver -> forall plain : Bytes,
    plain.length + tagLength ≤ maxRecord ->
    ∃ sender' receiver' cipher, noise.writeMessage sender plain = some (sender', cipher) ∧
      cipher.length ≤ maxRecord ∧
      noise.readMessage receiver cipher = some (receiver', plain) ∧ linked sender' receiver'

/-- Seal plaintexts one after another.  The records sealed before one fails have
already been handed on. -/
def Noise.sealAll (noise : Noise) (state : noise.State) : List Bytes ->
    noise.State × List Bytes × Bool
  | [] => (state, [], true)
  | plain :: rest =>
      match noise.writeMessage state plain with
      | none => (state, [], false)
      | some (next, cipher) =>
          let (final, ciphers, done) := noise.sealAll next rest
          (final, cipher :: ciphers, done)

/-- A websocket message: `control` stands for pings, pongs and close frames. -/
inductive Message where
  | binary (bytes : Bytes)
  | text (body : Bytes)
  | control (body : Bytes)
deriving DecidableEq

/-- `Encrypted channel rejected`, and `ENCRYPTED_CHANNEL_FAILED` in the SDK. -/
inductive ChannelFailure where
  | rejected
deriving DecidableEq

/-- A record before it is sealed: the mark of the last fragment, and the
fragment. -/
def recordOf (piece : Piece UInt8) : Bytes := (if piece.1 then 1 else 0) :: piece.2

/-- The fields of `Socket` besides the websocket it reads from. -/
structure Socket (noise : Noise) where
  transport : Option noise.State
  outgoing : List Message
  partialMessage : Bytes
  limit : Nat

/-- What `Socket::accept` returns once the handshake is over, or when no channel
key is configured. -/
def Socket.accept {noise : Noise} (transport : Option noise.State) (limits : Limits) :
    Socket noise where
  transport := transport
  outgoing := []
  partialMessage := []
  limit := limits.maxFramePayload + headerLen

/-- The plaintexts of `start_send`: every chunk behind the mark that compares its
index with the number of chunks. -/
def markedChunks (count index : Nat) : List Bytes -> List Bytes
  | [] => []
  | chunk :: rest =>
      ((if index + 1 == count then 1 else 0) :: chunk) :: markedChunks count (index + 1) rest

/-- `Socket::start_send`. -/
def Socket.startSend {noise : Noise} (socket : Socket noise) (message : Message) :
    Socket noise × Except ChannelFailure Unit :=
  match socket.transport, message with
  | some transport, .binary bytes =>
      if bytes.isEmpty || socket.limit < bytes.length then (socket, .error .rejected)
      else
        let pieces := chunks maxFragment bytes
        let (next, ciphers, done) :=
          noise.sealAll transport (markedChunks pieces.length 0 pieces)
        ({ socket with
            transport := some next
            outgoing := socket.outgoing ++ ciphers.map .binary },
          if done then .ok () else .error .rejected)
  | some _, .text _ => (socket, .error .rejected)
  | _, message => ({ socket with outgoing := socket.outgoing ++ [message] }, .ok ())

/-- Whether `poll_next` refuses an opened record before it looks at the limit. -/
def refusesRecord (plain : Bytes) : Bool :=
  !(2 ≤ plain.length && plain.length ≤ maxFragment + 1) ||
    (plain.head? == some 0 && plain.length != maxFragment + 1) ||
    plain.head?.any (fun mark => 1 < mark)

/-- One turn of the loop in `Socket::poll_next`: a result ends the call, none
goes on to the next message. -/
def Socket.take {noise : Noise} (socket : Socket noise) (message : Message) :
    Socket noise × Option (Except ChannelFailure Message) :=
  match socket.transport with
  | none => (socket, some (.ok message))
  | some transport =>
      match message with
      | .binary cipher =>
          if maxRecord < cipher.length then (socket, some (.error .rejected))
          else
            match noise.readMessage transport cipher with
            | none => (socket, some (.error .rejected))
            | some (next, plain) =>
                let socket := { socket with transport := some next }
                if refusesRecord plain ||
                    socket.limit < socket.partialMessage.length + (plain.length - 1) then
                  (socket, some (.error .rejected))
                else
                  let whole := socket.partialMessage ++ plain.tail
                  if plain.head? == some 1 then
                    ({ socket with partialMessage := [] }, some (.ok (.binary whole)))
                  else ({ socket with partialMessage := whole }, none)
      | .text _ => (socket, some (.error .rejected))
      | .control body => (socket, some (.ok (.control body)))

/-- `Socket::poll_next` on the messages that have arrived: its result, and what
has not been read yet. -/
def Socket.pollNext {noise : Noise} (socket : Socket noise) :
    List Message -> Socket noise × List Message × Option (Except ChannelFailure Message)
  | [] => (socket, [], none)
  | message :: rest =>
      match socket.take message with
      | (next, none) => next.pollNext rest
      | (next, some result) => (next, rest, some result)

theorem Socket.pollNext_shorter {noise : Noise} (socket : Socket noise) (incoming : List Message)
    {next : Socket noise} {rest : List Message} {result : Except ChannelFailure Message}
    (polled : socket.pollNext incoming = (next, rest, some result)) :
    rest.length < incoming.length := by
  induction incoming generalizing socket with
  | nil => simp [pollNext] at polled
  | cons message others ih =>
      rw [pollNext] at polled
      split at polled
      · have := ih _ polled
        simp
        omega
      · cases polled
        simp

/-- The loops of `authenticate_socket` and `handle_socket_connection`: they ask
for the next message until there is an error, and then end the connection. -/
def Socket.serve {noise : Noise} (socket : Socket noise) (incoming : List Message) :
    Socket noise × List Message :=
  match _polled : socket.pollNext incoming with
  | (next, rest, some (.ok message)) =>
      let (final, messages) := next.serve rest
      (final, message :: messages)
  | (next, _, _) => (next, [])
termination_by incoming.length
decreasing_by exact socket.pollNext_shorter incoming _polled

/-- Send messages one after another.  An error ends the connection. -/
def Socket.sendAll {noise : Noise} (socket : Socket noise) : List Bytes -> Socket noise × Bool
  | [] => (socket, true)
  | bytes :: rest =>
      match socket.startSend (.binary bytes) with
      | (next, .ok ()) => next.sendAll rest
      | (next, .error _) => (next, false)

/-- What the SDK's client keeps of an established channel.  `maxFrameSize` is
`_hello?.max_frame_size`. -/
structure Client (noise : Noise) where
  channel : noise.State
  channelPartial : List Bytes
  channelPartialBytes : Nat
  maxFrameSize : Option Int

def Client.maximum {noise : Noise} (client : Client noise) : Int :=
  client.maxFrameSize.getD 1048576 + 256

/-- The condition under which `onmessage` fails on an opened record. -/
def failsRecord (plain : Bytes) : Bool :=
  plain.length < 2 || 60001 < plain.length ||
    (plain.head? == some 0 && plain.length != 60001) || plain.head?.any (fun mark => 1 < mark)

/-- `socket.onmessage` on an established channel.  `negotiate` says what handling
a frame, by `_receive` and `decodeFrame`, leaves as the announced frame size. -/
def Client.onMessage {noise : Noise} (negotiate : Option Int -> Bytes -> Option Int)
    (client : Client noise) (bytes : Bytes) : Client noise × Option (Except ChannelFailure Bytes) :=
  if 65535 < bytes.length then (client, some (.error .rejected))
  else
    match noise.readMessage client.channel bytes with
    | none => (client, some (.error .rejected))
    | some (next, plain) =>
        let client := { client with channel := next }
        if failsRecord plain then (client, some (.error .rejected))
        else
          -- The count grows before it is compared, also for a record that fails.
          let client :=
            { client with channelPartialBytes := client.channelPartialBytes + (plain.length - 1) }
          if client.maximum < client.channelPartialBytes then (client, some (.error .rejected))
          else
            let fragments := client.channelPartial ++ [plain.tail]
            if plain.head? == some 0 then ({ client with channelPartial := fragments }, none)
            else
              let frame := fragments.flatten
              ({ client with
                  channelPartial := []
                  channelPartialBytes := 0
                  maxFrameSize := negotiate client.maxFrameSize frame },
                some (.ok frame))

/-- The frames the client handles.  A failure closes the socket, after which no
message is delivered. -/
def Client.listen {noise : Noise} (negotiate : Option Int -> Bytes -> Option Int)
    (client : Client noise) : List Bytes -> Client noise × List Bytes
  | [] => (client, [])
  | bytes :: rest =>
      match client.onMessage negotiate bytes with
      | (next, none) => next.listen negotiate rest
      | (next, some (.ok frame)) =>
          let (final, frames) := next.listen negotiate rest
          (final, frame :: frames)
      | (next, some (.error _)) => (next, [])

/-- The plaintexts of `_sendBytes` from an offset on. -/
def plainsFrom (bytes : Bytes) (offset : Nat) : List Bytes :=
  if offset < bytes.length then
    let chunk := (bytes.take (min (offset + 60000) bytes.length)).drop offset
    ((if offset + chunk.length == bytes.length then 1 else 0) :: chunk) ::
      plainsFrom bytes (offset + 60000)
  else []
termination_by bytes.length - offset
decreasing_by omega

/-- `_sendBytes` on an established channel: the client, the records it sent, and
whether it got through. -/
def Client.sendBytes {noise : Noise} (client : Client noise) (bytes : Bytes) :
    Client noise × List Bytes × Bool :=
  let (next, ciphers, done) := noise.sealAll client.channel (plainsFrom bytes 0)
  ({ client with channel := next }, ciphers, done)

/-- Send messages one after another. -/
def Client.sendAll {noise : Noise} (client : Client noise) : List Bytes ->
    Client noise × List Bytes × Bool
  | [] => (client, [], true)
  | bytes :: rest =>
      match client.sendBytes bytes with
      | (next, ciphers, true) =>
          let (final, others, done) := next.sendAll rest
          (final, ciphers ++ others, done)
      | (next, ciphers, false) => (next, ciphers, false)

/-! ## What the two senders cut -/

/-- Counting the index up to the number of chunks marks the last one. -/
theorem markedChunks_eq (count index : Nat) (pieces : List Bytes)
    (aligned : index + pieces.length = count) :
    markedChunks count index pieces = (marked pieces).map recordOf := by
  induction pieces generalizing index with
  | nil => rfl
  | cons first rest ih =>
      have later := ih (index + 1) (by simp at aligned; omega)
      cases rest with
      | nil =>
          have final : index + 1 = count := by simpa using aligned
          simp [markedChunks, marked, recordOf, final]
      | cons second others =>
          have earlier : index + 1 ≠ count := by
            simp at aligned
            omega
          rw [markedChunks, later]
          simp [marked, recordOf, earlier]

/-- The SDK's loop cuts what is left of a message as `slice::chunks` does. -/
theorem plainsFrom_eq (bytes : Bytes) (offset : Nat) :
    plainsFrom bytes offset = (marked (chunks maxFragment (bytes.drop offset))).map recordOf := by
  induction left : bytes.length - offset using Nat.strongRecOn generalizing offset with
  | ind count ih =>
      rw [plainsFrom]
      by_cases inside : offset < bytes.length
      · have rest := ih (bytes.length - (offset + 60000)) (by omega) (offset + 60000) rfl
        have remains : bytes.drop offset ≠ [] := by
          intro none
          have := List.drop_eq_nil_iff.mp none
          omega
        simp only [inside, if_true]
        by_cases fits : (bytes.drop offset).length ≤ maxFragment
        · have short : bytes.length ≤ offset + 60000 := by
            simp [maxFragment] at fits
            omega
          have beyond : bytes.drop (offset + 60000) = [] := List.drop_eq_nil_of_le short
          rw [rest, beyond, chunks_short remains fits]
          simp [marked, recordOf, Nat.min_eq_right short]
          omega
        · have long : maxFragment < (bytes.drop offset).length := Nat.lt_of_not_le fits
          have within : offset + 60000 < bytes.length := by
            simp [maxFragment] at long
            omega
          have cut : (bytes.take (offset + 60000)).drop offset = (bytes.drop offset).take 60000 := by
            rw [List.drop_take]
            congr 1
            omega
          have size : ((bytes.drop offset).take 60000).length = 60000 := by
            simp
            omega
          rw [marked_chunks_long (by decide) long, rest, Nat.min_eq_left (Nat.le_of_lt within), cut]
          simp [recordOf, size, maxFragment, List.drop_drop]
          omega
      · have beyond : bytes.drop offset = [] := List.drop_eq_nil_of_le (Nat.le_of_not_lt inside)
        simp [inside, beyond, marked]

end TealDrive
