import TealDrive.Wire.Frame
import TealDrive.Wire.MsgPack

namespace TealDrive

open BigEndian Outcome

/-!
# Frames in the browser

`uuidBytes`, `encodeFrame`, `decodeFrame` and `encodeChunk` of the user
interface.  The offsets, the encodings and the numbers of the message types
come from a contract that the build generates from the server's definitions;
which fields a request must have is part of it, and a parameter here.
-/

/-- The value of a hexadecimal digit. -/
def hexDigit (symbol : Char) : Option Nat :=
  if '0' ≤ symbol ∧ symbol ≤ '9' then some (symbol.toNat - '0'.toNat)
  else if 'a' ≤ symbol ∧ symbol ≤ 'f' then some (symbol.toNat - 'a'.toNat + 10)
  else if 'A' ≤ symbol ∧ symbol ≤ 'F' then some (symbol.toNat - 'A'.toNat + 10)
  else none

/-- The bytes of pairs of digits. -/
def hexBytes : Text -> Bytes
  | high :: low :: rest =>
      UInt8.ofNat ((hexDigit high).getD 0 * 16 + (hexDigit low).getD 0) :: hexBytes rest
  | _ => []

theorem hexBytes_length (count : Nat) (hex : Text) (size : hex.length = 2 * count) :
    (hexBytes hex).length = count := by
  induction count generalizing hex with
  | zero =>
      rw [List.eq_nil_of_length_eq_zero size]
      rfl
  | succ count ih =>
      match hex, size with
      | high :: low :: rest, size =>
          simp only [hexBytes, List.length_cons]
          rw [ih rest (by simp at size; omega)]

/-- `uuidBytes`. -/
def uuidBytes : JsValue -> Except WireError RequestId
  | .bytes value => if sixteen : value.length = 16 then .ok ⟨value, sixteen⟩ else .error .invalidUuid
  | .string value =>
      let hex := value.filter (fun symbol => symbol != '-')
      if digits : hex.length = 2 * 16 ∧ hex.all (fun symbol => (hexDigit symbol).isSome) then
        .ok ⟨hexBytes hex, hexBytes_length 16 hex digits.1⟩
      else .error .invalidUuid
  | _ => .error .invalidUuid

/-- Two hexadecimal digits. -/
def hexPair (byte : UInt8) : Text :=
  let digits := Nat.toDigits 16 byte.toNat
  List.replicate (2 - digits.length) '0' ++ digits

/-- `uuidKey`. -/
def uuidKey (value : JsValue) : Except WireError Text := do
  let id ← uuidBytes value
  .ok (id.val.flatMap hexPair)

/-- A payload and the argument `raw`, which says whether it is sent as it is. -/
inductive FramePayload where
  | raw (bytes : Bytes)
  | value (value : JsValue)

/-- The loop that looks for the fields of a request. -/
def requireFields (value : JsValue) : List Text -> Except WireError Unit
  | [] => .ok ()
  | field :: rest =>
      match value with
      | .object fields =>
          if fields.any (fun other => other.1 == field) then requireFields value rest
          else .error (.missingField field)
      | .array _ | .bytes _ => .error (.missingField field)
      -- The operator `in` throws for a value that is no object.
      | _ => .error .notPrimitive

/-- The payload of a frame as bytes. -/
def payloadBytes (requests : Nat -> List Text) (messageType : Nat) :
    FramePayload -> Except WireError Bytes
  | .raw bytes => .ok bytes
  | .value value => do
      requireFields value (requests messageType)
      MsgPack.encode value

def FramePayload.encoding : FramePayload -> Encoding
  | .raw _ => .rawBinary
  | .value _ => .messagePack

/-- `encodeFrame`. -/
def encodeFrame (requests : Nat -> List Text) (messageType : Nat) (payload : FramePayload)
    (id : JsValue) : Except WireError Bytes := do
  let bytes ← payloadBytes requests messageType payload
  let frame := List.replicate (headerLen + bytes.length) 0
  let frame := writeAt frame 0 [84, 68, 82, 86]
  let frame := writeAt frame versionOffset [1]
  let frame := writeAt frame messageTypeOffset (toBytes 2 messageType)
  let frame := writeAt frame encodingOffset [payload.encoding.code]
  let id ← uuidBytes id
  let frame := writeAt frame requestIdOffset id.val
  let frame := writeAt frame payloadLengthOffset (toBytes 4 bytes.length)
  .ok (writeAt frame headerLen bytes)

/-- What `decodeFrame` returns. -/
structure BrowserFrame where
  messageType : Nat
  requestId : Text
  payload : JsValue

/-- `decodeFrame`. -/
def decodeFrame (floatText : UInt64 -> Text) (bytes : Bytes) : Except WireError BrowserFrame := do
  refuse (bytes.length < headerLen) .truncatedFrame
  refuse (ofBytes (slice bytes 0 4) != 0x54445256 || byteAt bytes versionOffset != 1)
    .unsupportedProtocol
  refuse (byteAt bytes compressionOffset != 0 || byteAt bytes reservedOffset != 0)
    .unsupportedFrameOptions
  let length := ofBytes (slice bytes payloadLengthOffset 4)
  refuse (length != bytes.length - headerLen) .invalidFrameLength
  let encoding := byteAt bytes encodingOffset
  refuse (encoding != 1 && encoding != 2) .unsupportedEncoding
  let requestId ← uuidKey
    (.bytes (slice bytes requestIdOffset (payloadLengthOffset - requestIdOffset)))
  let payload ←
    if encoding == 2 then .ok (.bytes (bytes.drop headerLen))
    else MsgPack.decode floatText (bytes.drop headerLen)
  .ok {
    messageType := ofBytes (slice bytes messageTypeOffset 2)
    requestId := requestId
    payload := payload }

/-- `encodeChunk`. -/
def encodeChunk (transfer : JsValue) (index offset : Nat) (data : Bytes) :
    Except WireError Bytes := do
  let bytes := List.replicate (rawChunkHeaderLen + data.length) 0
  let transfer ← uuidBytes transfer
  let bytes := writeAt bytes 0 transfer.val
  let bytes := writeAt bytes 16 (toBytes 4 index)
  let bytes := writeAt bytes 20 (toBytes 8 offset)
  let bytes := writeAt bytes 28 (toBytes 4 data.length)
  .ok (writeAt bytes 32 data)

end TealDrive
