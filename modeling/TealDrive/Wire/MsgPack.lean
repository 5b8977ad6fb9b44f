import TealDrive.Library.BigEndian
import TealDrive.Library.Utf8
import TealDrive.Upload.Transfer

namespace TealDrive

open BigEndian Outcome

/-!
# The browser's MessagePack codec

`MsgPack.encode` and `MsgPack.decode` of the user interface.  A number is an
integer here or the bits of a float, which the codec writes and reads as they
are.  An object is the list of its fields, which `encode` writes in their order; it
is the order of `Object.keys` for an object of the browser.  `decode` lists the
fields in the order in which they were put, with names like `"7"` among them, which
`Object.keys` would list first.  The errors are those the functions throw:
`outOfRange` is what a `DataView` throws beyond the end of its buffer.
-/

/-- A JavaScript value. -/
inductive JsValue where
  | undefined
  | null
  | bool (value : Bool)
  | integer (value : Int)
  | float (bits : UInt64)
  | string (value : Text)
  | bytes (value : Bytes)
  | array (items : List JsValue)
  | object (fields : List (Text × JsValue))

inductive WireError where
  | unsafeInteger
  | truncatedMessagePack
  | truncatedValue
  | unsupportedType (byte : Option UInt8)
  | invalidLength
  | outOfRange
  | notPrimitive
  | invalidUuid
  | missingField (field : Text)
  | truncatedFrame
  | unsupportedProtocol
  | unsupportedFrameOptions
  | invalidFrameLength
  | unsupportedEncoding
  | depth
deriving DecidableEq

/-- `Number.isSafeInteger`. -/
def isSafeInteger (value : Int) : Bool :=
  -9007199254740991 ≤ value && value ≤ 9007199254740991

namespace MsgPack

/-! ## Encoding -/

def integerBytes (value : Int) : Except WireError Bytes :=
  if 0 ≤ value ∧ value ≤ 0x7f then .ok [UInt8.ofNat value.toNat]
  else if -32 ≤ value ∧ value < 0 then .ok [UInt8.ofNat (ofSigned 1 value)]
  else if 0 ≤ value ∧ value ≤ 0xffff then .ok (0xcd :: toBytes 2 value.toNat)
  else if 0 ≤ value ∧ value ≤ 0xffffffff then .ok (0xce :: toBytes 4 value.toNat)
  else if 0xffffffff < value ∨ value < -0x80000000 then
    if !isSafeInteger value then .error .unsafeInteger
    else if 0 ≤ value then .ok (0xcf :: toBytes 8 value.toNat)
    else .ok (0xd3 :: toBytes 8 (ofSigned 8 value))
  else .ok (0xd2 :: toBytes 4 (ofSigned 4 value))

def stringHead (len : Nat) : Bytes :=
  if len ≤ 31 then [UInt8.ofNat (0xa0 ||| len)]
  else if len ≤ 0xff then [0xd9, UInt8.ofNat len]
  else if len ≤ 0xffff then 0xda :: toBytes 2 len
  else 0xdb :: toBytes 4 len

def bytesHead (len : Nat) : Bytes :=
  if len ≤ 0xff then [0xc4, UInt8.ofNat len]
  else if len ≤ 0xffff then 0xc5 :: toBytes 2 len
  else 0xc6 :: toBytes 4 len

def collectionHead (fixed : Nat) (short long : UInt8) (len : Nat) : Bytes :=
  if len ≤ 15 then [UInt8.ofNat (fixed ||| len)]
  else if len ≤ 0xffff then short :: toBytes 2 len
  else long :: toBytes 4 len

def arrayHead (len : Nat) : Bytes := collectionHead 0x90 0xdc 0xdd len

def objectHead (len : Nat) : Bytes := collectionHead 0x80 0xde 0xdf len

def stringBytes (value : Text) : Bytes := stringHead (Utf8.encode value).length ++ Utf8.encode value

mutual

/-- The inner function `enc`, whose parts are put one behind the other. -/
def enc : JsValue -> Except WireError Bytes
  | .undefined => .ok [0xc0]
  | .null => .ok [0xc0]
  | .bool value => .ok [if value then 0xc3 else 0xc2]
  | .integer value => integerBytes value
  | .float bits => .ok (0xcb :: toBytes 8 bits.toNat)
  | .string value => .ok (stringBytes value)
  | .bytes value => .ok (bytesHead value.length ++ value)
  | .array items => do
      let body ← encItems items
      .ok (arrayHead items.length ++ body)
  | .object fields => do
      let body ← encFields fields
      .ok (objectHead fields.length ++ body)

def encItems : List JsValue -> Except WireError Bytes
  | [] => .ok []
  | item :: rest => do
      let first ← enc item
      let others ← encItems rest
      .ok (first ++ others)

def encFields : List (Text × JsValue) -> Except WireError Bytes
  | [] => .ok []
  | (key, value) :: rest => do
      let first ← enc value
      let others ← encFields rest
      .ok (stringBytes key ++ first ++ others)

end

/-- `MsgPack.encode`. -/
def encode (value : JsValue) : Except WireError Bytes := enc value

/-! ## Decoding -/

def subarray (bytes : Bytes) (pos len : Nat) : Bytes := (bytes.drop pos).take len

/-- `getUint8`, `getUint16`, `getUint32` and `getBigUint64` of a `DataView`. -/
def getUint (width : Nat) (bytes : Bytes) (pos : Nat) : Except WireError Nat :=
  let field := subarray bytes pos width
  if field.length == width then .ok (ofBytes field) else .error .outOfRange

def getInt (width : Nat) (bytes : Bytes) (pos : Nat) : Except WireError Int := do
  let value ← getUint width bytes pos
  .ok (toSigned width value)

/-- Where reading goes on.  It is none once the position is not a number: the
length that was added to it lay beyond the end of the bytes. -/
abbrev Position := Option Nat

abbrev Read := Except WireError (JsValue × Position)

def stringAt (bytes : Bytes) (pos len : Nat) : Read :=
  .ok (.string (Utf8.decode (subarray bytes pos len)), some (pos + len))

def bytesAt (bytes : Bytes) (pos len : Nat) : Read :=
  .ok (.bytes (subarray bytes pos len), some (pos + len))

section

-- How a float is printed.
variable (floatText : UInt64 -> Text)

mutual

/-- The property key a value is converted to, if it is.  The objects a decoder
makes have no prototype to convert them. -/
def propertyKey : JsValue -> Option Text
  | .undefined => some "undefined".toList
  | .null => some "null".toList
  | .bool value => some (toString value).toList
  | .integer value => some (toString value).toList
  | .float bits => some (floatText bits)
  | .string value => some value
  | .bytes value => some ([','].intercalate (value.map fun byte => (toString byte.toNat).toList))
  | .array items => (itemTexts items).map [','].intercalate
  | .object _ => none

def itemTexts : List JsValue -> Option (List Text)
  | [] => some []
  | item :: rest => do
      let first ← match item with
        | .undefined => some []
        | .null => some []
        | other => propertyKey other
      let others ← itemTexts rest
      some (first :: others)

end

/-- `obj[k] = value`. -/
def put (fields : List (Text × JsValue)) (field : Text × JsValue) : List (Text × JsValue) :=
  if fields.any (fun other => other.1 == field.1) then
    fields.map fun other => if other.1 == field.1 then field else other
  else fields ++ [field]

/-- The loop that reads an array. -/
def readItems (read : Position -> Read) : Nat -> Position ->
    Except WireError (List JsValue × Position)
  | 0, pos => .ok ([], pos)
  | count + 1, pos => do
      let (item, pos) ← read pos
      let (items, pos) ← readItems read count pos
      .ok (item :: items, pos)

/-- The keys and values the loop over an object reads. -/
def readFields (read : Position -> Read) : Nat -> Position ->
    Except WireError (List (Text × JsValue) × Position)
  | 0, pos => .ok ([], pos)
  | count + 1, pos => do
      let (key, pos) ← read pos
      let (value, pos) ← read pos
      let key ← okOr (propertyKey floatText key) .notPrimitive
      let (fields, pos) ← readFields read count pos
      .ok ((key, value) :: fields, pos)

def readArray (read : Position -> Read) (count pos : Nat) : Read := do
  let (items, pos) ← readItems read count (some pos)
  .ok (.array items, pos)

def readObject (read : Position -> Read) (count pos : Nat) : Read := do
  let (fields, pos) ← readFields floatText read count (some pos)
  .ok (.object (fields.foldl put []), pos)

/-- What follows a first byte. -/
def readTyped (read : Position -> Read) (bytes : Bytes) (b : UInt8) (pos : Nat) : Read :=
  if b ≤ 0x7f then .ok (.integer b.toNat, some pos)
  else if 0xe0 ≤ b then .ok (.integer (b.toNat - 0x100), some pos)
  else if b &&& 0xe0 = 0xa0 then stringAt bytes pos (b &&& 0x1f).toNat
  else if b &&& 0xf0 = 0x90 then readArray read (b &&& 0x0f).toNat pos
  else if b &&& 0xf0 = 0x80 then readObject floatText read (b &&& 0x0f).toNat pos
  else if b = 0xc0 then .ok (.null, some pos)
  else if b = 0xc2 then .ok (.bool false, some pos)
  else if b = 0xc3 then .ok (.bool true, some pos)
  else if b = 0xc4 then
    match (bytes.drop pos).head? with
    | none => .ok (.bytes [], none)
    | some len => bytesAt bytes (pos + 1) len.toNat
  else if b = 0xc5 then do bytesAt bytes (pos + 2) (← getUint 2 bytes pos)
  else if b = 0xcf then do
    let value ← getUint 8 bytes pos
    if !isSafeInteger value then .error .unsafeInteger
    else .ok (.integer value, some (pos + 8))
  else if b = 0xd3 then do
    let value ← getInt 8 bytes pos
    if !isSafeInteger value then .error .unsafeInteger
    else .ok (.integer value, some (pos + 8))
  else if b = 0xcb then do
    let value ← getUint 8 bytes pos
    .ok (.float (UInt64.ofNat value), some (pos + 8))
  else if b = 0xc6 then do
    let len ← getUint 4 bytes pos
    if bytes.length - (pos + 4) < len then .error .truncatedValue else bytesAt bytes (pos + 4) len
  else if b = 0xdb then do
    let len ← getUint 4 bytes pos
    if bytes.length - (pos + 4) < len then .error .truncatedValue else stringAt bytes (pos + 4) len
  else if b = 0xcc then
    match (bytes.drop pos).head? with
    | none => .ok (.undefined, some (pos + 1))
    | some value => .ok (.integer value.toNat, some (pos + 1))
  else if b = 0xcd then do .ok (.integer (← getUint 2 bytes pos), some (pos + 2))
  else if b = 0xce then do .ok (.integer (← getUint 4 bytes pos), some (pos + 4))
  else if b = 0xd0 then do .ok (.integer (← getInt 1 bytes pos), some (pos + 1))
  else if b = 0xd1 then do .ok (.integer (← getInt 2 bytes pos), some (pos + 2))
  else if b = 0xd2 then do .ok (.integer (← getInt 4 bytes pos), some (pos + 4))
  else if b = 0xd9 then
    match (bytes.drop pos).head? with
    | none => .ok (.string [], none)
    | some len => stringAt bytes (pos + 1) len.toNat
  else if b = 0xda then do stringAt bytes (pos + 2) (← getUint 2 bytes pos)
  else if b = 0xdc then do readArray read (← getUint 2 bytes pos) (pos + 2)
  else if b = 0xde then do readObject floatText read (← getUint 2 bytes pos) (pos + 2)
  else .error (.unsupportedType (some b))

/-- The inner function `read`, with a bound on the depth of its recursion. -/
def read (bytes : Bytes) : Nat -> Position -> Read
  | 0, _ => .error .depth
  -- No comparison with what is not a number holds, and no byte is found there.
  | _ + 1, none => .error (.unsupportedType none)
  | bound + 1, some pos =>
      match (bytes.drop pos).head? with
      | none => .error .truncatedMessagePack
      | some b => readTyped floatText (read bytes bound) bytes b (pos + 1)

/-- `MsgPack.decode`.  Every level of the recursion reads a byte, so the bound is
never used up. -/
def decode (bytes : Bytes) : Except WireError JsValue := do
  let (value, pos) ← read floatText bytes (bytes.length + 1) (some 0)
  if pos != some bytes.length then .error .invalidLength else .ok value

end

end MsgPack

end TealDrive
