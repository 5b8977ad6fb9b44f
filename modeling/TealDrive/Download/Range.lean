import TealDrive.Helper.ListingPages

namespace TealDrive

/-!
# Range headers

A download names the bytes it wants in a `Range` header: an interval, everything
from a position on, or a number of bytes at the end.  A header that cannot be
read is as good as none; one that can, but names no byte of the file, is refused.
-/

namespace Text

/-- `char::is_whitespace`: the characters with the property White_Space. -/
def isWhiteSpace (symbol : Char) : Bool :=
  within 9 13 symbol.toNat || within 0x2000 0x200a symbol.toNat ||
    [0x20, 0x85, 0xa0, 0x1680, 0x2028, 0x2029, 0x202f, 0x205f, 0x3000].contains symbol.toNat

/-- `str::trim`. -/
def trim (text : Text) : Text :=
  (text.dropWhile isWhiteSpace).rdropWhile isWhiteSpace

/-- `str::split_once`. -/
def splitOnce (separator : Char) : Text -> Option (Text × Text)
  | [] => none
  | symbol :: rest =>
      if symbol = separator then some ([], rest)
      else (splitOnce separator rest).map (fun parts => (symbol :: parts.1, parts.2))

end Text

/-! ## Reading a header -/

structure ByteRange where
  start : Nat
  end_ : Nat
deriving DecidableEq

/-- The number of bytes from `start` to `end`, both included. -/
def ByteRange.length (range : ByteRange) : Nat := range.end_ - range.start + 1

/-- `str::parse::<u64>`, which reads what `parse::<usize>` does. -/
def parseU64 (text : Text) : Option Nat := parseUsize text

/-- `bytes=-suffix`. -/
def parseSuffix (endStr : Text) (fileSize : Nat) : Option (Except Unit ByteRange) := do
  let suffix ← parseU64 endStr
  return if suffix = 0 ∨ fileSize = 0 then .error () else .ok ⟨fileSize - suffix, fileSize - 1⟩

/-- The last byte of `bytes=start-` and `bytes=start-end`. -/
def parseEnd (endStr : Text) (fileSize : Nat) : Option Nat :=
  if endStr = [] then some (fileSize - 1)
  else (parseU64 endStr).map (fun parsed => min parsed (fileSize - 1))

/-- `bytes=start-` and `bytes=start-end`.  A start behind the file is refused
before the end is read. -/
def parseFromStart (startStr endStr : Text) (fileSize : Nat) : Option (Except Unit ByteRange) := do
  let start ← parseU64 startStr
  if start ≥ fileSize then return .error ()
  let end_ ← parseEnd endStr fileSize
  return if start > end_ then .error () else .ok ⟨start, end_⟩

def parseRangeHeader (header : Text) (fileSize : Nat) : Option (Except Unit ByteRange) := do
  let rangePart ← Text.stripPrefix "bytes=".toList header.trim
  let (startStr, endStr) ← Text.splitOnce '-' rangePart
  if startStr.trim = [] then parseSuffix endStr.trim fileSize
  else parseFromStart startStr.trim endStr.trim fileSize

/-- `HeaderValue::to_str`: a value of visible ASCII characters and tabs. -/
def headerText (value : List UInt8) : Option Text :=
  if value.all (fun byte => within 32 126 byte.toNat || byte == 9) then
    some (value.map (fun byte => Char.ofNat byte.toNat))
  else none

/-- The three forms of a byte range. -/
inductive RangeSpec where
  | bounded (first last : Nat)
  | openEnded (first : Nat)
  | suffix (count : Nat)
deriving DecidableEq

namespace RangeSpec

/-- The positions a form names are written with 64 bits. -/
def Fits : RangeSpec -> Prop
  | .bounded first last => first ≤ u64Max ∧ last ≤ u64Max
  | .openEnded first => first ≤ u64Max
  | .suffix count => count ≤ u64Max

def spell : RangeSpec -> Text
  | .bounded first last =>
      "bytes=".toList ++ (Nat.toDigits 10 first ++ '-' :: Nat.toDigits 10 last)
  | .openEnded first => "bytes=".toList ++ (Nat.toDigits 10 first ++ ['-'])
  | .suffix count => "bytes=".toList ++ '-' :: Nat.toDigits 10 count

/-- The bytes of a file of the given size, when there are any. -/
def resolve (fileSize : Nat) : RangeSpec -> Except Unit ByteRange
  | .bounded first last =>
      if first < fileSize ∧ first ≤ last then .ok ⟨first, min last (fileSize - 1)⟩ else .error ()
  | .openEnded first => if first < fileSize then .ok ⟨first, fileSize - 1⟩ else .error ()
  | .suffix count =>
      if 0 < count ∧ 0 < fileSize then .ok ⟨fileSize - count, fileSize - 1⟩ else .error ()

end RangeSpec

section Spelled

variable {number : Nat}

end Spelled

/-! ## The headers of the answer -/

/-- `bytes {start}-{end}/{size}`. -/
def contentRangeText (range : ByteRange) (fileSize : Nat) : Text :=
  "bytes ".toList ++ Nat.toDigits 10 range.start ++ "-".toList ++ Nat.toDigits 10 range.end_ ++
    "/".toList ++ Nat.toDigits 10 fileSize

/-- `bytes */{size}`. -/
def unsatisfiedRangeText (fileSize : Nat) : Text :=
  "bytes */".toList ++ Nat.toDigits 10 fileSize

end TealDrive
