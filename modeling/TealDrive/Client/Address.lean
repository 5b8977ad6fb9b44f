import TealDrive.Config
import TealDrive.Download.Range
import Mathlib.Data.BitVec

namespace TealDrive

/-!
# Client addresses

Behind a proxy the address of a client is what the proxy says.  The proxies whose
word counts are configured as networks.  The parser of addresses is the one of the
standard library, reader by reader.
-/

inductive IpAddr where
  | v4 (bits : BitVec 32)
  | v6 (bits : BitVec 128)
deriving DecidableEq

namespace IpAddr

/-! ## Reading an address -/

/-- What was read, and the text behind it. -/
abbrev Reader (Value : Type) := Text -> Option (Value × Text)

/-- `char::to_digit`. -/
def toDigit (radix : Nat) (symbol : Char) : Option Nat :=
  let value :=
    if within 48 57 symbol.toNat then some (symbol.toNat - 48)
    else if within 97 122 symbol.toNat then some (symbol.toNat - 87)
    else if within 65 90 symbol.toNat then some (symbol.toNat - 55)
    else none
  value.filter (fun digit => decide (digit < radix))

/-- `read_number`: all digits that come, of which there may be `maxDigits`. -/
def readNumber (radix maxDigits : Nat) (allowZeroPrefix : Bool) (bound : Nat) : Reader Nat :=
  fun text =>
    let isDigit := fun symbol => (toDigit radix symbol).isSome
    let digits := text.takeWhile isDigit
    let value := (digits.filterMap (toDigit radix)).foldl (fun sum digit => sum * radix + digit) 0
    if digits.length > maxDigits ∨ digits = [] then none
    else if allowZeroPrefix = false ∧ digits.head? = some '0' ∧ digits.length > 1 then none
    else if value ≤ bound then some (value, text.dropWhile isDigit)
    else none

def readGivenChar (target : Char) : Text -> Option Text
  | [] => none
  | symbol :: rest => if symbol = target then some rest else none

/-- `read_separator`: every part but the first follows a separator. -/
def readSeparator {Value : Type} (separator : Char) (first : Bool) (inner : Reader Value) :
    Reader Value := fun text =>
  if first then inner text else (readGivenChar separator text).bind inner

/-- The octets that follow. -/
def readOctets : Nat -> Bool -> Reader (List Nat)
  | 0, _, text => some ([], text)
  | count + 1, first, text => do
      let (octet, rest) ← readSeparator '.' first (readNumber 10 3 false 255) text
      let (more, rest) ← readOctets count false rest
      return (octet :: more, rest)

/-- The number that digits in a base make. -/
def assemble (base : Nat) (digits : List Nat) : Nat :=
  digits.foldl (fun sum digit => sum * base + digit) 0

def readIpv4Addr : Reader (List Nat) := readOctets 4 true

/-- `read_groups`: the groups, and whether they end in an IPv4 address. -/
def readGroups : Nat -> Bool -> Text -> (List Nat × Bool) × Text
  | 0, _, text => (([], false), text)
  | left + 1, first, text =>
      match if left ≥ 1 then readSeparator ':' first readIpv4Addr text else none with
      | some (octets, rest) =>
          (([assemble 256 (octets.take 2), assemble 256 (octets.drop 2)], true), rest)
      | none =>
          match readSeparator ':' first (readNumber 16 4 true 65535) text with
          | none => (([], false), text)
          | some (group, rest) =>
              let ((more, ipv4), rest) := readGroups left false rest
              ((group :: more, ipv4), rest)

/-- The groups before and behind `::`. -/
def readIpv6Addr : Reader (List Nat) := fun text =>
  let ((head, headIpv4), rest) := readGroups 8 true text
  if head.length = 8 then some (head, rest)
  else if headIpv4 then none
  else do
    let rest ← readGivenChar ':' rest
    let rest ← readGivenChar ':' rest
    let ((tail, _), rest) := readGroups (8 - (head.length + 1)) true rest
    return (head ++ List.replicate (8 - head.length - tail.length) 0 ++ tail, rest)

def readIpAddr : Reader IpAddr := fun text =>
  match readIpv4Addr text with
  | some (octets, rest) => some (.v4 (BitVec.ofNat 32 (assemble 256 octets)), rest)
  | none =>
      (readIpv6Addr text).map (fun read =>
        (.v6 (BitVec.ofNat 128 (assemble 65536 read.1)), read.2))

/-- `str::parse::<IpAddr>`: an address and nothing behind it. -/
def parse (text : Text) : Option IpAddr :=
  match readIpAddr text with
  | some (address, []) => some address
  | _ => none

example : parse "10.1.2.3".toList = some (.v4 0x0a010203) := by decide

example : parse "::ffff:10.1.2.3".toList = some (.v6 0xffff0a010203) := by decide

example : parse "2001:db8::42".toList = some (.v6 0x20010db8000000000000000000000042) := by
  decide

example : parse "1.2.3.04".toList = none := by decide

/-! ## Networks -/

def width : IpAddr -> Nat
  | .v4 _ => 32
  | .v6 _ => 128

/-- `Ipv6Addr::to_ipv4_mapped`: what stands behind `::ffff:0:0/96`. -/
def toIpv4Mapped (bits : BitVec 128) : Option (BitVec 32) :=
  if bits >>> 32 = 0xffff then some (bits.setWidth 32) else none

/-- A mapped address as the IPv4 address it stands for. -/
def canonical : IpAddr -> IpAddr
  | .v4 bits => .v4 bits
  | .v6 bits =>
      match toIpv4Mapped bits with
      | some mapped => .v4 mapped
      | none => .v6 bits

/-- `MAX.checked_shl(width - prefix).unwrap_or(0)`. -/
def mask (width prefix_ : Nat) : BitVec width :=
  if width - prefix_ < width then BitVec.allOnes width <<< (width - prefix_) else 0

end IpAddr

/-- `str::parse::<u8>`. -/
def parseU8 (text : Text) : Option Nat :=
  (parseUsize text).filter (fun number => decide (number < 2 ^ 8))

def network (value : Text) : Option (IpAddr × Nat) :=
  let parsed :=
    match Text.splitOnce '/' value with
    | some (address, prefix_) =>
        (IpAddr.parse address).bind (fun address =>
          (parseU8 prefix_).map (fun prefix_ => (address, prefix_)))
    | none => (IpAddr.parse value).map (fun address => (address, address.width))
  parsed.filter (fun (address, prefix_) => decide (prefix_ ≤ address.width))

def contains (base : IpAddr) (prefix_ : Nat) (address : IpAddr) : Bool :=
  match base, address.canonical with
  | .v4 base, .v4 address => base &&& IpAddr.mask 32 prefix_ == address &&& IpAddr.mask 32 prefix_
  | .v6 base, .v6 address =>
      base &&& IpAddr.mask 128 prefix_ == address &&& IpAddr.mask 128 prefix_
  | _, _ => false

def ProxyConfig.trusts (config : ProxyConfig) (address : IpAddr) : Bool :=
  config.trustedProxies.any (fun value =>
    match network value with
    | some (base, prefix_) => contains base prefix_ address
    | none => false)

end TealDrive
