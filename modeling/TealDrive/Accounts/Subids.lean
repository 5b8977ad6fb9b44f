import TealDrive.Accounts.Gaps
import TealDrive.Download.Range

namespace TealDrive

open Outcome

/-!
# Subordinate ids

Users may be given ranges of subordinate ids, which they can map in namespaces of
their own.  A virtual account must not get an id of such a range, and no user may be
given a range with the id of a virtual account later.  The ids between a minimum and
a maximum that no range of the file holds are therefore written to the file, as
ranges of root.

A file is a text here, or none where its bytes are not UTF-8.
-/

namespace Text

/-- `str::trim_start`. -/
def trimStart (text : Text) : Text := text.dropWhile isWhiteSpace

/-- A line without the carriage return before its line feed. -/
def stripReturn (line : Text) : Text := (stripSuffix ['\r'] line).getD line

/-- `str::lines`.  A last line need not be terminated. -/
def lines (text : Text) : List Text :=
  let pieces := text.splitOn '\n'
  pieces.dropLast.map stripReturn ++ (pieces.getLast?.filter (fun last => last != [])).toList

end Text

/-- `str::parse::<u32>`. -/
def parseU32 (text : Text) : Option Nat :=
  (parseUsize text).filter (fun number => decide (number < 2 ^ 32))

namespace Subids

structure Range where
  start : Nat
  end_ : Nat
  root : Bool
deriving DecidableEq

/-- The errors of the store, and those of the file system. -/
inductive SubidError where
  | store (error : StoreError)
  | io
deriving DecidableEq

/-- The ids of a range. -/
def Range.span (range : Range) : Nat × Nat := (range.start, range.end_)

/-! ## Reading -/

/-- A line that is neither blank nor a comment. -/
def relevant (line : Text) : Bool :=
  line.trim != [] && line.trimStart.head? != some '#'

def parseLine (line : Text) : Except SubidError Range := do
  match line.splitOn ':' with
  | [owner, start, count] => do
      refuse (owner == [] || decide (Text.len owner > 256) || owner.any Text.isWhiteSpace)
        (.store .invalidInput)
      let start ← okOr (parseU32 start) (.store .invalidInput)
      let count ← okOr (parseU32 count) (.store .invalidInput)
      refuse (count == 0) (.store .invalidInput)
      refuse (decide (start + (count - 1) ≥ 2 ^ 32)) (.store .invalidInput)
      refuse (start == 0 || start + (count - 1) == 2 ^ 32 - 1) (.store .invalidInput)
      return ⟨start, start + (count - 1), owner == "root".toList || owner == "0".toList⟩
  | _ => .error (.store .invalidInput)

def maxRanges : Nat := 16384

/-- The loop of `parse`. -/
def parseFrom (ranges : List Range) : List Text -> Except SubidError (List Range)
  | [] => .ok ranges
  | line :: rest => do
      refuse (decide (ranges.length ≥ maxRanges)) (.store .invalidInput)
      let range ← parseLine line
      parseFrom (ranges ++ [range]) rest

def parse (value : Text) : Except SubidError (List Range) :=
  parseFrom [] (value.lines.filter relevant)

/-! ## Gaps -/

/-- The loop of `missing`.  The next id is a `u64`; it is cast to a `u32`, like the
end of a gap, where the gap is stored. -/
def missingFrom (max : Nat) (next : Nat) : List (Nat × Nat) -> List (Nat × Nat)
  | [] => if next ≤ max then [(next % 2 ^ 32, max)] else []
  | (start, end_) :: rest =>
      let later := missingFrom max (Nat.max next ((end_ + 1) % 2 ^ 64)) rest
      if start > next then (next % 2 ^ 32, (start + 2 ^ 32 - 1) % 2 ^ 32) :: later else later

def missing (min max : Nat) (ranges : List Range) : List (Nat × Nat) :=
  missingFrom max min (occupied min max (ranges.map Range.span))

def freeSegments (min max : Nat) (blocked : List (Nat × Nat)) : List (Nat × Nat) :=
  missing min max (blocked.map (fun range => ⟨range.1, range.2, false⟩))

/-! ## Reserving -/

/-- What the file system says about a file, and its text. -/
structure SubidFile where
  regular : Bool
  uid : Nat
  links : Nat
  mode : Nat
  gid : Nat
  content : Option Text
deriving DecidableEq

def maxBytes : Nat := 1048576

/-- `trusted_read` as far as the file decides, and `from_utf8`. -/
def SubidFile.read (file : SubidFile) : Except SubidError Text :=
  match file.content with
  | none => .error (.store .invalidInput)
  | some content => if content.len > maxBytes then .error .io else .ok content

/-- The text, the mode and the group of the file, which need not exist. -/
def lookup (trusted : Bool) : Option SubidFile -> Except SubidError (Text × Nat × Nat)
  | none => .ok ([], 0o644, 0)
  | some file => do
      refuse (!file.regular || file.uid != 0 || file.links != 1 || file.mode &&& 0o022 != 0)
        (.store .untrustedStore)
      refuse (!trusted) .io
      let content ← file.read
      return (content, file.mode &&& 0o777, file.gid)

/-- A line that gives root the ids of a gap. -/
def gapLine (gap : Nat × Nat) : Text :=
  "0:".toList ++ (Nat.toDigits 10 gap.1 ++ ':' :: Nat.toDigits 10 (gap.2 - gap.1 + 1))

/-- The text with a line feed at its end. -/
def terminated (content : Text) : Text :=
  if content ≠ [] ∧ content.getLast? ≠ some '\n' then content ++ ['\n'] else content

def extend (content : Text) (gaps : List (Nat × Nat)) : Text :=
  terminated content ++ gaps.flatMap (fun gap => gapLine gap ++ ['\n'])

/-- What becomes of the new file: it is given up before its name is the old one's, or
it is renamed and then synced or not. -/
inductive Publication where
  | failed
  | renamed (synced : Bool)

/-- The answer, and the file that was published, if one was. -/
def reserve (trusted : Bool) (file : Option SubidFile) (min max : Nat) (publication : Publication) :
    Except SubidError (List Range) × Option SubidFile :=
  match lookup trusted file with
  | .error error => (.error error, none)
  | .ok (content, mode, gid) =>
      match parse content with
      | .error error => (.error error, none)
      | .ok ranges =>
          let gaps := missing min max ranges
          if gaps = [] then (.ok ranges, none)
          else
            let extended := extend content gaps
            if extended.len > maxBytes then (.error (.store .invalidInput), none)
            else
              match publication with
              | .failed => (.error .io, none)
              | .renamed synced =>
                  (if synced then parse extended else .error .io,
                    some ⟨true, 0, 1, mode, gid, some extended⟩)

end Subids

end TealDrive
