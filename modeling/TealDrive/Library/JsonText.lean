import Mathlib.Algebra.GroupWithZero.Nat
import Mathlib.Algebra.BigOperators.Group.List.Basic
import Mathlib.Data.List.Zip

/-!
# Compact JSON texts

A text in JSON without blanks, and how many bytes it has in UTF-8.  Quotes,
backslashes and the characters below U+0020 are escaped inside a string; all
other characters stay as they are.  The members of an object are written in the
order given.
-/

namespace JsonText

/-- The number of bytes of a text in UTF-8. -/
def bytes (text : List Char) : Nat := (text.map (fun symbol => symbol.utf8Size)).sum

def hexDigit (value : Nat) : Char :=
  Char.ofNat (if value < 10 then value + 48 else value + 87)

/-- How a character is written inside a string. -/
def escape (symbol : Char) : List Char :=
  if symbol = '"' then "\\\"".toList
  else if symbol = '\\' then "\\\\".toList
  else if symbol.toNat = 8 then "\\b".toList
  else if symbol.toNat = 9 then "\\t".toList
  else if symbol.toNat = 10 then "\\n".toList
  else if symbol.toNat = 12 then "\\f".toList
  else if symbol.toNat = 13 then "\\r".toList
  else if symbol.toNat < 32 then
    "\\u00".toList ++ [hexDigit (symbol.toNat / 16), hexDigit (symbol.toNat % 16)]
  else [symbol]

def quoted (text : List Char) : List Char := '"' :: (text.flatMap escape ++ ['"'])

def natural (value : Nat) : List Char := Nat.toDigits 10 value

def integer : Int -> List Char
  | .ofNat value => natural value
  | .negSucc value => '-' :: natural (value + 1)

/-- A value that may be missing. -/
def optional {Value : Type} (write : Value -> List Char) : Option Value -> List Char
  | none => "null".toList
  | some value => write value

def member (name value : List Char) : List Char := quoted name ++ ':' :: value

def object (members : List (List Char × List Char)) : List Char :=
  '{' :: ([','].intercalate (members.map (fun entry => member entry.1 entry.2)) ++ ['}'])

/-! ## Numbers of bytes -/

@[simp] theorem bytes_nil : bytes [] = 0 := rfl

@[simp] theorem bytes_cons (symbol : Char) (text : List Char) :
    bytes (symbol :: text) = symbol.utf8Size + bytes text := rfl

@[simp] theorem bytes_append (first second : List Char) :
    bytes (first ++ second) = bytes first + bytes second := by
  unfold bytes
  rw [List.map_append, List.sum_append]

/-- A character of one byte that is written as it is. -/
def Plain (symbol : Char) : Prop :=
  symbol ≠ '"' ∧ symbol ≠ '\\' ∧ 32 ≤ symbol.toNat ∧ symbol.toNat < 128

theorem escape_plain {symbol : Char} (plain : Plain symbol) : escape symbol = [symbol] := by
  rcases plain with ⟨quote, backslash, printed, _⟩
  unfold escape
  rw [if_neg quote, if_neg backslash, if_neg (by omega), if_neg (by omega), if_neg (by omega),
    if_neg (by omega), if_neg (by omega), if_neg (by omega)]

theorem utf8Size_plain {symbol : Char} (plain : Plain symbol) : symbol.utf8Size = 1 := by
  have small : symbol.toNat < 128 := plain.2.2.2
  have value : symbol.val ≤ 127 := by
    rw [UInt32.le_iff_toNat_le]
    change symbol.toNat ≤ 127
    omega
  exact Char.utf8Size_eq_one_iff.mpr value

theorem bytes_plain {text : List Char} (plain : forall symbol, symbol ∈ text -> Plain symbol) :
    bytes text = text.length := by
  induction text with
  | nil => rfl
  | cons symbol rest ih =>
      rw [bytes_cons, utf8Size_plain (plain symbol List.mem_cons_self),
        ih (fun other member => plain other (List.mem_cons_of_mem symbol member)),
        List.length_cons]
      omega

theorem flatMap_escape_plain {text : List Char}
    (plain : forall symbol, symbol ∈ text -> Plain symbol) : text.flatMap escape = text := by
  induction text with
  | nil => rfl
  | cons symbol rest ih =>
      rw [List.flatMap_cons, escape_plain (plain symbol List.mem_cons_self),
        ih (fun other member => plain other (List.mem_cons_of_mem symbol member))]
      rfl

theorem bytes_quoted_plain {text : List Char}
    (plain : forall symbol, symbol ∈ text -> Plain symbol) :
    bytes (quoted text) = text.length + 2 := by
  unfold quoted
  rw [flatMap_escape_plain plain, bytes_cons, bytes_append, bytes_plain plain]
  change 1 + (text.length + 1) = _
  omega

theorem plain_of_isDigit {symbol : Char} (digit : symbol.isDigit = true) : Plain symbol := by
  have range := Char.isDigit_iff_toNat.mp digit
  have low : 48 ≤ symbol.toNat := range.1
  have high : symbol.toNat ≤ 57 := range.2
  refine ⟨?_, ?_, by omega, by omega⟩
  · rintro rfl
    exact absurd low (by decide)
  · rintro rfl
    exact absurd high (by decide)

theorem plain_natural (value : Nat) : forall symbol, symbol ∈ natural value -> Plain symbol :=
  fun _ member =>
    plain_of_isDigit (Nat.isDigit_of_mem_toDigits (by decide) (by decide) member)

theorem bytes_natural_le {value width : Nat} (positive : 0 < width) (small : value < 10 ^ width) :
    bytes (natural value) ≤ width := by
  rw [bytes_plain (plain_natural value)]
  exact (Nat.length_toDigits_le_iff (by decide) positive).mpr small

/-- A number and its sign. -/
theorem bytes_integer_le {value : Int} {width : Nat} (positive : 0 < width)
    (small : value.natAbs < 10 ^ width) : bytes (integer value) ≤ width + 1 := by
  cases value with
  | ofNat value => exact Nat.le_succ_of_le (bytes_natural_le positive small)
  | negSucc value =>
      have digits : bytes (natural (value + 1)) ≤ width := bytes_natural_le positive small
      change 1 + bytes (natural (value + 1)) ≤ _
      omega

/-! ## Objects -/

/-- What a member adds to an object. -/
def weight (entry : List Char × List Char) : Nat := bytes (quoted entry.1) + bytes entry.2 + 2

theorem bytes_member (entry : List Char × List Char) :
    bytes (member entry.1 entry.2) + 1 = weight entry := by
  unfold member weight
  rw [bytes_append, bytes_cons]
  change bytes (quoted entry.1) + (1 + bytes entry.2) + 1 = _
  omega

/-- Every member but the last is followed by a comma. -/
theorem bytes_joined (first : List Char × List Char) (rest : List (List Char × List Char)) :
    bytes ([','].intercalate ((first :: rest).map (fun entry => member entry.1 entry.2))) + 1 =
      ((first :: rest).map weight).sum := by
  induction rest generalizing first with
  | nil =>
      rw [List.map_singleton, List.map_singleton, List.intercalate_singleton, List.sum_singleton]
      exact bytes_member first
  | cons second rest ih =>
      have here := bytes_member first
      have later := ih second
      have comma : bytes [','] = 1 := rfl
      have total : ((first :: second :: rest).map weight).sum =
          weight first + ((second :: rest).map weight).sum := List.sum_cons
      rw [total, ← later, ← here, List.map_cons, List.map_cons, List.intercalate_cons_cons,
        bytes_append, bytes_append, comma]
      omega

theorem bytes_object (first : List Char × List Char) (rest : List (List Char × List Char)) :
    bytes (object (first :: rest)) = 1 + ((first :: rest).map weight).sum := by
  have joined := bytes_joined first rest
  unfold object
  rw [bytes_cons, bytes_append]
  change 1 + (_ + 1) = _
  omega

/-- The weight of the names and the weight of the values. -/
theorem sum_weight (members : List (List Char × List Char)) :
    (members.map weight).sum =
      ((members.map Prod.fst).map (fun name => bytes (quoted name) + 2)).sum +
        ((members.map Prod.snd).map bytes).sum := by
  induction members with
  | nil => rfl
  | cons first rest ih =>
      rw [List.map_cons, List.sum_cons, ih, List.map_cons, List.map_cons, List.sum_cons,
        List.map_cons, List.map_cons, List.sum_cons]
      unfold weight
      omega

/-- Objects with the same names differ by what their values differ. -/
theorem bytes_object_values {early late : List (List Char × List Char)}
    (names : early.map Prod.fst = late.map Prod.fst) :
    bytes (object late) + ((early.map Prod.snd).map bytes).sum =
      bytes (object early) + ((late.map Prod.snd).map bytes).sum := by
  cases early with
  | nil =>
      have none_ : late = [] := List.map_eq_nil_iff.mp names.symm
      rw [none_]
  | cons first rest =>
      cases late with
      | nil => cases names
      | cons other others =>
          rw [bytes_object, bytes_object, sum_weight, sum_weight, names]
          omega

theorem sum_bytes_le {values : List (List Char)} {limits : List Nat}
    (each : List.Forall₂ (fun value limit => bytes value ≤ limit) values limits) :
    (values.map bytes).sum ≤ limits.sum := by
  induction each with
  | nil => exact Nat.le_refl 0
  | cons here _ ih =>
      rw [List.map_cons, List.sum_cons, List.sum_cons]
      exact Nat.add_le_add here ih

/-- The first values are at most so many bytes longer than the second ones. -/
inductive Longer : List (List Char) -> List (List Char) -> Nat -> Prop where
  | nil : Longer [] [] 0
  | cons {value other : List Char} {values others : List (List Char)} {extra more : Nat}
      (here : bytes value ≤ bytes other + extra) (rest : Longer values others more) :
      Longer (value :: values) (other :: others) (extra + more)

namespace Longer

/-- The same value on both sides. -/
theorem same {values others : List (List Char)} {more : Nat} (value : List Char)
    (rest : Longer values others more) : Longer (value :: values) (value :: others) (0 + more) :=
  .cons (Nat.le_refl _) rest

theorem sum_le {values others : List (List Char)} {extra : Nat}
    (longer : Longer values others extra) :
    (values.map bytes).sum ≤ (others.map bytes).sum + extra := by
  induction longer with
  | nil => exact Nat.le_refl 0
  | cons here _ ih =>
      rw [List.map_cons, List.sum_cons, List.map_cons, List.sum_cons]
      omega

theorem object_le {late early : List (List Char × List Char)} {extra : Nat}
    (names : early.map Prod.fst = late.map Prod.fst)
    (longer : Longer (late.map Prod.snd) (early.map Prod.snd) extra) :
    bytes (object late) ≤ bytes (object early) + extra := by
  have values := longer.sum_le
  have whole := bytes_object_values names
  omega

end Longer

/-! ## Reading an object back -/

theorem member_values {early late : List (List Char × List Char)}
    (names : early.map Prod.fst = late.map Prod.fst)
    (same : early.map (fun entry => member entry.1 entry.2) =
      late.map (fun entry => member entry.1 entry.2)) : early = late := by
  induction early generalizing late with
  | nil => exact (List.map_eq_nil_iff.mp names.symm).symm
  | cons first rest ih =>
      cases late with
      | nil => cases names
      | cons other others =>
          rcases List.cons.inj names with ⟨name, furtherNames⟩
          rcases List.cons.inj same with ⟨here, further⟩
          have value : first.2 = other.2 := by
            change quoted first.1 ++ ':' :: first.2 = quoted other.1 ++ ':' :: other.2 at here
            rw [name] at here
            exact (List.cons.inj (List.append_cancel_left here)).2
          rw [ih furtherNames further, Prod.ext name value]

/-- Objects with the same names and without stray commas have the same values
when they are the same text. -/
theorem object_injective {early late : List (List Char × List Char)}
    (names : early.map Prod.fst = late.map Prod.fst)
    (first : forall entry, entry ∈ early -> ',' ∉ member entry.1 entry.2)
    (second : forall entry, entry ∈ late -> ',' ∉ member entry.1 entry.2)
    (same : object early = object late) : early = late := by
  have inner := List.append_inj_left' (List.cons.inj same).2 rfl
  apply member_values names
  cases early with
  | nil =>
      have none_ : late = [] := List.map_eq_nil_iff.mp names.symm
      rw [none_]
  | cons one ones =>
      cases late with
      | nil => cases names
      | cons two twos =>
          have split := congrArg (List.splitOn ',') inner
          rw [List.splitOn_intercalate ',' (List.forall_mem_map.mpr first) (by simp),
            List.splitOn_intercalate ',' (List.forall_mem_map.mpr second) (by simp)] at split
          exact split

theorem natural_injective {first second : Nat} (same : natural first = natural second) :
    first = second := by
  have read := congrArg (fun text => Nat.ofDigitChars 10 text 0) same
  simpa [natural, Nat.ofDigitChars_ten_toDigits] using read

theorem integer_injective {first second : Int} (same : integer first = integer second) :
    first = second := by
  have unsigned : forall value : Nat, '-' ∉ natural value := by
    intro value member
    have digit := Nat.isDigit_of_mem_toDigits (by decide) (by decide) member
    exact absurd digit (by decide)
  cases first with
  | ofNat first =>
      cases second with
      | ofNat second => rw [natural_injective same]
      | negSucc second =>
          have signed : natural first = '-' :: natural (second + 1) := same
          exact absurd (signed ▸ List.mem_cons_self) (unsigned first)
  | negSucc first =>
      cases second with
      | ofNat second =>
          have signed : '-' :: natural (first + 1) = natural second := same
          exact absurd (signed ▸ List.mem_cons_self) (unsigned second)
      | negSucc second =>
          have further := natural_injective (List.cons.inj same).2
          rw [Nat.succ.inj further]

/-- A string of plain characters is written as it is. -/
theorem quoted_injective {first second : List Char}
    (one : forall symbol, symbol ∈ first -> Plain symbol)
    (two : forall symbol, symbol ∈ second -> Plain symbol)
    (same : quoted first = quoted second) : first = second := by
  unfold quoted at same
  rw [flatMap_escape_plain one, flatMap_escape_plain two] at same
  exact List.append_inj_left' (List.cons.inj same).2 rfl

/-- A string is never written as a missing value. -/
theorem optional_quoted_injective {first second : Option (List Char)}
    (one : forall text, first = some text -> forall symbol, symbol ∈ text -> Plain symbol)
    (two : forall text, second = some text -> forall symbol, symbol ∈ text -> Plain symbol)
    (same : optional quoted first = optional quoted second) : first = second := by
  cases first with
  | none =>
      cases second with
      | none => rfl
      | some text => cases (List.cons.inj same).1
  | some text =>
      cases second with
      | none => cases (List.cons.inj same).1
      | some other => rw [quoted_injective (one text rfl) (two other rfl) same]

end JsonText
