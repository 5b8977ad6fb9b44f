import Mathlib.Data.List.Basic

/-!
# Text encoder and text decoder

`encode` is UTF-8 as `TextEncoder` writes it.  `decode` is `TextDecoder` with
its default options: what is no encoding of a scalar value becomes a
replacement character, one for each maximal part of a sequence, and one byte
order mark at the very start is left out.
-/

namespace Utf8

/-- The bytes of a text. -/
def encode (text : List Char) : List UInt8 := text.flatMap String.utf8EncodeChar

/-- The scalar value whose encoding the bytes start with. -/
def decodeChar (bytes : List UInt8) : Option Char := bytes.toByteArray.utf8DecodeChar? 0

def replacement : Char := '\uFFFD'

def byteOrderMark : Char := '\uFEFF'

/-- How many bytes follow a leading byte. -/
def trailing (lead : UInt8) : Nat :=
  if 0xC2 ≤ lead ∧ lead ≤ 0xDF then 1
  else if 0xE0 ≤ lead ∧ lead ≤ 0xEF then 2
  else if 0xF0 ≤ lead ∧ lead ≤ 0xF4 then 3
  else 0

/-- Whether a byte may follow a leading one directly. -/
def mayFollow (lead second : UInt8) : Bool :=
  (if lead = 0xE0 then 0xA0 else if lead = 0xF0 then 0x90 else 0x80) ≤ second &&
    second ≤ (if lead = 0xED then 0x9F else if lead = 0xF4 then 0x8F else 0xBF)

def isContinuation (byte : UInt8) : Bool := 0x80 ≤ byte && byte ≤ 0xBF

/-- The length of what one replacement character stands for. -/
def malformedLength : List UInt8 -> Nat
  | lead :: second :: rest =>
      if trailing lead == 0 || !mayFollow lead second then 1
      else 2 + ((rest.take (trailing lead - 1)).takeWhile isContinuation).length
  | _ => 1

/-- The scalar values of some bytes, with a bound on their number. -/
def decodeScalars : Nat -> List UInt8 -> List Char
  | 0, _ => []
  | _ + 1, [] => []
  | bound + 1, first :: rest =>
      match decodeChar (first :: rest) with
      | some scalar => scalar :: decodeScalars bound ((first :: rest).drop scalar.utf8Size)
      | none =>
          replacement ::
            decodeScalars bound ((first :: rest).drop (malformedLength (first :: rest)))

/-- Leave out a byte order mark at the start. -/
def dropMark : List Char -> List Char
  | [] => []
  | first :: rest => if first = byteOrderMark then rest else first :: rest

def decode (bytes : List UInt8) : List Char := dropMark (decodeScalars bytes.length bytes)

@[simp] theorem encode_nil : encode [] = [] := rfl

@[simp] theorem encode_cons (scalar : Char) (text : List Char) :
    encode (scalar :: text) = String.utf8EncodeChar scalar ++ encode text := rfl

theorem encode_append (first second : List Char) :
    encode (first ++ second) = encode first ++ encode second := List.flatMap_append

/-- A text is no longer than its bytes. -/
theorem length_le_length_encode (text : List Char) : text.length ≤ (encode text).length := by
  induction text with
  | nil => exact Nat.le_refl 0
  | cons scalar rest ih =>
      have positive := scalar.utf8Size_pos
      simp
      omega

/-- A text has at least a quarter as many scalar values as bytes. -/
theorem length_encode_le (text : List Char) : (encode text).length ≤ 4 * text.length := by
  induction text with
  | nil => exact Nat.le_refl 0
  | cons scalar rest ih =>
      have short := scalar.utf8Size_le_four
      simp
      omega

theorem decodeChar_encode (scalar : Char) (rest : List UInt8) :
    decodeChar (String.utf8EncodeChar scalar ++ rest) = some scalar := by
  unfold decodeChar
  rw [List.toByteArray_append]
  exact ByteArray.utf8DecodeChar?_utf8EncodeChar_append

/-- Encoded text is read back, whatever follows it. -/
theorem decodeScalars_append (text : List Char) (rest : List UInt8) (more : Nat) :
    decodeScalars (text.length + more) (encode text ++ rest) = text ++ decodeScalars more rest := by
  induction text with
  | nil => simp
  | cons scalar others ih =>
      have found := decodeChar_encode scalar (encode others ++ rest)
      have size : (String.utf8EncodeChar scalar).length = scalar.utf8Size := by simp
      have positive := scalar.utf8Size_pos
      rw [encode_cons, List.append_assoc]
      cases bytes : String.utf8EncodeChar scalar ++ (encode others ++ rest) with
      | nil =>
          have none := (List.append_eq_nil_iff.mp bytes).1
          rw [none] at size
          simp at size
          omega
      | cons first tail =>
          have step : (scalar :: others).length + more = others.length + more + 1 := by
            simp
            omega
          rw [bytes] at found
          have remains : (first :: tail).drop scalar.utf8Size = encode others ++ rest := by
            rw [← bytes, ← size, List.drop_left]
          rw [step, decodeScalars, found]
          simp only [remains, ih]
          rfl

theorem decodeScalars_nil (bound : Nat) : decodeScalars bound [] = [] := by
  cases bound <;> rfl

/-- A larger bound makes no difference once every byte is covered. -/
theorem decodeScalars_bound {bound larger : Nat} {bytes : List UInt8}
    (covered : bytes.length ≤ bound) (most : bound ≤ larger) :
    decodeScalars larger bytes = decodeScalars bound bytes := by
  induction bound generalizing bytes larger with
  | zero =>
      have none : bytes = [] := List.eq_nil_of_length_eq_zero (Nat.le_zero.mp covered)
      rw [none, decodeScalars_nil, decodeScalars_nil]
  | succ bound ih =>
      cases larger with
      | zero => omega
      | succ larger =>
          cases bytes with
          | nil => rfl
          | cons first rest =>
              have shorter : forall count, 0 < count ->
                  ((first :: rest).drop count).length ≤ bound := by
                intro count positive
                simp at covered ⊢
                omega
              have someBytes : 0 < malformedLength (first :: rest) := by
                unfold malformedLength
                split
                · split <;> omega
                · omega
              rw [decodeScalars, decodeScalars]
              split
              · next scalar _ =>
                  rw [ih (shorter _ scalar.utf8Size_pos) (by omega)]
              · rw [ih (shorter _ someBytes) (by omega)]

/-- At most one scalar value is read from each byte. -/
theorem length_decodeScalars_le (bound : Nat) (bytes : List UInt8) :
    (decodeScalars bound bytes).length ≤ bound := by
  induction bound generalizing bytes with
  | zero => simp [decodeScalars]
  | succ bound ih =>
      cases bytes with
      | nil => simp [decodeScalars]
      | cons first rest =>
          rw [decodeScalars]
          split
          · simpa using ih _
          · simpa using ih _

theorem decodeScalars_text (text : List Char) (rest : List UInt8) :
    decodeScalars (encode text ++ rest).length (encode text ++ rest) =
      text ++ decodeScalars rest.length rest := by
  have enough : (encode text ++ rest).length =
      text.length + ((encode text).length - text.length + rest.length) := by
    have := length_le_length_encode text
    simp
    omega
  rw [enough, decodeScalars_append]
  congr 1
  exact decodeScalars_bound (Nat.le_refl _) (Nat.le_add_left _ _)

/-- What decoding the encoding of a text gives. -/
theorem decode_encode (text : List Char) : decode (encode text) = dropMark text := by
  have whole := decodeScalars_text text []
  simp only [List.append_nil, decodeScalars_nil] at whole
  rw [decode, whole]

theorem dropMark_eq_self_iff (text : List Char) :
    dropMark text = text ↔ text.head? ≠ some byteOrderMark := by
  cases text with
  | nil => simp [dropMark]
  | cons first rest => simp [dropMark]

theorem length_dropMark_le (text : List Char) : (dropMark text).length ≤ text.length := by
  cases text with
  | nil => exact Nat.le_refl _
  | cons first rest =>
      rw [dropMark]
      split <;> simp

/-- The first bytes of a text are those of its first scalar values, and at most
three more. -/
theorem take_encode (text : List Char) (count : Nat) :
    ∃ first second torn, text = first ++ second ∧ (encode text).take count = encode first ++ torn ∧
      torn.length ≤ 3 := by
  induction text generalizing count with
  | nil => exact ⟨[], [], [], rfl, by simp, by simp⟩
  | cons scalar rest ih =>
      have size : (String.utf8EncodeChar scalar).length = scalar.utf8Size := by simp
      have short := scalar.utf8Size_le_four
      by_cases whole : scalar.utf8Size ≤ count
      · rcases ih (count - scalar.utf8Size) with ⟨first, second, torn, split, taken, few⟩
        refine ⟨scalar :: first, second, torn, ?_, ?_, few⟩
        · rw [split]
          rfl
        · rw [encode_cons, List.take_append, size, taken, List.take_of_length_le (by omega)]
          simp
      · refine ⟨[], scalar :: rest, (String.utf8EncodeChar scalar).take count, rfl, ?_, ?_⟩
        · rw [encode_cons, List.take_append_of_le_length (by omega)]
          rfl
        · simp
          omega

/-- A text is not read back when enough of its bytes are missing. -/
theorem decode_take_encode_ne {text : List Char} {count : Nat}
    (missing : count + 16 ≤ (encode text).length) : decode ((encode text).take count) ≠ text := by
  rcases take_encode text count with ⟨first, second, torn, split, taken, few⟩
  intro same
  have read := decodeScalars_text first torn
  have most : (decode ((encode text).take count)).length ≤ first.length + 3 := by
    rw [decode, taken, read]
    have := length_dropMark_le (first ++ decodeScalars torn.length torn)
    have := length_decodeScalars_le torn.length torn
    simp at *
    omega
  have wide := length_encode_le second
  have sizes : (encode text).length = (encode first).length + (encode second).length := by
    rw [split, encode_append, List.length_append]
  have short : (encode first).length ≤ count := by
    have := congrArg List.length taken
    simp at this
    omega
  rw [same, split, List.length_append] at most
  omega

end Utf8
