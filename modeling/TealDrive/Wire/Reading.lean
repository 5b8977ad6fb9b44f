import TealDrive.Wire.MsgPack

namespace TealDrive

open BigEndian

/-!
# What survives MessagePack in the browser

`Plain` are the values an application sends, `Kept` those the decoder gives
back.  A value is lost when its decoder lacks the class its encoder chose, when
the text decoder takes the start of a text for a byte order mark, or when a
length does not fit into its field.

Here are the parts of an encoding that hold no other values.  Each is read as
it was written wherever it stands in the bytes, and where it is torn off,
reading fails or goes beyond the end.
-/

/-- Null, booleans, safe integers, texts, byte arrays, arrays and objects. -/
inductive Plain : JsValue -> Prop where
  | null : Plain .null
  | bool (value : Bool) : Plain (.bool value)
  | integer {value : Int} (safe : isSafeInteger value = true) : Plain (.integer value)
  | string (value : Text) : Plain (.string value)
  | bytes (value : Bytes) : Plain (.bytes value)
  | array {items : List JsValue} (each : forall item, item ∈ items -> Plain item) :
      Plain (.array items)
  | object {fields : List (Text × JsValue)} (distinct : (fields.map Prod.fst).Nodup)
      (each : forall field, field ∈ fields -> Plain field.2) : Plain (.object fields)

/-- A text without a byte order mark at its start, whose length fits into four
bytes. -/
structure KeptText (text : Text) : Prop where
  short : (Utf8.encode text).length < 256 ^ 4
  unmarked : text.head? ≠ some Utf8.byteOrderMark

/-- Values without such texts, byte arrays of that length, and collections of
more than 65535 entries. -/
inductive Kept : JsValue -> Prop where
  | null : Kept .null
  | bool (value : Bool) : Kept (.bool value)
  | integer (value : Int) : Kept (.integer value)
  | string {value : Text} (kept : KeptText value) : Kept (.string value)
  | bytes {value : Bytes} (short : value.length < 256 ^ 4) : Kept (.bytes value)
  | array {items : List JsValue} (few : items.length ≤ 0xffff)
      (each : forall item, item ∈ items -> Kept item) : Kept (.array items)
  | object {fields : List (Text × JsValue)} (few : fields.length ≤ 0xffff)
      (keys : forall field, field ∈ fields -> KeptText field.1)
      (each : forall field, field ∈ fields -> Kept field.2) : Kept (.object fields)

namespace MsgPack

/-! ## Fields of the bytes -/

section

variable {bytes rest : Bytes} {pos : Nat}

theorem subarray_part {part : Bytes} (there : bytes.drop pos = part ++ rest) :
    subarray bytes pos part.length = part := by
  rw [subarray, there, List.take_left]

theorem drop_part (part : Bytes) (there : bytes.drop pos = part ++ rest) :
    bytes.drop (pos + part.length) = rest := by
  rw [← List.drop_drop, there, List.drop_left]

/-- What is left behind a position. -/
theorem length_part {part : Bytes} (there : bytes.drop pos = part) : bytes.length - pos = part.length := by
  rw [← there, List.length_drop]

theorem getUint_part {width value : Nat} (there : bytes.drop pos = toBytes width value ++ rest) :
    getUint width bytes pos = .ok (value % 256 ^ width) := by
  have field := subarray_part there
  rw [length_toBytes] at field
  simp only [getUint, field, length_toBytes, beq_self_eq_true, if_true, ofBytes_toBytes]

/-- A field of two bytes holds a small number. -/
theorem getUint_short {len : Nat} (there : bytes.drop pos = toBytes 2 len ++ rest)
    (small : len ≤ 0xffff) : getUint 2 bytes pos = .ok len := by
  rw [getUint_part there, Nat.mod_eq_of_lt (by omega)]

theorem getUint_torn {width : Nat} {part : Bytes} (there : bytes.drop pos = part) (torn : part.length < width) :
    getUint width bytes pos = .error .outOfRange := by
  have shorter : ¬ (part.length = width) := by omega
  have all : part.take width = part := List.take_of_length_le (by omega)
  simp [getUint, subarray, there, all, shorter]

end

variable (floatText : UInt64 -> Text)

theorem read_byte {bytes rest : Bytes} {b : UInt8} {pos : Nat} (bound : Nat)
    (there : bytes.drop pos = b :: rest) :
    read floatText bytes (bound + 1) (some pos) =
      readTyped floatText (read floatText bytes bound) bytes b (pos + 1) := by
  simp [read, there]

/-- Nothing is read at the end, and the error is not that the bound is used up. -/
theorem read_end {bytes : Bytes} {pos : Nat} (bound : Nat) (there : bytes.drop pos = []) :
    read floatText bytes (bound + 1) (some pos) = .error .truncatedMessagePack := by
  simp [read, there]

/-! ## Classes of first bytes -/

section

variable (read : Position -> Read) (bytes : Bytes) (pos : Nat)

theorem readTyped_fixstr {len : Nat} (small : len ≤ 31) :
    readTyped floatText read bytes (UInt8.ofNat (0xa0 ||| len)) pos = stringAt bytes pos len := by
  have facts : forall len : Fin 32, let b := UInt8.ofNat (0xa0 ||| len.val)
      ¬ b ≤ 0x7f ∧ ¬ 0xe0 ≤ b ∧ b &&& 0xe0 = 0xa0 ∧ (b &&& 0x1f).toNat = len.val := by decide
  rcases facts ⟨len, by omega⟩ with ⟨high, low, class_, value⟩
  simp only [readTyped, high, low, class_, value, if_true, if_false]

theorem readTyped_fixarray {len : Nat} (small : len ≤ 15) :
    readTyped floatText read bytes (UInt8.ofNat (0x90 ||| len)) pos = readArray read len pos := by
  have facts : forall len : Fin 16, let b := UInt8.ofNat (0x90 ||| len.val)
      ¬ b ≤ 0x7f ∧ ¬ 0xe0 ≤ b ∧ ¬ b &&& 0xe0 = 0xa0 ∧ b &&& 0xf0 = 0x90 ∧
        (b &&& 0x0f).toNat = len.val := by decide
  rcases facts ⟨len, by omega⟩ with ⟨high, low, other, class_, value⟩
  simp only [readTyped, high, low, other, class_, value, if_true, if_false]

theorem readTyped_fixmap {len : Nat} (small : len ≤ 15) :
    readTyped floatText read bytes (UInt8.ofNat (0x80 ||| len)) pos =
      readObject floatText read len pos := by
  have facts : forall len : Fin 16, let b := UInt8.ofNat (0x80 ||| len.val)
      ¬ b ≤ 0x7f ∧ ¬ 0xe0 ≤ b ∧ ¬ b &&& 0xe0 = 0xa0 ∧ b &&& 0xf0 = 0x80 ∧
        (b &&& 0x0f).toNat = len.val := by decide
  have different : ¬ (0x80 : UInt8) = 0x90 := by decide
  rcases facts ⟨len, by omega⟩ with ⟨high, low, other, class_, value⟩
  simp only [readTyped, high, low, other, class_, different, value, if_true, if_false]

theorem readTyped_fixint {value : Nat} (small : value ≤ 0x7f) :
    readTyped floatText read bytes (UInt8.ofNat value) pos = .ok (.integer value, some pos) := by
  have facts : forall value : Fin 128, UInt8.ofNat value.val ≤ 0x7f ∧
      (UInt8.ofNat value.val).toNat = value.val := by decide
  rcases facts ⟨value, by omega⟩ with ⟨low, same⟩
  simp only [readTyped, low, same, if_true]

theorem readTyped_negative {value : Int} (least : -32 ≤ value) (most : value < 0) :
    readTyped floatText read bytes (UInt8.ofNat (ofSigned 1 value)) pos =
      .ok (.integer value, some pos) := by
  have facts : forall count : Fin 32, let b := UInt8.ofNat (ofSigned 1 (-(count.val + 1 : Nat) : Int))
      ¬ b ≤ 0x7f ∧ 0xe0 ≤ b ∧ ((b.toNat : Int) - 0x100) = -(count.val + 1 : Nat) := by decide
  rcases facts ⟨(-value - 1).toNat, by omega⟩ with ⟨high, low, same⟩
  have this : (-((-value - 1).toNat + 1 : Nat) : Int) = value := by omega
  simp only [this] at high low same
  simp only [readTyped, high, low, same, if_true, if_false]

end

/-! ## Lengths and what follows them -/

/-- Reading fails, or ends beyond the last byte, or where no number is. -/
def Beyond (bytes : Bytes) (result : Read) : Prop :=
  forall value after, result = .ok (value, some after) -> bytes.length < after

theorem Beyond.error (bytes : Bytes) (failure : WireError) : Beyond bytes (.error failure) := by
  intro value after impossible
  cases impossible

theorem Beyond.lost (bytes : Bytes) (value : JsValue) : Beyond bytes (.ok (value, none)) := by
  intro other after impossible
  cases impossible

theorem Beyond.past {bytes : Bytes} {after : Nat} (value : JsValue) (past : bytes.length < after) :
    Beyond bytes (.ok (value, some after)) := by
  intro other same equal
  cases equal
  exact past

/-- What torn bytes start with: a torn front, or the front and torn bytes. -/
theorem torn_append {torn front back : Bytes} (starts : torn <+: front ++ back)
    (proper : torn ≠ front ++ back) :
    (torn <+: front ∧ torn ≠ front) ∨ ∃ later, torn = front ++ later ∧ later <+: back ∧ later ≠ back := by
  by_cases short : torn.length < front.length
  · left
    constructor
    · exact List.prefix_of_prefix_length_le starts (List.prefix_append front back) (Nat.le_of_lt short)
    · intro same
      rw [same] at short
      exact Nat.lt_irrefl _ short
  · right
    have holds : front <+: torn :=
      List.prefix_of_prefix_length_le (List.prefix_append front back) starts (Nat.le_of_not_lt short)
    rcases holds with ⟨later, rfl⟩
    refine ⟨later, rfl, (List.prefix_append_right_inj front).mp starts, ?_⟩
    intro same
    rw [same] at proper
    exact proper rfl

theorem length_lt_of_torn {torn whole : Bytes} (starts : torn <+: whole) (proper : torn ≠ whole) :
    torn.length < whole.length :=
  Nat.lt_of_le_of_ne starts.length_le fun same => proper (starts.eq_of_length same)

/-- A long length, and what is read behind it unless that is seen to be cut off. -/
theorem getUint_long {Result : Type} {bytes data : Bytes} {pos len : Nat}
    (there : bytes.drop pos = toBytes 4 len ++ data) (next : Nat -> Except WireError Result) :
    (getUint 4 bytes pos >>= fun len =>
        if bytes.length - (pos + 4) < len then .error .truncatedValue else next len) =
      if data.length < len % 256 ^ 4 then .error .truncatedValue else next (len % 256 ^ 4) := by
  have behind := length_part (drop_part _ there)
  rw [length_toBytes] at behind
  rw [getUint_part there, ← behind]
  rfl

/-- Go on with the length that one byte gives, if there is one. -/
def byteLength (bytes : Bytes) (pos : Nat) (missing : Read) (next : Nat -> Read) : Read :=
  match (bytes.drop pos).head? with
  | none => missing
  | some len => next len.toNat

section

variable {bytes : Bytes} {pos : Nat} {missing : Read} {next : Nat -> Read}

theorem byteLength_cons {len : UInt8} {data : Bytes} (there : bytes.drop pos = len :: data) :
    byteLength bytes pos missing next = next len.toNat := by
  unfold byteLength
  rw [there]
  rfl

theorem byteLength_nil (there : bytes.drop pos = []) :
    byteLength bytes pos missing next = missing := by
  unfold byteLength
  rw [there]
  rfl

end

section

variable {bytes data : Bytes} {pos : Nat} (bound : Nat)

/-- Behind the head of a byte array its bytes are taken, unless a long one is
seen to be cut off. -/
theorem bytesHead_read {len : Nat} (there : bytes.drop pos = bytesHead len ++ data) :
    let short := len % 256 ^ 4
    read floatText bytes (bound + 1) (some pos) =
        bytesAt bytes (pos + (bytesHead len).length) short ∨
      (data.length < short ∧
        read floatText bytes (bound + 1) (some pos) = .error .truncatedValue) := by
  intro short
  unfold bytesHead at there ⊢
  split at there
  · next small =>
      left
      have same : short = len := Nat.mod_eq_of_lt (by omega)
      have behind : bytes.drop (pos + 1) = UInt8.ofNat len :: data := drop_part [0xc4] there
      have value : (UInt8.ofNat len).toNat = len := by
        rw [UInt8.toNat_ofNat']
        omega
      rw [same, if_pos small, read_byte floatText bound there]
      show byteLength bytes (pos + 1) _ (bytesAt bytes (pos + 1 + 1)) = _
      rw [byteLength_cons behind, value]
      rfl
  · next large =>
      split at there
      · next small =>
          left
          have same : short = len := Nat.mod_eq_of_lt (by omega)
          have behind : bytes.drop (pos + 1) = toBytes 2 len ++ data := drop_part [0xc5] there
          have field := getUint_short behind small
          rw [same, if_neg large, if_pos small, read_byte floatText bound there]
          show (getUint 2 bytes (pos + 1) >>= fun len => bytesAt bytes (pos + 1 + 2) len) = _
          rw [field]
          rfl
      · next larger =>
          have behind : bytes.drop (pos + 1) = toBytes 4 len ++ data := drop_part [0xc6] there
          have field := getUint_long behind (bytesAt bytes (pos + 1 + 4))
          rw [if_neg large, if_neg larger, read_byte floatText bound there]
          show (getUint 4 bytes (pos + 1) >>= fun len =>
            if bytes.length - (pos + 1 + 4) < len then .error .truncatedValue
            else bytesAt bytes (pos + 1 + 4) len) = _ ∨ data.length < short ∧
              (getUint 4 bytes (pos + 1) >>= fun len =>
                if bytes.length - (pos + 1 + 4) < len then .error .truncatedValue
                else bytesAt bytes (pos + 1 + 4) len) = _
          rw [field]
          by_cases cut : data.length < short
          · exact .inr ⟨cut, if_pos cut⟩
          · exact .inl (if_neg cut)

/-- The same for texts. -/
theorem stringHead_read {len : Nat} (there : bytes.drop pos = stringHead len ++ data) :
    let short := len % 256 ^ 4
    read floatText bytes (bound + 1) (some pos) =
        stringAt bytes (pos + (stringHead len).length) short ∨
      (data.length < short ∧
        read floatText bytes (bound + 1) (some pos) = .error .truncatedValue) := by
  intro short
  unfold stringHead at there ⊢
  split at there
  · next fixed =>
      left
      have same : short = len := Nat.mod_eq_of_lt (by omega)
      rw [same, if_pos fixed, read_byte floatText bound there, readTyped_fixstr _ _ _ _ fixed]
      rfl
  · next larger =>
      split at there
      · next small =>
          left
          have same : short = len := Nat.mod_eq_of_lt (by omega)
          have behind : bytes.drop (pos + 1) = UInt8.ofNat len :: data := drop_part [0xd9] there
          have value : (UInt8.ofNat len).toNat = len := by
            rw [UInt8.toNat_ofNat']
            omega
          rw [same, if_neg larger, if_pos small, read_byte floatText bound there]
          show byteLength bytes (pos + 1) _ (stringAt bytes (pos + 1 + 1)) = _
          rw [byteLength_cons behind, value]
          rfl
      · next large =>
          split at there
          · next small =>
              left
              have same : short = len := Nat.mod_eq_of_lt (by omega)
              have behind : bytes.drop (pos + 1) = toBytes 2 len ++ data := drop_part [0xda] there
              have field := getUint_short behind small
              rw [same, if_neg larger, if_neg large, if_pos small, read_byte floatText bound there]
              show (getUint 2 bytes (pos + 1) >>= fun len => stringAt bytes (pos + 1 + 2) len) = _
              rw [field]
              rfl
          · next largest =>
              have behind : bytes.drop (pos + 1) = toBytes 4 len ++ data := drop_part [0xdb] there
              have field := getUint_long behind (stringAt bytes (pos + 1 + 4))
              rw [if_neg larger, if_neg large, if_neg largest, read_byte floatText bound there]
              show (getUint 4 bytes (pos + 1) >>= fun len =>
                if bytes.length - (pos + 1 + 4) < len then .error .truncatedValue
                else stringAt bytes (pos + 1 + 4) len) = _ ∨ data.length < short ∧
                  (getUint 4 bytes (pos + 1) >>= fun len =>
                    if bytes.length - (pos + 1 + 4) < len then .error .truncatedValue
                    else stringAt bytes (pos + 1 + 4) len) = _
              rw [field]
              by_cases cut : data.length < short
              · exact .inr ⟨cut, if_pos cut⟩
              · exact .inl (if_neg cut)

/-- Behind the head of an array its items are read. -/
theorem arrayHead_read {len : Nat} (there : bytes.drop pos = arrayHead len ++ data) :
    read floatText bytes (bound + 1) (some pos) =
      if len ≤ 0xffff then
        readArray (read floatText bytes bound) len (pos + (arrayHead len).length)
      else .error (.unsupportedType (some 0xdd)) := by
  unfold arrayHead collectionHead at *
  split at there
  · next fixed =>
      rw [if_pos (by omega), if_pos fixed, read_byte floatText bound there,
        readTyped_fixarray _ _ _ _ fixed]
      rfl
  · next large =>
      split at there
      · next small =>
          have behind : bytes.drop (pos + 1) = toBytes 2 len ++ data := drop_part [0xdc] there
          have field := getUint_short behind small
          rw [if_pos small, if_neg large, if_pos small, read_byte floatText bound there]
          show (getUint 2 bytes (pos + 1) >>= fun len =>
            readArray (read floatText bytes bound) len (pos + 1 + 2)) = _
          rw [field]
          rfl
      · next largest =>
          rw [if_neg largest, read_byte floatText bound there]
          rfl

/-- Behind the head of an object its fields are read. -/
theorem objectHead_read {len : Nat} (there : bytes.drop pos = objectHead len ++ data) :
    read floatText bytes (bound + 1) (some pos) =
      if len ≤ 0xffff then
        readObject floatText (read floatText bytes bound) len (pos + (objectHead len).length)
      else .error (.unsupportedType (some 0xdf)) := by
  unfold objectHead collectionHead at *
  split at there
  · next fixed =>
      rw [if_pos (by omega), if_pos fixed, read_byte floatText bound there,
        readTyped_fixmap _ _ _ _ fixed]
      rfl
  · next large =>
      split at there
      · next small =>
          have behind : bytes.drop (pos + 1) = toBytes 2 len ++ data := drop_part [0xde] there
          have field := getUint_short behind small
          rw [if_pos small, if_neg large, if_pos small, read_byte floatText bound there]
          show (getUint 2 bytes (pos + 1) >>= fun len =>
            readObject floatText (read floatText bytes bound) len (pos + 1 + 2)) = _
          rw [field]
          rfl
      · next largest =>
          rw [if_neg largest, read_byte floatText bound there]
          rfl

/-! ## Torn heads -/

theorem beyond_field {width : Nat} {torn : Bytes} (there : bytes.drop pos = torn)
    (short : torn.length < width) (next : Nat -> Read) :
    Beyond bytes (getUint width bytes pos >>= next) := by
  rw [getUint_torn there short]
  exact .error bytes .outOfRange

/-- Torn bytes behind a first byte, or nothing. -/
theorem torn_cons {torn tail : Bytes} {b : UInt8} (starts : torn <+: b :: tail)
    (proper : torn ≠ b :: tail) :
    torn = [] ∨ ∃ later, torn = b :: later ∧ later.length < tail.length := by
  cases torn with
  | nil => exact .inl rfl
  | cons first later =>
      right
      rcases List.cons_prefix_cons.mp starts with ⟨same, within⟩
      subst same
      refine ⟨later, rfl, length_lt_of_torn within ?_⟩
      intro whole
      rw [whole] at proper
      exact proper rfl

/-- Nothing left to read ends in an error. -/
theorem beyond_end (there : bytes.drop pos = []) :
    Beyond bytes (read floatText bytes (bound + 1) (some pos)) := by
  rw [read_end floatText bound there]
  exact .error bytes _

theorem bytesHead_torn {len : Nat} {torn : Bytes} (starts : torn <+: bytesHead len)
    (proper : torn ≠ bytesHead len) (there : bytes.drop pos = torn) :
    Beyond bytes (read floatText bytes (bound + 1) (some pos)) := by
  unfold bytesHead at starts proper
  split at starts
  · next small =>
      rw [if_pos small] at proper
      rcases torn_cons starts proper with rfl | ⟨later, rfl, short⟩
      · exact beyond_end floatText bound there
      · have none : later = [] := by simpa using short
        subst none
        have behind : bytes.drop (pos + 1) = [] := drop_part [0xc4] there
        rw [read_byte floatText bound there]
        show Beyond bytes (byteLength bytes (pos + 1) (.ok (.bytes [], none))
          (bytesAt bytes (pos + 1 + 1)))
        rw [byteLength_nil behind]
        exact .lost bytes _
  · next large =>
      rw [if_neg large] at proper
      split at starts
      · next small =>
          rw [if_pos small] at proper
          rcases torn_cons starts proper with rfl | ⟨later, rfl, short⟩
          · exact beyond_end floatText bound there
          · rw [length_toBytes] at short
            rw [read_byte floatText bound there]
            exact beyond_field (drop_part [0xc5] there) short _
      · next larger =>
          rw [if_neg larger] at proper
          rcases torn_cons starts proper with rfl | ⟨later, rfl, short⟩
          · exact beyond_end floatText bound there
          · rw [length_toBytes] at short
            rw [read_byte floatText bound there]
            exact beyond_field (drop_part [0xc6] there) short _

theorem stringHead_torn {len : Nat} {torn : Bytes} (starts : torn <+: stringHead len)
    (proper : torn ≠ stringHead len) (there : bytes.drop pos = torn) :
    Beyond bytes (read floatText bytes (bound + 1) (some pos)) := by
  unfold stringHead at starts proper
  split at starts
  · next fixed =>
      rw [if_pos fixed] at proper
      rcases torn_cons starts proper with rfl | ⟨later, -, short⟩
      · exact beyond_end floatText bound there
      · simp at short
  · next larger =>
      rw [if_neg larger] at proper
      split at starts
      · next small =>
          rw [if_pos small] at proper
          rcases torn_cons starts proper with rfl | ⟨later, rfl, short⟩
          · exact beyond_end floatText bound there
          · have none : later = [] := by simpa using short
            subst none
            have behind : bytes.drop (pos + 1) = [] := drop_part [0xd9] there
            rw [read_byte floatText bound there]
            show Beyond bytes (byteLength bytes (pos + 1) (.ok (.string [], none))
              (stringAt bytes (pos + 1 + 1)))
            rw [byteLength_nil behind]
            exact .lost bytes _
      · next large =>
          rw [if_neg large] at proper
          split at starts
          · next small =>
              rw [if_pos small] at proper
              rcases torn_cons starts proper with rfl | ⟨later, rfl, short⟩
              · exact beyond_end floatText bound there
              · rw [length_toBytes] at short
                rw [read_byte floatText bound there]
                exact beyond_field (drop_part [0xda] there) short _
          · next largest =>
              rw [if_neg largest] at proper
              rcases torn_cons starts proper with rfl | ⟨later, rfl, short⟩
              · exact beyond_end floatText bound there
              · rw [length_toBytes] at short
                rw [read_byte floatText bound there]
                exact beyond_field (drop_part [0xdb] there) short _

theorem collectionHead_torn {fixed len : Nat} {short long : UInt8} {torn : Bytes}
    (starts : torn <+: collectionHead fixed short long len)
    (proper : torn ≠ collectionHead fixed short long len) (few : len ≤ 0xffff)
    (there : bytes.drop pos = torn)
    (fields : forall later, bytes.drop pos = short :: later ->
      ∃ next, read floatText bytes (bound + 1) (some pos) = getUint 2 bytes (pos + 1) >>= next) :
    Beyond bytes (read floatText bytes (bound + 1) (some pos)) := by
  unfold collectionHead at starts proper
  split at starts
  · next small =>
      rw [if_pos small] at proper
      rcases torn_cons starts proper with rfl | ⟨later, -, short⟩
      · exact beyond_end floatText bound there
      · simp at short
  · next large =>
      rw [if_neg large, if_pos few] at proper
      rcases torn_cons starts proper with rfl | ⟨later, rfl, shorter⟩
      · exact beyond_end floatText bound there
      · rw [length_toBytes] at shorter
        rcases fields later there with ⟨next, step⟩
        rw [step]
        exact beyond_field (drop_part [short] there) shorter next

/-! ## Texts and byte arrays -/

theorem string_read {text : Text} (short : (Utf8.encode text).length < 256 ^ 4)
    (there : bytes.drop pos = stringBytes text ++ data) :
    read floatText bytes (bound + 1) (some pos) =
      .ok (.string (Utf8.dropMark text), some (pos + (stringBytes text).length)) := by
  unfold stringBytes at there ⊢
  rw [List.append_assoc] at there
  have found := stringHead_read floatText bound there
  simp only [Nat.mod_eq_of_lt short] at found
  rcases found with whole | ⟨cut, -⟩
  · rw [whole, stringAt, subarray_part (drop_part _ there), Utf8.decode_encode, List.length_append,
      Nat.add_assoc]
  · simp at cut

theorem bytes_read {value : Bytes} (short : value.length < 256 ^ 4)
    (there : bytes.drop pos = bytesHead value.length ++ value ++ data) :
    read floatText bytes (bound + 1) (some pos) =
      .ok (.bytes value, some (pos + (bytesHead value.length ++ value).length)) := by
  rw [List.append_assoc] at there
  have found := bytesHead_read floatText bound there
  simp only [Nat.mod_eq_of_lt short] at found
  rcases found with whole | ⟨cut, -⟩
  · rw [whole, bytesAt, subarray_part (drop_part _ there), List.length_append, Nat.add_assoc]
  · simp at cut

/-- A text that is read back unchanged is kept, and all of it has been read. -/
theorem string_back {text : Text} {after : Position}
    (there : bytes.drop pos = stringBytes text ++ data)
    (back : read floatText bytes (bound + 1) (some pos) = .ok (.string text, after)) :
    KeptText text ∧ after = some (pos + (stringBytes text).length) := by
  by_cases short : (Utf8.encode text).length < 256 ^ 4
  · rw [string_read floatText bound short there] at back
    rcases Prod.mk.inj (Except.ok.inj back) with ⟨same, here⟩
    have unmarked := (Utf8.dropMark_eq_self_iff text).mp (JsValue.string.inj same)
    exact ⟨⟨short, unmarked⟩, here.symm⟩
  · exfalso
    have whole := there
    unfold stringBytes at whole
    rw [List.append_assoc] at whole
    rcases stringHead_read floatText bound whole with found | ⟨-, found⟩
    · rw [found, stringAt, subarray, drop_part _ whole] at back
      have fewer : (Utf8.encode text).length % 256 ^ 4 + 16 ≤ (Utf8.encode text).length := by omega
      rw [List.take_append_of_le_length (by omega)] at back
      rcases Prod.mk.inj (Except.ok.inj back) with ⟨same, -⟩
      exact Utf8.decode_take_encode_ne fewer (JsValue.string.inj same)
    · rw [found] at back
      cases back

theorem bytes_back {value : Bytes} {after : Position}
    (there : bytes.drop pos = bytesHead value.length ++ value ++ data)
    (back : read floatText bytes (bound + 1) (some pos) = .ok (.bytes value, after)) :
    value.length < 256 ^ 4 ∧ after = some (pos + (bytesHead value.length ++ value).length) := by
  by_cases short : value.length < 256 ^ 4
  · rw [bytes_read floatText bound short there] at back
    cases back
    exact ⟨short, rfl⟩
  · exfalso
    have whole := there
    rw [List.append_assoc] at whole
    rcases bytesHead_read floatText bound whole with found | ⟨-, found⟩
    · rw [found, bytesAt, subarray, drop_part _ whole] at back
      rw [List.take_append_of_le_length (by omega)] at back
      rcases Prod.mk.inj (Except.ok.inj back) with ⟨same, -⟩
      have size := congrArg List.length (JsValue.bytes.inj same)
      simp at size
      omega
    · rw [found] at back
      cases back

theorem string_torn {text : Text} (short : (Utf8.encode text).length < 256 ^ 4) {torn : Bytes}
    (starts : torn <+: stringBytes text) (proper : torn ≠ stringBytes text)
    (there : bytes.drop pos = torn) :
    Beyond bytes (read floatText bytes (bound + 1) (some pos)) := by
  rcases torn_append starts proper with ⟨head, cut⟩ | ⟨later, rfl, inside, missing⟩
  · exact stringHead_torn floatText bound head cut there
  · have fewer := length_lt_of_torn inside missing
    have left_ := length_part (drop_part _ there)
    have found := stringHead_read floatText bound there
    simp only [Nat.mod_eq_of_lt short] at found
    rcases found with whole | ⟨-, failed⟩
    · rw [whole]
      exact .past _ (by omega)
    · rw [failed]
      exact .error bytes _

theorem bytes_torn {value : Bytes} (short : value.length < 256 ^ 4) {torn : Bytes}
    (starts : torn <+: bytesHead value.length ++ value)
    (proper : torn ≠ bytesHead value.length ++ value) (there : bytes.drop pos = torn) :
    Beyond bytes (read floatText bytes (bound + 1) (some pos)) := by
  rcases torn_append starts proper with ⟨head, cut⟩ | ⟨later, rfl, inside, missing⟩
  · exact bytesHead_torn floatText bound head cut there
  · have fewer := length_lt_of_torn inside missing
    have left_ := length_part (drop_part _ there)
    have found := bytesHead_read floatText bound there
    simp only [Nat.mod_eq_of_lt short] at found
    rcases found with whole | ⟨-, failed⟩
    · rw [whole]
      exact .past _ (by omega)
    · rw [failed]
      exact .error bytes _

end

end MsgPack

end TealDrive
