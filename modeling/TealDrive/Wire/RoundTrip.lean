import TealDrive.Wire.Lossless

namespace TealDrive

open BigEndian Outcome

/-!
# The browser's MessagePack round trip

Every level of the decoder's recursion has read a byte, so its bound is never
used up, and a decoder that fails has thrown an error of its own.  With that the
values that survive encoding and decoding are exactly the kept ones.
-/

namespace MsgPack

/-- A position is not before another one. -/
def From (pos : Nat) (position : Position) : Prop := forall number, position = some number -> pos ≤ number

/-- A result that is not for want of depth, and does not lead back. -/
def Steady {Result : Type} (pos : Nat) (result : Except WireError (Result × Position)) : Prop :=
  result ≠ .error .depth ∧ forall value after, result = .ok (value, after) -> From pos after

section

variable {Result : Type} {pos : Nat}

theorem Steady.error {failure : WireError} (other : failure ≠ .depth) :
    Steady pos (.error failure : Except WireError (Result × Position)) := by
  constructor
  · intro same
    exact other (Except.error.inj same)
  · intro value after impossible
    cases impossible

theorem Steady.ok (value : Result) (more : Nat) :
    Steady pos (.ok (value, some (pos + more)) : Except WireError (Result × Position)) := by
  constructor
  · intro impossible
    cases impossible
  · intro other after same number here
    cases same
    cases here
    exact Nat.le_add_right pos more

theorem Steady.lost (value : Result) :
    Steady pos (.ok (value, none) : Except WireError (Result × Position)) := by
  constructor
  · intro impossible
    cases impossible
  · intro other after same number here
    cases same
    cases here

theorem Steady.bind {Value : Type} {first : Except WireError Value}
    {next : Value -> Except WireError (Result × Position)} (other : first ≠ .error .depth)
    (steady : forall value, first = .ok value -> Steady pos (next value)) :
    Steady pos (first >>= next) := by
  cases first with
  | error failure =>
      exact .error fun same => other (by rw [same])
  | ok value => exact steady value rfl

theorem Steady.ite {condition : Prop} [Decidable condition]
    {yes no : Except WireError (Result × Position)} (first : Steady pos yes)
    (second : Steady pos no) : Steady pos (if condition then yes else no) := by
  split
  · exact first
  · exact second

theorem Steady.weaken {later : Nat} {result : Except WireError (Result × Position)}
    (steady : Steady later result) (before : pos ≤ later) : Steady pos result := by
  refine ⟨steady.1, ?_⟩
  intro value after same number here
  exact Nat.le_trans before (steady.2 value after same number here)

end

theorem getUint_ne_depth (width : Nat) (bytes : Bytes) (pos : Nat) :
    getUint width bytes pos ≠ .error .depth := by
  simp only [getUint]
  split <;> simp

theorem getInt_ne_depth (width : Nat) (bytes : Bytes) (pos : Nat) :
    getInt width bytes pos ≠ .error .depth := by
  have field := getUint_ne_depth width bytes pos
  unfold getInt
  cases found : getUint width bytes pos with
  | error failure =>
      rw [found] at field
      exact fun same => field (by rw [Except.error.inj same])
  | ok value => simp [bind, Except.bind]

section

variable (floatText : UInt64 -> Text) {read : Position -> Read} {pos : Nat}

theorem readItems_steady (guarded : forall position, From pos position -> Steady pos (read position))
    (count : Nat) {position : Position} (start : From pos position) :
    Steady pos (readItems read count position) := by
  induction count generalizing position with
  | zero =>
      constructor
      · intro impossible
        cases impossible
      · intro items after same
        cases same
        exact start
  | succ count ih =>
      have first := guarded position start
      apply Steady.bind first.1
      rintro ⟨item, next⟩ here
      have others := ih (first.2 item next here)
      apply Steady.bind others.1
      rintro ⟨items, last⟩ later
      constructor
      · intro impossible
        cases impossible
      · intro all after same
        cases same
        exact others.2 items _ later

theorem readFields_steady
    (guarded : forall position, From pos position -> Steady pos (read position)) (count : Nat)
    {position : Position} (start : From pos position) :
    Steady pos (readFields floatText read count position) := by
  induction count generalizing position with
  | zero =>
      constructor
      · intro impossible
        cases impossible
      · intro items after same
        cases same
        exact start
  | succ count ih =>
      have key := guarded position start
      apply Steady.bind key.1
      rintro ⟨name, next⟩ named
      have value := guarded next (key.2 name next named)
      apply Steady.bind value.1
      rintro ⟨item, last⟩ here
      have others := ih (value.2 item last here)
      apply Steady.bind
      · cases propertyKey floatText name <;> simp [okOr]
      intro text _
      apply Steady.bind others.1
      rintro ⟨fields, final⟩ later
      constructor
      · intro impossible
        cases impossible
      · intro all after same
        cases same
        exact others.2 fields _ later

theorem readArray_steady {start : Nat} (before : pos ≤ start)
    (guarded : forall position, From pos position -> Steady pos (read position)) (count : Nat) :
    Steady pos (readArray read count start) := by
  have begun : From pos (some start) := by
    intro number same
    cases same
    exact before
  have items := readItems_steady guarded count begun
  apply Steady.bind items.1
  rintro ⟨found, after⟩ here
  constructor
  · intro impossible
    cases impossible
  · intro value last same
    cases same
    exact items.2 found _ here

theorem readObject_steady {start : Nat} (before : pos ≤ start)
    (guarded : forall position, From pos position -> Steady pos (read position)) (count : Nat) :
    Steady pos (readObject floatText read count start) := by
  have begun : From pos (some start) := by
    intro number same
    cases same
    exact before
  have fields := readFields_steady floatText guarded count begun
  apply Steady.bind fields.1
  rintro ⟨found, after⟩ here
  constructor
  · intro impossible
    cases impossible
  · intro value last same
    cases same
    exact fields.2 found _ here

theorem bytesAt_steady (bytes : Bytes) (more len : Nat) :
    Steady pos (bytesAt bytes (pos + more) len) := by
  unfold bytesAt
  rw [Nat.add_assoc]
  exact .ok _ _

theorem stringAt_steady (bytes : Bytes) (more len : Nat) :
    Steady pos (stringAt bytes (pos + more) len) := by
  unfold stringAt
  rw [Nat.add_assoc]
  exact .ok _ _

/-- What follows a first byte is read onwards, whatever that byte is. -/
theorem readTyped_steady (bytes : Bytes) (b : UInt8)
    (guarded : forall position, From pos position -> Steady pos (read position)) :
    Steady pos (readTyped floatText read bytes b pos) := by
  have fields := getUint_ne_depth
  have signed := getInt_ne_depth
  have safely : forall value : Int, Steady pos (if !isSafeInteger value then
      Except.error WireError.unsafeInteger else .ok (JsValue.integer value, some (pos + 8))) :=
    fun value => .ite (.error (by decide)) (.ok _ 8)
  unfold readTyped
  apply Steady.ite (.ok _ 0)
  apply Steady.ite (.ok _ 0)
  apply Steady.ite (stringAt_steady bytes 0 _)
  apply Steady.ite (readArray_steady (Nat.le_refl pos) guarded _)
  apply Steady.ite (readObject_steady floatText (Nat.le_refl pos) guarded _)
  apply Steady.ite (.ok _ 0)
  apply Steady.ite (.ok _ 0)
  apply Steady.ite (.ok _ 0)
  apply Steady.ite
  · split
    · exact .lost _
    · exact bytesAt_steady bytes 1 _
  apply Steady.ite (.bind (fields 2 bytes pos) fun len _ => bytesAt_steady bytes 2 len)
  apply Steady.ite (.bind (fields 8 bytes pos) fun value _ => safely value)
  apply Steady.ite (.bind (signed 8 bytes pos) fun value _ => safely value)
  apply Steady.ite (.bind (fields 8 bytes pos) fun value _ => .ok _ 8)
  apply Steady.ite
  · exact .bind (fields 4 bytes pos) fun len _ =>
      .ite (.error (by decide)) (bytesAt_steady bytes 4 len)
  apply Steady.ite
  · exact .bind (fields 4 bytes pos) fun len _ =>
      .ite (.error (by decide)) (stringAt_steady bytes 4 len)
  apply Steady.ite
  · split
    · exact .ok _ 1
    · exact .ok _ 1
  apply Steady.ite (.bind (fields 2 bytes pos) fun value _ => .ok _ 2)
  apply Steady.ite (.bind (fields 4 bytes pos) fun value _ => .ok _ 4)
  apply Steady.ite (.bind (signed 1 bytes pos) fun value _ => .ok _ 1)
  apply Steady.ite (.bind (signed 2 bytes pos) fun value _ => .ok _ 2)
  apply Steady.ite (.bind (signed 4 bytes pos) fun value _ => .ok _ 4)
  apply Steady.ite
  · split
    · exact .lost _
    · exact stringAt_steady bytes 1 _
  apply Steady.ite (.bind (fields 2 bytes pos) fun len _ => stringAt_steady bytes 2 len)
  apply Steady.ite
  · exact .bind (fields 2 bytes pos) fun len _ =>
      readArray_steady (Nat.le_add_right pos 2) guarded len
  apply Steady.ite
  · exact .bind (fields 2 bytes pos) fun len _ =>
      readObject_steady floatText (Nat.le_add_right pos 2) guarded len
  · exact .error (by simp)

end

variable (floatText : UInt64 -> Text)

/-- A bound above the number of bytes left is never used up. -/
theorem read_steady (bytes : Bytes) {bound pos : Nat} (enough : bytes.length - pos < bound)
    {position : Position} (start : From pos position) :
    Steady pos (read floatText bytes bound position) := by
  induction bound generalizing pos position with
  | zero => omega
  | succ bound ih =>
      cases position with
      | none => exact .error (by simp)
      | some number =>
          have after := start number rfl
          cases there : bytes.drop number with
          | nil =>
              rw [read_end floatText bound there]
              exact .error (by decide)
          | cons b rest =>
              have inside : number < bytes.length := by
                by_contra out
                rw [List.drop_eq_nil_of_le (Nat.le_of_not_lt out)] at there
                cases there
              rw [read_byte floatText bound there]
              have typed := readTyped_steady floatText bytes b
                (fun position begun => ih (show bytes.length - (number + 1) < bound by omega) begun)
              exact typed.weaken (Nat.le_succ_of_le after)

/-- A function that throws an error, and not for want of a deeper stack. -/
def Rejects (result : Except WireError JsValue) : Prop :=
  ∃ failure, result = .error failure ∧ failure ≠ .depth

theorem decode_ne_depth (bytes : Bytes) : decode floatText bytes ≠ .error .depth := by
  have begun : From 0 (some 0) := fun number _ => Nat.zero_le number
  have steady := read_steady floatText bytes (Nat.lt_succ_of_le (Nat.sub_le bytes.length 0)) begun
  unfold decode
  intro failed
  cases found : read floatText bytes (bytes.length + 1) (some 0) with
  | error failure =>
      rw [found] at failed
      have same : failure = .depth := Except.error.inj failed
      rw [same] at found
      exact steady.1 found
  | ok result =>
      rw [found] at failed
      rcases result with ⟨value, pos⟩
      simp only [bind, Except.bind] at failed
      split at failed <;> cases failed

theorem rejects_of_not_ok {bytes : Bytes} (never : forall value, decode floatText bytes ≠ .ok value) :
    Rejects (decode floatText bytes) := by
  cases found : decode floatText bytes with
  | ok value => exact absurd found (never value)
  | error failure =>
      refine ⟨failure, rfl, ?_⟩
      intro same
      rw [same] at found
      exact decode_ne_depth floatText bytes found

/-- Decoding gives a value when reading it ends with the last byte. -/
theorem decode_eq_ok_iff {bytes : Bytes} {value : JsValue} :
    decode floatText bytes = .ok value ↔
      read floatText bytes (bytes.length + 1) (some 0) = .ok (value, some bytes.length) := by
  unfold decode
  constructor
  · intro decoded
    rcases bind_eq_ok.mp decoded with ⟨⟨found, pos⟩, here, decoded⟩
    by_cases ends : pos = some bytes.length
    · subst ends
      simp at decoded
      rw [here, decoded]
    · simp [ends] at decoded
  · intro found
    rw [found]
    simp [bind, Except.bind]

/-- A plain value is read back unchanged, and torn or lengthened encodings of it
are rejected, exactly when it is kept. -/
theorem encode_decode_iff {value : JsValue} (plain : Plain value) :
    (∃ encoded, encode value = .ok encoded ∧ decode floatText encoded = .ok value ∧
      (forall torn, torn <+: encoded -> torn ≠ encoded -> Rejects (decode floatText torn)) ∧
      forall extra, extra ≠ [] -> Rejects (decode floatText (encoded ++ extra))) ↔ Kept value := by
  constructor
  · rintro ⟨encoded, wrote, decoded, -, -⟩
    have found := (decode_eq_ok_iff floatText).mp decoded
    have there : encoded.drop 0 = encoded ++ [] := by simp
    exact (telling_of_plain plain wrote there found).1
  · intro kept
    rcases enc_plain plain with ⟨encoded, wrote, -⟩
    refine ⟨encoded, wrote, ?_, ?_, ?_⟩
    · have there : encoded.drop 0 = encoded ++ [] := by simp
      have whole : Exact floatText encoded value := exact_of_kept plain kept
      have found := whole wrote there (Nat.le_succ encoded.length)
      rw [Nat.zero_add] at found
      exact (decode_eq_ok_iff floatText).mpr found
    · intro torn starts proper
      apply rejects_of_not_ok
      intro other decoded
      have found := (decode_eq_ok_iff floatText).mp decoded
      have fragile : Fragile floatText torn value := fragile_of_kept plain kept
      have there : torn.drop 0 = torn := rfl
      have beyond := fragile wrote starts proper there (Nat.le_succ torn.length)
      exact Nat.lt_irrefl _ (beyond other torn.length found)
    · intro extra something
      apply rejects_of_not_ok
      intro other decoded
      have found := (decode_eq_ok_iff floatText).mp decoded
      have whole : Exact floatText (encoded ++ extra) value := exact_of_kept plain kept
      have there : (encoded ++ extra).drop 0 = encoded ++ extra := rfl
      have enough : encoded.length ≤ (encoded ++ extra).length + 1 := by
        rw [List.length_append]
        omega
      have read_ := whole wrote there enough
      rw [read_] at found
      rcases Prod.mk.inj (Except.ok.inj found) with ⟨-, ends⟩
      have size := Option.some.inj ends
      rw [List.length_append] at size
      exact something (List.eq_nil_of_length_eq_zero (by omega))

/-- A file name and its size. -/
def listed : JsValue :=
  .object [("name".toList, .string "a.txt".toList), ("size".toList, .integer (-70000))]

theorem listed_survives :
    ∃ encoded, encode listed = .ok encoded ∧ decode (fun _ => []) encoded = .ok listed ∧
      (forall torn, torn <+: encoded -> torn ≠ encoded -> Rejects (decode (fun _ => []) torn)) ∧
      forall extra, extra ≠ [] -> Rejects (decode (fun _ => []) (encoded ++ extra)) := by
  have plain : Plain listed := by
    refine .object (by decide) ?_
    intro field inside
    simp only [List.mem_cons, List.not_mem_nil, or_false] at inside
    rcases inside with rfl | rfl
    · exact .string _
    · exact .integer (by decide)
  refine (encode_decode_iff (fun _ => []) plain).mpr (.object (by decide) ?_ ?_)
  · intro field inside
    simp only [List.mem_cons, List.not_mem_nil, or_false] at inside
    rcases inside with rfl | rfl
    · exact ⟨by decide, by decide⟩
    · exact ⟨by decide, by decide⟩
  · intro field inside
    simp only [List.mem_cons, List.not_mem_nil, or_false] at inside
    rcases inside with rfl | rfl
    · exact .string ⟨by decide, by decide⟩
    · exact .integer _

/-- An array of more than 65535 items is encoded in a class the decoder lacks. -/
theorem long_array_unread {items : List JsValue} (plain : Plain (.array items))
    (long : 0xffff < items.length) :
    ∃ encoded, encode (.array items) = .ok encoded ∧
      decode floatText encoded = .error (.unsupportedType (some 0xdd)) := by
  rcases enc_plain plain with ⟨encoded, wrote, -⟩
  refine ⟨encoded, wrote, ?_⟩
  rcases enc_array wrote with ⟨body, -, rfl⟩
  have there : (arrayHead items.length ++ body).drop 0 = arrayHead items.length ++ body := rfl
  have failed := arrayHead_read floatText (arrayHead items.length ++ body).length there
  rw [if_neg (Nat.not_le.mpr long)] at failed
  unfold decode
  rw [failed]
  rfl

theorem plain_nulls (count : Nat) : Plain (.array (List.replicate count .null)) := by
  refine .array ?_
  intro item inside
  rw [List.eq_of_mem_replicate inside]
  exact .null

/-- A text that starts with a byte order mark loses it, and the decoder does not
know the class of an array of 65536 items. -/
theorem marked_text_and_long_array_lost :
    (Plain (.string (Utf8.byteOrderMark :: "hi".toList)) ∧
      ∃ encoded, encode (.string (Utf8.byteOrderMark :: "hi".toList)) = .ok encoded ∧
        decode (fun _ => []) encoded = .ok (.string "hi".toList)) ∧
    (Plain (.array (List.replicate 65536 .null)) ∧
      ∃ encoded, encode (.array (List.replicate 65536 .null)) = .ok encoded ∧
        decode (fun _ => []) encoded = .error (.unsupportedType (some 0xdd))) := by
  constructor
  · exact ⟨.string _, [0xa5, 0xef, 0xbb, 0xbf, 0x68, 0x69], rfl, rfl⟩
  · have long : 0xffff < (List.replicate 65536 JsValue.null).length := by
      rw [List.length_replicate]
      decide
    exact ⟨plain_nulls 65536, long_array_unread _ (plain_nulls 65536) long⟩

end MsgPack

end TealDrive
