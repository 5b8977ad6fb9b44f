import TealDrive.Wire.Reading

namespace TealDrive

open BigEndian Outcome

/-!
# When the browser reads back what it wrote

By induction on a value: if it is kept, its encoding is read back wherever it
stands; if its encoding is read back as it was, the value is kept; and torn
encodings of kept values are never read to the end of the bytes.
-/

namespace MsgPack

section

variable (floatText : UInt64 -> Text) {bytes data : Bytes} {pos : Nat} (bound : Nat)

/-! ## Integers -/

theorem integer_read {value : Int} {encoded : Bytes} (wrote : integerBytes value = .ok encoded)
    (there : bytes.drop pos = encoded ++ data) :
    read floatText bytes (bound + 1) (some pos) =
      .ok (.integer value, some (pos + encoded.length)) := by
  unfold integerBytes at wrote
  split at wrote
  · next small =>
      cases wrote
      rw [read_byte floatText bound there, readTyped_fixint _ _ _ _ (by omega)]
      congr
      omega
  split at wrote
  · next small =>
      cases wrote
      rw [read_byte floatText bound there, readTyped_negative _ _ _ _ small.1 small.2]
      rfl
  split at wrote
  · next small =>
      cases wrote
      have behind : bytes.drop (pos + 1) = toBytes 2 value.toNat ++ data := drop_part [0xcd] there
      have field := getUint_short behind (by omega)
      have same : (value.toNat : Int) = value := by omega
      rw [read_byte floatText bound there]
      show (getUint 2 bytes (pos + 1) >>= fun value =>
        Except.ok (JsValue.integer value, some (pos + 1 + 2))) = _
      rw [field]
      show Except.ok (JsValue.integer value.toNat, some (pos + 1 + 2)) = _
      rw [same]
      rfl
  split at wrote
  · next small =>
      cases wrote
      have behind : bytes.drop (pos + 1) = toBytes 4 value.toNat ++ data := drop_part [0xce] there
      have field := getUint_part behind
      rw [Nat.mod_eq_of_lt (by omega)] at field
      have same : (value.toNat : Int) = value := by omega
      rw [read_byte floatText bound there]
      show (getUint 4 bytes (pos + 1) >>= fun value =>
        Except.ok (JsValue.integer value, some (pos + 1 + 4))) = _
      rw [field]
      show Except.ok (JsValue.integer value.toNat, some (pos + 1 + 4)) = _
      rw [same]
      rfl
  split at wrote
  · next far =>
      split at wrote
      · cases wrote
      · next safe =>
          have safe : isSafeInteger value = true := by simpa using safe
          have range : -9007199254740991 ≤ value ∧ value ≤ 9007199254740991 := by
            simpa [isSafeInteger] using safe
          split at wrote
          · next positive =>
              cases wrote
              have behind : bytes.drop (pos + 1) = toBytes 8 value.toNat ++ data :=
                drop_part [0xcf] there
              have field := getUint_part behind
              rw [Nat.mod_eq_of_lt (by omega)] at field
              have same : (value.toNat : Int) = value := by omega
              rw [read_byte floatText bound there]
              show (getUint 8 bytes (pos + 1) >>= fun value =>
                if !isSafeInteger value then Except.error WireError.unsafeInteger
                else Except.ok (JsValue.integer value, some (pos + 1 + 8))) = _
              rw [field]
              show (if !isSafeInteger value.toNat then _ else
                Except.ok (JsValue.integer value.toNat, some (pos + 1 + 8))) = _
              rw [same, safe]
              rfl
          · next negative =>
              cases wrote
              have behind : bytes.drop (pos + 1) = toBytes 8 (ofSigned 8 value) ++ data :=
                drop_part [0xd3] there
              have field := getUint_part behind
              rw [Nat.mod_eq_of_lt (ofSigned_lt 8 value)] at field
              have same : toSigned 8 (ofSigned 8 value) = value :=
                toSigned_ofSigned (by omega) (by omega)
              rw [read_byte floatText bound there]
              show ((getUint 8 bytes (pos + 1) >>= fun value => .ok (toSigned 8 value)) >>= fun value =>
                if !isSafeInteger value then Except.error WireError.unsafeInteger
                else Except.ok (JsValue.integer value, some (pos + 1 + 8))) = _
              rw [field]
              show (if !isSafeInteger (toSigned 8 (ofSigned 8 value)) then _ else
                Except.ok (JsValue.integer (toSigned 8 (ofSigned 8 value)), some (pos + 1 + 8))) = _
              rw [same, safe]
              rfl
  · next near =>
      cases wrote
      have behind : bytes.drop (pos + 1) = toBytes 4 (ofSigned 4 value) ++ data :=
        drop_part [0xd2] there
      have field := getUint_part behind
      rw [Nat.mod_eq_of_lt (ofSigned_lt 4 value)] at field
      have same : toSigned 4 (ofSigned 4 value) = value := toSigned_ofSigned (by omega) (by omega)
      rw [read_byte floatText bound there]
      show ((getUint 4 bytes (pos + 1) >>= fun value => .ok (toSigned 4 value)) >>= fun value =>
        Except.ok (JsValue.integer value, some (pos + 1 + 4))) = _
      rw [field]
      show Except.ok (JsValue.integer (toSigned 4 (ofSigned 4 value)), some (pos + 1 + 4)) = _
      rw [same]
      rfl

theorem beyond_signed {width : Nat} {torn : Bytes} (there : bytes.drop pos = torn)
    (short : torn.length < width) (next : Int -> Read) :
    Beyond bytes (getInt width bytes pos >>= next) := by
  rw [getInt, getUint_torn there short]
  exact .error bytes .outOfRange

theorem integer_torn {value : Int} {encoded torn : Bytes} (wrote : integerBytes value = .ok encoded)
    (starts : torn <+: encoded) (proper : torn ≠ encoded) (there : bytes.drop pos = torn) :
    Beyond bytes (read floatText bytes (bound + 1) (some pos)) := by
  unfold integerBytes at wrote
  split at wrote
  · cases wrote
    rcases torn_cons starts proper with rfl | ⟨later, -, short⟩
    · exact beyond_end floatText bound there
    · simp at short
  split at wrote
  · cases wrote
    rcases torn_cons starts proper with rfl | ⟨later, -, short⟩
    · exact beyond_end floatText bound there
    · simp at short
  split at wrote
  · cases wrote
    rcases torn_cons starts proper with rfl | ⟨later, rfl, short⟩
    · exact beyond_end floatText bound there
    · rw [length_toBytes] at short
      rw [read_byte floatText bound there]
      exact beyond_field (drop_part [0xcd] there) short _
  split at wrote
  · cases wrote
    rcases torn_cons starts proper with rfl | ⟨later, rfl, short⟩
    · exact beyond_end floatText bound there
    · rw [length_toBytes] at short
      rw [read_byte floatText bound there]
      exact beyond_field (drop_part [0xce] there) short _
  split at wrote
  · split at wrote
    · cases wrote
    split at wrote
    · cases wrote
      rcases torn_cons starts proper with rfl | ⟨later, rfl, short⟩
      · exact beyond_end floatText bound there
      · rw [length_toBytes] at short
        rw [read_byte floatText bound there]
        exact beyond_field (drop_part [0xcf] there) short _
    · cases wrote
      rcases torn_cons starts proper with rfl | ⟨later, rfl, short⟩
      · exact beyond_end floatText bound there
      · rw [length_toBytes] at short
        rw [read_byte floatText bound there]
        exact beyond_signed (drop_part [0xd3] there) short _
  · cases wrote
    rcases torn_cons starts proper with rfl | ⟨later, rfl, short⟩
    · exact beyond_end floatText bound there
    · rw [length_toBytes] at short
      rw [read_byte floatText bound there]
      exact beyond_signed (drop_part [0xd2] there) short _

theorem integerBytes_ne_nil {value : Int} {encoded : Bytes}
    (wrote : integerBytes value = .ok encoded) : encoded ≠ [] := by
  unfold integerBytes at wrote
  repeat' split at wrote
  all_goals
    cases wrote
    try exact List.cons_ne_nil _ _

theorem integerBytes_safe {value : Int} (safe : isSafeInteger value = true) :
    ∃ encoded, integerBytes value = .ok encoded := by
  unfold integerBytes
  rw [safe]
  repeat' split
  all_goals first | exact ⟨_, rfl⟩ | contradiction

end

/-! ## The parts of a collection -/

theorem encItems_cons {item : JsValue} {rest : List JsValue} {body : Bytes}
    (wrote : encItems (item :: rest) = .ok body) :
    ∃ first others, enc item = .ok first ∧ encItems rest = .ok others ∧ body = first ++ others := by
  rw [encItems] at wrote
  rcases bind_eq_ok.mp wrote with ⟨first, head, wrote⟩
  rcases bind_eq_ok.mp wrote with ⟨others, tail, wrote⟩
  cases wrote
  exact ⟨first, others, head, tail, rfl⟩

theorem encFields_cons {key : Text} {value : JsValue} {rest : List (Text × JsValue)} {body : Bytes}
    (wrote : encFields ((key, value) :: rest) = .ok body) :
    ∃ first others, enc value = .ok first ∧ encFields rest = .ok others ∧
      body = stringBytes key ++ (first ++ others) := by
  rw [encFields] at wrote
  rcases bind_eq_ok.mp wrote with ⟨first, head, wrote⟩
  rcases bind_eq_ok.mp wrote with ⟨others, tail, wrote⟩
  cases wrote
  exact ⟨first, others, head, tail, List.append_assoc _ _ _⟩

theorem enc_array {items : List JsValue} {encoded : Bytes} (wrote : enc (.array items) = .ok encoded) :
    ∃ body, encItems items = .ok body ∧ encoded = arrayHead items.length ++ body := by
  rw [enc] at wrote
  rcases bind_eq_ok.mp wrote with ⟨body, inner, wrote⟩
  cases wrote
  exact ⟨body, inner, rfl⟩

theorem enc_object {fields : List (Text × JsValue)} {encoded : Bytes}
    (wrote : enc (.object fields) = .ok encoded) :
    ∃ body, encFields fields = .ok body ∧ encoded = objectHead fields.length ++ body := by
  rw [enc] at wrote
  rcases bind_eq_ok.mp wrote with ⟨body, inner, wrote⟩
  cases wrote
  exact ⟨body, inner, rfl⟩

theorem stringHead_ne_nil (len : Nat) : stringHead len ≠ [] := by
  unfold stringHead
  repeat' split
  all_goals exact List.cons_ne_nil _ _

theorem bytesHead_ne_nil (len : Nat) : bytesHead len ≠ [] := by
  unfold bytesHead
  repeat' split
  all_goals exact List.cons_ne_nil _ _

theorem collectionHead_ne_nil (fixed : Nat) (short long : UInt8) (len : Nat) :
    collectionHead fixed short long len ≠ [] := by
  unfold collectionHead
  repeat' split
  all_goals exact List.cons_ne_nil _ _

/-- Plain values are encoded. -/
theorem enc_plain {value : JsValue} (plain : Plain value) :
    ∃ encoded, enc value = .ok encoded ∧ encoded ≠ [] := by
  induction plain with
  | null => exact ⟨_, rfl, by decide⟩
  | bool value => exact ⟨_, rfl, List.cons_ne_nil _ _⟩
  | integer safe =>
      rcases integerBytes_safe safe with ⟨encoded, wrote⟩
      exact ⟨encoded, by rw [enc, wrote], integerBytes_ne_nil wrote⟩
  | string value =>
      refine ⟨_, rfl, ?_⟩
      intro none
      exact stringHead_ne_nil _ (List.append_eq_nil_iff.mp none).1
  | bytes value =>
      refine ⟨_, rfl, ?_⟩
      intro none
      exact bytesHead_ne_nil _ (List.append_eq_nil_iff.mp none).1
  | @array items each ih =>
      have all : ∃ body, encItems items = .ok body := by
        clear each
        induction items with
        | nil => exact ⟨[], rfl⟩
        | cons item rest inner =>
            rcases ih item List.mem_cons_self with ⟨first, head, -⟩
            rcases inner (fun other inside => ih other (List.mem_cons_of_mem _ inside)) with
              ⟨others, tail⟩
            exact ⟨first ++ others, by rw [encItems, head, tail]; rfl⟩
      rcases all with ⟨body, wrote⟩
      refine ⟨arrayHead items.length ++ body, by rw [enc, wrote]; rfl, ?_⟩
      intro none
      exact collectionHead_ne_nil _ _ _ _ (List.append_eq_nil_iff.mp none).1
  | @object fields distinct each ih =>
      have all : ∃ body, encFields fields = .ok body := by
        clear each distinct
        induction fields with
        | nil => exact ⟨[], rfl⟩
        | cons field rest inner =>
            rcases field with ⟨key, value⟩
            rcases ih (key, value) List.mem_cons_self with ⟨first, head, -⟩
            rcases inner (fun other inside => ih other (List.mem_cons_of_mem _ inside)) with
              ⟨others, tail⟩
            exact ⟨stringBytes key ++ first ++ others, by rw [encFields, head, tail]; rfl⟩
      rcases all with ⟨body, wrote⟩
      refine ⟨objectHead fields.length ++ body, by rw [enc, wrote]; rfl, ?_⟩
      intro none
      exact collectionHead_ne_nil _ _ _ _ (List.append_eq_nil_iff.mp none).1

/-! ## Fields of an object -/

theorem length_put (fields : List (Text × JsValue)) (field : Text × JsValue) :
    (put fields field).length ≤ fields.length + 1 ∧
      ((put fields field).length = fields.length + 1 -> put fields field = fields ++ [field]) := by
  unfold put
  split
  · constructor
    · simp
    · intro longer
      simp at longer
  · exact ⟨by simp, fun _ => rfl⟩

/-- Fields are put as they are when no two of them share a key, and only then
as many are left. -/
theorem foldl_put_length (before added : List (Text × JsValue)) :
    (added.foldl put before).length ≤ before.length + added.length ∧
      ((added.foldl put before).length = before.length + added.length ->
        added.foldl put before = before ++ added) := by
  induction added generalizing before with
  | nil => simp
  | cons field rest ih =>
      rcases length_put before field with ⟨most, exactly⟩
      rcases ih (put before field) with ⟨bounded, whole⟩
      simp only [List.foldl_cons, List.length_cons]
      constructor
      · omega
      · intro all
        have appended := exactly (by omega)
        rw [appended] at whole ⊢
        rw [whole (by rw [appended] at all; rw [all]; simp; omega)]
        simp

theorem foldl_put_distinct (before added : List (Text × JsValue))
    (distinct : ((before ++ added).map Prod.fst).Nodup) :
    added.foldl put before = before ++ added := by
  induction added generalizing before with
  | nil => simp
  | cons field rest ih =>
      have fresh : before.any (fun other => other.1 == field.1) = false := by
        rw [List.any_eq_false]
        intro other inside same
        simp only [List.map_append, List.map_cons, List.nodup_append] at distinct
        have apart := distinct.2.2 other.1 (List.mem_map_of_mem inside) field.1 List.mem_cons_self
        exact apart (beq_iff_eq.mp same)
      have added : put before field = before ++ [field] := by
        simp [put, fresh]
      rw [List.foldl_cons, added, ih]
      · simp
      · simpa using distinct

section

variable (floatText : UInt64 -> Text) (bytes : Bytes)

/-! ## Reading what was written -/

/-- Wherever the encoding of a value stands, reading it gives the value. -/
def Exact (value : JsValue) : Prop :=
  forall {encoded data : Bytes} {bound pos : Nat}, enc value = .ok encoded ->
    bytes.drop pos = encoded ++ data -> encoded.length ≤ bound ->
      read floatText bytes bound (some pos) = .ok (value, some (pos + encoded.length))

variable {floatText bytes}

theorem readItems_exact {items : List JsValue}
    (each : forall item, item ∈ items -> Exact floatText bytes item) {body data : Bytes}
    {bound pos : Nat} (wrote : encItems items = .ok body) (there : bytes.drop pos = body ++ data)
    (enough : body.length ≤ bound) :
    readItems (read floatText bytes bound) items.length (some pos) =
      .ok (items, some (pos + body.length)) := by
  induction items generalizing body pos with
  | nil =>
      cases wrote
      rfl
  | cons item rest ih =>
      rcases encItems_cons wrote with ⟨first, others, head, tail, rfl⟩
      rw [List.append_assoc] at there
      rw [List.length_append] at enough
      have here := each item List.mem_cons_self head there (show first.length ≤ bound by omega)
      have later := ih (fun other inside => each other (List.mem_cons_of_mem _ inside)) tail
        (drop_part first there) (by omega)
      rw [List.length_cons, readItems, here]
      show (readItems (read floatText bytes bound) rest.length (some (pos + first.length)) >>= _) = _
      rw [later, List.length_append, ← Nat.add_assoc]
      rfl

theorem readFields_exact {fields : List (Text × JsValue)}
    (keys : forall field, field ∈ fields -> KeptText field.1)
    (each : forall field, field ∈ fields -> Exact floatText bytes field.2) {body data : Bytes}
    {bound pos : Nat} (wrote : encFields fields = .ok body) (there : bytes.drop pos = body ++ data)
    (enough : body.length ≤ bound) :
    readFields floatText (read floatText bytes bound) fields.length (some pos) =
      .ok (fields, some (pos + body.length)) := by
  induction fields generalizing body pos with
  | nil =>
      cases wrote
      rfl
  | cons field rest ih =>
      rcases field with ⟨key, value⟩
      rcases encFields_cons wrote with ⟨first, others, head, tail, rfl⟩
      rw [List.append_assoc, List.append_assoc] at there
      simp only [List.length_append] at enough
      have kept := keys (key, value) List.mem_cons_self
      have someBytes : 0 < (stringBytes key).length := by
        have := List.length_pos_of_ne_nil (stringHead_ne_nil (Utf8.encode key).length)
        simp [stringBytes]
        omega
      have unmarked := (Utf8.dropMark_eq_self_iff key).mpr kept.unmarked
      have named : read floatText bytes bound (some pos) =
          .ok (.string key, some (pos + (stringBytes key).length)) := by
        cases bound with
        | zero => omega
        | succ bound =>
            rw [string_read floatText bound kept.short there, unmarked]
      have here := each (key, value) List.mem_cons_self head (drop_part _ there)
        (show first.length ≤ bound by omega)
      have later := ih (fun other inside => keys other (List.mem_cons_of_mem _ inside))
        (fun other inside => each other (List.mem_cons_of_mem _ inside)) tail
        (drop_part _ (drop_part _ there)) (by omega)
      rw [List.length_cons, readFields, named]
      show (read floatText bytes bound (some (pos + (stringBytes key).length)) >>= _) = _
      rw [here]
      show (readFields floatText (read floatText bytes bound) rest.length
        (some (pos + (stringBytes key).length + first.length)) >>= _) = _
      rw [later]
      simp only [List.length_append, ← Nat.add_assoc]
      rfl

/-- Kept values are read back. -/
theorem exact_of_kept {value : JsValue} (plain : Plain value) (kept : Kept value) :
    Exact floatText bytes value := by
  induction plain with
  | null =>
      intro encoded data bound pos wrote there enough
      cases wrote
      cases bound with
      | zero => simp at enough
      | succ bound =>
          rw [read_byte floatText bound there]
          rfl
  | bool value =>
      intro encoded data bound pos wrote there enough
      cases wrote
      cases bound with
      | zero => simp at enough
      | succ bound =>
          rw [read_byte floatText bound there]
          cases value <;> rfl
  | @integer value safe =>
      intro encoded data bound pos wrote there enough
      rw [enc] at wrote
      have something := List.length_pos_of_ne_nil (integerBytes_ne_nil wrote)
      cases bound with
      | zero => omega
      | succ bound => exact integer_read floatText bound wrote there
  | string value =>
      intro encoded data bound pos wrote there enough
      cases kept with
      | string kept =>
          cases wrote
          have unmarked := (Utf8.dropMark_eq_self_iff value).mpr kept.unmarked
          cases bound with
          | zero =>
              have none := List.eq_nil_of_length_eq_zero (Nat.le_zero.mp enough)
              exact absurd (List.append_eq_nil_iff.mp none).1 (stringHead_ne_nil _)
          | succ bound =>
              rw [string_read floatText bound kept.short there, unmarked]
  | bytes value =>
      intro encoded data bound pos wrote there enough
      cases kept with
      | bytes short =>
          cases wrote
          cases bound with
          | zero =>
              have none := List.eq_nil_of_length_eq_zero (Nat.le_zero.mp enough)
              exact absurd (List.append_eq_nil_iff.mp none).1 (bytesHead_ne_nil _)
          | succ bound => exact bytes_read floatText bound short there
  | @array items each ih =>
      intro encoded data bound pos wrote there enough
      cases kept with
      | array few all =>
          rcases enc_array wrote with ⟨body, inner, rfl⟩
          have headed := List.length_pos_of_ne_nil (collectionHead_ne_nil 0x90 0xdc 0xdd items.length)
          rw [List.length_append] at enough
          rw [List.append_assoc] at there
          cases bound with
          | zero =>
              unfold arrayHead at enough
              omega
          | succ bound =>
              have room : body.length ≤ bound := by
                unfold arrayHead at enough
                omega
              have found := readItems_exact (fun item inside => ih item inside (all item inside))
                inner (drop_part _ there) room
              rw [arrayHead_read floatText bound there, if_pos few, readArray, found,
                List.length_append, ← Nat.add_assoc]
              rfl
  | @object fields distinct each ih =>
      intro encoded data bound pos wrote there enough
      cases kept with
      | object few keys all =>
          rcases enc_object wrote with ⟨body, inner, rfl⟩
          have headed := List.length_pos_of_ne_nil (collectionHead_ne_nil 0x80 0xde 0xdf fields.length)
          rw [List.length_append] at enough
          rw [List.append_assoc] at there
          cases bound with
          | zero =>
              unfold objectHead at enough
              omega
          | succ bound =>
              have room : body.length ≤ bound := by
                unfold objectHead at enough
                omega
              have found := readFields_exact keys
                (fun field inside => ih field inside (all field inside)) inner
                (drop_part _ there) room
              have put_ := foldl_put_distinct [] fields distinct
              rw [objectHead_read floatText bound there, if_pos few, readObject, found,
                List.length_append, ← Nat.add_assoc]
              show Except.ok (JsValue.object (fields.foldl put []), _) = _
              rw [put_]
              rfl

/-! ## Values that are read back are kept -/

variable (floatText bytes) in
/-- Where reading the encoding of a value gives the value, it is kept, and its
whole encoding was read. -/
def Telling (value : JsValue) : Prop :=
  forall {encoded data : Bytes} {bound pos : Nat} {after : Position}, enc value = .ok encoded ->
    bytes.drop pos = encoded ++ data -> read floatText bytes bound (some pos) = .ok (value, after) ->
      Kept value ∧ after = some (pos + encoded.length)

theorem readItems_telling {items : List JsValue}
    (each : forall item, item ∈ items -> Telling floatText bytes item) {body data : Bytes}
    {bound pos : Nat} {after : Position} (wrote : encItems items = .ok body)
    (there : bytes.drop pos = body ++ data)
    (back : readItems (read floatText bytes bound) items.length (some pos) = .ok (items, after)) :
    (forall item, item ∈ items -> Kept item) ∧ after = some (pos + body.length) := by
  induction items generalizing body pos with
  | nil =>
      cases wrote
      cases back
      exact ⟨by simp, rfl⟩
  | cons item rest ih =>
      rcases encItems_cons wrote with ⟨first, others, head, tail, rfl⟩
      rw [List.append_assoc] at there
      rw [List.length_cons, readItems] at back
      rcases bind_eq_ok.mp back with ⟨⟨found, next⟩, here, back⟩
      rcases bind_eq_ok.mp back with ⟨⟨others', final⟩, later, back⟩
      rcases Prod.mk.inj (Except.ok.inj back) with ⟨same, rfl⟩
      rcases List.cons.inj same with ⟨rfl, rfl⟩
      rcases each found List.mem_cons_self head there here with ⟨kept, rfl⟩
      rcases ih (fun other inside => each other (List.mem_cons_of_mem _ inside)) tail
        (drop_part first there) later with ⟨all, ends⟩
      constructor
      · intro other inside
        rcases List.mem_cons.mp inside with this | among
        · rw [this]
          exact kept
        · exact all other among
      · rw [ends, List.length_append, Nat.add_assoc]

theorem readFields_length {read : Position -> Read} {count : Nat} {pos after : Position}
    {fields : List (Text × JsValue)}
    (found : readFields floatText read count pos = .ok (fields, after)) : fields.length = count := by
  induction count generalizing pos fields with
  | zero =>
      cases found
      rfl
  | succ count ih =>
      rw [readFields] at found
      rcases bind_eq_ok.mp found with ⟨⟨key, next⟩, -, found⟩
      rcases bind_eq_ok.mp found with ⟨⟨value, last⟩, -, found⟩
      rcases bind_eq_ok.mp found with ⟨name, -, found⟩
      rcases bind_eq_ok.mp found with ⟨⟨others, final⟩, later, found⟩
      rcases Prod.mk.inj (Except.ok.inj found) with ⟨rfl, rfl⟩
      rw [List.length_cons, ih later]

/-- What is read as a key was a text. -/
theorem string_named {text : Text} {data : Bytes} {bound pos : Nat} {key : JsValue}
    {after : Position} (there : bytes.drop pos = stringBytes text ++ data)
    (found : read floatText bytes bound (some pos) = .ok (key, after))
    (named : propertyKey floatText key = some text) : key = .string text := by
  cases bound with
  | zero => cases found
  | succ bound =>
      unfold stringBytes at there
      rw [List.append_assoc] at there
      rcases stringHead_read floatText bound there with whole | ⟨-, failed⟩
      · rw [whole, stringAt] at found
        rcases Prod.mk.inj (Except.ok.inj found) with ⟨rfl, -⟩
        rw [propertyKey] at named
        rw [Option.some.inj named]
      · rw [failed] at found
        cases found

theorem readFields_telling {fields : List (Text × JsValue)}
    (each : forall field, field ∈ fields -> Telling floatText bytes field.2) {body data : Bytes}
    {bound pos : Nat} {after : Position} (wrote : encFields fields = .ok body)
    (there : bytes.drop pos = body ++ data)
    (back : readFields floatText (read floatText bytes bound) fields.length (some pos) =
      .ok (fields, after)) :
    (forall field, field ∈ fields -> KeptText field.1 ∧ Kept field.2) ∧
      after = some (pos + body.length) := by
  induction fields generalizing body pos with
  | nil =>
      cases wrote
      cases back
      exact ⟨by simp, rfl⟩
  | cons field rest ih =>
      rcases field with ⟨key, value⟩
      rcases encFields_cons wrote with ⟨first, others, head, tail, rfl⟩
      rw [List.append_assoc, List.append_assoc] at there
      rw [List.length_cons, readFields] at back
      rcases bind_eq_ok.mp back with ⟨⟨name, next⟩, named, back⟩
      rcases bind_eq_ok.mp back with ⟨⟨found, last⟩, here, back⟩
      rcases bind_eq_ok.mp back with ⟨text, converted, back⟩
      rcases bind_eq_ok.mp back with ⟨⟨others', final⟩, later, back⟩
      rcases Prod.mk.inj (Except.ok.inj back) with ⟨same, rfl⟩
      rcases List.cons.inj same with ⟨pair, rfl⟩
      rcases Prod.mk.inj pair with ⟨rfl, rfl⟩
      have isText := string_named there named (okOr_eq_ok.mp converted)
      subst isText
      have keyed : KeptText text ∧ next = some (pos + (stringBytes text).length) := by
        cases bound with
        | zero => cases named
        | succ bound => exact string_back floatText bound there named
      rcases keyed with ⟨keptText, rfl⟩
      rcases each (text, found) List.mem_cons_self head (drop_part _ there) here with ⟨kept, rfl⟩
      rcases ih (fun other inside => each other (List.mem_cons_of_mem _ inside)) tail
        (drop_part _ (drop_part _ there)) later with ⟨all, ends⟩
      constructor
      · intro other inside
        rcases List.mem_cons.mp inside with this | among
        · rw [this]
          exact ⟨keptText, kept⟩
        · exact all other among
      · rw [ends]
        simp only [List.length_append, Nat.add_assoc]

theorem telling_of_plain {value : JsValue} (plain : Plain value) : Telling floatText bytes value := by
  induction plain with
  | null =>
      intro encoded data bound pos after wrote there back
      cases wrote
      cases bound with
      | zero => cases back
      | succ bound =>
          rw [read_byte floatText bound there] at back
          cases back
          exact ⟨.null, rfl⟩
  | bool value =>
      intro encoded data bound pos after wrote there back
      cases wrote
      cases bound with
      | zero => cases back
      | succ bound =>
          rw [read_byte floatText bound there] at back
          cases value <;>
            cases back <;>
            exact ⟨.bool _, rfl⟩
  | @integer value safe =>
      intro encoded data bound pos after wrote there back
      rw [enc] at wrote
      cases bound with
      | zero => cases back
      | succ bound =>
          rw [integer_read floatText bound wrote there] at back
          cases back
          exact ⟨.integer value, rfl⟩
  | string value =>
      intro encoded data bound pos after wrote there back
      cases wrote
      cases bound with
      | zero => cases back
      | succ bound =>
          rcases string_back floatText bound there back with ⟨kept, ends⟩
          exact ⟨.string kept, ends⟩
  | bytes value =>
      intro encoded data bound pos after wrote there back
      cases wrote
      cases bound with
      | zero => cases back
      | succ bound =>
          rcases bytes_back floatText bound there back with ⟨short, ends⟩
          exact ⟨.bytes short, ends⟩
  | @array items each ih =>
      intro encoded data bound pos after wrote there back
      rcases enc_array wrote with ⟨body, inner, rfl⟩
      rw [List.append_assoc] at there
      cases bound with
      | zero => cases back
      | succ bound =>
          rw [arrayHead_read floatText bound there] at back
          split at back
          · next few =>
              rcases bind_eq_ok.mp back with ⟨⟨found, next⟩, within, back⟩
              rcases Prod.mk.inj (Except.ok.inj back) with ⟨same, rfl⟩
              rw [JsValue.array.inj same] at within
              rcases readItems_telling ih inner (drop_part _ there) within with ⟨all, rfl⟩
              refine ⟨.array few all, ?_⟩
              rw [List.length_append, Nat.add_assoc]
          · cases back
  | @object fields distinct each ih =>
      intro encoded data bound pos after wrote there back
      rcases enc_object wrote with ⟨body, inner, rfl⟩
      rw [List.append_assoc] at there
      cases bound with
      | zero => cases back
      | succ bound =>
          rw [objectHead_read floatText bound there] at back
          split at back
          · next few =>
              rcases bind_eq_ok.mp back with ⟨⟨found, next⟩, within, back⟩
              rcases Prod.mk.inj (Except.ok.inj back) with ⟨same, rfl⟩
              have same := JsValue.object.inj same
              have size := readFields_length within
              have whole := (foldl_put_length [] found).2 (by rw [same, size]; simp)
              rw [same, List.nil_append] at whole
              rw [← whole] at within
              rcases readFields_telling ih inner (drop_part _ there) within with ⟨all, rfl⟩
              refine ⟨.object few (fun field inside => (all field inside).1)
                (fun field inside => (all field inside).2), ?_⟩
              rw [List.length_append, Nat.add_assoc]
          · cases back

/-! ## Torn encodings -/

variable (floatText bytes) in
/-- Where the encoding of a value is torn off, reading it fails or goes beyond
the end. -/
def Fragile (value : JsValue) : Prop :=
  forall {encoded torn : Bytes} {bound pos : Nat}, enc value = .ok encoded -> torn <+: encoded ->
    torn ≠ encoded -> bytes.drop pos = torn -> torn.length ≤ bound ->
      Beyond bytes (read floatText bytes bound (some pos))

/-- The end of the bytes is behind a position, or the position is no number. -/
def Past (bytes : Bytes) (pos : Position) : Prop := forall after, pos = some after -> bytes.length < after

theorem past_of_beyond {result : Read} {value : JsValue} {after : Position}
    (beyond : Beyond bytes result) (found : result = .ok (value, after)) : Past bytes after := by
  intro number same
  subst same
  exact beyond value number found

/-- Nothing is read past the end. -/
theorem read_past {pos : Position} (past : Past bytes pos) (bound : Nat) :
    ∃ failure, read floatText bytes bound pos = .error failure := by
  cases bound with
  | zero => exact ⟨.depth, rfl⟩
  | succ bound =>
      cases pos with
      | none => exact ⟨.unsupportedType none, rfl⟩
      | some number =>
          have none : bytes.drop number = [] := List.drop_eq_nil_of_le (Nat.le_of_lt (past number rfl))
          exact ⟨.truncatedMessagePack, read_end floatText bound none⟩

theorem readItems_past {count bound : Nat} {pos after : Position} {items : List JsValue}
    (past : Past bytes pos)
    (found : readItems (read floatText bytes bound) count pos = .ok (items, after)) :
    Past bytes after := by
  cases count with
  | zero =>
      cases found
      exact past
  | succ count =>
      rcases read_past past bound with ⟨failure, failed⟩
      rw [readItems, failed] at found
      cases found

theorem readFields_past {count bound : Nat} {pos after : Position}
    {fields : List (Text × JsValue)} (past : Past bytes pos)
    (found : readFields floatText (read floatText bytes bound) count pos = .ok (fields, after)) :
    Past bytes after := by
  cases count with
  | zero =>
      cases found
      exact past
  | succ count =>
      rcases read_past past bound with ⟨failure, failed⟩
      rw [readFields, failed] at found
      cases found

theorem readItems_torn {items : List JsValue}
    (exact_ : forall item, item ∈ items -> Exact floatText bytes item)
    (fragile : forall item, item ∈ items -> Fragile floatText bytes item) {body torn : Bytes}
    {bound pos : Nat} {after : Position} {found : List JsValue} (wrote : encItems items = .ok body)
    (starts : torn <+: body) (proper : torn ≠ body) (there : bytes.drop pos = torn)
    (enough : torn.length ≤ bound)
    (read_ : readItems (read floatText bytes bound) items.length (some pos) = .ok (found, after)) :
    Past bytes after := by
  induction items generalizing body torn pos found with
  | nil =>
      cases wrote
      exact absurd (List.prefix_nil.mp starts) proper
  | cons item rest ih =>
      rcases encItems_cons wrote with ⟨first, others, head, tail, rfl⟩
      rw [List.length_cons, readItems] at read_
      rcases bind_eq_ok.mp read_ with ⟨⟨value, next⟩, here, read_⟩
      rcases bind_eq_ok.mp read_ with ⟨⟨values, last⟩, later, read_⟩
      rcases Prod.mk.inj (Except.ok.inj read_) with ⟨-, rfl⟩
      rcases torn_append starts proper with ⟨within, cut⟩ | ⟨torn', rfl, within, cut⟩
      · have beyond := fragile item List.mem_cons_self head within cut there enough
        exact readItems_past (past_of_beyond beyond here) later
      · rw [List.length_append] at enough
        have whole := exact_ item List.mem_cons_self head there (show first.length ≤ bound by omega)
        rw [whole] at here
        rcases Prod.mk.inj (Except.ok.inj here) with ⟨-, rfl⟩
        exact ih (fun other inside => exact_ other (List.mem_cons_of_mem _ inside))
          (fun other inside => fragile other (List.mem_cons_of_mem _ inside)) tail within cut
          (drop_part first there) (by omega) later

theorem readFields_torn {fields : List (Text × JsValue)}
    (keys : forall field, field ∈ fields -> KeptText field.1)
    (exact_ : forall field, field ∈ fields -> Exact floatText bytes field.2)
    (fragile : forall field, field ∈ fields -> Fragile floatText bytes field.2) {body torn : Bytes}
    {bound pos : Nat} {after : Position} {found : List (Text × JsValue)}
    (wrote : encFields fields = .ok body) (starts : torn <+: body) (proper : torn ≠ body)
    (there : bytes.drop pos = torn) (enough : torn.length ≤ bound)
    (read_ : readFields floatText (read floatText bytes bound) fields.length (some pos) =
      .ok (found, after)) :
    Past bytes after := by
  induction fields generalizing body torn pos found with
  | nil =>
      cases wrote
      exact absurd (List.prefix_nil.mp starts) proper
  | cons field rest ih =>
      rcases field with ⟨key, value⟩
      rcases encFields_cons wrote with ⟨first, others, head, tail, rfl⟩
      rw [List.length_cons, readFields] at read_
      rcases bind_eq_ok.mp read_ with ⟨⟨name, next⟩, named, read_⟩
      rcases bind_eq_ok.mp read_ with ⟨⟨item, last⟩, here, read_⟩
      rcases bind_eq_ok.mp read_ with ⟨text, -, read_⟩
      rcases bind_eq_ok.mp read_ with ⟨⟨values, final⟩, later, read_⟩
      rcases Prod.mk.inj (Except.ok.inj read_) with ⟨-, rfl⟩
      cases bound with
      | zero => cases named
      | succ bound =>
      have kept := keys (key, value) List.mem_cons_self
      rcases torn_append starts proper with ⟨within, cut⟩ | ⟨torn', rfl, within, cut⟩
      · have beyond := string_torn floatText bound kept.short within cut there
        rcases read_past (past_of_beyond beyond named) (bound + 1) with ⟨failure, failed⟩
        rw [failed] at here
        cases here
      · rw [string_read floatText bound kept.short there] at named
        rcases Prod.mk.inj (Except.ok.inj named) with ⟨-, rfl⟩
        rw [List.length_append] at enough
        rcases torn_append within cut with ⟨inside, missing⟩ | ⟨torn'', rfl, inside, missing⟩
        · have beyond := fragile (key, value) List.mem_cons_self head inside missing
            (drop_part _ there) (show torn'.length ≤ bound + 1 by omega)
          exact readFields_past (past_of_beyond beyond here) later
        · rw [List.length_append] at enough
          have whole := exact_ (key, value) List.mem_cons_self head (drop_part _ there)
            (show first.length ≤ bound + 1 by omega)
          rw [whole] at here
          rcases Prod.mk.inj (Except.ok.inj here) with ⟨-, rfl⟩
          exact ih (fun other among => keys other (List.mem_cons_of_mem _ among))
            (fun other among => exact_ other (List.mem_cons_of_mem _ among))
            (fun other among => fragile other (List.mem_cons_of_mem _ among)) tail inside missing
            (drop_part _ (drop_part _ there)) (by omega) later

/-- A single byte is torn only when it is missing. -/
theorem byte_torn {b : UInt8} {torn : Bytes} {bound pos : Nat} (starts : torn <+: [b])
    (proper : torn ≠ [b]) (there : bytes.drop pos = torn) :
    Beyond bytes (read floatText bytes (bound + 1) (some pos)) := by
  rcases torn_cons starts proper with rfl | ⟨later, -, short⟩
  · exact beyond_end floatText bound there
  · simp at short

theorem fragile_of_kept {value : JsValue} (plain : Plain value) (kept : Kept value) :
    Fragile floatText bytes value := by
  induction plain with
  | null =>
      intro encoded torn bound pos wrote starts proper there enough
      cases wrote
      cases bound with
      | zero => exact .error bytes .depth
      | succ bound => exact byte_torn starts proper there
  | bool value =>
      intro encoded torn bound pos wrote starts proper there enough
      cases wrote
      cases bound with
      | zero => exact .error bytes .depth
      | succ bound => exact byte_torn starts proper there
  | @integer value safe =>
      intro encoded torn bound pos wrote starts proper there enough
      rw [enc] at wrote
      cases bound with
      | zero => exact .error bytes .depth
      | succ bound => exact integer_torn floatText bound wrote starts proper there
  | string value =>
      intro encoded torn bound pos wrote starts proper there enough
      cases wrote
      cases kept with
      | string kept =>
          cases bound with
          | zero => exact .error bytes .depth
          | succ bound => exact string_torn floatText bound kept.short starts proper there
  | bytes value =>
      intro encoded torn bound pos wrote starts proper there enough
      cases wrote
      cases kept with
      | bytes short =>
          cases bound with
          | zero => exact .error bytes .depth
          | succ bound => exact bytes_torn floatText bound short starts proper there
  | @array items each ih =>
      intro encoded torn bound pos wrote starts proper there enough
      rcases enc_array wrote with ⟨body, inner, rfl⟩
      cases kept with
      | array few all =>
      cases bound with
      | zero => exact .error bytes .depth
      | succ bound =>
      rcases torn_append starts proper with ⟨within, cut⟩ | ⟨torn', rfl, within, cut⟩
      · apply collectionHead_torn floatText bound within cut few there
        intro later there
        exact ⟨_, read_byte floatText bound there⟩
      · have headed := List.length_pos_of_ne_nil (collectionHead_ne_nil 0x90 0xdc 0xdd items.length)
        have room : torn'.length ≤ bound := by
          rw [List.length_append] at enough
          unfold arrayHead at enough
          omega
        intro value after found
        rw [arrayHead_read floatText bound there, if_pos few] at found
        rcases bind_eq_ok.mp found with ⟨⟨values, last⟩, inside, found⟩
        rcases Prod.mk.inj (Except.ok.inj found) with ⟨-, rfl⟩
        exact readItems_torn (fun item among => exact_of_kept (each item among) (all item among))
          (fun item among => ih item among (all item among)) inner within cut
          (drop_part _ there) room inside after rfl
  | @object fields distinct each ih =>
      intro encoded torn bound pos wrote starts proper there enough
      rcases enc_object wrote with ⟨body, inner, rfl⟩
      cases kept with
      | object few keys all =>
      cases bound with
      | zero => exact .error bytes .depth
      | succ bound =>
      rcases torn_append starts proper with ⟨within, cut⟩ | ⟨torn', rfl, within, cut⟩
      · apply collectionHead_torn floatText bound within cut few there
        intro later there
        exact ⟨_, read_byte floatText bound there⟩
      · have headed := List.length_pos_of_ne_nil (collectionHead_ne_nil 0x80 0xde 0xdf fields.length)
        have room : torn'.length ≤ bound := by
          rw [List.length_append] at enough
          unfold objectHead at enough
          omega
        intro value after found
        rw [objectHead_read floatText bound there, if_pos few] at found
        rcases bind_eq_ok.mp found with ⟨⟨values, last⟩, inside, found⟩
        rcases Prod.mk.inj (Except.ok.inj found) with ⟨-, rfl⟩
        exact readFields_torn keys
          (fun field among => exact_of_kept (each field among) (all field among))
          (fun field among => ih field among (all field among)) inner within cut
          (drop_part _ there) room inside after rfl

end

end MsgPack

end TealDrive
