import TealDrive.Wire.BrowserFrame

namespace TealDrive

open BigEndian Outcome Splice

/-!
# Both ends agree on the wire format

A header is nine fields one behind the other.  The server writes them, and so
does the browser, which leaves flags, compression and the reserved byte zero;
both read them where they were written.  Hence decoding and encoding are
inverse to each other, and each end reads what the other wrote.
-/

/-! ## The fields of a header -/

/-- The nine fields, one behind the other. -/
def headerBytes (magic : Bytes) (version : UInt8) (flags messageType : Bytes)
    (compression encoding reserved : UInt8) (requestId payloadLength : Bytes) : Bytes :=
  magic ++ ([version] ++ (flags ++ (messageType ++ ([compression] ++ ([encoding] ++ ([reserved] ++
    (requestId ++ payloadLength)))))))

theorem slice_here {field rest : Bytes} {size : Nat} (sized : field.length = size) :
    slice (field ++ rest) 0 size = field := by
  rw [← sized]
  exact List.take_left

theorem slice_skip {field rest : Bytes} {size : Nat} (sized : field.length = size)
    (offset len : Nat) : slice (field ++ rest) (size + offset) len = slice rest offset len := by
  unfold slice
  rw [← sized, List.drop_length_add_append]

theorem byteAt_here (byte : UInt8) (rest : Bytes) : byteAt ([byte] ++ rest) 0 = byte := rfl

theorem byteAt_skip {field rest : Bytes} {size : Nat} (sized : field.length = size) (offset : Nat) :
    byteAt (field ++ rest) (size + offset) = byteAt rest offset := by
  unfold byteAt
  rw [← sized, List.drop_length_add_append]

/-- Neighbouring slices are one slice. -/
theorem slice_join (bytes : Bytes) (offset first second : Nat) :
    slice bytes offset first ++ slice bytes (offset + first) second =
      slice bytes offset (first + second) := by
  unfold slice
  rw [List.take_add, List.drop_drop]

theorem slice_byte {bytes : Bytes} {offset : Nat} (inside : offset < bytes.length) :
    [byteAt bytes offset] = slice bytes offset 1 := by
  unfold byteAt slice
  rw [List.drop_eq_getElem_cons inside]
  rfl

section

variable {magic flags messageType requestId payloadLength : Bytes}
  {version compression encoding reserved : UInt8}

/-- The sizes of the fields that are longer than a byte. -/
structure Sized (magic flags messageType requestId payloadLength : Bytes) : Prop where
  magic : magic.length = 4
  flags : flags.length = 2
  messageType : messageType.length = 2
  requestId : requestId.length = 16
  payloadLength : payloadLength.length = 4

theorem headerBytes_length (sized : Sized magic flags messageType requestId payloadLength) :
    (headerBytes magic version flags messageType compression encoding reserved requestId
      payloadLength).length = headerLen := by
  simp [headerBytes, sized.magic, sized.flags, sized.messageType, sized.requestId,
    sized.payloadLength, headerLen]

/-- Every field is found at its offset, whatever follows the header. -/
structure Fields (bytes magic : Bytes) (version : UInt8) (flags messageType : Bytes)
    (compression encoding reserved : UInt8) (requestId payloadLength : Bytes) : Prop where
  magic : slice bytes 0 4 = magic
  version : byteAt bytes 4 = version
  flags : slice bytes 5 2 = flags
  messageType : slice bytes 7 2 = messageType
  compression : byteAt bytes 9 = compression
  encoding : byteAt bytes 10 = encoding
  reserved : byteAt bytes 11 = reserved
  requestId : slice bytes 12 16 = requestId
  payloadLength : slice bytes 28 4 = payloadLength

theorem fields_of_header (sized : Sized magic flags messageType requestId payloadLength)
    (rest : Bytes) :
    Fields (headerBytes magic version flags messageType compression encoding reserved requestId
        payloadLength ++ rest)
      magic version flags messageType compression encoding reserved requestId payloadLength := by
  have one : forall byte : UInt8, [byte].length = 1 := fun _ => rfl
  unfold headerBytes
  simp only [List.append_assoc]
  constructor
  · exact slice_here sized.magic
  · show byteAt _ (4 + 0) = _
    rw [byteAt_skip sized.magic, byteAt_here]
  · show slice _ (4 + (1 + 0)) 2 = _
    rw [slice_skip sized.magic, slice_skip (one _), slice_here sized.flags]
  · show slice _ (4 + (1 + (2 + 0))) 2 = _
    rw [slice_skip sized.magic, slice_skip (one _), slice_skip sized.flags,
      slice_here sized.messageType]
  · show byteAt _ (4 + (1 + (2 + (2 + 0)))) = _
    rw [byteAt_skip sized.magic, byteAt_skip (one _), byteAt_skip sized.flags,
      byteAt_skip sized.messageType, byteAt_here]
  · show byteAt _ (4 + (1 + (2 + (2 + (1 + 0))))) = _
    rw [byteAt_skip sized.magic, byteAt_skip (one _), byteAt_skip sized.flags,
      byteAt_skip sized.messageType, byteAt_skip (one _), byteAt_here]
  · show byteAt _ (4 + (1 + (2 + (2 + (1 + (1 + 0)))))) = _
    rw [byteAt_skip sized.magic, byteAt_skip (one _), byteAt_skip sized.flags,
      byteAt_skip sized.messageType, byteAt_skip (one _), byteAt_skip (one _), byteAt_here]
  · show slice _ (4 + (1 + (2 + (2 + (1 + (1 + (1 + 0))))))) 16 = _
    rw [slice_skip sized.magic, slice_skip (one _), slice_skip sized.flags,
      slice_skip sized.messageType, slice_skip (one _), slice_skip (one _), slice_skip (one _),
      slice_here sized.requestId]
  · show slice _ (4 + (1 + (2 + (2 + (1 + (1 + (1 + (16 + 0)))))))) 4 = _
    rw [slice_skip sized.magic, slice_skip (one _), slice_skip sized.flags,
      slice_skip sized.messageType, slice_skip (one _), slice_skip (one _), slice_skip (one _),
      slice_skip sized.requestId, slice_here sized.payloadLength]

end

/-- The first 32 bytes are the fields that are read from them. -/
theorem headerBytes_of_bytes {bytes : Bytes} (long : headerLen ≤ bytes.length) :
    headerBytes (slice bytes 0 4) (byteAt bytes 4) (slice bytes 5 2) (slice bytes 7 2)
      (byteAt bytes 9) (byteAt bytes 10) (byteAt bytes 11) (slice bytes 12 16) (slice bytes 28 4) =
      bytes.take headerLen := by
  have inside : forall offset, offset < 32 -> offset < bytes.length :=
    fun offset small => Nat.lt_of_lt_of_le small long
  unfold headerBytes
  rw [slice_byte (inside 4 (by decide)), slice_byte (inside 9 (by decide)),
    slice_byte (inside 10 (by decide)), slice_byte (inside 11 (by decide)),
    slice_join bytes 12, slice_join bytes 11, slice_join bytes 10, slice_join bytes 9,
    slice_join bytes 7, slice_join bytes 5, slice_join bytes 4, slice_join bytes 0]
  rfl

/-! ## Writing the fields -/

/-- A field written into zeros, behind a gap that stays zero. -/
theorem writeAt_gap (front field : Bytes) (gap rest : Nat) {offset total : Nat}
    (place : offset = front.length + gap) (room : total = gap + field.length + rest) :
    writeAt (front ++ List.replicate total 0) offset field =
      front ++ List.replicate gap 0 ++ field ++ List.replicate rest 0 :=
  overwrite_filler place room

/-- A field written right behind the others. -/
theorem writeAt_next (front field : Bytes) (rest : Nat) {offset total : Nat}
    (place : offset = front.length) (room : total = field.length + rest) :
    writeAt (front ++ List.replicate total 0) offset field =
      front ++ field ++ List.replicate rest 0 := by
  rw [writeAt_gap front field 0 rest place (by rw [Nat.zero_add]; exact room)]
  simp

theorem sized_of_header (header : TdrvHeader) :
    Sized header.magic.val (toBytes 2 header.flags.bits) (toBytes 2 header.messageType.code)
      header.requestId.val (toBytes 4 header.payloadLen.toNat) where
  magic := header.magic.property
  flags := length_toBytes 2 _
  messageType := length_toBytes 2 _
  requestId := header.requestId.property
  payloadLength := length_toBytes 4 _

/-- What the server writes. -/
theorem TdrvHeader.encode_eq (header : TdrvHeader) :
    header.encode =
      headerBytes header.magic.val header.version (toBytes 2 header.flags.bits)
        (toBytes 2 header.messageType.code) header.compression.code header.encoding.code
        header.reserved header.requestId.val (toBytes 4 header.payloadLen.toNat) := by
  have magic := header.magic.property
  have requestId := header.requestId.property
  unfold TdrvHeader.encode
  have first : writeAt (List.replicate 32 0) 0 header.magic.val =
      header.magic.val ++ List.replicate 28 0 := by
    exact writeAt_next [] header.magic.val 28 rfl (by rw [magic])
  show writeAt (writeAt (writeAt (writeAt (writeAt (writeAt (writeAt (writeAt (writeAt
    (List.replicate 32 0) 0 _) 4 _) 5 _) 7 _) 9 _) 10 _) 11 _) 12 _) 28 _ = _
  rw [first, writeAt_next _ [header.version] 27, writeAt_next _ (toBytes 2 header.flags.bits) 25,
    writeAt_next _ (toBytes 2 header.messageType.code) 23,
    writeAt_next _ [header.compression.code] 22, writeAt_next _ [header.encoding.code] 21,
    writeAt_next _ [header.reserved] 20, writeAt_next _ header.requestId.val 4,
    writeAt_next _ (toBytes 4 header.payloadLen.toNat) 0]
  · simp [headerBytes]
  all_goals simp [magic, requestId]

theorem TdrvHeader.encode_length (header : TdrvHeader) : header.encode.length = headerLen := by
  rw [TdrvHeader.encode_eq, headerBytes_length (sized_of_header header)]

theorem fields_of_encode (header : TdrvHeader) (rest : Bytes) :
    Fields (header.encode ++ rest) header.magic.val header.version (toBytes 2 header.flags.bits)
      (toBytes 2 header.messageType.code) header.compression.code header.encoding.code
      header.reserved header.requestId.val (toBytes 4 header.payloadLen.toNat) := by
  rw [TdrvHeader.encode_eq]
  exact fields_of_header (sized_of_header header) rest

/-- What the browser writes is what the server would. -/
theorem encodeFrame_eq_ok_iff {requests : Nat -> List Text} {messageType : MessageType}
    {payload : FramePayload} {id : JsValue} {frame : Bytes} :
    encodeFrame requests messageType.code payload id = .ok frame ↔
      ∃ bytes requestId, payloadBytes requests messageType.code payload = .ok bytes ∧
        uuidBytes id = .ok requestId ∧
        frame = headerBytes tdrvMagic.val tdrvVersion (toBytes 2 TdrvFlags.empty.bits)
          (toBytes 2 messageType.code) Compression.none.code payload.encoding.code 0
          requestId.val (toBytes 4 bytes.length) ++ bytes := by
  have same : forall (bytes : Bytes) (requestId : RequestId),
      writeAt (writeAt (writeAt (writeAt (writeAt (writeAt (writeAt
        (List.replicate (headerLen + bytes.length) 0) 0 [84, 68, 82, 86]) versionOffset [1])
        messageTypeOffset (toBytes 2 messageType.code)) encodingOffset [payload.encoding.code])
        requestIdOffset requestId.val) payloadLengthOffset (toBytes 4 bytes.length))
        headerLen bytes =
      headerBytes tdrvMagic.val tdrvVersion (toBytes 2 TdrvFlags.empty.bits)
        (toBytes 2 messageType.code) Compression.none.code payload.encoding.code 0
        requestId.val (toBytes 4 bytes.length) ++ bytes := by
    intro bytes requestId
    have sixteen := requestId.property
    have first : writeAt (List.replicate (headerLen + bytes.length) 0) 0 [84, 68, 82, 86] =
        [84, 68, 82, 86] ++ List.replicate (28 + bytes.length) 0 := by
      exact writeAt_next [] _ (28 + bytes.length) rfl (by simp [headerLen]; omega)
    have noFlags : toBytes 2 TdrvFlags.empty.bits = [0, 0] := rfl
    rw [first, writeAt_next _ [1] (27 + bytes.length),
      writeAt_gap _ (toBytes 2 messageType.code) 2 (23 + bytes.length),
      writeAt_gap _ [payload.encoding.code] 1 (21 + bytes.length),
      writeAt_gap _ requestId.val 1 (4 + bytes.length),
      writeAt_next _ (toBytes 4 bytes.length) bytes.length, writeAt_next _ bytes 0]
    · simp [headerBytes, tdrvMagic, tdrvVersion, noFlags, Compression.code]
    all_goals
      simp [sixteen, versionOffset, messageTypeOffset, encodingOffset, requestIdOffset,
        payloadLengthOffset, headerLen]
    all_goals omega
  unfold encodeFrame
  rw [bind_eq_ok]
  constructor
  · rintro ⟨bytes, sent, rest⟩
    rcases bind_eq_ok.mp rest with ⟨requestId, named, rest⟩
    refine ⟨bytes, requestId, sent, named, ?_⟩
    rw [← same bytes requestId]
    exact (Except.ok.inj rest).symm
  · rintro ⟨bytes, requestId, sent, named, whole⟩
    refine ⟨bytes, sent, bind_eq_ok.mpr ⟨requestId, named, ?_⟩⟩
    rw [whole, ← same bytes requestId]

/-! ## Codes -/

@[simp] theorem TdrvFlags.fromBits_bits (flags : TdrvFlags) :
    TdrvFlags.fromBits flags.bits = .ok flags := by
  rcases flags with ⟨error, stream, finalFrame, ackRequired, compressed⟩
  cases error <;> cases stream <;> cases finalFrame <;> cases ackRequired <;> cases compressed <;> rfl

theorem TdrvFlags.bits_lt (flags : TdrvFlags) : flags.bits < 256 ^ 2 := by
  rcases flags with ⟨error, stream, finalFrame, ackRequired, compressed⟩
  cases error <;> cases stream <;> cases finalFrame <;> cases ackRequired <;> cases compressed <;>
    decide

/-- A number of 16 bits without unknown flags has only the five lowest. -/
theorem known_flags_lt {bits : Nat} (wide : bits < 256 ^ 2)
    (known : bits &&& (0xffff ^^^ knownFlagsMask) = 0) : bits < 32 := by
  have mask : forall index : Fin 16, 5 ≤ index.val ->
      Nat.testBit (0xffff ^^^ knownFlagsMask) index.val = true := by decide
  apply Nat.lt_pow_two_of_testBit (n := 5)
  intro index high
  by_cases inside : index < 16
  · have both := congrArg (fun number => Nat.testBit number index) known
    simp only [Nat.testBit_and, Nat.zero_testBit, mask ⟨index, inside⟩ high, Bool.and_true] at both
    exact both
  · apply Nat.testBit_lt_two_pow
    calc
      bits < 2 ^ 16 := wide
      _ ≤ 2 ^ index := Nat.pow_le_pow_right (by decide) (Nat.le_of_not_lt inside)

theorem TdrvFlags.bits_of_fromBits {bits : Nat} {flags : TdrvFlags} (wide : bits < 256 ^ 2)
    (read : TdrvFlags.fromBits bits = .ok flags) : flags.bits = bits := by
  have small : bits < 32 := by
    apply known_flags_lt wide
    unfold TdrvFlags.fromBits at read
    split at read
    · cases read
    · next known => simpa using known
  have all : forall bits : Fin 32, (TdrvFlags.fromBits bits.val).toOption.map TdrvFlags.bits =
      some bits.val := by decide
  have here := all ⟨bits, small⟩
  rw [read] at here
  exact Option.some.inj here

@[simp] theorem MessageType.tryFrom_code (messageType : MessageType) :
    MessageType.tryFrom messageType.code = .ok messageType := by
  cases messageType <;> rfl

theorem MessageType.code_lt (messageType : MessageType) : messageType.code < 256 ^ 2 := by
  cases messageType <;> decide

theorem MessageType.code_of_tryFrom {value : Nat} {messageType : MessageType}
    (read : MessageType.tryFrom value = .ok messageType) : messageType.code = value := by
  unfold MessageType.tryFrom at read
  split at read
  all_goals
    cases read
    try rfl

@[simp] theorem Compression.tryFrom_code (compression : Compression) :
    Compression.tryFrom compression.code = .ok compression := by
  cases compression <;> rfl

theorem Compression.code_of_tryFrom {value : UInt8} {compression : Compression}
    (read : Compression.tryFrom value = .ok compression) : compression.code = value := by
  unfold Compression.tryFrom at read
  split at read
  all_goals
    cases read
    try rfl

@[simp] theorem Encoding.tryFrom_code (encoding : Encoding) :
    Encoding.tryFrom encoding.code = .ok encoding := by
  cases encoding <;> rfl

theorem Encoding.code_of_tryFrom {value : UInt8} {encoding : Encoding}
    (read : Encoding.tryFrom value = .ok encoding) : encoding.code = value := by
  unfold Encoding.tryFrom at read
  split at read
  all_goals
    cases read
    try rfl

/-! ## Decoding and encoding are inverse -/

/-- The rules the decoder checks across the fields of a header. -/
structure TdrvHeader.Consistent (header : TdrvHeader) : Prop where
  magic : header.magic = tdrvMagic
  version : header.version = tdrvVersion
  supported : header.compression.isV1Supported = true
  reserved : header.reserved = 0
  flags : header.flags.compressed = (header.compression != .none)
  encoding : validateEncodingForMessage header.messageType header.encoding = .ok ()
  small : header.payloadLen.toNat ≤ maxFramePayload

theorem fixedSlice_eq {bytes : Bytes} {offset size : Nat} {field : FixedBytes size}
    (found : slice bytes offset size = field.val) : fixedSlice bytes offset size = field := by
  apply Subtype.ext
  show (slice bytes offset size ++ List.replicate size 0).take size = field.val
  rw [found]
  exact List.take_left' field.property

theorem slice_length {bytes : Bytes} {offset size : Nat} (inside : offset + size ≤ bytes.length) :
    (slice bytes offset size).length = size := by
  unfold slice
  rw [List.length_take, List.length_drop]
  omega

theorem fixedSlice_val {bytes : Bytes} {offset size : Nat} (inside : offset + size ≤ bytes.length) :
    (fixedSlice bytes offset size).val = slice bytes offset size := by
  show (slice bytes offset size ++ List.replicate size 0).take size = slice bytes offset size
  exact List.take_left' (slice_length inside)

/-- A header is decoded from its own encoding and from nothing else. -/
theorem TdrvHeader.decode_eq_ok_iff {bytes : Bytes} {header : TdrvHeader} :
    TdrvHeader.decode bytes = .ok header ↔ bytes = header.encode ∧ header.Consistent := by
  constructor
  · intro decoded
    unfold TdrvHeader.decode at decoded
    simp only [bind_eq_ok, refuse_eq_ok, pure_eq_ok] at decoded
    rcases decoded with ⟨-, sized, -, magic, -, version, flags, flagged, messageType, typed,
      compression, compressed, -, supported, encoding, encoded, -, reserved, -, matching, done, valid,
      -, small, rfl⟩
    have length : bytes.length = 32 := by simpa [headerLen] using sized
    have payloadLen : (UInt32.ofNat (ofBytes (slice bytes 28 4))).toNat = ofBytes (slice bytes 28 4) := by
      have few := ofBytes_lt (slice bytes 28 4)
      rw [slice_length (by omega)] at few
      rw [UInt32.toNat_ofNat']
      exact Nat.mod_eq_of_lt few
    have wide := ofBytes_lt (slice bytes 5 2)
    rw [slice_length (by omega)] at wide
    constructor
    · rw [TdrvHeader.encode_eq]
      simp only [TdrvFlags.bits_of_fromBits wide flagged, MessageType.code_of_tryFrom typed,
        Compression.code_of_tryFrom compressed, Encoding.code_of_tryFrom encoded, payloadLen]
      rw [toBytes_ofBytes_of_length (slice_length (by omega)),
        toBytes_ofBytes_of_length (slice_length (by omega)),
        toBytes_ofBytes_of_length (slice_length (by omega)),
        fixedSlice_val (by omega), fixedSlice_val (by omega),
        headerBytes_of_bytes (Nat.le_of_eq length.symm)]
      exact (List.take_of_length_le (Nat.le_of_eq length)).symm
    · exact {
        magic := by simpa using magic
        version := by simpa using version
        supported := by simpa using supported
        reserved := by simpa using reserved
        flags := by simpa using matching
        encoding := valid
        small := Nat.le_of_not_lt (of_decide_eq_false small) }
  · rintro ⟨whole, consistent⟩
    rw [whole]
    have length := header.encode_length
    have fields := fields_of_encode header []
    rw [List.append_nil] at fields
    have flags : ofBytes (slice header.encode 5 2) = header.flags.bits := by
      rw [fields.flags, ofBytes_toBytes_of_lt header.flags.bits_lt]
    have messageType : ofBytes (slice header.encode 7 2) = header.messageType.code := by
      rw [fields.messageType, ofBytes_toBytes_of_lt header.messageType.code_lt]
    have payloadLen : UInt32.ofNat (ofBytes (slice header.encode 28 4)) = header.payloadLen := by
      rw [fields.payloadLength, ofBytes_toBytes_of_lt header.payloadLen.toNat_lt]
      exact UInt32.ofNat_toNat
    unfold TdrvHeader.decode
    simp only [bind_eq_ok, refuse_eq_ok, pure_eq_ok]
    refine ⟨⟨⟩, by simp [length], ⟨⟩, ?_, ⟨⟩, ?_, header.flags, ?_, header.messageType, ?_,
      header.compression, ?_, ⟨⟩, ?_, header.encoding, ?_, ⟨⟩, ?_, ⟨⟩, ?_, ⟨⟩, consistent.encoding,
      ⟨⟩, ?_, ?_⟩
    · rw [fixedSlice_eq fields.magic, consistent.magic]
      simp
    · rw [fields.version, consistent.version]
      simp
    · rw [flags, TdrvFlags.fromBits_bits]
    · rw [messageType, MessageType.tryFrom_code]
    · rw [fields.compression, Compression.tryFrom_code]
    · simp [consistent.supported]
    · rw [fields.encoding, Encoding.tryFrom_code]
    · rw [fields.reserved, consistent.reserved]
      rfl
    · simp [consistent.flags]
    · rw [payloadLen]
      exact decide_eq_false (Nat.not_lt.mpr consistent.small)
    · rw [payloadLen, fixedSlice_eq fields.magic, fields.version, fields.reserved,
        fixedSlice_eq fields.requestId]

end TealDrive
