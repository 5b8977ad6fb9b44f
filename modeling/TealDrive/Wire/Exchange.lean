import TealDrive.Wire.Agreement

namespace TealDrive

open BigEndian Outcome Splice

/-!
# Frames and chunks from one end to the other

What a decoder accepts is the encoding of what it returns, and nothing else is,
so round trips and the agreement of the two ends follow from what each of them
writes.
-/

/-- A frame is decoded from its own encoding and from nothing else. -/
theorem TdrvFrame.decode_eq_ok_iff {bytes : Bytes} {frame : TdrvFrame} :
    TdrvFrame.decode bytes = .ok frame ↔
      frame.header.Consistent ∧ frame.header.payloadLen.toNat = frame.payload.length ∧
        bytes = frame.header.encode ++ frame.payload := by
  unfold TdrvFrame.decode
  simp only [bind_eq_ok, refuse_eq_ok, pure_eq_ok, TdrvHeader.decode_eq_ok_iff]
  constructor
  · rintro ⟨-, -, header, ⟨whole, consistent⟩, -, matches_, -, -, rfl⟩
    refine ⟨consistent, by simpa using matches_, ?_⟩
    rw [← whole]
    exact (List.take_append_drop headerLen bytes).symm
  · rintro ⟨consistent, matches_, whole⟩
    have front : bytes.take headerLen = frame.header.encode := by
      rw [whole]
      exact List.take_left' frame.header.encode_length
    have back : bytes.drop headerLen = frame.payload := by
      rw [whole]
      exact List.drop_left' frame.header.encode_length
    have long : ¬ bytes.length < headerLen := by
      rw [whole, List.length_append, frame.header.encode_length]
      omega
    have small : ¬ maxFramePayload < frame.payload.length := by
      rw [← matches_]
      exact Nat.not_lt.mpr consistent.small
    refine ⟨⟨⟩, decide_eq_false long, frame.header, ⟨front, consistent⟩, ⟨⟩, ?_, ⟨⟩, ?_, ?_⟩
    · rw [back, matches_]
      simp
    · rw [back]
      exact decide_eq_false small
    · rw [back]

theorem TdrvFrame.encode_eq_ok_iff {bytes : Bytes} {frame : TdrvFrame} :
    frame.encode = .ok bytes ↔
      frame.payload.length ≤ maxFramePayload ∧
        frame.header.payloadLen.toNat = frame.payload.length ∧
        bytes = frame.header.encode ++ frame.payload := by
  unfold TdrvFrame.encode
  simp only [bind_eq_ok, refuse_eq_ok, pure_eq_ok]
  constructor
  · rintro ⟨-, small, -, matches_, rfl⟩
    exact ⟨Nat.le_of_not_lt (of_decide_eq_false small), by simpa using matches_, rfl⟩
  · rintro ⟨small, matches_, whole⟩
    exact ⟨⟨⟩, decide_eq_false (Nat.not_lt.mpr small), ⟨⟩, by simpa using matches_, whole.symm⟩

/-! ## Chunks -/

/-- The fields of a chunk, one behind the other. -/
def chunkLayout (transferId index offset len data : Bytes) : Bytes :=
  transferId ++ (index ++ (offset ++ (len ++ data)))

section

variable {transferId index offset len : Bytes} (data : Bytes)

structure ChunkSized (transferId index offset len : Bytes) : Prop where
  transferId : transferId.length = 16
  index : index.length = 4
  offset : offset.length = 8
  len : len.length = 4

theorem chunkLayout_length (sized : ChunkSized transferId index offset len) :
    (chunkLayout transferId index offset len data).length = 32 + data.length := by
  simp [chunkLayout, sized.transferId, sized.index, sized.offset, sized.len]
  omega

theorem chunkLayout_fields (sized : ChunkSized transferId index offset len) :
    let bytes := chunkLayout transferId index offset len data
    slice bytes 0 16 = transferId ∧ slice bytes 16 4 = index ∧ slice bytes 20 8 = offset ∧
      slice bytes 28 4 = len ∧ bytes.drop 32 = data := by
  intro bytes
  refine ⟨slice_here sized.transferId, ?_, ?_, ?_, ?_⟩
  · show slice bytes (16 + 0) 4 = index
    exact (slice_skip sized.transferId 0 4).trans (slice_here sized.index)
  · show slice bytes (16 + (4 + 0)) 8 = offset
    exact (slice_skip sized.transferId _ 8).trans
      ((slice_skip sized.index 0 8).trans (slice_here sized.offset))
  · show slice bytes (16 + (4 + (8 + 0))) 4 = len
    exact (slice_skip sized.transferId _ 4).trans
      ((slice_skip sized.index _ 4).trans
        ((slice_skip sized.offset 0 4).trans (slice_here sized.len)))
  · have front : bytes = (transferId ++ index ++ offset ++ len) ++ data := by
      simp [bytes, chunkLayout]
    rw [front]
    apply List.drop_left'
    simp [sized.transferId, sized.index, sized.offset, sized.len]

end

theorem slice_drop (bytes : Bytes) (offset len : Nat) :
    slice bytes offset len ++ bytes.drop (offset + len) = bytes.drop offset := by
  rw [← List.drop_drop]
  exact List.take_append_drop len (bytes.drop offset)

theorem chunkLayout_of_bytes {bytes : Bytes} :
    chunkLayout (slice bytes 0 16) (slice bytes 16 4) (slice bytes 20 8) (slice bytes 28 4)
      (bytes.drop 32) = bytes := by
  unfold chunkLayout
  rw [slice_drop bytes 28 4, slice_drop bytes 20 8, slice_drop bytes 16 4]
  exact List.take_append_drop 16 bytes

namespace Wire

theorem RawChunk.sized (chunk : RawChunk) :
    ChunkSized chunk.transferId.val (toBytes 4 chunk.chunkIndex.toNat)
      (toBytes 8 chunk.offset.toNat) (toBytes 4 chunk.chunkBytes.length) where
  transferId := chunk.transferId.property
  index := length_toBytes 4 _
  offset := length_toBytes 8 _
  len := length_toBytes 4 _

theorem RawChunk.encode_eq_ok_iff {bytes : Bytes} {chunk : RawChunk} :
    chunk.encode = .ok bytes ↔
      chunk.chunkBytes.length ≤ maxChunkSize ∧
        bytes = chunkLayout chunk.transferId.val (toBytes 4 chunk.chunkIndex.toNat)
          (toBytes 8 chunk.offset.toNat) (toBytes 4 chunk.chunkBytes.length) chunk.chunkBytes := by
  unfold RawChunk.encode chunkLayout
  simp only [bind_eq_ok, refuse_eq_ok, pure_eq_ok, List.append_assoc]
  constructor
  · rintro ⟨-, small, rfl⟩
    exact ⟨Nat.le_of_not_lt (of_decide_eq_false small), rfl⟩
  · rintro ⟨small, whole⟩
    exact ⟨⟨⟩, decide_eq_false (Nat.not_lt.mpr small), whole.symm⟩

/-- A chunk is decoded from its own encoding and from nothing else. -/
theorem RawChunk.decode_eq_ok_iff {bytes : Bytes} {chunk : RawChunk} :
    RawChunk.decode bytes = .ok chunk ↔ chunk.encode = .ok bytes := by
  rw [RawChunk.encode_eq_ok_iff]
  constructor
  · intro decoded
    unfold RawChunk.decode at decoded
    simp only [bind_eq_ok, refuse_eq_ok, pure_eq_ok] at decoded
    rcases decoded with ⟨-, long, -, small, -, exactly, rfl⟩
    have long : 32 ≤ bytes.length := Nat.le_of_not_lt (of_decide_eq_false long)
    have small := Nat.le_of_not_lt (of_decide_eq_false small)
    have exactly : bytes.length - 32 = ofBytes (slice bytes 28 4) := by
      simpa [rawChunkHeaderLen] using exactly
    have data : (bytes.drop rawChunkHeaderLen).length = ofBytes (slice bytes 28 4) := by
      rw [List.length_drop]
      exact exactly
    have index : (UInt32.ofNat (ofBytes (slice bytes 16 4))).toNat = ofBytes (slice bytes 16 4) := by
      have few := ofBytes_lt (slice bytes 16 4)
      rw [slice_length (by omega)] at few
      rw [UInt32.toNat_ofNat']
      exact Nat.mod_eq_of_lt few
    have offset : (UInt64.ofNat (ofBytes (slice bytes 20 8))).toNat = ofBytes (slice bytes 20 8) := by
      have few := ofBytes_lt (slice bytes 20 8)
      rw [slice_length (by omega)] at few
      rw [UInt64.toNat_ofNat']
      exact Nat.mod_eq_of_lt few
    constructor
    · show (bytes.drop rawChunkHeaderLen).length ≤ maxChunkSize
      rw [data]
      exact small
    · show bytes = chunkLayout (fixedSlice bytes 0 16).val (toBytes 4 _) (toBytes 8 _)
        (toBytes 4 (bytes.drop rawChunkHeaderLen).length) (bytes.drop rawChunkHeaderLen)
      rw [data, index, offset, toBytes_ofBytes_of_length (slice_length (by omega)),
        toBytes_ofBytes_of_length (slice_length (by omega)),
        toBytes_ofBytes_of_length (slice_length (by omega)), fixedSlice_val (by omega)]
      exact chunkLayout_of_bytes.symm
  · rintro ⟨small, whole⟩
    rw [whole]
    have sized := chunkLayout_length chunk.chunkBytes chunk.sized
    rcases chunkLayout_fields chunk.chunkBytes chunk.sized with
      ⟨transferId, index, offset, len, data⟩
    have count : chunk.chunkBytes.length < 256 ^ 4 := by
      unfold maxChunkSize at small
      omega
    have lenRead := congrArg ofBytes len
    rw [ofBytes_toBytes_of_lt count] at lenRead
    have indexRead := congrArg ofBytes index
    rw [ofBytes_toBytes_of_lt chunk.chunkIndex.toNat_lt] at indexRead
    have offsetRead := congrArg ofBytes offset
    rw [ofBytes_toBytes_of_lt chunk.offset.toNat_lt] at offsetRead
    unfold RawChunk.decode
    simp only [bind_eq_ok, refuse_eq_ok, pure_eq_ok]
    refine ⟨⟨⟩, ?_, ⟨⟩, ?_, ⟨⟩, ?_, ?_⟩
    · rw [sized]
      exact decide_eq_false (by unfold rawChunkHeaderLen; omega)
    · rw [lenRead]
      exact decide_eq_false (Nat.not_lt.mpr small)
    · rw [lenRead, sized]
      simp [rawChunkHeaderLen]
    · rw [indexRead, offsetRead, fixedSlice_eq transferId]
      show RawChunk.mk chunk.transferId (UInt32.ofNat chunk.chunkIndex.toNat)
        (UInt64.ofNat chunk.offset.toNat) (List.drop 32 _) = chunk
      rw [data, UInt32.ofNat_toNat, UInt64.ofNat_toNat]

end Wire

/-! ## Identifiers in the browser -/

/-- What two digits say of their byte. -/
def pairTells (byte : UInt8) : Bool :=
  match hexPair byte with
  | [high, low] =>
      (hexDigit high).isSome && (hexDigit low).isSome && high != '-' && low != '-' &&
        UInt8.ofNat ((hexDigit high).getD 0 * 16 + (hexDigit low).getD 0) == byte
  | _ => false

theorem pairTells_all (byte : UInt8) : pairTells byte = true := by
  have all : forall number : Fin 256, pairTells (UInt8.ofNat number.val) = true := by decide +kernel
  have here := all ⟨byte.toNat, byte.toNat_lt⟩
  rwa [UInt8.ofNat_toNat] at here

theorem hexPair_cases (byte : UInt8) :
    ∃ high low, hexPair byte = [high, low] ∧ (hexDigit high).isSome = true ∧
      (hexDigit low).isSome = true ∧ high ≠ '-' ∧ low ≠ '-' ∧
      UInt8.ofNat ((hexDigit high).getD 0 * 16 + (hexDigit low).getD 0) = byte := by
  have tells := pairTells_all byte
  unfold pairTells at tells
  split at tells
  · next high low pair =>
      refine ⟨high, low, pair, ?_⟩
      simpa [and_assoc] using tells
  · cases tells

/-- The digits of some bytes are read back. -/
theorem hexBytes_pairs (bytes : Bytes) :
    let hex := bytes.flatMap hexPair
    hex.filter (fun symbol => symbol != '-') = hex ∧
      hex.all (fun symbol => (hexDigit symbol).isSome) = true ∧ hex.length = 2 * bytes.length ∧
      hexBytes hex = bytes := by
  induction bytes with
  | nil => simp [hexBytes]
  | cons byte rest ih =>
      rcases ih with ⟨plain, digits, size, back⟩
      rcases hexPair_cases byte with ⟨high, low, pair, highDigit, lowDigit, highPlain, lowPlain, value⟩
      simp only [List.flatMap_cons, pair, List.cons_append, List.nil_append]
      refine ⟨?_, ?_, ?_, ?_⟩
      · simp [highPlain, lowPlain, plain]
      · simp [highDigit, lowDigit, digits]
      · simp [size]
        omega
      · rw [hexBytes, back, value]

/-- The text the browser makes of an identifier. -/
def RequestId.key (id : RequestId) : Text := id.val.flatMap hexPair

/-- It names the same identifier. -/
theorem uuidBytes_key (id : RequestId) : uuidBytes (.string id.key) = .ok id := by
  rcases hexBytes_pairs id.val with ⟨plain, digits, size, back⟩
  have sixteen : id.key.length = 2 * 16 := by
    rw [← id.property]
    exact size
  unfold uuidBytes
  have same : id.key.filter (fun symbol => symbol != '-') = id.key := plain
  have holds : (id.key.filter (fun symbol => symbol != '-')).length = 2 * 16 ∧
      (id.key.filter (fun symbol => symbol != '-')).all (fun symbol => (hexDigit symbol).isSome) := by
    rw [same]
    exact ⟨sixteen, digits⟩
  simp only [holds, and_self, dif_pos]
  congr
  show hexBytes (id.key.filter (fun symbol => symbol != '-')) = id.val
  rw [same]
  exact back

theorem uuidKey_bytes (id : RequestId) : uuidKey (.bytes id.val) = .ok id.key := by
  unfold uuidKey uuidBytes
  simp only [id.property, dif_pos]
  rfl

/-! ## Frames of the browser -/

/-- The header the browser writes. -/
def browserHeader (messageType : MessageType) (requestId : RequestId) (payload : FramePayload)
    (length : Nat) : TdrvHeader :=
  { TdrvHeader.new messageType requestId (UInt32.ofNat length) with encoding := payload.encoding }

/-- Whether a payload is sent as it is. -/
def FramePayload.isRaw : FramePayload -> Bool
  | .raw _ => true
  | .value _ => false

theorem browserHeader_consistent {messageType : MessageType} {requestId : RequestId}
    {payload : FramePayload} {length : Nat} (inbound : messageType ≠ .downloadChunk)
    (raw : payload.isRaw = true ↔ messageType = .uploadChunk) (small : length ≤ maxFramePayload) :
    (browserHeader messageType requestId payload length).Consistent where
  magic := rfl
  version := rfl
  supported := rfl
  reserved := rfl
  flags := rfl
  encoding := by
    show validateEncodingForMessage messageType payload.encoding = .ok ()
    cases payload with
    | raw bytes =>
        rw [raw.mp rfl]
        rfl
    | value value =>
        have other : messageType ≠ .uploadChunk := fun same => Bool.false_ne_true (raw.mpr same)
        cases messageType <;> first | rfl | contradiction
  small := by
    show (UInt32.ofNat length).toNat ≤ maxFramePayload
    rw [UInt32.toNat_ofNat']
    exact Nat.le_trans (Nat.mod_le _ _) small

/-- The server reads the frames of the browser. -/
theorem encodeFrame_decoded {requests : Nat -> List Text} {messageType : MessageType}
    {payload : FramePayload} {id : JsValue} {requestId : RequestId} {bytes : Bytes}
    (inbound : messageType ≠ .downloadChunk)
    (raw : payload.isRaw = true ↔ messageType = .uploadChunk)
    (named : uuidBytes id = .ok requestId)
    (sent : payloadBytes requests messageType.code payload = .ok bytes)
    (small : bytes.length ≤ maxFramePayload) :
    ∃ frame, encodeFrame requests messageType.code payload id = .ok frame ∧
      TdrvFrame.decode frame =
        .ok ⟨browserHeader messageType requestId payload bytes.length, bytes⟩ := by
  have wrote := encodeFrame_eq_ok_iff.mpr ⟨bytes, requestId, sent, named, rfl⟩
  refine ⟨_, wrote, TdrvFrame.decode_eq_ok_iff.mpr ⟨?_, ?_, ?_⟩⟩
  · exact browserHeader_consistent inbound raw small
  · show (UInt32.ofNat bytes.length).toNat = bytes.length
    rw [UInt32.toNat_ofNat']
    apply Nat.mod_eq_of_lt
    unfold maxFramePayload at small
    omega
  · rw [TdrvHeader.encode_eq]
    have length : (UInt32.ofNat bytes.length).toNat = bytes.length := by
      rw [UInt32.toNat_ofNat']
      apply Nat.mod_eq_of_lt
      unfold maxFramePayload at small
      omega
    show _ = headerBytes _ _ _ _ _ _ _ _ (toBytes 4 (UInt32.ofNat bytes.length).toNat) ++ bytes
    rw [length]
    rfl

/-- The server reads the chunks of the browser. -/
theorem encodeChunk_decoded {transfer : JsValue} {transferId : TransferId} {index offset : Nat}
    {data : Bytes} (named : uuidBytes transfer = .ok transferId) (indexFits : index < 2 ^ 32)
    (offsetFits : offset < 2 ^ 64) (small : data.length ≤ maxChunkSize) :
    ∃ bytes, encodeChunk transfer index offset data = .ok bytes ∧
      Wire.RawChunk.decode bytes =
        .ok ⟨transferId, UInt32.ofNat index, UInt64.ofNat offset, data⟩ := by
  have sixteen := transferId.property
  have layout : writeAt (writeAt (writeAt (writeAt (writeAt
      (List.replicate (rawChunkHeaderLen + data.length) 0) 0 transferId.val) 16 (toBytes 4 index))
      20 (toBytes 8 offset)) 28 (toBytes 4 data.length)) 32 data =
      chunkLayout transferId.val (toBytes 4 index) (toBytes 8 offset) (toBytes 4 data.length)
        data := by
    have first : writeAt (List.replicate (rawChunkHeaderLen + data.length) 0) 0 transferId.val =
        transferId.val ++ List.replicate (16 + data.length) 0 := by
      exact writeAt_next [] _ (16 + data.length) rfl (by simp [rawChunkHeaderLen, sixteen]; omega)
    rw [first, writeAt_next _ (toBytes 4 index) (12 + data.length),
      writeAt_next _ (toBytes 8 offset) (4 + data.length),
      writeAt_next _ (toBytes 4 data.length) data.length, writeAt_next _ data 0]
    · simp [chunkLayout]
    all_goals simp [sixteen]
    all_goals omega
  refine ⟨chunkLayout transferId.val (toBytes 4 index) (toBytes 8 offset) (toBytes 4 data.length)
    data, ?_, ?_⟩
  · unfold encodeChunk
    rw [named]
    exact congrArg Except.ok layout
  · rw [Wire.RawChunk.decode_eq_ok_iff, Wire.RawChunk.encode_eq_ok_iff]
    refine ⟨small, ?_⟩
    show _ = chunkLayout _ (toBytes 4 (UInt32.ofNat index).toNat)
      (toBytes 8 (UInt64.ofNat offset).toNat) _ _
    rw [UInt32.toNat_ofNat', UInt64.toNat_ofNat', Nat.mod_eq_of_lt indexFits,
      Nat.mod_eq_of_lt offsetFits]

/-- The browser reads the uncompressed frames of the server. -/
theorem decodeFrame_encoded (floatText : UInt64 -> Text) {frame : TdrvFrame} {bytes : Bytes}
    (consistent : frame.header.Consistent) (plain : frame.header.compression = .none)
    (typed : frame.header.encoding ≠ .none) (wrote : frame.encode = .ok bytes) :
    decodeFrame floatText bytes =
      if frame.header.encoding = .rawBinary then
        .ok ⟨frame.header.messageType.code, frame.header.requestId.key, .bytes frame.payload⟩
      else (do
        let payload ← MsgPack.decode floatText frame.payload
        .ok ⟨frame.header.messageType.code, frame.header.requestId.key, payload⟩) := by
  rcases TdrvFrame.encode_eq_ok_iff.mp wrote with ⟨small, matches_, whole⟩
  rw [whole]
  have fields := fields_of_encode frame.header frame.payload
  have size : (frame.header.encode ++ frame.payload).length = headerLen + frame.payload.length := by
    rw [List.length_append, frame.header.encode_length]
  have back : (frame.header.encode ++ frame.payload).drop headerLen = frame.payload :=
    List.drop_left' frame.header.encode_length
  have length := congrArg ofBytes fields.payloadLength
  rw [ofBytes_toBytes_of_lt frame.header.payloadLen.toNat_lt, matches_] at length
  have messageType := congrArg ofBytes fields.messageType
  rw [ofBytes_toBytes_of_lt frame.header.messageType.code_lt] at messageType
  have key : uuidKey (.bytes (slice (frame.header.encode ++ frame.payload) requestIdOffset
      (payloadLengthOffset - requestIdOffset))) = .ok frame.header.requestId.key := by
    have found : slice (frame.header.encode ++ frame.payload) requestIdOffset
        (payloadLengthOffset - requestIdOffset) = frame.header.requestId.val := fields.requestId
    rw [found, uuidKey_bytes]
  have magic : ofBytes (slice (frame.header.encode ++ frame.payload) 0 4) = 0x54445256 := by
    rw [fields.magic, consistent.magic]
    rfl
  have version : byteAt (frame.header.encode ++ frame.payload) versionOffset = 1 :=
    fields.version.trans consistent.version
  have compression : byteAt (frame.header.encode ++ frame.payload) compressionOffset = 0 := by
    refine fields.compression.trans ?_
    rw [plain]
    rfl
  have reserved : byteAt (frame.header.encode ++ frame.payload) reservedOffset = 0 :=
    fields.reserved.trans consistent.reserved
  have encoding : byteAt (frame.header.encode ++ frame.payload) encodingOffset =
      frame.header.encoding.code := fields.encoding
  have length : ofBytes (slice (frame.header.encode ++ frame.payload) payloadLengthOffset 4) =
      frame.payload.length := length
  have messageType : ofBytes (slice (frame.header.encode ++ frame.payload) messageTypeOffset 2) =
      frame.header.messageType.code := messageType
  have long : ¬ headerLen + frame.payload.length < headerLen := by omega
  have rest : headerLen + frame.payload.length - headerLen = frame.payload.length := by omega
  unfold decodeFrame
  simp only [size, magic, version, compression, reserved, encoding, length, messageType, key, back,
    long, rest, bne_self_eq_false]
  cases which : frame.header.encoding with
  | none => exact absurd which typed
  | messagePack => rfl
  | rawBinary => rfl

/-! ## The wire format -/

/-- Frames and chunks round trip at the server, only their own encodings are
decoded, the server reads every frame and chunk of the browser, and the browser
every uncompressed one of the server as far as it reads its payload. -/
theorem wire_round_trips (requests : Nat -> List Text) (floatText : UInt64 -> Text) :
    (forall frame : TdrvFrame, frame.header.Consistent ->
      frame.header.payloadLen.toNat = frame.payload.length ->
      frame.payload.length ≤ maxFramePayload ->
      ∃ bytes, frame.encode = .ok bytes ∧ TdrvFrame.decode bytes = .ok frame) ∧
    (forall bytes frame, TdrvFrame.decode bytes = .ok frame -> frame.encode = .ok bytes) ∧
    (forall chunk : Wire.RawChunk, chunk.chunkBytes.length ≤ maxChunkSize ->
      ∃ bytes, chunk.encode = .ok bytes ∧ Wire.RawChunk.decode bytes = .ok chunk) ∧
    (forall bytes chunk, Wire.RawChunk.decode bytes = .ok chunk -> chunk.encode = .ok bytes) ∧
    (forall (messageType : MessageType) (payload : FramePayload) (id : JsValue)
        (requestId : RequestId) (bytes : Bytes),
      messageType ≠ .downloadChunk -> (payload.isRaw = true ↔ messageType = .uploadChunk) ->
      uuidBytes id = .ok requestId ->
      payloadBytes requests messageType.code payload = .ok bytes ->
      bytes.length ≤ maxFramePayload ->
      ∃ frame, encodeFrame requests messageType.code payload id = .ok frame ∧
        TdrvFrame.decode frame =
          .ok ⟨browserHeader messageType requestId payload bytes.length, bytes⟩) ∧
    (forall (transfer : JsValue) (transferId : TransferId) (index offset : Nat) (data : Bytes),
      uuidBytes transfer = .ok transferId -> index < 2 ^ 32 -> offset < 2 ^ 64 ->
      data.length ≤ maxChunkSize ->
      ∃ bytes, encodeChunk transfer index offset data = .ok bytes ∧
        Wire.RawChunk.decode bytes =
          .ok ⟨transferId, UInt32.ofNat index, UInt64.ofNat offset, data⟩) ∧
    (forall (frame : TdrvFrame) (bytes : Bytes), frame.header.Consistent ->
      frame.header.compression = .none -> frame.header.encoding ≠ .none ->
      frame.encode = .ok bytes ->
      uuidBytes (.string frame.header.requestId.key) = .ok frame.header.requestId ∧
      decodeFrame floatText bytes =
        if frame.header.encoding = .rawBinary then
          .ok ⟨frame.header.messageType.code, frame.header.requestId.key, .bytes frame.payload⟩
        else (do
          let payload ← MsgPack.decode floatText frame.payload
          .ok ⟨frame.header.messageType.code, frame.header.requestId.key, payload⟩)) := by
  refine ⟨?_, ?_, ?_, ?_, ?_, ?_, ?_⟩
  · intro frame consistent sized small
    have wrote := TdrvFrame.encode_eq_ok_iff.mpr ⟨small, sized, rfl⟩
    exact ⟨_, wrote, TdrvFrame.decode_eq_ok_iff.mpr ⟨consistent, sized, rfl⟩⟩
  · intro bytes frame decoded
    rcases TdrvFrame.decode_eq_ok_iff.mp decoded with ⟨consistent, sized, whole⟩
    refine TdrvFrame.encode_eq_ok_iff.mpr ⟨?_, sized, whole⟩
    rw [← sized]
    exact consistent.small
  · intro chunk small
    have wrote := Wire.RawChunk.encode_eq_ok_iff.mpr ⟨small, rfl⟩
    exact ⟨_, wrote, Wire.RawChunk.decode_eq_ok_iff.mpr wrote⟩
  · intro bytes chunk decoded
    exact Wire.RawChunk.decode_eq_ok_iff.mp decoded
  · intro messageType payload id requestId bytes inbound raw named sent small
    exact encodeFrame_decoded inbound raw named sent small
  · intro transfer transferId index offset data named indexFits offsetFits small
    exact encodeChunk_decoded named indexFits offsetFits small
  · intro frame bytes consistent plain typed wrote
    exact ⟨uuidBytes_key frame.header.requestId,
      decodeFrame_encoded floatText consistent plain typed wrote⟩

/-- An identifier as the browser keeps it. -/
def someId : Text := "00112233445566778899aabbccddeeff".toList

def someRequestId : RequestId :=
  ⟨[0x00, 0x11, 0x22, 0x33, 0x44, 0x55, 0x66, 0x77, 0x88, 0x99, 0xaa, 0xbb, 0xcc, 0xdd, 0xee, 0xff],
    rfl⟩

theorem upload_chunk_arrives :
    ∃ frame, encodeFrame (fun _ => []) MessageType.uploadChunk.code (.raw [7, 8]) (.string someId) =
        .ok frame ∧
      TdrvFrame.decode frame =
        .ok ⟨browserHeader .uploadChunk someRequestId (.raw [7, 8]) ([7, 8] : Bytes).length, [7, 8]⟩ := by
  have agree := wire_round_trips (fun _ => []) (fun _ => [])
  have named : uuidBytes (.string someId) = .ok someRequestId := rfl
  have raw : FramePayload.isRaw (.raw [7, 8]) = true ↔ MessageType.uploadChunk = .uploadChunk :=
    ⟨fun _ => rfl, fun _ => rfl⟩
  exact agree.2.2.2.2.1 .uploadChunk (.raw [7, 8]) (.string someId) someRequestId [7, 8] (by decide)
    raw named rfl (by decide)

/-- The server refuses a download chunk sent as MessagePack, and the browser a
MessagePack frame whose payload is no value. -/
theorem refused_across :
    (∃ frame, encodeFrame (fun _ => []) MessageType.downloadChunk.code (.value .null)
        (.string someId) = .ok frame ∧
      TdrvFrame.decode frame = .error .invalidEncoding) ∧
    (let frame : TdrvFrame := ⟨TdrvHeader.new .connectionStatus someRequestId 0, []⟩
     frame.header.Consistent ∧ ∃ bytes, frame.encode = .ok bytes ∧
       decodeFrame (fun _ => []) bytes = .error .truncatedMessagePack) := by
  refine ⟨?_, ?_⟩
  · refine ⟨[84, 68, 82, 86, 1, 0, 0, 2, 17, 0, 1, 0, 0x00, 0x11, 0x22, 0x33, 0x44, 0x55, 0x66, 0x77,
      0x88, 0x99, 0xaa, 0xbb, 0xcc, 0xdd, 0xee, 0xff, 0, 0, 0, 1, 0xc0], ?_, ?_⟩
    · rfl
    · rfl
  · intro frame
    have consistent : frame.header.Consistent := ⟨rfl, rfl, rfl, rfl, rfl, rfl, by decide⟩
    have wrote := TdrvFrame.encode_eq_ok_iff.mpr ⟨(by decide : frame.payload.length ≤ _), rfl, rfl⟩
    refine ⟨consistent, _, wrote, ?_⟩
    rw [decodeFrame_encoded _ consistent rfl (by decide) wrote]
    rfl

end TealDrive
