import TealDrive.Wire.Channel

namespace TealDrive

open Fragments

/-!
# Messages across the encrypted channel

Sender and receiver meet in the pieces of a message.  Both senders cut a
message into the same pieces, and both receivers take exactly the well-shaped
pieces that stay within their limit, so what one end sends the other end
yields.  A receiver that is given anything else yields a message only when its
own records, from the first to the last, have arrived one after another.
-/

/-! ## Records -/

/-- The pieces a receiver accepts. -/
structure Shaped (piece : Piece UInt8) : Prop where
  something : piece.2 ≠ []
  fits : piece.2.length ≤ maxFragment
  full : piece.1 = false -> piece.2.length = maxFragment

@[simp] theorem recordOf_length (piece : Piece UInt8) :
    (recordOf piece).length = piece.2.length + 1 := rfl

@[simp] theorem recordOf_tail (piece : Piece UInt8) : (recordOf piece).tail = piece.2 := rfl

theorem recordOf_head (piece : Piece UInt8) :
    (recordOf piece).head? = some (if piece.1 then 1 else 0) := rfl

/-- The two receivers refuse the same records. -/
theorem failsRecord_eq (plain : Bytes) : failsRecord plain = refusesRecord plain := by
  unfold failsRecord refusesRecord
  have sizes : (decide (plain.length < 2) || decide (60001 < plain.length)) =
      !(decide (2 ≤ plain.length) && decide (plain.length ≤ maxFragment + 1)) := by
    rw [Bool.not_and, ← decide_not, ← decide_not]
    simp only [Nat.not_le, maxFragment]
  rw [sizes]
  rfl

theorem refusesRecord_recordOf {piece : Piece UInt8} (shaped : Shaped piece) :
    refusesRecord (recordOf piece) = false := by
  have positive := List.length_pos_of_ne_nil shaped.something
  have fits := shaped.fits
  have full := shaped.full
  unfold refusesRecord
  rw [recordOf_head, recordOf_length]
  cases mark : piece.1 with
  | true =>
      simp
      omega
  | false =>
      have whole := full mark
      simp [whole]
      decide

/-- A record that is not refused is a well-shaped piece behind its mark. -/
theorem shaped_of_accepted {plain : Bytes} (accepted : refusesRecord plain = false) :
    ∃ piece, Shaped piece ∧ plain = recordOf piece := by
  unfold refusesRecord at accepted
  cases plain with
  | nil => simp at accepted
  | cons mark fragment =>
      simp only [Bool.or_eq_false_iff, List.head?_cons, List.length_cons] at accepted
      rcases accepted with ⟨⟨sizes, whole⟩, small⟩
      have atMost : mark ≤ 1 := by simpa using small
      have sizes : 1 ≤ fragment.length ∧ fragment.length ≤ maxFragment := by
        simp at sizes
        omega
      have something : fragment ≠ [] := List.ne_nil_of_length_pos (by omega)
      by_cases final : mark = 1
      · exact ⟨(true, fragment), ⟨something, sizes.2, by simp⟩, by rw [final]; rfl⟩
      · have opens : mark = 0 := by
          have := UInt8.le_iff_toNat_le.mp atMost
          have different : mark.toNat ≠ 1 := fun same => final (UInt8.toNat_inj.mp same)
          exact UInt8.toNat_inj.mp (by simp at *; omega)
        have full : fragment.length = maxFragment := by
          rw [opens] at whole
          simpa using whole
        exact ⟨(false, fragment), ⟨something, sizes.2, fun _ => full⟩, by rw [opens]; rfl⟩

/-- The pieces of a message are well shaped. -/
theorem shaped_of_spells {pieces : List (Piece UInt8)} {message : Bytes}
    (spelled : Spells maxFragment pieces message) : forall piece, piece ∈ pieces -> Shaped piece := by
  induction spelled with
  | last something fits =>
      intro piece inside
      rw [List.mem_singleton.mp inside]
      exact ⟨something, fits, by simp⟩
  | more full others ih =>
      intro piece inside
      rcases List.mem_cons.mp inside with first | later
      · rw [first]
        have something := List.ne_nil_of_length_pos (by rw [full]; decide : 0 < List.length _)
        exact ⟨something, Nat.le_of_eq full, fun _ => full⟩
      · exact ih piece later

/-! ## Sealing and opening -/

/-- Reading ciphers one after another opens these plaintexts. -/
inductive Noise.Opens (noise : Noise) : noise.State -> List Bytes -> List Bytes -> noise.State -> Prop where
  | done (state : noise.State) : Opens noise state [] [] state
  | next {state after final : noise.State} {cipher plain : Bytes} {ciphers plains : List Bytes}
      (short : cipher.length ≤ maxRecord) (opened : noise.readMessage state cipher = some (after, plain))
      (others : Opens noise after ciphers plains final) :
      Opens noise state (cipher :: ciphers) (plain :: plains) final

/-- Sealed plaintexts are opened again. -/
theorem Noise.Linked.sealAll {noise : Noise} {linked : noise.State -> noise.State -> Prop}
    (law : noise.Linked linked) {sender receiver : noise.State} (joined : linked sender receiver)
    (plains : List Bytes) (short : forall plain, plain ∈ plains -> plain.length ≤ maxFragment + 1) :
    ∃ sender' receiver' ciphers, noise.sealAll sender plains = (sender', ciphers, true) ∧
      noise.Opens receiver ciphers plains receiver' ∧ linked sender' receiver' := by
  induction plains generalizing sender receiver with
  | nil => exact ⟨sender, receiver, [], rfl, .done receiver, joined⟩
  | cons plain rest ih =>
      have room : plain.length + tagLength ≤ maxRecord := by
        have := short plain List.mem_cons_self
        simp [maxFragment, tagLength, maxRecord] at *
        omega
      rcases law.delivers joined plain room with
        ⟨sender', receiver', cipher, wrote, small, read, still⟩
      rcases ih still (fun other inside => short other (List.mem_cons_of_mem _ inside)) with
        ⟨final, last, ciphers, sealed, opened, ends⟩
      refine ⟨final, last, cipher :: ciphers, ?_, .next small read opened, ends⟩
      rw [Noise.sealAll, wrote]
      simp [sealed]

/-- The records of one message, from either sender. -/
theorem Noise.Linked.records {noise : Noise} {linked : noise.State -> noise.State -> Prop}
    (law : noise.Linked linked) {sender receiver : noise.State} (joined : linked sender receiver)
    {message : Bytes} (something : message ≠ []) :
    let pieces := marked (chunks maxFragment message)
    ∃ sender' receiver' ciphers,
      noise.sealAll sender (pieces.map recordOf) = (sender', ciphers, true) ∧
      noise.Opens receiver ciphers (pieces.map recordOf) receiver' ∧ linked sender' receiver' := by
  intro pieces
  apply law.sealAll joined
  intro plain inside
  rcases List.mem_map.mp inside with ⟨piece, among, same⟩
  have shaped := shaped_of_spells (spells_marked_chunks (by decide) message something) piece among
  rw [← same, recordOf_length]
  exact Nat.succ_le_succ shaped.fits

/-! ## The server's receiver -/

namespace Socket

variable {noise : Noise}

/-- What taking a well-shaped piece makes of a socket. -/
def took (socket : Socket noise) (next : noise.State) (piece : Piece UInt8) :
    Socket noise × Option (Except ChannelFailure Message) :=
  let whole := socket.partialMessage ++ piece.2
  if piece.1 then
    ({ socket with transport := some next, partialMessage := [] }, some (.ok (.binary whole)))
  else ({ socket with transport := some next, partialMessage := whole }, none)

theorem take_record {socket : Socket noise} {transport next : noise.State} {cipher : Bytes}
    {piece : Piece UInt8} (encrypted : socket.transport = some transport)
    (short : cipher.length ≤ maxRecord)
    (opened : noise.readMessage transport cipher = some (next, recordOf piece))
    (shaped : Shaped piece)
    (fits : socket.partialMessage.length + piece.2.length ≤ socket.limit) :
    socket.take (.binary cipher) = socket.took next piece := by
  have accepted := refusesRecord_recordOf shaped
  have notLong : ¬ maxRecord < cipher.length := Nat.not_lt.mpr short
  have within : ¬ socket.limit < socket.partialMessage.length + piece.2.length :=
    Nat.not_lt.mpr fits
  unfold take took
  rw [encrypted]
  simp only [notLong, opened, accepted, within, recordOf_length, recordOf_tail, recordOf_head,
    Nat.add_sub_cancel, decide_false, Bool.or_false, if_false]
  rcases piece with ⟨mark, fragment⟩
  cases mark <;> simp

/-- All that one message can do to an encrypted socket. -/
theorem take_cases {socket : Socket noise} {transport : noise.State} (message : Message)
    (encrypted : socket.transport = some transport) :
    (∃ next, socket.take message = (next, some (.error .rejected))) ∨
    (∃ body, message = .control body ∧ socket.take message = (socket, some (.ok message))) ∨
    (∃ cipher next piece, message = .binary cipher ∧
      noise.readMessage transport cipher = some (next, recordOf piece) ∧ Shaped piece ∧
      socket.partialMessage.length + piece.2.length ≤ socket.limit ∧
      socket.take message = socket.took next piece) := by
  cases message with
  | text body =>
      left
      simp [take, encrypted]
  | control body =>
      right; left
      simp [take, encrypted]
  | binary cipher =>
      by_cases long : maxRecord < cipher.length
      · left
        simp [take, encrypted, long]
      have short : cipher.length ≤ maxRecord := Nat.le_of_not_lt long
      cases opened : noise.readMessage transport cipher with
      | none =>
          left
          simp [take, encrypted, long, opened]
      | some result =>
          rcases result with ⟨next, plain⟩
          cases refused : refusesRecord plain with
          | true =>
              left
              simp [take, encrypted, long, opened, refused]
          | false =>
              rcases shaped_of_accepted refused with ⟨piece, shaped, same⟩
              subst same
              by_cases fits : socket.partialMessage.length + piece.2.length ≤ socket.limit
              · right; right
                exact ⟨cipher, next, piece, rfl, opened, shaped, fits,
                  take_record encrypted short opened shaped fits⟩
              · left
                have beyond : socket.limit < socket.partialMessage.length + piece.2.length :=
                  Nat.lt_of_not_le fits
                simp [take, encrypted, long, opened, beyond]

theorem serve_ok {socket next : Socket noise} {incoming rest : List Message} {message : Message}
    (polled : socket.pollNext incoming = (next, rest, some (.ok message))) :
    socket.serve incoming = ((next.serve rest).1, message :: (next.serve rest).2) := by
  rw [serve]
  split
  · next found =>
      rw [polled] at found
      cases found
      rfl
  · next other found =>
      rw [polled] at found
      cases found
      exact absurd rfl (other message)

theorem serve_end {socket next : Socket noise} {incoming rest : List Message}
    {result : Option (Except ChannelFailure Message)}
    (polled : socket.pollNext incoming = (next, rest, result))
    (nothing : forall message, result ≠ some (.ok message)) :
    socket.serve incoming = (next, []) := by
  rw [serve]
  split
  · next message found =>
      rw [polled] at found
      cases found
      exact absurd rfl (nothing message)
  · next found =>
      rw [polled] at found
      cases found
      rfl

@[simp] theorem serve_nil (socket : Socket noise) : socket.serve [] = (socket, []) := by
  have polled : socket.pollNext [] = (socket, [], none) := rfl
  exact serve_end polled (by simp)

/-- A message that is kept is read on from. -/
theorem serve_kept {socket next : Socket noise} {message : Message}
    (taken : socket.take message = (next, none)) (rest : List Message) :
    socket.serve (message :: rest) = next.serve rest := by
  have polls : socket.pollNext (message :: rest) = next.pollNext rest := by
    rw [pollNext, taken]
  rcases later : next.pollNext rest with ⟨final, others, result⟩
  rw [later] at polls
  by_cases yields : ∃ yielded, result = some (.ok yielded)
  · rcases yields with ⟨yielded, same⟩
    subst same
    rw [serve_ok polls, serve_ok later]
  · have nothing : forall yielded, result ≠ some (.ok yielded) :=
      fun yielded same => yields ⟨yielded, same⟩
    rw [serve_end polls nothing, serve_end later nothing]

theorem serve_yielded {socket next : Socket noise} {message yielded : Message}
    (taken : socket.take message = (next, some (.ok yielded))) (rest : List Message) :
    socket.serve (message :: rest) = ((next.serve rest).1, yielded :: (next.serve rest).2) := by
  apply serve_ok
  rw [pollNext, taken]

theorem serve_refused {socket next : Socket noise} {message : Message} {failure : ChannelFailure}
    (taken : socket.take message = (next, some (.error failure))) (rest : List Message) :
    socket.serve (message :: rest) = (next, []) := by
  have polled : socket.pollNext (message :: rest) = (next, rest, some (.error failure)) := by
    rw [pollNext, taken]
  exact serve_end polled (by simp)

/-- A connection that is sent the pieces of a message yields it. -/
theorem serve_message {pieces : List (Piece UInt8)} {message : Bytes}
    (spelled : Spells maxFragment pieces message) {ciphers : List Bytes}
    {transport final : noise.State}
    (opens : noise.Opens transport ciphers (pieces.map recordOf) final)
    {socket : Socket noise} (encrypted : socket.transport = some transport)
    (fits : socket.partialMessage.length + message.length ≤ socket.limit)
    (rest : List Message) :
    let after : Socket noise := { socket with transport := some final, partialMessage := [] }
    socket.serve (ciphers.map .binary ++ rest) =
      ((after.serve rest).1, .binary (socket.partialMessage ++ message) :: (after.serve rest).2) := by
  induction spelled generalizing ciphers transport socket with
  | @last piece something fitting =>
      cases opens with
      | next short opened others =>
          cases others
          have shaped : Shaped (true, piece) := ⟨something, fitting, by simp⟩
          have taken := take_record encrypted short opened shaped fits
          simp only [List.map_cons, List.map_nil, List.cons_append, List.nil_append]
          rw [serve_yielded taken]
  | @more piece others message full spelled ih =>
      cases opens with
      | next short opened remaining =>
          have something := List.ne_nil_of_length_pos (by rw [full]; decide : 0 < piece.length)
          have shaped : Shaped (false, piece) := ⟨something, Nat.le_of_eq full, fun _ => full⟩
          simp only [List.length_append] at fits
          have taken := take_record encrypted short opened shaped
            (by show _ + piece.length ≤ _; omega)
          simp only [List.map_cons, List.cons_append]
          rw [serve_kept taken]
          have later := ih remaining
            (by rfl : (socket.took _ (false, piece)).1.transport = some _)
            (by simp [took]; omega)
          simpa [took] using later

end Socket

/-! ## The browser's receiver -/

namespace Client

variable {noise : Noise}

/-- The count of bytes is that of the fragments. -/
def Counted (client : Client noise) : Prop :=
  client.channelPartialBytes = client.channelPartial.flatten.length

/-- What taking a well-shaped piece makes of a client. -/
def took (negotiate : Option Int -> Bytes -> Option Int) (client : Client noise)
    (next : noise.State) (piece : Piece UInt8) : Client noise × Option (Except ChannelFailure Bytes) :=
  let frame := client.channelPartial.flatten ++ piece.2
  if piece.1 then
    ({ client with
        channel := next
        channelPartial := []
        channelPartialBytes := 0
        maxFrameSize := negotiate client.maxFrameSize frame },
      some (.ok frame))
  else
    ({ client with
        channel := next
        channelPartial := client.channelPartial ++ [piece.2]
        channelPartialBytes := client.channelPartialBytes + piece.2.length },
      none)

theorem onMessage_record (negotiate : Option Int -> Bytes -> Option Int) {client : Client noise} {next : noise.State} {cipher : Bytes}
    {piece : Piece UInt8} (short : cipher.length ≤ maxRecord)
    (opened : noise.readMessage client.channel cipher = some (next, recordOf piece))
    (shaped : Shaped piece)
    (fits : (client.channelPartialBytes + piece.2.length : Int) ≤ client.maximum) :
    client.onMessage negotiate cipher = client.took negotiate next piece := by
  have accepted : failsRecord (recordOf piece) = false := by
    rw [failsRecord_eq]
    exact refusesRecord_recordOf shaped
  have notLong : ¬ 65535 < cipher.length := Nat.not_lt.mpr short
  have within : ¬ client.maxFrameSize.getD 1048576 + 256 <
      ((client.channelPartialBytes + piece.2.length : Nat) : Int) := by
    unfold maximum at fits
    push_cast
    omega
  unfold onMessage took maximum
  simp only [notLong, opened, accepted, recordOf_length, recordOf_tail, recordOf_head,
    Nat.add_sub_cancel, within, if_false]
  rcases piece with ⟨mark, fragment⟩
  cases mark <;> simp

/-- All that one message can do to a client. -/
theorem onMessage_cases (negotiate : Option Int -> Bytes -> Option Int) (client : Client noise)
    (cipher : Bytes) :
    (∃ next, client.onMessage negotiate cipher = (next, some (.error .rejected))) ∨
    (∃ next piece, noise.readMessage client.channel cipher = some (next, recordOf piece) ∧
      Shaped piece ∧
      (client.channelPartialBytes + piece.2.length : Int) ≤ client.maximum ∧
      client.onMessage negotiate cipher = client.took negotiate next piece) := by
  by_cases long : 65535 < cipher.length
  · left
    simp [onMessage, long]
  have short : cipher.length ≤ maxRecord := Nat.le_of_not_lt long
  cases opened : noise.readMessage client.channel cipher with
  | none =>
      left
      simp [onMessage, long, opened]
  | some result =>
      rcases result with ⟨next, plain⟩
      cases refused : refusesRecord plain with
      | true =>
          left
          have fails : failsRecord plain = true := by rw [failsRecord_eq, refused]
          simp [onMessage, long, opened, fails]
      | false =>
          rcases shaped_of_accepted refused with ⟨piece, shaped, same⟩
          subst same
          by_cases fits : (client.channelPartialBytes + piece.2.length : Int) ≤ client.maximum
          · right
            exact ⟨next, piece, rfl, shaped, fits, onMessage_record negotiate short opened shaped fits⟩
          · left
            have accepted : failsRecord (recordOf piece) = false := by rw [failsRecord_eq, refused]
            have beyond : client.maxFrameSize.getD 1048576 + 256 <
                (client.channelPartialBytes : Int) + piece.2.length := by
              unfold maximum at fits
              omega
            simp [onMessage, long, opened, accepted, maximum, beyond]

/-- A client that is sent the pieces of a message yields it. -/
theorem listen_message (negotiate : Option Int -> Bytes -> Option Int)
    {pieces : List (Piece UInt8)} {message : Bytes}
    (spelled : Spells maxFragment pieces message) {ciphers : List Bytes} {final : noise.State}
    {client : Client noise} (counted : client.Counted)
    (opens : noise.Opens client.channel ciphers (pieces.map recordOf) final)
    (fits : (client.channelPartialBytes + message.length : Int) ≤ client.maximum)
    (rest : List Bytes) :
    let frame := client.channelPartial.flatten ++ message
    let after : Client noise :=
      ⟨final, [], 0, negotiate client.maxFrameSize frame⟩
    client.listen negotiate (ciphers ++ rest) =
      ((after.listen negotiate rest).1, frame :: (after.listen negotiate rest).2) := by
  induction spelled generalizing ciphers client with
  | @last piece something fitting =>
      cases opens with
      | next short opened others =>
          cases others
          have shaped : Shaped (true, piece) := ⟨something, fitting, by simp⟩
          have taken := onMessage_record negotiate short opened shaped fits
          simp only [List.cons_append, List.nil_append]
          rw [listen, taken]
          simp [took]
  | @more piece others message full spelled ih =>
      cases opens with
      | @next _ after _ _ _ _ _ short opened remaining =>
          have something := List.ne_nil_of_length_pos (by rw [full]; decide : 0 < piece.length)
          have shaped : Shaped (false, piece) := ⟨something, Nat.le_of_eq full, fun _ => full⟩
          simp only [List.length_append, Int.natCast_add] at fits
          have room : (client.channelPartialBytes + piece.length : Int) ≤ client.maximum := by
            omega
          have taken := onMessage_record negotiate short opened shaped room
          simp only [List.cons_append]
          rw [listen, taken]
          have kept : (client.took negotiate after (false, piece)).1.Counted := by
            unfold Counted at counted ⊢
            simp [took, counted]
          have later := ih kept remaining (by
            simp only [took, maximum] at fits ⊢
            push_cast
            omega)
          simpa [took] using later

/-- Every message, when it arrives, is at most the client's limit of that moment. -/
def Within (negotiate : Option Int -> Bytes -> Option Int) : Option Int -> List Bytes -> Prop
  | _, [] => True
  | announced, message :: rest =>
      (message.length : Int) ≤ announced.getD 1048576 + 256 ∧
        Within negotiate (negotiate announced message) rest

end Client

/-! ## Whole conversations -/

/-- The binary messages among some. -/
def binaries (messages : List Message) : List Bytes :=
  messages.filterMap fun message =>
    match message with
    | .binary bytes => some bytes
    | _ => none

section

variable {noise : Noise} {linked : noise.State -> noise.State -> Prop}

/-- The server sends one message. -/
theorem Socket.startSend_message (law : noise.Linked linked) {socket : Socket noise}
    {sender receiver : noise.State} (encrypted : socket.transport = some sender)
    (joined : linked sender receiver) {message : Bytes} (something : message ≠ [])
    (fits : message.length ≤ socket.limit) :
    ∃ sender' receiver' ciphers,
      socket.startSend (.binary message) =
        ({ socket with
            transport := some sender'
            outgoing := socket.outgoing ++ ciphers.map .binary }, .ok ()) ∧
      noise.Opens receiver ciphers ((marked (chunks maxFragment message)).map recordOf) receiver' ∧
      linked sender' receiver' := by
  rcases law.records joined something with ⟨sender', receiver', ciphers, sealed, opened, still⟩
  refine ⟨sender', receiver', ciphers, ?_, opened, still⟩
  have notEmpty : message.isEmpty = false := List.isEmpty_eq_false_iff.mpr something
  have within : ¬ socket.limit < message.length := Nat.not_lt.mpr fits
  have cut := markedChunks_eq (chunks maxFragment message).length 0 (chunks maxFragment message)
    (Nat.zero_add _)
  unfold Socket.startSend
  rw [encrypted]
  simp [notEmpty, within, cut, sealed]

/-- The browser sends one message. -/
theorem Client.sendBytes_message (law : noise.Linked linked) {client : Client noise}
    {receiver : noise.State} (joined : linked client.channel receiver) {message : Bytes}
    (something : message ≠ []) :
    ∃ sender' receiver' ciphers,
      client.sendBytes message = ({ client with channel := sender' }, ciphers, true) ∧
      noise.Opens receiver ciphers ((marked (chunks maxFragment message)).map recordOf) receiver' ∧
      linked sender' receiver' := by
  rcases law.records joined something with ⟨sender', receiver', ciphers, sealed, opened, still⟩
  refine ⟨sender', receiver', ciphers, ?_, opened, still⟩
  unfold Client.sendBytes
  rw [plainsFrom_eq, List.drop_zero, sealed]

/-- What the server sends in order, the browser yields in order. -/
theorem Socket.sendAll_listen (law : noise.Linked linked)
    (negotiate : Option Int -> Bytes -> Option Int) (messages : List Bytes)
    {socket : Socket noise} {sender : noise.State} (encrypted : socket.transport = some sender)
    {receiver : noise.State} (joined : linked sender receiver) (announced : Option Int)
    (sendable : forall message, message ∈ messages ->
      message ≠ [] ∧ message.length ≤ socket.limit)
    (fits : Client.Within negotiate announced messages) :
    ∃ records, (socket.sendAll messages).1.outgoing = socket.outgoing ++ records.map .binary ∧
      (socket.sendAll messages).2 = true ∧
      (Client.listen negotiate (⟨receiver, [], 0, announced⟩ : Client noise) records).2 =
        messages := by
  induction messages generalizing socket sender receiver announced with
  | nil => exact ⟨[], by simp [sendAll], rfl, rfl⟩
  | cons message rest ih =>
      have here := sendable message List.mem_cons_self
      rcases startSend_message law encrypted joined here.1 here.2 with
        ⟨sender', receiver', ciphers, sent, opened, still⟩
      have spelled := spells_marked_chunks (by decide : 0 < maxFragment) message here.1
      rcases fits with ⟨short, later⟩
      have room : (0 + message.length : Int) ≤ announced.getD 1048576 + 256 := by omega
      have encrypted' : ({ socket with
          transport := some sender'
          outgoing := socket.outgoing ++ ciphers.map .binary } : Socket noise).transport =
            some sender' := rfl
      rcases ih encrypted' still (negotiate announced message)
          (fun other inside => sendable other (List.mem_cons_of_mem _ inside)) later with
        ⟨records, queued, done, heard⟩
      have counted : (⟨receiver, [], 0, announced⟩ : Client noise).Counted := rfl
      have listened := Client.listen_message negotiate spelled counted opened room records
      refine ⟨ciphers ++ records, ?_, ?_, ?_⟩
      · rw [sendAll, sent]
        simp [queued]
      · rw [sendAll, sent]
        exact done
      · rw [listened]
        simp [heard]

/-- What the browser sends in order, the server yields in order. -/
theorem Client.sendAll_serve (law : noise.Linked linked) (messages : List Bytes)
    {client : Client noise} {socket : Socket noise} {receiver : noise.State}
    (encrypted : socket.transport = some receiver) (joined : linked client.channel receiver)
    (fresh : socket.partialMessage = [])
    (sendable : forall message, message ∈ messages ->
      message ≠ [] ∧ message.length ≤ socket.limit) :
    (client.sendAll messages).2.2 = true ∧
      (socket.serve ((client.sendAll messages).2.1.map .binary)).2 = messages.map .binary := by
  induction messages generalizing client socket receiver with
  | nil => exact ⟨rfl, by simp [sendAll]⟩
  | cons message rest ih =>
      have here := sendable message List.mem_cons_self
      rcases sendBytes_message law joined here.1 with
        ⟨sender', receiver', ciphers, sent, opened, still⟩
      have spelled := spells_marked_chunks (by decide : 0 < maxFragment) message here.1
      have room : socket.partialMessage.length + message.length ≤ socket.limit := by
        rw [fresh]
        simpa using here.2
      have encrypted' : ({ socket with
          transport := some receiver'
          partialMessage := [] } : Socket noise).transport = some receiver' := rfl
      have joined' : linked ({ client with channel := sender' } : Client noise).channel receiver' :=
        still
      rcases ih encrypted' joined' rfl
          (fun other inside => sendable other (List.mem_cons_of_mem _ inside)) with
        ⟨done, served⟩
      have yielded := Socket.serve_message spelled opened encrypted room
        ((Client.sendAll { client with channel := sender' } rest).2.1.map .binary)
      constructor
      · rw [sendAll, sent]
        exact done
      · rw [sendAll, sent]
        simp only [List.map_append]
        rw [yielded, fresh]
        simp [served]

end

/-! ## Receivers that are sent anything -/

/-- The plaintexts a receiver's Noise state opens, and none where it fails. -/
def Noise.openAll (noise : Noise) (state : noise.State) : List Bytes -> List (Option Bytes)
  | [] => []
  | cipher :: rest =>
      match noise.readMessage state cipher with
      | none => none :: noise.openAll state rest
      | some (next, plain) => some plain :: noise.openAll next rest

/-- The messages are spelled by the opened records, from the first one on, each
by records of its own that follow one another. -/
def SpelledInTurn (opened : List (Option Bytes)) (messages : List Bytes) : Prop :=
  ∃ blocks rest, opened = blocks.flatten.map (fun piece => some (recordOf piece)) ++ rest ∧
    List.Forall₂ (Spells maxFragment) blocks messages

theorem spelledInTurn_of_assembled {taken : List (Piece UInt8)} {messages : List Bytes}
    {held : Bytes} (made : Assembled maxFragment taken messages held)
    (rest : List (Option Bytes)) :
    SpelledInTurn (taken.map (fun piece => some (recordOf piece)) ++ rest) messages := by
  rcases made.parted with ⟨blocks, waiting, split, spelled, -, -⟩
  refine ⟨blocks, waiting.map (fun piece => some (recordOf piece)) ++ rest, ?_, spelled⟩
  rw [split, List.map_append, List.append_assoc]

/-- The invariant of a server connection: it has taken pieces, and made of them
the messages it yielded and the one it holds. -/
theorem Socket.serve_assembled {noise : Noise} (incoming : List Message) {socket : Socket noise}
    {transport : noise.State} (encrypted : socket.transport = some transport)
    {taken : List (Piece UInt8)} {yielded : List Bytes}
    (before : Assembled maxFragment taken yielded socket.partialMessage) :
    ∃ more rest held,
      noise.openAll transport (binaries incoming) =
        more.map (fun piece => some (recordOf piece)) ++ rest ∧
      Assembled maxFragment (taken ++ more) (yielded ++ binaries (socket.serve incoming).2) held ∧
      forall message, message ∈ binaries (socket.serve incoming).2 ->
        message.length ≤ socket.limit := by
  induction incoming generalizing socket transport taken yielded with
  | nil => exact ⟨[], [], socket.partialMessage, rfl, by simpa [binaries] using before, by simp [binaries]⟩
  | cons message others ih =>
      rcases take_cases message encrypted with ⟨next, refused⟩ | ⟨body, control, passed⟩ |
        ⟨cipher, next, piece, binary, opened, shaped, fits, took⟩
      · rw [serve_refused refused]
        exact ⟨[], _, socket.partialMessage, rfl, by simpa [binaries] using before,
          by simp [binaries]⟩
      · rw [serve_yielded passed]
        subst control
        exact ih encrypted before
      · subst binary
        have opens : noise.openAll transport (binaries (.binary cipher :: others)) =
            some (recordOf piece) :: noise.openAll next (binaries others) := by
          have first : binaries (.binary cipher :: others) = cipher :: binaries others := rfl
          rw [first, Noise.openAll, opened]
        rcases piece with ⟨mark, fragment⟩
        cases mark with
        | false =>
            have full : fragment.length = maxFragment := shaped.full rfl
            have encrypted' : (socket.took next (false, fragment)).1.transport = some next := rfl
            rcases ih encrypted' (before.more full) with ⟨more, rest, held, split, made, short⟩
            refine ⟨(false, fragment) :: more, rest, held, ?_, ?_, ?_⟩
            · rw [opens, split]
              rfl
            · rw [serve_kept took]
              simpa [Socket.took] using made
            · rw [serve_kept took]
              exact short
        | true =>
            have encrypted' : (socket.took next (true, fragment)).1.transport = some next := rfl
            have after := before.last shaped.something shaped.fits
            rcases ih encrypted' after with ⟨more, rest, held, split, made, short⟩
            have step : binaries (socket.serve (.binary cipher :: others)).2 =
                (socket.partialMessage ++ fragment) ::
                  binaries ((socket.took next (true, fragment)).1.serve others).2 := by
              rw [serve_yielded took]
              rfl
            refine ⟨(true, fragment) :: more, rest, held, ?_, ?_, ?_⟩
            · rw [opens, split]
              rfl
            · rw [step]
              simpa using made
            · intro yielded inside
              rw [step] at inside
              rcases List.mem_cons.mp inside with this | later
              · rw [this, List.length_append]
                exact fits
              · exact short yielded later

/-- The invariant of a client, likewise. -/
theorem Client.listen_assembled {noise : Noise} (negotiate : Option Int -> Bytes -> Option Int)
    (incoming : List Bytes) {client : Client noise} (counted : client.Counted)
    {taken : List (Piece UInt8)} {yielded : List Bytes}
    (before : Assembled maxFragment taken yielded client.channelPartial.flatten) :
    ∃ more rest held,
      noise.openAll client.channel incoming =
        more.map (fun piece => some (recordOf piece)) ++ rest ∧
      Assembled maxFragment (taken ++ more) (yielded ++ (client.listen negotiate incoming).2) held ∧
      Within negotiate client.maxFrameSize (client.listen negotiate incoming).2 := by
  induction incoming generalizing client taken yielded with
  | nil => exact ⟨[], [], client.channelPartial.flatten, rfl, by simpa [listen] using before, trivial⟩
  | cons cipher others ih =>
      rcases onMessage_cases negotiate client cipher with ⟨next, refused⟩ |
        ⟨next, piece, opened, shaped, fits, took⟩
      · rw [listen, refused]
        exact ⟨[], _, client.channelPartial.flatten, rfl, by simpa using before, trivial⟩
      · have opens : noise.openAll client.channel (cipher :: others) =
            some (recordOf piece) :: noise.openAll next others := by
          rw [Noise.openAll, opened]
        rcases piece with ⟨mark, fragment⟩
        rw [listen, took]
        cases mark with
        | false =>
            have full : fragment.length = maxFragment := shaped.full rfl
            have counted' : (client.took negotiate next (false, fragment)).1.Counted := by
              unfold Counted at counted ⊢
              simp [Client.took, counted]
            have after : Assembled maxFragment (taken ++ [(false, fragment)]) yielded
                (client.took negotiate next (false, fragment)).1.channelPartial.flatten := by
              simpa [Client.took] using before.more full
            rcases ih counted' after with ⟨more, rest, held, split, made, short⟩
            refine ⟨(false, fragment) :: more, rest, held, ?_, ?_, ?_⟩
            · rw [opens]
              show _ :: noise.openAll (client.took negotiate next (false, fragment)).1.channel others = _
              rw [split]
              rfl
            · simpa [Client.took] using made
            · exact short
        | true =>
            have counted' : (client.took negotiate next (true, fragment)).1.Counted := rfl
            have after : Assembled maxFragment (taken ++ [(true, fragment)])
                (yielded ++ [client.channelPartial.flatten ++ fragment])
                (client.took negotiate next (true, fragment)).1.channelPartial.flatten :=
              before.last shaped.something shaped.fits
            rcases ih counted' after with ⟨more, rest, held, split, made, short⟩
            refine ⟨(true, fragment) :: more, rest, held, ?_, ?_, ?_, short⟩
            · rw [opens]
              show _ :: noise.openAll (client.took negotiate next (true, fragment)).1.channel others = _
              rw [split]
              rfl
            · simpa [Client.took] using made
            · unfold Counted at counted
              rw [counted] at fits
              simp only [List.length_append, Int.natCast_add]
              exact fits

/-! ## The channel -/

/-- Messages that neither the sender nor the receiver refuses for their length
arrive as they were sent, in both directions.  Whatever a receiver is sent, the
messages of its connection are within its limit and spelled by records of their
own. -/
theorem channel_preserves_messages {noise : Noise} {linked : noise.State -> noise.State -> Prop}
    (law : noise.Linked linked) (negotiate : Option Int -> Bytes -> Option Int) (limits : Limits)
    {server browser : noise.State} (forth : linked server browser) (back : linked browser server)
    (announced : Option Int) :
    let socket : Socket noise := .accept (some server) limits
    let client : Client noise := ⟨browser, [], 0, announced⟩
    (forall messages : List Bytes,
      (forall message, message ∈ messages -> message ≠ [] ∧ message.length ≤ socket.limit) ->
      Client.Within negotiate announced messages ->
      ∃ records, (socket.sendAll messages).1.outgoing = records.map .binary ∧
        (socket.sendAll messages).2 = true ∧ (client.listen negotiate records).2 = messages) ∧
    (forall messages : List Bytes,
      (forall message, message ∈ messages -> message ≠ [] ∧ message.length ≤ socket.limit) ->
      (client.sendAll messages).2.2 = true ∧
        (socket.serve ((client.sendAll messages).2.1.map .binary)).2 = messages.map .binary) ∧
    (forall incoming : List Message,
      (forall message, message ∈ binaries (socket.serve incoming).2 ->
        message.length ≤ socket.limit) ∧
      SpelledInTurn (noise.openAll server (binaries incoming))
        (binaries (socket.serve incoming).2)) ∧
    forall incoming : List Bytes,
      Client.Within negotiate announced (client.listen negotiate incoming).2 ∧
      SpelledInTurn (noise.openAll browser incoming) (client.listen negotiate incoming).2 := by
  intro socket client
  have encrypted : socket.transport = some server := rfl
  have empty : Assembled maxFragment ([] : List (Piece UInt8)) [] socket.partialMessage :=
    .start maxFragment
  have counted : client.Counted := rfl
  have blank : Assembled maxFragment ([] : List (Piece UInt8)) [] client.channelPartial.flatten :=
    .start maxFragment
  refine ⟨?_, ?_, ?_, ?_⟩
  · intro messages sendable fits
    exact Socket.sendAll_listen law negotiate messages encrypted forth announced sendable fits
  · intro messages sendable
    exact Client.sendAll_serve law messages encrypted back rfl sendable
  · intro incoming
    rcases Socket.serve_assembled incoming encrypted empty with ⟨more, rest, held, split, made, short⟩
    refine ⟨short, ?_⟩
    rw [split]
    exact spelledInTurn_of_assembled made rest
  · intro incoming
    rcases Client.listen_assembled negotiate incoming counted blank with
      ⟨more, rest, held, split, made, short⟩
    refine ⟨short, ?_⟩
    rw [split]
    exact spelledInTurn_of_assembled made rest

/-- A Noise layer without secrecy: the tag of a record is its number. -/
def Noise.counting : Noise where
  State := Nat × Nat
  writeMessage := fun state plain =>
    if plain.length + tagLength ≤ maxRecord then
      some ((state.1 + 1, state.2), plain ++ List.replicate tagLength (UInt8.ofNat state.1))
    else none
  readMessage := fun state cipher =>
    if cipher.drop (cipher.length - tagLength) = List.replicate tagLength (UInt8.ofNat state.2) then
      some ((state.1, state.2 + 1), cipher.take (cipher.length - tagLength))
    else none

/-- What the receiver has opened is what the sender has sealed. -/
def Noise.counting.InStep (sender receiver : Noise.counting.State) : Prop := sender.1 = receiver.2

theorem Noise.counting_read (sealed opened : Nat) (plain : Bytes) :
    Noise.counting.readMessage (sealed, opened)
        (plain ++ List.replicate tagLength (UInt8.ofNat opened)) =
      some ((sealed, opened + 1), plain) := by
  simp [Noise.counting]

theorem Noise.counting_linked : Noise.counting.Linked Noise.counting.InStep where
  delivers := by
    intro sender receiver inStep plain room
    rcases sender with ⟨sealed, other⟩
    rcases receiver with ⟨another, opened⟩
    have same : sealed = opened := inStep
    subst same
    refine ⟨(sealed + 1, other), (another, sealed + 1),
      plain ++ List.replicate tagLength (UInt8.ofNat sealed), ?_, ?_,
      Noise.counting_read another sealed plain, rfl⟩
    · simp [Noise.counting, room]
    · simpa using room

theorem channel_preserves_greeting :
    let socket : Socket Noise.counting := .accept (some (0, 0)) Limits.standard
    let client : Client Noise.counting := ⟨(0, 0), [], 0, none⟩
    (client.sendAll [[84, 68], [82]]).2.2 = true ∧
      (socket.serve ((client.sendAll [[84, 68], [82]]).2.1.map .binary)).2 =
        [.binary [84, 68], .binary [82]] := by
  intro socket client
  have inStep : Noise.counting.InStep (0, 0) (0, 0) := rfl
  have whole := channel_preserves_messages Noise.counting_linked (fun announced _ => announced)
    Limits.standard inStep inStep none
  exact whole.2.1 [[84, 68], [82]] (by decide)

/-- A message the browser would accept is refused by the server's sender, whose
limit is the smaller one; and a socket that is polled again after a refusal
yields what it held of the refused message. -/
theorem refusals_beyond_the_receiver :
    (let socket : Socket Noise.counting := .accept (some (0, 0)) Limits.standard
     let message : Bytes := List.replicate (1048576 + 33) 0
     Client.Within (fun announced _ => announced) (some 1048576) [message] ∧
       socket.sendAll [message] = (socket, false)) ∧
    (let socket : Socket Noise.counting := .accept (some (0, 0)) Limits.standard
     let fragment : Bytes := List.replicate maxFragment 7
     let first : Message := .binary (recordOf (false, fragment) ++ List.replicate tagLength 0)
     let refused : Message := .binary ([2, 0] ++ List.replicate tagLength 1)
     let last : Message := .binary (recordOf (true, [9]) ++ List.replicate tagLength 2)
     ∃ next final,
       socket.pollNext [first, refused] = (next, [], some (.error .rejected)) ∧
       next.pollNext [last] = (final, [], some (.ok (.binary (fragment ++ [9]))))) := by
  constructor
  · intro socket message
    have size : message.length = 1048576 + 33 := List.length_replicate
    have beyond : socket.limit < message.length := by
      rw [size]
      decide
    constructor
    · refine ⟨?_, trivial⟩
      rw [size]
      decide
    · have refused : socket.startSend (.binary message) = (socket, .error .rejected) := by
        unfold Socket.startSend
        show (if message.isEmpty || decide (socket.limit < message.length) then _ else _) = _
        simp [beyond]
      rw [Socket.sendAll, refused]
  · intro socket fragment first refused last
    have size : fragment.length = maxFragment := List.length_replicate
    have kept : Shaped (false, fragment) :=
      ⟨List.ne_nil_of_length_pos (by rw [size]; decide), Nat.le_of_eq size, fun _ => size⟩
    have opened : Noise.counting.readMessage (0, 0)
        (recordOf (false, fragment) ++ List.replicate tagLength 0) =
          some ((0, 1), recordOf (false, fragment)) := Noise.counting_read 0 0 _
    have broken : Noise.counting.readMessage (0, 1) ([2, 0] ++ List.replicate tagLength 1) =
        some ((0, 2), [2, 0]) := Noise.counting_read 0 1 _
    have ended : Noise.counting.readMessage (0, 2)
        (recordOf (true, [9]) ++ List.replicate tagLength 2) =
          some ((0, 3), recordOf (true, [9])) := Noise.counting_read 0 2 _
    let holding : Socket Noise.counting := { socket with transport := some (0, 2), partialMessage := fragment }
    have took : socket.take first = socket.took (0, 1) (false, fragment) := by
      refine Socket.take_record rfl ?_ opened kept ?_
      · simp [size, maxFragment, tagLength, maxRecord]
      · show 0 + fragment.length ≤ _
        rw [size]
        decide
    have refuses : (socket.took (0, 1) (false, fragment)).1.take refused =
        (holding, some (.error .rejected)) := by
      unfold Socket.take
      simp only [Socket.took, Bool.false_eq_true, if_false, refused, broken]
      rfl
    have yields : holding.take last = holding.took (0, 3) (true, [9]) := by
      refine Socket.take_record rfl (by decide) ended ⟨by decide, by decide, by decide⟩ ?_
      show fragment.length + 1 ≤ _
      rw [size]
      decide
    refine ⟨holding, (holding.took (0, 3) (true, [9])).1, ?_, ?_⟩
    · rw [Socket.pollNext, took]
      show Socket.pollNext (socket.took (0, 1) (false, fragment)).1 [refused] = _
      rw [Socket.pollNext, refuses]
    · rw [Socket.pollNext, yields]
      rfl

end TealDrive
