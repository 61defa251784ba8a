import PplMe.Net.Connection

/-! The framing of messages: what was sent is received, on hosts of any byte order, and of
any other stream only a complete message of an admitted length is.
-/

namespace PplMe.Net

open Octets Failures

section Sending

variable {host : ByteOrder} {before after : Socket}

/-- A successful write adds its octets. -/
theorem written_of_write {octets : List UInt8}
    (wrote : (write octets).run before = .ok (true, after))
    : after.written = before.written ++ octets := by
  change write octets before = _ at wrote
  unfold write at wrote
  split at wrote
  · rename_i empty
    cases wrote
    simp [empty]
  · split at wrote
    · simp at wrote
    · cases wrote
      rfl

/-- A call of `SendMessage` that succeeds, and the octets that it adds to what was written. -/
def Sent (host : ByteOrder) (message : Message) (octets : List UInt8) : Prop :=
  ∃ before after,
    (sendMessage host message).run before = .ok (true, after)
    ∧ after.written = before.written ++ octets

/-- A successful call writes the header, and as much of the body as it declares. -/
theorem Sent.eq {message : Message} {octets : List UInt8} (sent : Sent host message octets)
    : octets = message.header.octets host ++ message.bodyOctets host := by
  obtain ⟨before, after, ran, grown⟩ := sent
  obtain ⟨headerWritten, afterHeader, header, later⟩ := run_bind_inv ran
  obtain ⟨written, afterBody, body, last⟩ := run_bind_inv later
  cases written with
  | false =>
      obtain ⟨_, _, _, ended⟩ := run_bind_inv last
      cases ended
  | true =>
      cases headerWritten with
      | false => cases body
      | true =>
          cases last
          rw [written_of_write body, written_of_write header, List.append_assoc] at grown
          exact (List.append_cancel_left grown).symm

/-- What is written for a well-sized message is its frame. -/
theorem Sent.eq_frame {message : Message} {octets : List UInt8}
    (sent : Sent host message octets) (wellSized : message.WellSized host)
    : octets = Message.frame message.body := by
  rw [sent.eq, Message.bodyOctets, ← wellSized, List.take_length,
    Message.octets_of_wellSized wellSized]

end Sending

-----------------------------------------------------------------------------------------
-- Streams that begin with a frame
-----------------------------------------------------------------------------------------

/-- A message as another host holds it: the header's word has that host's byte order. -/
def Message.onHost (sender receiver : ByteOrder) (message : Message) : Message :=
  .ofBody receiver message.body (message.getBodyLength sender)

section Frames

variable {body rest : List UInt8}

/-- On its own host a message is itself. -/
theorem Message.onHost_self (host : ByteOrder) (message : Message)
    : message.onHost host host = message := by
  have header : Header.ofLength host (message.getBodyLength host) = message.header := by
    rw [Header.ofLength, Message.getBodyLength, Header.getBodyLength, ByteOrder.htonl_ntohl]
  rw [Message.onHost, Message.ofBody, header]

/-- A message declares the same length on every host. -/
@[simp] theorem Message.getBodyLength_onHost (sender receiver : ByteOrder) (message : Message)
    : (message.onHost sender receiver).getBodyLength receiver
      = message.getBodyLength sender :=
  getBodyLength_ofBody receiver message.body _

theorem frame_append_take : (Message.frame body ++ rest).take 4
    = networkOctets (.ofNat body.length) := rfl

theorem frame_append_drop : (Message.frame body ++ rest).drop 4 = body ++ rest := rfl

/-- A frame declares its body's length, if that is admitted. -/
theorem declaredLength_frame (admitted : body.length ≤ Message.kMaxBodyLength)
    : declaredLength (Message.frame body ++ rest) = body.length := by
  rw [declaredLength, frame_append_take, networkValue_networkOctets, UInt32.toNat_ofNat',
    Nat.mod_eq_of_lt (Nat.lt_of_le_of_lt admitted (by decide))]

theorem framed_frame (admitted : body.length ≤ Message.kMaxBodyLength)
    : Framed (Message.frame body ++ rest) := by
  refine ⟨by simp [Message.frame], ?_, ?_⟩
  · rwa [declaredLength_frame admitted]
  · rw [declaredLength_frame admitted, frame_append_drop]
    simp

/-- After a frame's octets comes the rest. -/
theorem drop_frame (admitted : body.length ≤ Message.kMaxBodyLength)
    : (Message.frame body ++ rest).drop (4 + declaredLength (Message.frame body ++ rest))
      = rest := by
  rw [declaredLength_frame admitted, ← List.drop_drop, frame_append_drop, List.drop_left]

/-- The first message of a frame of a message's body is that message. -/
theorem firstMessage_frame {sender receiver : ByteOrder} {message : Message}
    (wellSized : message.WellSized sender)
    (admitted : message.body.length ≤ Message.kMaxBodyLength)
    : firstMessage receiver (Message.frame message.body ++ rest)
      = message.onHost sender receiver := by
  have length : UInt32.ofNat message.body.length = message.getBodyLength sender := by
    rw [wellSized, UInt32.ofNat_toNat]
  rw [firstMessage, declaredLength_frame admitted, frame_append_take, frame_append_drop,
    List.take_left, length]
  rfl

/-- From a lasting connection a frame is received as its message, and the rest is left. -/
theorem receiveMessage_of_frame {sender receiver : ByteOrder} {message : Message}
    (wellSized : message.WellSized sender)
    (admitted : message.body.length ≤ Message.kMaxBodyLength)
    {socket : Socket} (lasting : socket.Lasting)
    (stream : socket.unread = Message.frame message.body ++ rest)
    : ∃ after,
        (receiveMessage receiver).run socket
          = .ok (some (message.onHost sender receiver), after)
        ∧ after.unread = rest
        ∧ after.Lasting := by
  have framed : Framed socket.unread := stream ▸ framed_frame admitted
  have received := @receiveMessage_of_framed receiver _ framed
  rw [stream, firstMessage_frame wellSized admitted] at received
  refine ⟨_, received, ?_, lasting⟩
  rw [Socket.afterMessage, stream, drop_frame admitted]

end Frames

-----------------------------------------------------------------------------------------
-- What is received
-----------------------------------------------------------------------------------------

/-- Repeated calls of `ReceiveMessage`. -/
def receiveMessages (host : ByteOrder) : Nat → SocketM (List (Option Message))
  | 0 => pure []
  | count + 1 => do
      let message ← receiveMessage host
      let messages ← receiveMessages host count
      pure (message :: messages)

/-- Frames are received one after the other, by induction on them. -/
theorem receiveMessages_of_frames {sender receiver : ByteOrder} {messages : List Message}
    (wellSized : ∀ message ∈ messages, message.WellSized sender)
    (admitted : ∀ message ∈ messages, message.body.length ≤ Message.kMaxBodyLength)
    {rest : List UInt8} {socket : Socket} (lasting : socket.Lasting)
    (stream
      : socket.unread = (messages.map fun message => Message.frame message.body).flatten ++ rest)
    : ∃ after,
        (receiveMessages receiver messages.length).run socket
          = .ok (messages.map fun message => some (message.onHost sender receiver), after)
        ∧ after.unread = rest := by
  induction messages generalizing socket with
  | nil => exact ⟨socket, rfl, stream⟩
  | cons message messages ih =>
      obtain ⟨wellSized, laterWellSized⟩ := List.forall_mem_cons.mp wellSized
      obtain ⟨admitted, laterAdmitted⟩ := List.forall_mem_cons.mp admitted
      simp only [List.map_cons, List.flatten_cons, List.append_assoc] at stream
      obtain ⟨middle, first, left, stillLasting⟩
        := receiveMessage_of_frame wellSized admitted lasting stream
      obtain ⟨after, later, left⟩ := ih laterWellSized laterAdmitted stillLasting left
      refine ⟨after, ?_, left⟩
      rw [List.length_cons, receiveMessages, run_bind_ok first, run_bind_ok later]
      rfl

/-- What successful calls wrote for well-sized messages is the frames, one after another. -/
theorem written_frames {host : ByteOrder} {messages : List Message}
    {written : List (List UInt8)} (sent : List.Forall₂ (Sent host) messages written)
    (wellSized : ∀ message ∈ messages, message.WellSized host)
    : written = messages.map fun message => Message.frame message.body := by
  induction sent with
  | nil => rfl
  | cons first _ ih =>
      obtain ⟨firstSized, laterSized⟩ := List.forall_mem_cons.mp wellSized
      rw [List.map_cons, first.eq_frame firstSized, ih laterSized]

/-- What one call of `ReceiveMessage` does with a stream: a message is what the stream
begins with, and octets beyond it are left.
-/
structure Receives (host : ByteOrder) (socket after : Socket) (received : Option Message)
    : Prop where
  ran : (receiveMessage host).run socket = .ok (received, after)
  some_iff : received.isSome ↔ Framed socket.unread
  exact
    : ∀ message ∈ received,
        (message.getBodyLength host).toNat = declaredLength socket.unread
        ∧ message.body.length = declaredLength socket.unread
        ∧ message.body = (socket.unread.drop 4).take (declaredLength socket.unread)
        ∧ after.unread = socket.unread.drop (4 + declaredLength socket.unread)
  bounded
    : ∃ sizes,
        after.bufferSizes = socket.bufferSizes ++ sizes
        ∧ ∀ size ∈ sizes, size ≤ Message.kMaxBodyLength

section Streams

variable {host : ByteOrder} {socket : Socket}

/-- A stream that begins with a complete message of an admitted length. -/
theorem receives_of_framed (framed : Framed socket.unread)
    : ∃ after, Receives host socket after (some (firstMessage host socket.unread)) := by
  have header : (socket.unread.take 4).length = 4 := by
    rw [List.length_take, Nat.min_eq_left framed.1]
  refine ⟨_, receiveMessage_of_framed framed, by simp [framed], ?_,
    _, rfl, by simpa using framed.2.1⟩
  rintro message ⟨⟩
  refine ⟨getBodyLength_ofOctets header, ?_, rfl, rfl⟩
  exact List.length_take_of_le framed.2.2

/-- A stream that does not, in each of the three ways. -/
theorem receives_of_not_framed (lasting : socket.Lasting) (unframed : ¬ Framed socket.unread)
    : ∃ after, Receives host socket after none := by
  have nothing : (none : Option Message).isSome ↔ Framed socket.unread := by simp [unframed]
  by_cases header : 4 ≤ socket.unread.length
  · by_cases admitted : declaredLength socket.unread ≤ Message.kMaxBodyLength
    · have short := Nat.not_le.mp fun complete => unframed ⟨header, admitted, complete⟩
      exact ⟨_, receiveMessage_of_shortBody lasting header admitted short, nothing, nofun,
        _, rfl, by simpa using admitted⟩
    · exact ⟨_, receiveMessage_of_tooBig lasting header (Nat.not_le.mp admitted), nothing,
        nofun, [], by simp, nofun⟩
  · exact ⟨_, receiveMessage_of_shortHeader lasting (Nat.not_le.mp header), nothing, nofun,
      [], by simp, nofun⟩

/-- From every stream a message is received just if the stream begins with one. -/
theorem receives_of_lasting (lasting : socket.Lasting)
    : ∃ received after, Receives host socket after received := by
  by_cases framed : Framed socket.unread
  · exact ⟨_, receives_of_framed framed⟩
  · exact ⟨_, receives_of_not_framed lasting framed⟩

end Streams

-----------------------------------------------------------------------------------------
-- Framing
-----------------------------------------------------------------------------------------

/-- Messages that were sent are received, each once and in order, whatever octets come after
them; and of any stream exactly a complete message of an admitted length is received.
-/
theorem messageFraming (sender receiver : ByteOrder)
    : (∀ messages written rest (socket : Socket),
        (∀ message ∈ messages, message.WellSized sender)
        → (∀ message ∈ messages, message.body.length ≤ Message.kMaxBodyLength)
        → List.Forall₂ (Sent sender) messages written
        → socket.Lasting
        → socket.unread = written.flatten ++ rest
        → ∃ after,
            (receiveMessages receiver messages.length).run socket
              = .ok (messages.map fun message => some (message.onHost sender receiver), after)
            ∧ after.unread = rest)
      ∧ ∀ socket : Socket, socket.Lasting
        → ∃ received after, Receives receiver socket after received := by
  refine ⟨?_, fun socket lasting => receives_of_lasting lasting⟩
  intro messages written rest socket wellSized admitted sent lasting stream
  rw [written_frames sent wellSized] at stream
  exact receiveMessages_of_frames wellSized admitted lasting stream

/-- An empty message and a short one, from a little-endian host to a big-endian one, before the
connection ends within a header.
-/
theorem messageFraming_short
    : (∃ after,
        (receiveMessages .bigEndian 2).run
            (Socket.connected ⟨"host", 1⟩ ([0, 0, 0, 0] ++ [0, 0, 0, 2, 7, 8] ++ [0, 0, 1]) none)
          = .ok ([some (.ofBody .bigEndian [] 0), some (.ofBody .bigEndian [7, 8] 2)], after)
        ∧ after.unread = [0, 0, 1])
      ∧ ∃ received after,
        Receives .bigEndian (Socket.connected ⟨"host", 1⟩ [0, 0, 1] none) after received :=
  have framing := messageFraming .littleEndian .bigEndian
  ⟨framing.1 [.ofBody .littleEndian [] 0, .ofBody .littleEndian [7, 8] 2]
      [[0, 0, 0, 0], [0, 0, 0, 2, 7, 8]] [0, 0, 1] _ (by decide) (by decide)
      (.cons ⟨Socket.connected ⟨"peer", 1⟩ [] none, _, rfl, rfl⟩
        (.cons ⟨Socket.connected ⟨"peer", 1⟩ [] none, _, rfl, rfl⟩ .nil))
      rfl rfl,
    framing.2 _ rfl⟩

end PplMe.Net
