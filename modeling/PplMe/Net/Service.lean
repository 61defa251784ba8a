import PplMe.Net.Resets

/-! What a connection thread does with its connection, whatever its peer does. -/

namespace PplMe.Net

open Octets Failures

/-- The server's handler is given the address and the port of the client and its request. -/
abbrev RequestHandler := String → UInt16 → Message → Option Message

/-- The part of the connection thread's function that handles a request. -/
def answerRequest (host : ByteOrder) (requestHandler : RequestHandler) (request : Message)
    : SocketM Unit := do
  let addressed ← getPeerEndpoint
  let connected ← getPeerEndpoint
  match requestHandler addressed.address connected.port request with
  | none => pure ()
  | some response =>
      let sent ← sendMessage host response
      if sent then
        pure ()
      else
        let _ ← getPeerEndpoint
        pure ()

/-- The connection thread's function up to the step that removes the thread from the registry;
the requests that the handler is called with.
-/
def service (host : ByteOrder) (requestHandler : RequestHandler) : SocketM (List Message) := do
  let _ ← getPeerEndpoint
  match ← receiveMessage host with
  | some request =>
      answerRequest host requestHandler request
      pure [request]
  | none =>
      let _ ← getPeerEndpoint
      pure []

section Resets

variable (host : ByteOrder)

/-- Where something failed, the peer is named in the log. -/
theorem needsPeer_logged {α : Type} (value : α)
    : NeedsPeer (remoteEndpoint >>= fun _ => pure value) :=
  needsPeer_remoteEndpoint.bind _

theorem endsOrThrows_logged {α : Type} (value : α)
    : EndsOrThrows (remoteEndpoint >>= fun _ => pure value) :=
  .bind .remoteEndpoint fun _ => .pure value

theorem endsOrThrows_sendMessage (message : Message)
    : EndsOrThrows (sendMessage host message) := by
  have last (written : Bool)
      : EndsOrThrows (if written then pure true else remoteEndpoint >>= fun _ => pure false) := by
    cases written with
    | true => exact .pure true
    | false => exact endsOrThrows_logged false
  refine .write _ (fun headerWritten => ?_) (needsPeer_logged false)
  cases headerWritten with
  | true => exact .write _ last (needsPeer_logged false)
  | false => exact last false

theorem endsOrThrows_receiveMessage : EndsOrThrows (receiveMessage host) := by
  refine .bind (.read 4) fun octets => ?_
  cases octets with
  | none => exact endsOrThrows_logged none
  | some octets =>
      dsimp only
      split
      · refine .bind (.createBodyBuffer _) fun _ => .bind (.read _) fun body => ?_
        cases body with
        | none => exact endsOrThrows_logged none
        | some body => exact .pure _
      · exact endsOrThrows_logged none

theorem endsOrThrows_answerRequest (requestHandler : RequestHandler) (request : Message)
    : EndsOrThrows (answerRequest host requestHandler request) := by
  refine .bind .remoteEndpoint fun addressed => .bind .remoteEndpoint fun connected => ?_
  split
  · exact .pure ()
  · refine .bind (endsOrThrows_sendMessage host _) fun sent => ?_
    cases sent with
    | true => exact .pure ()
    | false => exact .bind .remoteEndpoint fun _ => .pure ()

theorem endsOrThrows_service (requestHandler : RequestHandler)
    : EndsOrThrows (service host requestHandler) := by
  refine .bind .remoteEndpoint fun _ => .bind (endsOrThrows_receiveMessage host) fun request => ?_
  cases request with
  | none => exact .bind .remoteEndpoint fun _ => .pure []
  | some request =>
      exact .bind (endsOrThrows_answerRequest host requestHandler request) fun _ => .pure _

end Resets

section Operations

variable (host : ByteOrder)

/-- How many operations on the socket it takes to receive from a stream. -/
def receiveOperations (sent : List UInt8) : Nat :=
  if Framed sent then
    1 + bufferOperations (declaredLength sent)
  else if 4 ≤ sent.length ∧ declaredLength sent ≤ Message.kMaxBodyLength then
    3
  else
    2

/-- And how many to send a message. -/
def sendOperations (message : Message) : Nat :=
  1 + bufferOperations (message.bodyOctets host).length

/-- And to handle a request. -/
def answerOperations (requestHandler : RequestHandler) (peer : Endpoint) (request : Message)
    : Nat :=
  match requestHandler peer.address peer.port request with
  | none => 2
  | some response => 2 + sendOperations host response

/-- And how many a connection thread performs for what its peer sends. -/
def serviceOperations (requestHandler : RequestHandler) (peer : Endpoint) (sent : List UInt8)
    : Nat :=
  if Framed sent then
    1 + receiveOperations sent
      + answerOperations host requestHandler peer (firstMessage host sent)
  else
    2 + receiveOperations sent

end Operations

section Needed

variable {host : ByteOrder} {socket : Socket}

/-- Naming the peer in the log needs the connection. -/
theorem needsUntil_logged {α : Type} (value : α) (lasting : socket.Lasting)
    : NeedsUntil (remoteEndpoint >>= fun _ => pure value) socket value socket.tick
        (socket.operations + 1) :=
  (NeedsUntil.remoteEndpoint lasting).bindFree (.pure value (by exact lasting))

/-- A complete message that was sent before the reset is received, whatever the reset. -/
theorem needsUntil_receiveMessage_of_framed (lasting : socket.Lasting)
    (framed : Framed socket.unread)
    : NeedsUntil (receiveMessage host) socket (some (firstMessage host socket.unread))
        socket.afterMessage 0 where
  ran := receiveMessage_of_framed framed
  lasting := lasting
  grown := Nat.le_trans (Nat.le_succ _) (Nat.le_add_right _ _)
  bound := Nat.zero_le _
  late moment _ := @receiveMessage_of_framed host (socket.resetting moment) framed
  early _ before := absurd before (Nat.not_lt_zero _)

/-- Where no message is received, the connection is needed up to the end. -/
theorem needsUntil_receiveMessage_of_not_framed (lasting : socket.Lasting)
    (unframed : ¬ Framed socket.unread)
    : ∃ after,
        NeedsUntil (receiveMessage host) socket none after
          (socket.operations + receiveOperations socket.unread)
        ∧ after.operations = socket.operations + receiveOperations socket.unread := by
  unfold receiveOperations
  rw [if_neg unframed]
  by_cases header : 4 ≤ socket.unread.length
  · have four : (socket.unread.take 4).length = 4 := by rw [List.length_take]; omega
    have first := NeedsUntil.readEnough header lasting
    by_cases admitted : declaredLength socket.unread ≤ Message.kMaxBodyLength
    · have short := Nat.not_le.mp fun complete => unframed ⟨header, admitted, complete⟩
      rw [if_pos ⟨header, admitted⟩]
      refine
        ⟨{ socket with
            unread := []
            operations := socket.operations + 3
            bufferSizes := socket.bufferSizes ++ [declaredLength socket.unread] },
          first.bindLonger ?_ (Nat.zero_le _), rfl⟩
      simp only [getBodyLength_ofOctets four, bufferOperations_four]
      rw [if_pos (show networkValue (socket.unread.take 4) ≤ _ from admitted)]
      exact (NeedsUntil.createBodyBuffer _ (by exact lasting)).bindLonger
        ((NeedsUntil.readShort short (by exact lasting)).bindLonger
          (needsUntil_logged none (by exact lasting)) (Nat.zero_le _))
        (Nat.zero_le _)
    · rw [if_neg (fun both => admitted both.2)]
      refine
        ⟨{ socket with unread := socket.unread.drop 4, operations := socket.operations + 2 },
          first.bindLonger ?_ (Nat.zero_le _), rfl⟩
      simp only [getBodyLength_ofOctets four, bufferOperations_four]
      rw [if_neg (show ¬ networkValue (socket.unread.take 4) ≤ _ from admitted)]
      exact needsUntil_logged none (by exact lasting)
  · rw [if_neg (fun both => header both.1)]
    have first := NeedsUntil.readShort (Nat.not_le.mp header) lasting
    refine
      ⟨{ socket with unread := [], operations := socket.operations + 2 },
        first.bindLonger ?_ (Nat.zero_le _), rfl⟩
    exact needsUntil_logged none (by exact lasting)

/-- Sending a message needs the connection up to its last write. -/
theorem needsUntil_sendMessage (message : Message) (lasting : socket.Lasting)
    : ∃ after,
        NeedsUntil (sendMessage host message) socket true after
          (socket.operations + sendOperations host message) := by
  have header : message.header.octets host ≠ [] := by
    intro empty
    simpa [Header.octets] using congrArg List.length empty
  let headerSent : Socket :=
    { socket with
      written := socket.written ++ message.header.octets host
      operations := socket.operations + 1 }
  by_cases empty : message.bodyOctets host = []
  · have operations : sendOperations host message = 1 := by
      simp [sendOperations, empty, bufferOperations]
    have ended
        : NeedsUntil (sendMessage host message) socket true headerSent
            (max (socket.operations + 1) 0) := by
      unfold sendMessage
      rw [empty]
      exact .write header lasting (needsPeer_logged false) (.pure true lasting)
    rw [Nat.max_zero] at ended
    exact ⟨headerSent, operations ▸ ended⟩
  · have operations : sendOperations host message = 2 := by
      simp [sendOperations, empty, bufferOperations]
    have ended
        : NeedsUntil (sendMessage host message) socket true
            { headerSent with
              written := headerSent.written ++ message.bodyOctets host
              operations := headerSent.operations + 1 }
            (max (socket.operations + 1) (max (headerSent.operations + 1) 0)) :=
      .write header lasting (needsPeer_logged false)
        (.write empty lasting (needsPeer_logged false) (.pure true lasting))
    have total
        : max (socket.operations + 1) (max (headerSent.operations + 1) 0)
          = socket.operations + 2 := by
      simp only [headerSent]
      omega
    exact ⟨_, operations ▸ total ▸ ended⟩

/-- And handling a request, up to the last write of the response, if there is one. -/
theorem needsUntil_answerRequest (requestHandler : RequestHandler) (request : Message)
    (lasting : socket.Lasting)
    : ∃ after,
        NeedsUntil (answerRequest host requestHandler request) socket () after
          (socket.operations + answerOperations host requestHandler socket.peer request) := by
  have addressed := NeedsUntil.remoteEndpoint lasting
  have connected := @NeedsUntil.remoteEndpoint socket.tick lasting
  unfold answerOperations
  cases answer : requestHandler socket.peer.address socket.peer.port request with
  | none =>
      dsimp only
      refine ⟨socket.tick.tick, addressed.bindLonger (connected.bindFree ?_) (Nat.le_succ _)⟩
      simp only [Socket.tick_peer, answer]
      exact .pure () (by exact lasting)
  | some response =>
      dsimp only
      obtain ⟨after, sent⟩ := @needsUntil_sendMessage host socket.tick.tick response lasting
      have same
          : socket.tick.tick.operations + sendOperations host response
            = socket.operations + (2 + sendOperations host response) := by
        simp only [Socket.tick_operations]
        omega
      refine ⟨after, addressed.bindLonger (connected.bindLonger ?_ ?_) ?_⟩
      · simp only [Socket.tick_peer, answer]
        exact (same ▸ sent).bindFree (.pure () sent.lasting)
      · simp only [Socket.tick_operations]
        omega
      · omega

/-- A connection thread needs the connection up to its last operation. -/
theorem needsUntil_service (requestHandler : RequestHandler) (lasting : socket.Lasting)
    : ∃ handed after,
        NeedsUntil (service host requestHandler) socket handed after
          (socket.operations + serviceOperations host requestHandler socket.peer socket.unread)
        ∧ handed.length ≤ 1
        ∧ ∀ request ∈ handed, Framed socket.unread ∧ request = firstMessage host socket.unread := by
  have named := NeedsUntil.remoteEndpoint lasting
  by_cases framed : Framed socket.unread
  · have received := @needsUntil_receiveMessage_of_framed host socket.tick lasting framed
    obtain ⟨after, answered⟩
      := @needsUntil_answerRequest host _ requestHandler (firstMessage host socket.unread)
        received.lasting
    have total
        : socket.tick.afterMessage.operations
            + answerOperations host requestHandler socket.peer (firstMessage host socket.unread)
          = socket.operations
            + serviceOperations host requestHandler socket.peer socket.unread := by
      rw [serviceOperations, if_pos framed, receiveOperations, if_pos framed]
      simp only [Socket.afterMessage, Socket.tick_operations, Socket.tick_unread]
      omega
    refine ⟨[firstMessage host socket.unread], after, ?_, Nat.le_refl 1, by simp [framed]⟩
    refine total ▸ named.bindLonger (received.bindLonger ?_ (Nat.zero_le _)) ?_
    · exact answered.bindFree (.pure _ answered.lasting)
    · simp only [Socket.afterMessage, Socket.tick_operations]
      omega
  · obtain ⟨middle, received, counted⟩
      := @needsUntil_receiveMessage_of_not_framed host socket.tick lasting framed
    have logged := needsUntil_logged ([] : List Message) received.lasting
    have total
        : middle.operations + 1
          = socket.operations
            + serviceOperations host requestHandler socket.peer socket.unread := by
      rw [counted, serviceOperations, if_neg framed]
      simp only [Socket.tick_operations, Socket.tick_unread]
      omega
    refine ⟨[], middle.tick, ?_, Nat.zero_le 1, by simp⟩
    refine total ▸ named.bindLonger (received.bindLonger logged ?_) ?_
    · rw [counted]
      exact Nat.le_succ _
    · rw [counted, Socket.tick_operations]
      omega

end Needed

-----------------------------------------------------------------------------------------
-- Peers that reset the connection
-----------------------------------------------------------------------------------------

/-- A connection thread's function runs to its end, and calls the handler at most once, with a
completely received message.
-/
def ServiceEnds (host : ByteOrder) (requestHandler : RequestHandler) (socket : Socket) : Prop :=
  ∃ handed after,
    (service host requestHandler).run socket = .ok (handed, after)
    ∧ handed.length ≤ 1
    ∧ ∀ request ∈ handed, Framed socket.unread ∧ request = firstMessage host socket.unread

section Ends

variable {host : ByteOrder} {socket : Socket}

/-- `ReceiveMessage` ends if it gets a message, or the reset comes after its last operation. -/
theorem receiveMessage_ends_iff
    : (∃ received after, (receiveMessage host).run socket = .ok (received, after))
      ↔ Framed socket.unread ∨ socket.LastsFor (receiveOperations socket.unread) := by
  by_cases framed : Framed socket.unread
  · exact iff_of_true ⟨_, _, receiveMessage_of_framed framed⟩ (.inl framed)
  · obtain ⟨after, needs, _⟩
      := @needsUntil_receiveMessage_of_not_framed host socket.lasting rfl framed
    rw [needs.ends_iff, or_iff_right framed]
    rfl

theorem sendMessage_ends_iff (message : Message)
    : (∃ sent after, (sendMessage host message).run socket = .ok (sent, after))
      ↔ socket.LastsFor (sendOperations host message) := by
  obtain ⟨after, needs⟩ := @needsUntil_sendMessage host socket.lasting message rfl
  exact needs.ends_iff

theorem service_ends_iff (requestHandler : RequestHandler)
    : ServiceEnds host requestHandler socket
      ↔ socket.LastsFor (serviceOperations host requestHandler socket.peer socket.unread) := by
  obtain ⟨handed, after, needs, once, complete⟩
    := @needsUntil_service host socket.lasting requestHandler rfl
  constructor
  · rintro ⟨handed, after, ended, _⟩
    exact needs.ends_iff.mp ⟨handed, after, ended⟩
  · intro lasts
    obtain ⟨after, ended⟩ := needs.ended lasts
    exact ⟨handed, after, ended, once, complete⟩

end Ends

/-- No exception leaves a call of `SendMessage` or of a connection thread's function just if the
connection is not reset before the call's last operation on the socket. One leaves a call of
`ReceiveMessage` just if no complete message came before a reset that comes so early.
-/
theorem connection_ends_iff (host : ByteOrder)
    : (∀ socket,
        (∃ received after, (receiveMessage host).run socket = .ok (received, after))
        ↔ Framed socket.unread ∨ socket.LastsFor (receiveOperations socket.unread))
      ∧ (∀ socket message,
        (∃ sent after, (sendMessage host message).run socket = .ok (sent, after))
        ↔ socket.LastsFor (sendOperations host message))
      ∧ ∀ requestHandler peer sent resetAt,
        ServiceEnds host requestHandler (.connected peer sent resetAt)
        ↔ (Socket.connected peer sent resetAt).LastsFor
            (serviceOperations host requestHandler peer sent) :=
  ⟨fun _ => receiveMessage_ends_iff, fun _ => sendMessage_ends_iff,
    fun requestHandler _ _ _ => service_ends_iff requestHandler⟩

/-- A peer that resets the connection after half a header: reading the rest fails, and so does
naming the peer in the log.
-/
theorem connection_throws_of_reset
    : (receiveMessage .littleEndian).run
          (.connected ⟨"192.0.2.1", 4096⟩ [0, 0] (some 0))
        = .error .notConnected
      ∧ ¬ ServiceEnds .littleEndian (fun _ _ _ => none)
        (.connected ⟨"192.0.2.1", 4096⟩ [0, 0] (some 1)) := by
  refine ⟨rfl, ?_⟩
  rintro ⟨_, _, ended, _⟩
  cases ended

end PplMe.Net
