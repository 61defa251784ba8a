import PplMe.Net.Message
import PplMe.Foundation.Failures

/-! Sending and receiving messages over a connected socket.
A peer sends some octets and then closes, or resets the connection at some moment. A read
fills its buffer or fails; octets that came before a reset can still be read after it. A write
sends its whole buffer or fails, and asking the socket for its peer throws, once the connection
was reset. Operations on empty buffers do not involve the socket.
-/

namespace PplMe.Net

open Octets Failures

/-- What the socket throws where no error code is passed. -/
inductive SocketException where
  | notConnected
  deriving DecidableEq, Repr

structure Endpoint where
  address : String
  port : UInt16
  deriving DecidableEq, Repr

structure Socket where
  peer : Endpoint
  /-- What the peer sends before a reset, and has not been read. -/
  unread : List UInt8
  written : List UInt8
  /-- How many operations on the socket are over when the reset takes effect, if one does. -/
  resetAt : Option Nat
  operations : Nat
  /-- The sizes of the body buffers created for what was read. -/
  bufferSizes : List Nat

abbrev SocketM := StateT Socket (Except SocketException)

namespace Socket

/-- A connection on which nothing has happened yet. -/
def connected (peer : Endpoint) (sent : List UInt8) (resetAt : Option Nat) : Socket :=
  ⟨peer, sent, [], resetAt, 0, []⟩

/-- The reset takes effect before the next operation is over. -/
def isReset (socket : Socket) : Bool :=
  match socket.resetAt with
  | none => false
  | some moment => decide (moment ≤ socket.operations)

/-- One more operation is over. -/
def tick (socket : Socket) : Socket := { socket with operations := socket.operations + 1 }

@[simp] theorem tick_unread (socket : Socket) : socket.tick.unread = socket.unread := rfl

@[simp] theorem tick_peer (socket : Socket) : socket.tick.peer = socket.peer := rfl

@[simp] theorem tick_operations (socket : Socket)
    : socket.tick.operations = socket.operations + 1 := rfl

end Socket

/-- `asio::read` of as many octets as the buffer has. -/
def read (size : Nat) : SocketM (Option (List UInt8)) := fun socket =>
  if size = 0 then
    .ok (some [], socket)
  else if size ≤ socket.unread.length then
    .ok (some (socket.unread.take size),
      { socket.tick with unread := socket.unread.drop size })
  else
    .ok (none, { socket.tick with unread := [] })

/-- `asio::write`; whether all was written. -/
def write (octets : List UInt8) : SocketM Bool := fun socket =>
  if octets = [] then
    .ok (true, socket)
  else if socket.isReset then
    .ok (false, socket.tick)
  else
    .ok (true, { socket.tick with written := socket.written ++ octets })

/-- `socket.remote_endpoint()`, without an error code. -/
def remoteEndpoint : SocketM Endpoint := fun socket =>
  if socket.isReset then .error .notConnected else .ok (socket.peer, socket.tick)

/-- `Message::CreateBodyBuffer` for a message that is being received. -/
def createBodyBuffer (size : Nat) : SocketM Unit := fun socket =>
  .ok ((), { socket with bufferSizes := socket.bufferSizes ++ [size] })

-----------------------------------------------------------------------------------------
-- Connections
-----------------------------------------------------------------------------------------

variable (host : ByteOrder)

/-- The octets that are written for a message's body. -/
def Message.bodyOctets (message : Message) : List UInt8 :=
  message.body.take (message.getBodyLength host).toNat

def getPeerEndpoint : SocketM Endpoint := remoteEndpoint

def sendMessage (message : Message) : SocketM Bool := do
  let headerWritten ← write (message.header.octets host)
  let written ← (if headerWritten then write (message.bodyOctets host) else pure false)
  if written then
    pure true
  else
    -- the log message names the peer
    let _ ← remoteEndpoint
    pure false

def receiveMessage : SocketM (Option Message) := do
  match ← read 4 with
  | none =>
      let _ ← remoteEndpoint
      pure none
  | some octets =>
      let header := Header.ofOctets host octets
      let bodyLength := (header.getBodyLength host).toNat
      if bodyLength ≤ Message.kMaxBodyLength then
        createBodyBuffer bodyLength
        match ← read bodyLength with
        | none =>
            let _ ← remoteEndpoint
            pure none
        | some body => pure (some ⟨header, body⟩)
      else
        let _ ← remoteEndpoint
        pure none

section Lasting

variable {host} {socket : Socket}

/-- The connection is never reset. -/
def Socket.Lasting (socket : Socket) : Prop := socket.resetAt = none

theorem Socket.Lasting.isReset (lasting : socket.Lasting) : socket.isReset = false := by
  unfold Socket.isReset
  rw [show socket.resetAt = none from lasting]

/-- How many operations a read or a write of a buffer is. -/
def bufferOperations (size : Nat) : Nat := if size = 0 then 0 else 1

/-- A socket reads what there is enough of. -/
theorem read_of_le {size : Nat} (enough : size ≤ socket.unread.length)
    : (read size).run socket
      = .ok (some (socket.unread.take size),
          { socket with
            unread := socket.unread.drop size
            operations := socket.operations + bufferOperations size }) := by
  change read size socket = _
  unfold read bufferOperations
  by_cases empty : size = 0
  · simp [empty]
  · simp only [if_neg empty, if_pos enough]
    rfl

/-- And comes to the end of what there is not enough of. -/
theorem read_of_lt {size : Nat} (short : socket.unread.length < size)
    : (read size).run socket
      = .ok (none, { socket with unread := [], operations := socket.operations + 1 }) := by
  change read size socket = _
  unfold read
  rw [if_neg (by omega), if_neg (by omega)]
  rfl

/-- A connection that is not reset writes everything. -/
theorem write_of_sound (sound : socket.isReset = false) (octets : List UInt8)
    : (write octets).run socket
      = .ok (true,
          { socket with
            written := socket.written ++ octets
            operations := socket.operations + bufferOperations octets.length }) := by
  change write octets socket = _
  unfold write bufferOperations
  split
  · rename_i empty
    simp [empty]
  · rename_i some
    simp [sound, Socket.tick, List.length_eq_zero_iff, some]

/-- It has a peer. -/
theorem remoteEndpoint_of_sound (sound : socket.isReset = false)
    : remoteEndpoint.run socket
      = .ok (socket.peer, { socket with operations := socket.operations + 1 }) := by
  change remoteEndpoint socket = _
  simp [remoteEndpoint, sound, Socket.tick]

/-- A lasting connection sends header and body. -/
theorem sendMessage_of_lasting (lasting : socket.Lasting) (message : Message)
    : (sendMessage host message).run socket
      = .ok (true,
          { socket with
            written
              := socket.written ++ (message.header.octets host ++ message.bodyOctets host)
            operations
              := socket.operations + 1 + bufferOperations (message.bodyOctets host).length }) := by
  have header : bufferOperations (message.header.octets host).length = 1 := by
    simp [Header.octets, bufferOperations]
  unfold sendMessage
  rw [run_bind_ok (write_of_sound lasting.isReset _), if_pos rfl,
    run_bind_ok (write_of_sound (by exact Socket.Lasting.isReset lasting) _)]
  simp only [if_true, header, List.append_assoc]
  rfl

end Lasting

-----------------------------------------------------------------------------------------
-- What is received
-----------------------------------------------------------------------------------------

/-- What the first four octets say about the length of the rest. -/
def declaredLength (octets : List UInt8) : Nat := networkValue (octets.take 4)

/-- A complete message of an admitted length comes first. -/
def Framed (octets : List UInt8) : Prop :=
  4 ≤ octets.length
  ∧ declaredLength octets ≤ Message.kMaxBodyLength
  ∧ declaredLength octets ≤ (octets.drop 4).length

instance (octets : List UInt8) : Decidable (Framed octets) :=
  inferInstanceAs (Decidable (_ ∧ _ ∧ _))

/-- The message that comes first. -/
def firstMessage (octets : List UInt8) : Message :=
  ⟨.ofOctets host (octets.take 4), (octets.drop 4).take (declaredLength octets)⟩

/-- The socket after its first message was received: just its octets are read. -/
def Socket.afterMessage (socket : Socket) : Socket :=
  { socket with
    unread := socket.unread.drop (4 + declaredLength socket.unread)
    operations := socket.operations + 1 + bufferOperations (declaredLength socket.unread)
    bufferSizes := socket.bufferSizes ++ [declaredLength socket.unread] }

section Receiving

variable {host} {socket : Socket}

/-- A header read from octets declares what the octets say, on every host. -/
theorem getBodyLength_ofOctets {octets : List UInt8} (four : octets.length = 4)
    : ((Header.ofOctets host octets).getBodyLength host).toNat = networkValue octets := by
  rw [Header.ofOctets, Header.getBodyLength, host.ntohl_load four, UInt32.toNat_ofNat',
    Nat.mod_eq_of_lt (networkValue_lt four)]

theorem bufferOperations_four : bufferOperations 4 = 1 := rfl

/-- After an admitted header, what is received depends on the read of the body. -/
theorem receiveMessage_of_admitted (header : 4 ≤ socket.unread.length)
    (admitted : declaredLength socket.unread ≤ Message.kMaxBodyLength)
    : (receiveMessage host).run socket
      = StateT.run (do
          match ← read (declaredLength socket.unread) with
          | none =>
              let _ ← remoteEndpoint
              pure none
          | some body => pure (some ⟨.ofOctets host (socket.unread.take 4), body⟩))
          { socket with
            unread := socket.unread.drop 4
            operations := socket.operations + 1
            bufferSizes := socket.bufferSizes ++ [declaredLength socket.unread] } := by
  have four : (socket.unread.take 4).length = 4 := by rw [List.length_take]; omega
  unfold receiveMessage
  rw [run_bind_ok (read_of_le header)]
  simp only [getBodyLength_ofOctets four, bufferOperations_four]
  rw [if_pos (show networkValue (socket.unread.take 4) ≤ _ from admitted)]
  rfl

/-- A complete message is received. -/
theorem receiveMessage_of_framed (framed : Framed socket.unread)
    : (receiveMessage host).run socket
      = .ok (some (firstMessage host socket.unread), socket.afterMessage) := by
  obtain ⟨header, admitted, complete⟩ := framed
  rw [receiveMessage_of_admitted header admitted, run_bind_ok (read_of_le complete)]
  simp only [List.drop_drop, Socket.afterMessage]
  rfl

/-- On a lasting connection a stream that ends within the header gives no message. -/
theorem receiveMessage_of_shortHeader (lasting : socket.Lasting)
    (short : socket.unread.length < 4)
    : (receiveMessage host).run socket
      = .ok (none, { socket with unread := [], operations := socket.operations + 2 }) := by
  unfold receiveMessage
  rw [run_bind_ok (read_of_lt short)]
  simp only
  rw [run_bind_ok (remoteEndpoint_of_sound (by exact Socket.Lasting.isReset lasting))]
  rfl

/-- Nor does a header that declares too long a body, for which no buffer is created. -/
theorem receiveMessage_of_tooBig (lasting : socket.Lasting) (header : 4 ≤ socket.unread.length)
    (tooBig : Message.kMaxBodyLength < declaredLength socket.unread)
    : (receiveMessage host).run socket
      = .ok (none,
          { socket with
            unread := socket.unread.drop 4
            operations := socket.operations + 2 }) := by
  have four : (socket.unread.take 4).length = 4 := by rw [List.length_take]; omega
  unfold receiveMessage
  rw [run_bind_ok (read_of_le header)]
  simp only [getBodyLength_ofOctets four, bufferOperations_four]
  rw [if_neg (show ¬ networkValue (socket.unread.take 4) ≤ _ from Nat.not_le.mpr tooBig),
    run_bind_ok (remoteEndpoint_of_sound (by exact Socket.Lasting.isReset lasting))]
  rfl

/-- Nor does a stream that ends within the body. -/
theorem receiveMessage_of_shortBody (lasting : socket.Lasting)
    (header : 4 ≤ socket.unread.length)
    (admitted : declaredLength socket.unread ≤ Message.kMaxBodyLength)
    (short : (socket.unread.drop 4).length < declaredLength socket.unread)
    : (receiveMessage host).run socket
      = .ok (none,
          { socket with
            unread := []
            operations := socket.operations + 3
            bufferSizes := socket.bufferSizes ++ [declaredLength socket.unread] }) := by
  rw [receiveMessage_of_admitted header admitted, run_bind_ok (read_of_lt short)]
  simp only
  rw [run_bind_ok (remoteEndpoint_of_sound (by exact Socket.Lasting.isReset lasting))]
  rfl

end Receiving

end PplMe.Net
