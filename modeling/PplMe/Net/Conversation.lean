import PplMe.Foundation.Confluence
import PplMe.Net.Programs

/-! The two ends of a connection, each on its own thread.
What one end writes the other can read, once it has been written; a read waits until there is
enough, or until the other end is closed. An end is closed when its program has ended. Either end
may find the connection reset, at any moment. It can still read what came before that, and gets no
more.
-/

namespace PplMe.Net

open Stepping Failures

inductive Side where
  | client
  | server
  deriving DecidableEq

def Side.other : Side → Side
  | .client => .server
  | .server => .client

@[simp] theorem Side.other_other (side : Side) : side.other.other = side := by
  cases side <;> rfl

@[simp] theorem Side.other_ne (side : Side) : side.other ≠ side := by
  cases side <;> simp [other]

theorem Side.eq_or_eq_other (side left : Side) : side = left ∨ side = left.other := by
  cases side <;> cases left <;> simp [other]

/-- More comes in from the peer, unless the connection was reset. -/
def Socket.arrive (socket : Socket) (octets : List UInt8) : Socket :=
  match socket.resetAt with
  | none => { socket with unread := socket.unread ++ octets }
  | some _ => socket

/-- A program and the socket that it uses. Of what its peer sends, the socket has what was sent
so far. -/
structure Party (α : Type) where
  program : Program α
  socket : Socket

namespace Party

variable {α : Type}

def isEnded (party : Party α) : Bool :=
  match party.program with
  | .ended _ => true
  | _ => false

/-- The next operation does not have to wait. -/
def Ready (party : Party α) (closed : Bool) : Prop :=
  match party.program with
  | .ended _ => False
  | .read size _ =>
      size = 0 ∨ party.socket.isReset ∨ size ≤ party.socket.unread.length ∨ closed
  | _ => True

instance (party : Party α) (closed : Bool) : Decidable (party.Ready closed) := by
  unfold Ready
  split <;> infer_instance

/-- The next operation is over; an exception ends the program. -/
def perform (party : Party α) : Party α :=
  match party.program.perform.run party.socket with
  | .ok (program, socket) => ⟨program, socket⟩
  | .error failure => ⟨.ended (.error failure), party.socket⟩

/-- What was written since. -/
def sentSince (after before : Party α) : List UInt8 :=
  after.socket.written.drop before.socket.written.length

/-- More arrives from the peer. -/
def arrive (party : Party α) (octets : List UInt8) : Party α :=
  { party with socket := party.socket.arrive octets }

/-- The connection is found reset by the operations that are not over yet. -/
def reset (party : Party α) : Party α :=
  { party with socket := party.socket.resetting party.socket.operations }

end Party

/-- Both ends; what they compute may be of different types. -/
abbrev Conversation (Result : Side → Type) := (side : Side) → Party (Result side)

inductive ConversationLabel where
  | run (side : Side)
  /-- From now on a side finds the connection reset. -/
  | reset (side : Side)
  deriving DecidableEq

namespace Conversation

variable {Result : Side → Type}

/-- One side performs an operation, and what it writes arrives at the other. -/
def run (state : Conversation Result) (side : Side) : Option (Conversation Result) :=
  if (state side).Ready (state side.other).isEnded then
    let after := (state side).perform
    let octets := after.sentSince (state side)
    some
      (Function.update (Function.update state side after) side.other
        ((state side.other).arrive octets))
  else
    none

/-- A connection is reset for a side only once. -/
def reset (state : Conversation Result) (side : Side) : Option (Conversation Result) :=
  match (state side).socket.resetAt with
  | none => some (Function.update state side (state side).reset)
  | some _ => none

/-- A connection on which nothing has happened yet. -/
def start (programs : (side : Side) → Program (Result side)) (endpoints : Side → Endpoint)
    : Conversation Result :=
  fun side => ⟨programs side, .connected (endpoints side.other) [] none⟩

end Conversation

/-- Two programs on the ends of one connection. -/
def conversation {Result : Side → Type} (programs : (side : Side) → Program (Result side))
    (endpoints : Side → Endpoint)
    : Machine (Conversation Result) ConversationLabel where
  start := .start programs endpoints
  step label state :=
    match label with
    | .run side => state.run side
    | .reset side => state.reset side

-----------------------------------------------------------------------------------------
-- Operations
-----------------------------------------------------------------------------------------

section Operations

variable {α : Type}

/-- The same socket, but other things are to be read, and the reset is at another moment. -/
def Socket.reading (socket : Socket) (unread : List UInt8) (resetAt : Option Nat) : Socket :=
  { socket with unread, resetAt }

/-- Nothing that is over depends on whether the connection is reset at this moment. -/
def Socket.Unaffected (socket : Socket) (resetAt : Option Nat) : Prop :=
  resetAt = socket.resetAt
  ∨ socket.resetAt = none ∧ ∀ moment ∈ resetAt, socket.operations ≤ moment

/-- The same party with such a socket. -/
def Party.reading (party : Party α) (more : List UInt8) (resetAt : Option Nat) : Party α :=
  { party with socket := party.socket.reading (party.socket.unread ++ more) resetAt }

variable {party : Party α} {closed : Bool} {more : List UInt8} {resetAt : Option Nat}

section Arrivals

variable {socket : Socket} (octets : List UInt8)

theorem Socket.arrive_of_lasting (lasting : socket.resetAt = none)
    : socket.arrive octets = { socket with unread := socket.unread ++ octets } := by
  rw [Socket.arrive, lasting]

theorem Socket.arrive_of_ne (reset : socket.resetAt ≠ none) : socket.arrive octets = socket := by
  obtain ⟨moment, resets⟩ := Option.ne_none_iff_exists'.mp reset
  rw [Socket.arrive, resets]

@[simp] theorem Socket.arrive_nil : socket.arrive [] = socket := by
  by_cases lasting : socket.resetAt = none
  · rw [Socket.arrive_of_lasting [] lasting, List.append_nil]
  · exact Socket.arrive_of_ne [] lasting

@[simp] theorem Socket.arrive_resetAt : (socket.arrive octets).resetAt = socket.resetAt := by
  by_cases lasting : socket.resetAt = none
  · rw [Socket.arrive_of_lasting octets lasting]
  · rw [Socket.arrive_of_ne octets lasting]

@[simp] theorem Socket.arrive_written : (socket.arrive octets).written = socket.written := by
  by_cases lasting : socket.resetAt = none
  · rw [Socket.arrive_of_lasting octets lasting]
  · rw [Socket.arrive_of_ne octets lasting]

@[simp] theorem Socket.arrive_operations
    : (socket.arrive octets).operations = socket.operations := by
  by_cases lasting : socket.resetAt = none
  · rw [Socket.arrive_of_lasting octets lasting]
  · rw [Socket.arrive_of_ne octets lasting]

@[simp] theorem Socket.arrive_isReset : (socket.arrive octets).isReset = socket.isReset := by
  rw [Socket.isReset, Socket.isReset, Socket.arrive_resetAt, Socket.arrive_operations]

theorem Socket.length_arrive : socket.unread.length ≤ (socket.arrive octets).unread.length := by
  by_cases lasting : socket.resetAt = none
  · rw [Socket.arrive_of_lasting octets lasting]
    simp
  · exact Nat.le_of_eq (by rw [Socket.arrive_of_ne octets lasting])

/-- What arrives piece by piece arrives. -/
theorem Socket.arrive_arrive (more : List UInt8)
    : (socket.arrive octets).arrive more = socket.arrive (octets ++ more) := by
  by_cases lasting : socket.resetAt = none
  · rw [Socket.arrive_of_lasting more ((Socket.arrive_resetAt octets).trans lasting),
      Socket.arrive_of_lasting _ lasting, Socket.arrive_of_lasting _ lasting]
    simp only [List.append_assoc]
  · rw [Socket.arrive_of_ne octets lasting, Socket.arrive_of_ne _ lasting,
      Socket.arrive_of_ne _ lasting]

theorem Party.arrive_of_lasting (lasting : party.socket.resetAt = none)
    : party.arrive octets = party.reading octets party.socket.resetAt := by
  rw [Party.arrive, Socket.arrive_of_lasting octets lasting]
  rfl

theorem Party.arrive_of_ne (reset : party.socket.resetAt ≠ none)
    : party.arrive octets = party := by
  rw [Party.arrive, Socket.arrive_of_ne octets reset]

end Arrivals

/-- What is left of a program does what the program would have done. -/
theorem Party.run_perform
    : party.perform.program.run.run party.perform.socket = party.program.run.run party.socket := by
  rw [party.program.run_perform]
  unfold Party.perform
  split
  · rename_i program socket performed
    exact (run_bind_ok performed).symm
  · rename_i failure performed
    exact (run_bind_error performed).symm

/-- A later reset is not noticed by an operation, and the same reset is noticed just the same. -/
theorem Socket.isReset_reading (socket : Socket) {after : Socket} {unread : List UInt8}
    (unaffected : after.Unaffected resetAt) (same : after.resetAt = socket.resetAt)
    (counted : socket.operations < after.operations)
    : (socket.reading unread resetAt).isReset = socket.isReset := by
  rcases unaffected with rfl | ⟨lasting, later⟩
  · rw [same]
    rfl
  · rw [Socket.Lasting.isReset (same.symm.trans lasting)]
    unfold Socket.isReset Socket.reading
    cases resetAt with
    | none => rfl
    | some moment =>
        exact decide_eq_false (Nat.not_le.mpr (Nat.lt_of_lt_of_le counted (later moment rfl)))

/-- A reset that has taken effect is there in any case. -/
theorem isReset_reading_of_isReset {socket : Socket} {unread : List UInt8}
    (reset : socket.isReset = true) (unaffected : socket.Unaffected resetAt)
    : (socket.reading unread resetAt).isReset = true := by
  rcases unaffected with rfl | ⟨lasting, _⟩
  · exact reset
  · cases (Socket.Lasting.isReset lasting).symm.trans reset

section Socket

variable {socket after : Socket}

/-- Reads and writes do not throw. -/
theorem exists_read (size : Nat) (socket : Socket)
    : ∃ octets after, Net.read size socket = .ok (octets, after) := by
  unfold Net.read
  split
  · exact ⟨_, _, rfl⟩
  · split
    · exact ⟨_, _, rfl⟩
    · exact ⟨_, _, rfl⟩

theorem exists_write (octets : List UInt8) (socket : Socket)
    : ∃ sent after, Net.write octets socket = .ok (sent, after) := by
  unfold Net.write
  split
  · exact ⟨_, _, rfl⟩
  · split
    · exact ⟨_, _, rfl⟩
    · exact ⟨_, _, rfl⟩

/-- A read that does not have to wait does the same whatever comes later. -/
theorem read_reading {size : Nat} {octets : Option (List UInt8)}
    (ready : size = 0 ∨ socket.isReset ∨ size ≤ socket.unread.length ∨ closed)
    (complete : closed = true ∨ socket.isReset = true → more = [])
    (ran : Net.read size socket = .ok (octets, after))
    : Net.read size (socket.reading (socket.unread ++ more) resetAt)
      = .ok (octets, after.reading (after.unread ++ more) resetAt) := by
  by_cases enough : size ≤ socket.unread.length
  · cases ran.symm.trans (read_of_le enough)
    have longer : size ≤ (socket.unread ++ more).length := by
      rw [List.length_append]
      omega
    refine (@read_of_le (socket.reading (socket.unread ++ more) resetAt) _ longer).trans ?_
    simp only [Socket.reading, List.take_append_of_le_length enough,
      List.drop_append_of_le_length enough]
  · have short := Nat.not_le.mp enough
    have waits : ¬ size = 0 := by omega
    cases ran.symm.trans (read_of_lt short)
    have reason : socket.isReset = true ∨ closed = true := by simpa [waits, enough] using ready
    cases complete reason.symm
    refine (@read_of_lt (socket.reading (socket.unread ++ []) resetAt) _ ?_).trans rfl
    simpa [Socket.reading] using enough

/-- So does a write. -/
theorem write_reading {octets unread : List UInt8} {sent : Bool}
    (ran : Net.write octets socket = .ok (sent, after)) (unaffected : after.Unaffected resetAt)
    : Net.write octets (socket.reading unread resetAt)
      = .ok (sent, after.reading unread resetAt) := by
  by_cases empty : octets = []
  · rw [Net.write, if_pos empty] at ran ⊢
    cases ran
    rfl
  rw [Net.write, if_neg empty] at ran ⊢
  cases reset : socket.isReset with
  | true =>
      rw [if_pos reset] at ran
      cases ran
      rw [if_pos ((socket.isReset_reading unaffected rfl (Nat.lt_succ_self _)).trans reset)]
      rfl
  | false =>
      rw [if_neg (by simp [reset])] at ran
      cases ran
      rw [socket.isReset_reading unaffected rfl (Nat.lt_succ_self _), reset,
        if_neg Bool.false_ne_true]
      rfl

end Socket

section Performing

variable {socket after : Socket}

/-- What an operation gives is handed to the rest of the program. -/
theorem perform_map {β : Type} {program : Program α} {operation : SocketM β}
    {next : β → Program α} {value : β} (operates : program.perform = next <$> operation)
    (ran : operation socket = .ok (value, after))
    : (Party.mk program socket).perform = ⟨next value, after⟩ := by
  have performed : (next <$> operation).run socket = .ok (next value, after) := by
    rw [StateT.run_map, show operation.run socket = .ok (value, after) from ran]
    rfl
  rw [Party.perform, operates]
  simp only [performed]

theorem perform_read {size : Nat} {next : Option (List UInt8) → Program α} {octets}
    (ran : Net.read size socket = .ok (octets, after))
    : (Party.mk (.read size next) socket).perform = ⟨next octets, after⟩ :=
  perform_map rfl ran

theorem perform_write {octets : List UInt8} {next : Bool → Program α} {sent}
    (ran : Net.write octets socket = .ok (sent, after))
    : (Party.mk (.write octets next) socket).perform = ⟨next sent, after⟩ :=
  perform_map rfl ran

theorem perform_remoteEndpoint {next : Endpoint → Program α} (sound : socket.isReset = false)
    : (Party.mk (.remoteEndpoint next) socket).perform = ⟨next socket.peer, socket.tick⟩ :=
  perform_map rfl (if_neg (by simp [sound]))

theorem perform_remoteEndpoint_of_isReset {next : Endpoint → Program α}
    (reset : socket.isReset = true)
    : (Party.mk (.remoteEndpoint next) socket).perform
      = ⟨.ended (.error .notConnected), socket⟩ := by
  have threw : (next <$> Net.remoteEndpoint).run socket = .error .notConnected := by
    rw [StateT.run_map, show Net.remoteEndpoint.run socket = _ from if_pos reset]
    rfl
  rw [Party.perform, Program.perform]
  simp only [threw]

end Performing

/-- An operation does the same whatever comes later, be it octets or a reset. -/
theorem Party.perform_reading (ready : party.Ready closed)
    (complete : closed = true ∨ party.socket.isReset = true → more = [])
    (unaffected : party.perform.socket.Unaffected resetAt)
    : (party.reading more resetAt).perform = party.perform.reading more resetAt := by
  obtain ⟨program, socket⟩ := party
  cases program with
  | ended outcome => exact ready.elim
  | remoteEndpoint next =>
      cases reset : socket.isReset with
      | true =>
          rw [perform_remoteEndpoint_of_isReset reset] at unaffected ⊢
          exact perform_remoteEndpoint_of_isReset (isReset_reading_of_isReset reset unaffected)
      | false =>
          rw [perform_remoteEndpoint reset] at unaffected ⊢
          exact perform_remoteEndpoint
            ((socket.isReset_reading unaffected rfl (Nat.lt_succ_self _)).trans reset)
  | createBodyBuffer size next => rfl
  | read size next =>
      obtain ⟨octets, after, ran⟩ := exists_read size socket
      rw [perform_read ran] at unaffected ⊢
      exact perform_read (read_reading ready complete ran)
  | write octets next =>
      obtain ⟨sent, after, ran⟩ := exists_write octets socket
      rw [perform_write ran] at unaffected ⊢
      have unread : after.unread = socket.unread := by
        unfold Net.write at ran
        split at ran
        · cases ran
          rfl
        · split at ran
          · cases ran
            rfl
          · cases ran
            rfl
      refine (perform_write (write_reading ran unaffected)).trans ?_
      rw [Party.reading, unread]

end Operations

end PplMe.Net
