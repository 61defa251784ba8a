import PplMe.Net.Connection

/-! What a reset does to a computation on a socket.
Reads go on as long as there are octets that came before it. A computation that asks the socket
for its peer wherever one of its writes fails throws if the reset takes effect before it needs the
connection for the last time, and ends as it would have without the reset otherwise.
-/

namespace PplMe.Net

open Failures

-----------------------------------------------------------------------------------------
-- Connections that are reset
-----------------------------------------------------------------------------------------

namespace Socket

/-- The same socket, but the connection is reset. -/
def resetting (socket : Socket) (moment : Nat) : Socket := { socket with resetAt := some moment }

/-- No reset takes effect before so many more operations are over. -/
def LastsFor (socket : Socket) (operations : Nat) : Prop :=
  ∀ moment ∈ socket.resetAt, socket.operations + operations ≤ moment

/-- The socket, but its connection is never reset. -/
def lasting (socket : Socket) : Socket := { socket with resetAt := none }

end Socket

section Sockets

variable {socket : Socket} {moment : Nat}

theorem isReset_resetting
    : (socket.resetting moment).isReset = decide (moment ≤ socket.operations) := rfl

/-- Before the reset takes effect. -/
theorem isReset_resetting_of_lt (before : socket.operations < moment)
    : (socket.resetting moment).isReset = false := by
  rw [isReset_resetting, decide_eq_false (by omega)]

/-- And from then on. -/
theorem isReset_resetting_of_le (since : moment ≤ socket.operations)
    : (socket.resetting moment).isReset = true := by
  rw [isReset_resetting, decide_eq_true since]

/-- A reset connection stays reset. -/
theorem isReset_tick (reset : socket.isReset) : socket.tick.isReset := by
  unfold Socket.isReset at reset ⊢
  cases resets : socket.resetAt with
  | none => simp [resets] at reset
  | some moment =>
      simp only [resets, decide_eq_true_eq] at reset
      simpa [Socket.tick, resets] using Nat.le_succ_of_le reset

end Sockets

-----------------------------------------------------------------------------------------
-- Computations that need their peer
-----------------------------------------------------------------------------------------

/-- The computation throws if the connection is reset when it begins. -/
def NeedsPeer {α : Type} (computation : SocketM α) : Prop :=
  ∀ socket : Socket, socket.isReset → computation.run socket = .error .notConnected

section Needs

variable {α β : Type}

theorem needsPeer_remoteEndpoint : NeedsPeer remoteEndpoint := by
  intro socket reset
  change remoteEndpoint socket = _
  rw [remoteEndpoint, if_pos reset]

theorem NeedsPeer.bind {first : SocketM α} (needs : NeedsPeer first) (next : α → SocketM β)
    : NeedsPeer (first >>= next) :=
  fun socket reset => run_bind_error (needs socket reset)

/-- After a failed write the connection is still needed. -/
theorem needsPeer_write {octets : List UInt8} (some : octets ≠ []) {next : Bool → SocketM β}
    (needs : NeedsPeer (next false))
    : NeedsPeer (write octets >>= next) := by
  intro socket reset
  have failed : (write octets).run socket = .ok (false, socket.tick) := by
    change write octets socket = _
    rw [write, if_neg some, if_pos reset]
  rw [run_bind_ok failed]
  exact needs _ (isReset_tick reset)

end Needs

-----------------------------------------------------------------------------------------
-- How long a connection is needed
-----------------------------------------------------------------------------------------

/-- From this socket, whose connection lasts, the computation ends with this value. It does so too
if a reset takes effect after so many operations, and if one does earlier it throws.
-/
structure NeedsUntil {α : Type} (computation : SocketM α) (socket : Socket) (value : α)
    (after : Socket) (needed : Nat)
    : Prop where
  ran : computation.run socket = .ok (value, after)
  lasting : after.Lasting
  grown : socket.operations ≤ after.operations
  bound : needed ≤ after.operations
  late
    : ∀ moment,
        needed ≤ moment
        → computation.run (socket.resetting moment) = .ok (value, after.resetting moment)
  early
    : ∀ moment,
        moment < needed
        → computation.run (socket.resetting moment) = .error .notConnected

section Needed

variable {α β : Type} {socket middle after : Socket} {first : SocketM α} {next : α → SocketM β}
  {value : α} {result : β} {needed firstNeeded : Nat}

theorem NeedsUntil.pure (value : α) (lasting : socket.Lasting)
    : NeedsUntil (pure value) socket value socket 0 where
  ran := rfl
  lasting := lasting
  grown := Nat.le_refl _
  bound := Nat.zero_le _
  late _ _ := rfl
  early _ before := absurd before (Nat.not_lt_zero _)

theorem NeedsUntil.createBodyBuffer (size : Nat) (lasting : socket.Lasting)
    : NeedsUntil (createBodyBuffer size) socket ()
        { socket with bufferSizes := socket.bufferSizes ++ [size] } 0 where
  ran := rfl
  lasting := lasting
  grown := Nat.le_refl _
  bound := Nat.zero_le _
  late _ _ := rfl
  early _ before := absurd before (Nat.not_lt_zero _)

/-- A read gives the same with the reset and without it. -/
theorem NeedsUntil.readEnough {size : Nat} (enough : size ≤ socket.unread.length)
    (lasting : socket.Lasting)
    : NeedsUntil (read size) socket (some (socket.unread.take size))
        { socket with
          unread := socket.unread.drop size
          operations := socket.operations + bufferOperations size }
        0 where
  ran := read_of_le enough
  lasting := lasting
  grown := Nat.le_add_right _ _
  bound := Nat.zero_le _
  late moment _ := @read_of_le (socket.resetting moment) _ enough
  early _ before := absurd before (Nat.not_lt_zero _)

/-- Also if there is too little to read. -/
theorem NeedsUntil.readShort {size : Nat} (short : socket.unread.length < size)
    (lasting : socket.Lasting)
    : NeedsUntil (read size) socket none
        { socket with unread := [], operations := socket.operations + 1 } 0 where
  ran := read_of_lt short
  lasting := lasting
  grown := Nat.le_succ _
  bound := Nat.zero_le _
  late moment _ := @read_of_lt (socket.resetting moment) _ short
  early _ before := absurd before (Nat.not_lt_zero _)

/-- Asking for the peer needs the connection until it is over. -/
theorem NeedsUntil.remoteEndpoint (lasting : socket.Lasting)
    : NeedsUntil remoteEndpoint socket socket.peer socket.tick (socket.operations + 1) where
  ran := remoteEndpoint_of_sound lasting.isReset
  lasting := lasting
  grown := Nat.le_succ _
  bound := Nat.le_refl _
  late _ later := remoteEndpoint_of_sound (isReset_resetting_of_lt later)
  early _ before := needsPeer_remoteEndpoint _ (isReset_resetting_of_le (Nat.le_of_lt_succ before))

/-- Two computations need it until the later of both does. -/
theorem NeedsUntil.bind (earlier : NeedsUntil first socket value middle firstNeeded)
    (later : NeedsUntil (next value) middle result after needed)
    : NeedsUntil (first >>= next) socket result after (max firstNeeded needed) where
  ran := (run_bind_ok earlier.ran).trans later.ran
  lasting := later.lasting
  grown := Nat.le_trans earlier.grown later.grown
  bound := Nat.max_le.mpr ⟨Nat.le_trans earlier.bound later.grown, later.bound⟩
  late moment both := by
    obtain ⟨first, second⟩ := Nat.max_le.mp both
    exact (run_bind_ok (earlier.late moment first)).trans (later.late moment second)
  early moment before := by
    rcases Nat.lt_or_ge moment firstNeeded with inFirst | afterFirst
    · exact run_bind_error (earlier.early moment inFirst)
    · have inSecond : moment < needed := by omega
      exact (run_bind_ok (earlier.late moment afterFirst)).trans (later.early moment inSecond)

/-- So just the later part counts if it needs the connection longer. -/
theorem NeedsUntil.bindLonger (earlier : NeedsUntil first socket value middle firstNeeded)
    (later : NeedsUntil (next value) middle result after needed) (longer : firstNeeded ≤ needed)
    : NeedsUntil (first >>= next) socket result after needed := by
  have both := earlier.bind later
  rwa [Nat.max_eq_right longer] at both

/-- And just the first if the later part does not need it. -/
theorem NeedsUntil.bindFree (earlier : NeedsUntil first socket value middle firstNeeded)
    (later : NeedsUntil (next value) middle result after 0)
    : NeedsUntil (first >>= next) socket result after firstNeeded := by
  have both := earlier.bind later
  rwa [Nat.max_zero] at both

/-- A write needs it until it is over, if it throws where it has failed. -/
theorem NeedsUntil.write {octets : List UInt8} (some : octets ≠ []) {next : Bool → SocketM β}
    (lasting : socket.Lasting) (needs : NeedsPeer (next false))
    (later
      : NeedsUntil (next true)
          { socket with
            written := socket.written ++ octets
            operations := socket.operations + 1 }
          result after needed)
    : NeedsUntil (write octets >>= next) socket result after (max (socket.operations + 1) needed)
    where
  ran := by
    have wrote := write_of_sound lasting.isReset octets
    rw [bufferOperations, if_neg (by simpa using some)] at wrote
    exact (run_bind_ok wrote).trans later.ran
  lasting := later.lasting
  grown := Nat.le_trans (Nat.le_succ _) later.grown
  bound := Nat.max_le.mpr ⟨later.grown, later.bound⟩
  late moment both := by
    obtain ⟨own, second⟩ := Nat.max_le.mp both
    have wrote := write_of_sound (@isReset_resetting_of_lt socket moment own) octets
    rw [bufferOperations, if_neg (by simpa using some)] at wrote
    exact (run_bind_ok wrote).trans (later.late moment second)
  early moment before := by
    rcases Nat.lt_or_ge moment (socket.operations + 1) with own | afterOwn
    · exact needsPeer_write some needs _ (isReset_resetting_of_le (Nat.le_of_lt_succ own))
    · have wrote := write_of_sound (@isReset_resetting_of_lt socket moment afterOwn) octets
      rw [bufferOperations, if_neg (by simpa using some)] at wrote
      exact (run_bind_ok wrote).trans (later.early moment (by omega))

/-- On any socket the computation ends with its value if no reset takes effect too early. -/
theorem NeedsUntil.ended {computation : SocketM α}
    (needs : NeedsUntil computation socket.lasting value after needed)
    (lasts : ∀ moment ∈ socket.resetAt, needed ≤ moment)
    : ∃ after, computation.run socket = .ok (value, after) := by
  cases resets : socket.resetAt with
  | none =>
      have same : socket.lasting = socket := by rw [Socket.lasting, ← resets]
      exact ⟨after, same ▸ needs.ran⟩
  | some moment =>
      have same : socket.lasting.resetting moment = socket := by
        rw [Socket.lasting, Socket.resetting, ← resets]
      exact ⟨_, same ▸ needs.late moment (lasts moment resets)⟩

/-- And it ends just then. -/
theorem NeedsUntil.ends_iff {computation : SocketM α}
    (needs : NeedsUntil computation socket.lasting value after needed)
    : (∃ value after, computation.run socket = .ok (value, after))
      ↔ ∀ moment ∈ socket.resetAt, needed ≤ moment := by
  refine ⟨?_, fun lasts => ⟨value, needs.ended lasts⟩⟩
  rintro ⟨value, after, ended⟩ moment resets
  by_contra early
  have same : socket.lasting.resetting moment = socket := by
    rw [Socket.lasting, Socket.resetting, ← show socket.resetAt = some moment from resets]
  cases ended.symm.trans (same ▸ needs.early moment (Nat.not_le.mp early))

end Needed

-----------------------------------------------------------------------------------------
-- Computations that end or throw
-----------------------------------------------------------------------------------------

/-- From a socket whose connection lasts, the computation ends with a result; a reset leaves the
result as it is or makes it throw.
-/
def EndsOrThrows {α : Type} (computation : SocketM α) : Prop :=
  ∀ socket : Socket, socket.Lasting
    → ∃ value after needed, NeedsUntil computation socket value after needed

section Ends

variable {α β : Type}

theorem EndsOrThrows.pure (value : α) : EndsOrThrows (pure value) :=
  fun socket lasting => ⟨value, socket, 0, .pure value lasting⟩

theorem EndsOrThrows.createBodyBuffer (size : Nat) : EndsOrThrows (createBodyBuffer size) :=
  fun _ lasting => ⟨(), _, 0, .createBodyBuffer size lasting⟩

theorem EndsOrThrows.read (size : Nat) : EndsOrThrows (read size) := by
  intro socket lasting
  by_cases enough : size ≤ socket.unread.length
  · exact ⟨_, _, 0, .readEnough enough lasting⟩
  · exact ⟨_, _, 0, .readShort (Nat.not_le.mp enough) lasting⟩

theorem EndsOrThrows.remoteEndpoint : EndsOrThrows remoteEndpoint :=
  fun _ lasting => ⟨_, _, _, .remoteEndpoint lasting⟩

/-- A reset falls into the first part or into the second. -/
theorem EndsOrThrows.bind {first : SocketM α} {next : α → SocketM β}
    (firstEnds : EndsOrThrows first) (nextEnds : ∀ value, EndsOrThrows (next value))
    : EndsOrThrows (first >>= next) := by
  intro socket lasting
  obtain ⟨value, middle, firstNeeded, earlier⟩ := firstEnds socket lasting
  obtain ⟨result, after, needed, later⟩ := nextEnds value middle earlier.lasting
  exact ⟨result, after, _, earlier.bind later⟩

/-- A write and what follows, which throws if the write failed because of a reset. -/
theorem EndsOrThrows.write (octets : List UInt8) {next : Bool → SocketM β}
    (nextEnds : ∀ value, EndsOrThrows (next value)) (needs : NeedsPeer (next false))
    : EndsOrThrows (write octets >>= next) := by
  by_cases empty : octets = []
  · rw [empty, show Net.write [] = Pure.pure true from rfl, pure_bind]
    exact nextEnds true
  · intro socket lasting
    obtain ⟨result, after, needed, later⟩
      := nextEnds true
        { socket with
          written := socket.written ++ octets
          operations := socket.operations + 1 }
        lasting
    exact ⟨result, after, _, .write empty lasting needs later⟩

end Ends

end PplMe.Net
