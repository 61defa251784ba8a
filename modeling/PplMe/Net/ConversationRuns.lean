import PplMe.Net.Conversation

/-! Conversations against computations that know what their peer will send.
Whatever the two ends do in between, a program that has ended has done what its computation
does at once, on a socket from which it can read what has arrived: all that the other end has
written, or had written when the connection was reset. Without resets neither end can disturb the
other, so that all interleavings come to the same end.
-/

namespace PplMe.Net

open Stepping Failures

-----------------------------------------------------------------------------------------
-- What an operation changes
-----------------------------------------------------------------------------------------

/-- How an operation leaves the socket. -/
structure Socket.Performed (before after : Socket) : Prop where
  written : before.written <+: after.written
  unread : after.unread <:+ before.unread
  resetAt : after.resetAt = before.resetAt
  operations : before.operations ≤ after.operations
  silent : before.isReset = true → after.written = before.written

section Performed

variable {α : Type} {socket after : Socket} {party : Party α} {closed : Bool}

theorem Socket.Performed.refl (socket : Socket) : socket.Performed socket :=
  ⟨List.prefix_refl _, List.suffix_refl _, rfl, Nat.le_refl _, fun _ => rfl⟩

theorem Socket.Performed.tick (socket : Socket) : socket.Performed socket.tick :=
  ⟨List.prefix_refl _, List.suffix_refl _, rfl, Nat.le_succ _, fun _ => rfl⟩

/-- A reset stays. -/
theorem Socket.Performed.isReset (performed : socket.Performed after)
    (reset : socket.isReset = true)
    : after.isReset = true := by
  have counted := performed.operations
  unfold Socket.isReset at reset ⊢
  rw [performed.resetAt]
  cases resets : socket.resetAt with
  | none => simp [resets] at reset
  | some moment =>
      simp only [resets, decide_eq_true_eq] at reset ⊢
      omega

theorem performed_of_read {size : Nat} {octets : Option (List UInt8)}
    (ran : Net.read size socket = .ok (octets, after))
    : socket.Performed after := by
  unfold Net.read at ran
  split at ran
  · cases ran
    exact .refl socket
  · split at ran
    · cases ran
      exact ⟨List.prefix_refl _, List.drop_suffix _ _, rfl, Nat.le_succ _, fun _ => rfl⟩
    · cases ran
      exact ⟨List.prefix_refl _, List.nil_suffix, rfl, Nat.le_succ _, fun _ => rfl⟩

theorem performed_of_write {octets : List UInt8} {sent : Bool}
    (ran : Net.write octets socket = .ok (sent, after))
    : socket.Performed after := by
  unfold Net.write at ran
  split at ran
  · cases ran
    exact .refl socket
  · split at ran
    · cases ran
      exact .tick socket
    · rename_i sound
      cases ran
      exact ⟨List.prefix_append _ _, List.suffix_refl _, rfl, Nat.le_succ _,
        fun reset => absurd reset sound⟩

theorem Party.performed (party : Party α) : party.socket.Performed party.perform.socket := by
  obtain ⟨program, socket⟩ := party
  cases program with
  | ended outcome => exact .refl socket
  | remoteEndpoint next =>
      cases reset : socket.isReset with
      | true =>
          rw [perform_remoteEndpoint_of_isReset reset]
          exact .refl socket
      | false =>
          rw [perform_remoteEndpoint reset]
          exact .tick socket
  | createBodyBuffer size next =>
      exact ⟨List.prefix_refl _, List.suffix_refl _, rfl, Nat.le_refl _, fun _ => rfl⟩
  | read size next =>
      obtain ⟨octets, after, ran⟩ := exists_read size socket
      rw [perform_read ran]
      exact performed_of_read ran
  | write octets next =>
      obtain ⟨sent, after, ran⟩ := exists_write octets socket
      rw [perform_write ran]
      exact performed_of_write ran

/-- What was written before, and what was written since. -/
theorem Party.written_perform (party : Party α)
    : party.perform.socket.written = party.socket.written ++ party.perform.sentSince party :=
  (List.prefix_iff_eq_append.mp party.performed.written).symm

/-- Who has something to do has not ended. -/
theorem Party.Ready.isEnded (ready : party.Ready closed) : party.isEnded = false := by
  unfold Party.Ready at ready
  unfold Party.isEnded
  split
  · rename_i ended
    rw [ended] at ready
    exact ready.elim
  · rfl

end Performed

-----------------------------------------------------------------------------------------
-- Explained conversations
-----------------------------------------------------------------------------------------

/-- A party is where the computation of its program is on a socket from which can be read what has
arrived from the other side, and whatever may arrive yet. -/
structure Party.Explained {α : Type} (party : Party α) (program : Program α) (peer : Endpoint)
    (arrived : List UInt8) (closed : Bool)
    : Prop where
  unread : party.socket.unread <:+ arrived
  reset : party.socket.resetAt = none ∨ party.socket.isReset = true
  runs
    : ∀ more resetAt,
        (closed = true ∨ party.socket.isReset = true → more = [])
        → party.socket.Unaffected resetAt
        → program.run.run (.connected peer (arrived ++ more) resetAt)
          = (party.reading more resetAt).program.run.run (party.reading more resetAt).socket
  /-- What it has written a lasting computation has written at some point. -/
  written
    : ∀ more,
        (closed = true ∨ party.socket.isReset = true → more = [])
        → ∃ rest : Party α,
          rest.socket.written = party.socket.written
          ∧ program.run.run (.connected peer (arrived ++ more) none)
            = rest.program.run.run rest.socket

section Explained

variable {α : Type} {party : Party α} {program : Program α} {peer : Endpoint}
  {arrived : List UInt8} {closed : Bool}

theorem explained_start : Party.Explained ⟨program, .connected peer [] none⟩ program peer []
    closed where
  unread := List.suffix_refl []
  reset := .inl rfl
  runs _ _ _ _ := rfl
  written more _ := ⟨⟨program, .connected peer more none⟩, rfl, rfl⟩

/-- An operation of its own leaves a party explained. -/
theorem Party.Explained.perform (explained : party.Explained program peer arrived closed)
    (ready : party.Ready closed)
    : party.perform.Explained program peer arrived closed := by
  have performed := party.performed
  have before {more : List UInt8}
      (complete : closed = true ∨ party.perform.socket.isReset = true → more = [])
      : closed = true ∨ party.socket.isReset = true → more = [] :=
    fun reason => complete (reason.imp_right performed.isReset)
  have runs (more : List UInt8) (resetAt : Option Nat)
      (complete : closed = true ∨ party.perform.socket.isReset = true → more = [])
      (unaffected : party.perform.socket.Unaffected resetAt)
      : program.run.run (.connected peer (arrived ++ more) resetAt)
        = (party.perform.reading more resetAt).program.run.run
            (party.perform.reading more resetAt).socket := by
    have unaffectedBefore : party.socket.Unaffected resetAt := by
      rcases unaffected with same | ⟨lasting, later⟩
      · exact .inl (same.trans performed.resetAt)
      · exact .inr ⟨performed.resetAt.symm.trans lasting, fun moment member =>
          Nat.le_trans performed.operations (later moment member)⟩
    rw [explained.runs more resetAt (before complete) unaffectedBefore, ← Party.run_perform,
      Party.perform_reading ready (before complete) unaffected]
  refine ⟨performed.unread.trans explained.unread, ?_, runs, fun more complete => ?_⟩
  · rw [performed.resetAt]
    exact explained.reset.imp_right performed.isReset
  · rcases explained.reset with lasting | reset
    · refine ⟨party.perform.reading more none, rfl, runs more none complete ?_⟩
      exact .inl (performed.resetAt.trans lasting).symm
    · obtain ⟨rest, same, ran⟩ := explained.written more (before complete)
      exact ⟨rest, same.trans (performed.silent reset).symm, ran⟩

/-- So does what arrives from the other side, which may then be closed. -/
theorem Party.Explained.arrive (explained : party.Explained program peer arrived false)
    (lasting : party.socket.resetAt = none) (octets : List UInt8)
    : (party.arrive octets).Explained program peer (arrived ++ octets) closed := by
  have waits {more : List UInt8}
      : false = true ∨ party.socket.isReset = true → octets ++ more = [] := by
    simp [Socket.Lasting.isReset lasting]
  rw [Party.arrive_of_lasting octets lasting]
  refine ⟨?_, explained.reset, fun more resetAt _ unaffected => ?_, fun more _ => ?_⟩
  · obtain ⟨consumed, same⟩ := explained.unread
    exact ⟨consumed, by rw [Party.reading, ← same, List.append_assoc]; rfl⟩
  · rw [List.append_assoc, explained.runs (octets ++ more) resetAt waits unaffected]
    simp only [Party.reading, Socket.reading, List.append_assoc]
  · rw [List.append_assoc]
    exact explained.written (octets ++ more) waits

/-- Nothing arrives at a side whose connection was reset, and the other's end makes no difference.
-/
theorem Party.Explained.arrive_of_isReset (explained : party.Explained program peer arrived closed)
    (reset : party.socket.resetAt ≠ none) (octets : List UInt8) (closes : Bool)
    : (party.arrive octets).Explained program peer arrived closes := by
  have isReset := explained.reset.resolve_left reset
  rw [Party.arrive_of_ne octets reset]
  refine ⟨explained.unread, explained.reset, fun more resetAt complete unaffected => ?_,
    fun more complete => ?_⟩
  · exact explained.runs more resetAt (fun _ => complete (.inr isReset)) unaffected
  · exact explained.written more fun _ => complete (.inr isReset)

/-- And so does a reset of the connection. -/
theorem Party.Explained.resetting (explained : party.Explained program peer arrived closed)
    (lasting : party.socket.resetAt = none)
    : party.reset.Explained program peer arrived closed := by
  have isReset : party.reset.socket.isReset = true := isReset_resetting_of_le (Nat.le_refl _)
  refine ⟨explained.unread, .inr isReset, fun more resetAt complete unaffected => ?_,
    fun more complete => ?_⟩
  · have now : resetAt = some party.socket.operations := by
      rcases unaffected with same | ⟨never, _⟩
      · exact same
      · cases never
    subst now
    exact explained.runs more _ (fun _ => complete (.inr isReset))
      (.inr ⟨lasting, fun moment member => Nat.le_of_eq (Option.some.inj member)⟩)
  · exact explained.written more fun _ => complete (.inr isReset)

end Explained

/-- What has arrived explains where a side is: what the other side has written, or had written
when the connection was reset. -/
structure Party.ExplainedBy {α β : Type} (own : Party α) (other : Party β) (program : Program α)
    (peer : Endpoint) (arrived : List UInt8)
    : Prop where
  beginning : arrived <+: other.socket.written
  whole : own.socket.resetAt = none → arrived = other.socket.written
  explained : own.Explained program peer arrived other.isEnded

section ExplainedBy

variable {α β : Type} {own : Party α} {other : Party β} {program : Program α} {peer : Endpoint}
  {arrived : List UInt8}

/-- What a side writes does not change what has arrived there. -/
theorem Party.ExplainedBy.perform (explained : own.ExplainedBy other program peer arrived)
    (ready : own.Ready other.isEnded) (octets : List UInt8)
    : own.perform.ExplainedBy (other.arrive octets) program peer arrived where
  beginning := by
    rw [Party.arrive, Socket.arrive_written]
    exact explained.beginning
  whole lasting := by
    rw [Party.arrive, Socket.arrive_written]
    exact explained.whole (own.performed.resetAt.symm.trans lasting)
  explained := explained.explained.perform ready

/-- What the other side writes arrives, if the connection was not reset. -/
theorem Party.ExplainedBy.hear {closed : Bool}
    (explained : own.ExplainedBy other program peer arrived) (ready : other.Ready closed)
    : ∃ arrived,
        (own.arrive (other.perform.sentSince other)).ExplainedBy other.perform program peer
          arrived := by
  obtain ⟨beginning, whole, party⟩ := explained
  rw [ready.isEnded] at party
  by_cases lasting : own.socket.resetAt = none
  · have same
        : arrived ++ other.perform.sentSince other = other.perform.socket.written := by
      rw [whole lasting, ← Party.written_perform]
    exact ⟨_, same ▸ List.prefix_refl _, fun _ => same, party.arrive lasting _⟩
  · refine ⟨arrived, ?_, fun never => ?_, party.arrive_of_isReset lasting _ _⟩
    · exact beginning.trans other.performed.written
    · rw [Party.arrive, Socket.arrive_resetAt] at never
      exact absurd never lasting

theorem Party.ExplainedBy.resetting (explained : own.ExplainedBy other program peer arrived)
    (lasting : own.socket.resetAt = none)
    : own.reset.ExplainedBy other program peer arrived where
  beginning := explained.beginning
  whole never := by cases never
  explained := explained.explained.resetting lasting

/-- A reset for the other side is not noticed. -/
theorem Party.ExplainedBy.resettingOther (explained : own.ExplainedBy other program peer arrived)
    : own.ExplainedBy other.reset program peer arrived :=
  ⟨explained.beginning, explained.whole, explained.explained⟩

end ExplainedBy

-----------------------------------------------------------------------------------------
-- Runs of a conversation
-----------------------------------------------------------------------------------------

/-- Everything that can happen in one step. -/
inductive ConversationMove {Result : Side → Type} (state : Conversation Result)
    : ConversationLabel → Conversation Result → Prop
  | run {side} (ready : (state side).Ready (state side.other).isEnded)
    : ConversationMove state (.run side)
        (Function.update (Function.update state side (state side).perform) side.other
          ((state side.other).arrive ((state side).perform.sentSince (state side))))
  | reset {side} (lasting : (state side).socket.resetAt = none)
    : ConversationMove state (.reset side) (Function.update state side (state side).reset)

section Runs

variable {Result : Side → Type} {programs : (side : Side) → Program (Result side)}
  {endpoints : Side → Endpoint} {state after : Conversation Result}

theorem conversationMove_of_step {label : ConversationLabel}
    (moved : (conversation programs endpoints).step label state = some after)
    : ConversationMove state label after := by
  cases label with
  | run side =>
      change state.run side = some after at moved
      unfold Conversation.run at moved
      split at moved
      · rename_i ready
        cases moved
        exact .run ready
      · cases moved
  | reset side =>
      change state.reset side = some after at moved
      unfold Conversation.reset at moved
      split at moved
      · rename_i lasting
        cases moved
        exact .reset lasting
      · cases moved

/-- Both sides are explained by what has arrived there. -/
def Conversation.Explained (programs : (side : Side) → Program (Result side))
    (endpoints : Side → Endpoint) (state : Conversation Result)
    : Prop :=
  ∀ side, ∃ arrived,
    (state side).ExplainedBy (state side.other) (programs side) (endpoints side.other) arrived

/-- Every step leaves both sides explained: the mover by its operation, and the other side by
what arrives there. -/
theorem ConversationMove.explained {label : ConversationLabel}
    (moved : ConversationMove state label after) (explained : state.Explained programs endpoints)
    : after.Explained programs endpoints := by
  cases moved with
  | @run mover ready =>
      obtain ⟨_, own⟩ := explained mover
      obtain ⟨_, other⟩ := explained mover.other
      rw [Side.other_other] at other
      have moved := own.perform ready ((state mover).perform.sentSince (state mover))
      obtain ⟨_, heard⟩ := other.hear ready
      cases mover with
      | client => exact Side.rec ⟨_, moved⟩ ⟨_, heard⟩
      | server => exact Side.rec ⟨_, heard⟩ ⟨_, moved⟩
  | @reset mover lasting =>
      obtain ⟨_, own⟩ := explained mover
      obtain ⟨_, other⟩ := explained mover.other
      rw [Side.other_other] at other
      cases mover with
      | client => exact Side.rec ⟨_, own.resetting lasting⟩ ⟨_, other.resettingOther⟩
      | server => exact Side.rec ⟨_, other.resettingOther⟩ ⟨_, own.resetting lasting⟩

/-- In every reachable state both sides are explained. -/
theorem explained_of_reached (reached : Reached (conversation programs endpoints) state)
    : state.Explained programs endpoints := by
  refine reached.invariant (Conversation.Explained programs endpoints) ?_ ?_
  · intro side
    exact ⟨[], List.nil_prefix, fun _ => rfl, explained_start⟩
  · intro label before after _ explained _ moved
    exact (conversationMove_of_step moved).explained explained

end Runs

-----------------------------------------------------------------------------------------
-- Undisturbed runs
-----------------------------------------------------------------------------------------

/-- An operation of one of the sides, not a reset. -/
def ConversationLabel.IsRun : ConversationLabel → Prop
  | .run _ => True
  | .reset _ => False

section Undisturbed

variable {α : Type} {party : Party α}

/-- Who can move can still move after something has arrived. -/
theorem Party.Ready.arrive (ready : party.Ready false) (octets : List UInt8) (closed : Bool)
    : (party.arrive octets).Ready closed := by
  obtain ⟨program, socket⟩ := party
  cases program with
  | read size next =>
      rcases ready with empty | reset | enough | closes
      · exact .inl empty
      · exact .inr (.inl ((Socket.arrive_isReset octets).trans reset))
      · exact .inr (.inr (.inl (Nat.le_trans enough (Socket.length_arrive octets))))
      · cases closes
  | _ => exact ready

/-- And does the same as before. -/
theorem Party.perform_arrive (ready : party.Ready false) (octets : List UInt8)
    : (party.arrive octets).perform = party.perform.arrive octets := by
  have same := party.performed.resetAt
  by_cases lasting : party.socket.resetAt = none
  · rw [Party.arrive_of_lasting octets lasting, Party.arrive_of_lasting octets (same.trans lasting),
      same]
    exact Party.perform_reading ready (by simp [Socket.Lasting.isReset lasting]) (.inl same.symm)
  · rw [Party.arrive_of_ne octets lasting, Party.arrive_of_ne octets (same ▸ lasting)]

variable {Result : Side → Type} {programs : (side : Side) → Program (Result side)}
  {endpoints : Side → Endpoint} {state : Conversation Result}

/-- Both sides have performed an operation. -/
def Conversation.both (state : Conversation Result) : Conversation Result := fun side =>
  (state side).perform.arrive ((state side.other).perform.sentSince (state side.other))

/-- After one side the other can move as before. -/
theorem run_other {side : Side} {after : Conversation Result} (moved : state.run side = some after)
    (ready : (state side.other).Ready false)
    : after.run side.other = some state.both := by
  unfold Conversation.run at moved
  split at moved
  · cases moved
    have still := ready.arrive ((state side).perform.sentSince (state side))
    have same := Party.perform_arrive ready ((state side).perform.sentSince (state side))
    have sent
        : ((state side.other).arrive ((state side).perform.sentSince (state side))).perform.sentSince
            ((state side.other).arrive ((state side).perform.sentSince (state side)))
          = (state side.other).perform.sentSince (state side.other) := by
      rw [same, Party.sentSince, Party.arrive, Party.arrive, Socket.arrive_written,
        Socket.arrive_written, Party.sentSince]
    cases side with
    | client =>
        refine (if_pos (still _)).trans (congrArg some (funext fun side => ?_))
        cases side with
        | client => exact congrArg (state .client).perform.arrive sent
        | server => exact same
    | server =>
        refine (if_pos (still _)).trans (congrArg some (funext fun side => ?_))
        cases side with
        | client => exact same
        | server => exact congrArg (state .server).perform.arrive sent
  · cases moved

/-- A side that can move while the other can does not rely on the other's end. -/
theorem ready_of_run {side : Side} {after : Conversation Result}
    (moved : state.run side = some after)
    : (state side).Ready (state side.other).isEnded := by
  unfold Conversation.run at moved
  split at moved
  · assumption
  · cases moved

/-- Without resets the two sides do not get in each other's way. -/
theorem conversation_independent
    : (conversation programs endpoints).Independent ConversationLabel.IsRun := by
  intro left right before afterLeft afterRight leftRuns rightRuns different movedLeft movedRight
  cases left with
  | reset side => exact leftRuns.elim
  | run side =>
      cases right with
      | reset other => exact rightRuns.elim
      | run other =>
          have opposite : other = side.other :=
            (other.eq_or_eq_other side).resolve_left fun same => different (same ▸ rfl)
          subst opposite
          have ready := ready_of_run movedLeft
          have readyOther := ready_of_run movedRight
          rw [Side.other_other, ready.isEnded] at readyOther
          rw [readyOther.isEnded] at ready
          refine ⟨before.both, run_other movedLeft readyOther, ?_⟩
          have joined := @run_other _ _ _ _ movedRight (by rwa [Side.other_other])
          rwa [Side.other_other] at joined

end Undisturbed

end PplMe.Net
