import PplMe.Net.ConversationRuns

/-! Conversations whose sides go on by themselves.
What a side computes from its result, when it has ended, changes nothing for the other side.
-/

namespace PplMe.Net

open Stepping Failures

variable {α β : Type} {f : α → β} {party : Party α} {closed : Bool}

/-- The same party, and what is computed from its result. -/
def Party.map (f : α → β) (party : Party α) : Party β := ⟨f <$> party.program, party.socket⟩

/-- The program that has ended has the result computed, or the exception. -/
theorem Program.map_ended (outcome : Except SocketException α)
    : f <$> Program.ended outcome = Program.ended (outcome.map f) := by
  cases outcome <;> rfl

theorem Program.ended_of_map {program : Program α} {outcome : Except SocketException β}
    (ended : f <$> program = Program.ended outcome)
    : ∃ inner, program = Program.ended inner ∧ outcome = inner.map f := by
  cases program with
  | ended inner =>
      rw [Program.map_ended] at ended
      exact ⟨inner, rfl, (Program.ended.inj ended).symm⟩
  | _ => cases ended

@[simp] theorem Party.map_isEnded : (party.map f).isEnded = party.isEnded := by
  obtain ⟨program, socket⟩ := party
  cases program with
  | ended outcome =>
      unfold Party.map
      rw [Program.map_ended]
      rfl
  | _ => rfl

theorem Party.map_ready_iff : (party.map f).Ready closed ↔ party.Ready closed := by
  obtain ⟨program, socket⟩ := party
  cases program with
  | ended outcome =>
      unfold Party.map
      rw [Program.map_ended]
      rfl
  | _ => rfl

/-- The first operation is the same. -/
theorem Program.map_perform (program : Program α)
    : (f <$> program).perform = (f <$> ·) <$> program.perform := by
  cases program with
  | ended outcome =>
      rw [Program.map_ended]
      simp only [Program.perform, map_pure, Program.map_ended]
  | remoteEndpoint next =>
      change (fun peer => f <$> next peer) <$> Net.remoteEndpoint = _
      simp only [Program.perform, Functor.map_map]
  | createBodyBuffer size next =>
      change (fun _ => f <$> next) <$> Net.createBodyBuffer size = _
      simp only [Program.perform, Functor.map_map]
  | read size next =>
      change (fun octets => f <$> next octets) <$> Net.read size = _
      simp only [Program.perform, Functor.map_map]
  | write octets next =>
      change (fun sent => f <$> next sent) <$> Net.write octets = _
      simp only [Program.perform, Functor.map_map]

theorem Party.map_perform : (party.map f).perform = party.perform.map f := by
  unfold Party.perform Party.map
  rw [Program.map_perform]
  cases performed : party.program.perform.run party.socket with
  | error failure =>
      have same : ((f <$> ·) <$> party.program.perform).run party.socket = .error failure := by
        rw [StateT.run_map, performed]
        rfl
      simp only [same]
      rfl
  | ok after =>
      have same : ((f <$> ·) <$> party.program.perform).run party.socket
          = .ok (f <$> after.1, after.2) := by
        rw [StateT.run_map, performed]
        rfl
      simp only [same]

variable {Result Other : Side → Type} {functions : (side : Side) → Result side → Other side}
  {programs : (side : Side) → Program (Result side)} {endpoints : Side → Endpoint}

def Conversation.map (functions : (side : Side) → Result side → Other side)
    (state : Conversation Result)
    : Conversation Other :=
  fun side => (state side).map (functions side)

theorem Conversation.map_update (state : Conversation Result) (side : Side)
    (party : Party (Result side))
    : Conversation.map functions (Function.update state side party)
      = Function.update (Conversation.map functions state) side (party.map (functions side)) :=
  funext fun other => Function.apply_update (fun side => Party.map (functions side)) state side
    party other

/-- A step of the sides is a step of the sides that go on. -/
theorem conversation_step_map (label : ConversationLabel) (state : Conversation Result)
    : (conversation (fun side => functions side <$> programs side) endpoints).step label
        (state.map functions)
      = ((conversation programs endpoints).step label state).map
          (Conversation.map functions) := by
  cases label with
  | run side =>
      change (state.map functions).run side = (state.run side).map _
      unfold Conversation.run
      by_cases ready : (state side).Ready (state side.other).isEnded
      · have mapped
            : (state.map functions side).Ready (state.map functions side.other).isEnded := by
          rw [Conversation.map, Conversation.map, Party.map_isEnded]
          exact Party.map_ready_iff.mpr ready
        have performed : (state.map functions side).perform
            = (state side).perform.map (functions side) :=
          Party.map_perform
        rw [if_pos ready, if_pos mapped, Option.map_some, Conversation.map_update,
          Conversation.map_update]
        dsimp only
        rw [performed]
        rfl
      · have mapped
            : ¬ (state.map functions side).Ready (state.map functions side.other).isEnded := by
          rw [Conversation.map, Conversation.map, Party.map_isEnded]
          exact fun mapped => ready (Party.map_ready_iff.mp mapped)
        rw [if_neg ready, if_neg mapped]
        rfl
  | reset side =>
      change (state.map functions).reset side = (state.reset side).map _
      unfold Conversation.reset
      have mapped : (state.map functions side).socket.resetAt = (state side).socket.resetAt := rfl
      rw [mapped]
      cases (state side).socket.resetAt with
      | none =>
          exact congrArg some
            (@Conversation.map_update _ _ functions state side (state side).reset).symm
      | some moment => rfl

/-- And so are all steps, from the start on. -/
theorem conversation_follow_map (schedule : List ConversationLabel)
    : (conversation (fun side => functions side <$> programs side) endpoints).follow schedule
        (conversation (fun side => functions side <$> programs side) endpoints).start
      = ((conversation programs endpoints).follow schedule
          (conversation programs endpoints).start).map (Conversation.map functions) :=
  Machine.follow_map (@conversation_step_map _ _ functions programs endpoints) schedule
    (.start programs endpoints)

end PplMe.Net
