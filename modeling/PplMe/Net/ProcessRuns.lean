import PplMe.Net.Processes

/-! Connections of a process against conversations of their own.
What happens on a connection can happen in a conversation whose server knows the answer from the
start, as long as the process is running. When it ends, all its connections do.
-/

namespace PplMe.Net

open Stepping Failures

-----------------------------------------------------------------------------------------
-- Servers that end
-----------------------------------------------------------------------------------------

section Endings

variable {Result : Side → Type} {programs : (side : Side) → Program (Result side)}
  {endpoints : Side → Endpoint} {state : Conversation Result}

/-- In a reached state every side has only so many operations left. -/
theorem within_of_reached (reached : Reached (conversation programs endpoints) state)
    (within : ∀ side, ∃ operations, (programs side).Within operations)
    : ∀ side, ∃ operations, (state side).program.Within operations := by
  refine reached.invariant
    (fun state => ∀ side, ∃ operations, (state side).program.Within operations) within ?_
  intro label before after _ holds _ moved
  cases conversationMove_of_step moved with
  | @run mover ready =>
      obtain ⟨operations, bound⟩ := holds mover
      obtain ⟨left, _, less⟩ := bound.perform ready
      intro side
      cases mover with
      | client =>
          cases side with
          | client => exact ⟨left, less⟩
          | server => exact holds .server
      | server =>
          cases side with
          | client => exact holds .client
          | server => exact ⟨left, less⟩
  | @reset mover lasting =>
      intro side
      cases mover <;> cases side <;> exact holds _

/-- On a connection that was reset a party goes on to its end, by induction on the operations that
it has left.
-/
theorem proceeds_of_isReset {α : Type} {party : Party α} {operations : ℕ}
    (within : party.program.Within operations) (reset : party.socket.isReset = true)
    (closed : Bool)
    : ∃ final, party.Proceeds closed final ∧ final.isEnded = true := by
  cases unended : party.isEnded with
  | true => exact ⟨party, .refl party, unended⟩
  | false =>
      have ready := @ready_of_isReset _ _ closed reset unended
      obtain ⟨left, rfl, less⟩ := within.perform ready
      obtain ⟨final, proceeds, ended⟩ :=
        proceeds_of_isReset less (party.performed.isReset reset) closed
      exact ⟨final, .step ready proceeds, ended⟩
termination_by operations

/-- Whatever the client has seen, it could have seen the same from a server that has ended. -/
theorem exists_ended (reached : Reached (conversation programs endpoints) state)
    (within : ∀ side, ∃ operations, (programs side).Within operations)
    : ∃ final,
        Reached (conversation programs endpoints) final
        ∧ final .client = state .client
        ∧ (final .server).isEnded = true := by
  -- first the connection is reset for the server, if it was not yet
  obtain ⟨middle, toMiddle, client, reset⟩
    : ∃ middle,
        Reached (conversation programs endpoints) middle
        ∧ middle .client = state .client
        ∧ (middle .server).socket.isReset = true := by
    obtain ⟨_, heard⟩ := explained_of_reached reached .server
    rcases heard.explained.reset with lasting | reset
    · have moved
          : (conversation programs endpoints).step (.reset .server) state
            = some (Function.update state .server (state .server).reset) := by
        change state.reset .server = _
        rw [Conversation.reset, lasting]
      refine ⟨_, .next (.reset .server) reached trivial moved, rfl, ?_⟩
      rw [Function.update_self]
      exact isReset_resetting_of_le (Nat.le_refl _)
    · exact ⟨state, reached, rfl, reset⟩
  obtain ⟨operations, bound⟩ := within_of_reached toMiddle within .server
  obtain ⟨final, proceeds, ended⟩ := proceeds_of_isReset bound reset (middle .client).isEnded
  obtain ⟨after, octets, ⟨schedule, _, run⟩, own, written, other⟩ :=
    @leads_of_proceeds _ programs endpoints _ _ _ _ _ proceeds rfl rfl
  have silent : octets = [] :=
    List.append_right_eq_self.mp (written.symm.trans (proceeds.performed.silent reset))
  have nothing : (middle .client).arrive [] = middle .client := by
    rw [Party.arrive, Socket.arrive_nil]
  have same : after .client = middle .client := (silent ▸ other).trans nothing
  exact ⟨after, Reached.follow toMiddle run, same.trans client, own ▸ ended⟩

end Endings

-----------------------------------------------------------------------------------------
-- Pictures
-----------------------------------------------------------------------------------------

section Pictures

variable {ι State Label : Type*} {Call Answer : Type} {Result : Side → Type}

def Process.programs (process : Process ι Call Answer Result State Label)
    (answers : Call → Answer) (call : ι)
    : (side : Side) → Program (Result side)
  | .client => process.clients call
  | .server => process.server.answeredBy answers

/-- A client with a server of its own that knows the answers. -/
def Process.conversation (process : Process ι Call Answer Result State Label)
    (answers : Call → Answer) (call : ι)
    : Machine (Conversation Result) ConversationLabel :=
  Net.conversation (process.programs answers call) (process.endpoints call)

/-- No program can go on for ever. -/
def Process.Bounded (process : Process ι Call Answer Result State Label) : Prop :=
  ∀ answers call side, ∃ operations, (process.programs answers call side).Within operations

/-- A conversation that looks to the client just as the connection does, and to the server as long
as the process is running.
-/
structure Exchange.PicturedBy (exchange : Exchange Call Answer Result)
    (calling : CallingProgram Call Answer (Result .server)) (answers : Call → Answer)
    (terminated : Bool) (conversation : Conversation Result)
    : Prop where
  client : conversation .client = exchange.client
  server : terminated = false → conversation .server = exchange.server.knowing calling answers
  ended : terminated = true → (conversation .server).isEnded = true

/-- Every connection is pictured, with any answers that agree with what has been answered. -/
def ProcessState.Pictured (process : Process ι Call Answer Result State Label)
    (state : ProcessState ι Call Answer Result State)
    : Prop :=
  ∀ call answers,
    (state.exchanges call).server.stage.Agrees answers
    → ∃ conversation,
        Reached (process.conversation answers call) conversation
        ∧ (state.exchanges call).PicturedBy process.server answers state.terminated conversation

variable {process : Process ι Call Answer Result State Label} {answers : Call → Answer}
  {call : ι} {exchange : Exchange Call Answer Result} {conversation : Conversation Result}

/-- It makes no difference to the client whether its server has ended with the process. -/
theorem Exchange.PicturedBy.ending (bounded : process.Bounded)
    (reached : Reached (process.conversation answers call) conversation)
    (pictured : exchange.PicturedBy process.server answers false conversation)
    (terminated : Bool)
    : ∃ conversation,
        Reached (process.conversation answers call) conversation
        ∧ exchange.PicturedBy process.server answers terminated conversation := by
  cases terminated with
  | false => exact ⟨conversation, reached, pictured⟩
  | true =>
      obtain ⟨final, toFinal, client, ended⟩ := exists_ended reached (bounded answers call)
      exact ⟨final, toFinal, client.trans pictured.client, nofun, fun _ => ended⟩

/-- A client that does not have to wait on its connection does not have to in the picture. -/
theorem Party.Ready.weaken {α : Type} {party : Party α} {closed further : Bool}
    (ready : party.Ready closed) (closing : closed = true → further = true)
    : party.Ready further := by
  obtain ⟨program, socket⟩ := party
  cases program with
  | read size next => exact ready.imp_right (Or.imp_right (Or.imp_right closing))
  | _ => exact ready

theorem Exchange.PicturedBy.closed {terminated : Bool}
    (pictured : exchange.PicturedBy process.server answers terminated conversation)
    (closed : (terminated || exchange.server.isEnded) = true)
    : (conversation .server).isEnded = true := by
  cases terminated with
  | true => exact pictured.ended rfl
  | false =>
      obtain ⟨outcome, ended⟩ := Option.isSome_iff_exists.mp closed
      rw [pictured.server rfl, Party.isEnded, CallingParty.knowing_of_outcome ended]

/-- An operation of a connection thread is one in its picture. -/
theorem Exchange.PicturedBy.runServer {server : CallingParty Call Answer (Result .server)}
    (reached : Reached (process.conversation answers call) conversation)
    (picture : exchange.PicturedBy process.server answers false conversation)
    (moved : exchange.server.run process.server exchange.client.isEnded = some server)
    (agrees : server.stage.Agrees answers)
    : ∃ conversation,
        Reached (process.conversation answers call) conversation
        ∧ Exchange.PicturedBy ⟨exchange.client.arrive (server.sentSince exchange.server), server⟩
          process.server answers false conversation := by
  obtain ⟨_, ready, same⟩ := CallingParty.knowing_run moved agrees
  have known := picture.server rfl
  rw [← known, ← picture.client] at ready
  have moved : (process.conversation answers call).step (.run .server) conversation = some _ :=
    if_pos ready
  rw [← known] at same
  refine ⟨_, .next _ reached trivial moved, ?_, fun _ => same.symm, nofun⟩
  refine (congrArg₂ Party.arrive picture.client ?_).trans rfl
  rw [← same, known]
  rfl

section Steps

variable [DecidableEq ι] {state after : ProcessState ι Call Answer Result State}
  {label : ProcessLabel ι Label}

@[simp] theorem setExchange_self
    : (state.setExchange call exchange).exchanges call = exchange :=
  Function.update_self ..

@[simp] theorem setExchange_other {other : ι} (different : other ≠ call)
    : (state.setExchange call exchange).exchanges other = state.exchanges other :=
  Function.update_of_ne different ..

@[simp] theorem setExchange_terminated
    : (state.setExchange call exchange).terminated = state.terminated := rfl

@[simp] theorem setExchange_answerer
    : (state.setExchange call exchange).answerer = state.answerer := rfl

/-- Every step leaves all connections pictured: the mover's by a step of its picture, and where the
process ends, all of them by the end of their servers.
-/
theorem ProcessMove.pictured (bounded : process.Bounded)
    (moved : ProcessMove process state label after) (pictured : state.Pictured process)
    : after.Pictured process := by
  cases moved with
  | @client mover ready =>
      intro call answers agrees
      by_cases own : call = mover
      · subst own
        rw [setExchange_self] at agrees ⊢
        obtain ⟨conversation, reached, picture⟩ := pictured call answers agrees
        have ready : (conversation .client).Ready (conversation .server).isEnded :=
          picture.client ▸ ready.weaken picture.closed
        have moved
            : (process.conversation answers call).step (.run .client) conversation = some _ :=
          if_pos ready
        refine ⟨_, .next _ reached trivial moved, congrArg Party.perform picture.client,
          fun alive => ?_, picture.ended⟩
        refine (congrArg₂ Party.arrive (picture.server alive) ?_).trans rfl
        rw [picture.client]
      · rw [setExchange_other own] at agrees ⊢
        exact pictured call answers agrees
  | @server mover server alive moved =>
      intro call answers agrees
      by_cases own : call = mover
      · subst own
        dsimp only at agrees ⊢
        rw [setExchange_self] at agrees ⊢
        obtain ⟨earlier, _, _⟩ := CallingParty.knowing_run moved agrees
        obtain ⟨conversation, reached, picture⟩ := pictured call answers earlier
        obtain ⟨next, toNext, picture⟩ :=
          Exchange.PicturedBy.runServer reached (alive ▸ picture) moved agrees
        exact Exchange.PicturedBy.ending bounded toNext picture _
      · dsimp only at agrees ⊢
        rw [setExchange_other own] at agrees ⊢
        obtain ⟨conversation, reached, picture⟩ := pictured call answers agrees
        exact Exchange.PicturedBy.ending bounded reached (alive ▸ picture) _
  | @resetClient mover lasting =>
      intro call answers agrees
      by_cases own : call = mover
      · subst own
        rw [setExchange_self] at agrees ⊢
        obtain ⟨conversation, reached, picture⟩ := pictured call answers agrees
        have moved
            : (process.conversation answers call).step (.reset .client) conversation
              = some (Function.update conversation .client (conversation .client).reset) := by
          change conversation.reset .client = _
          rw [Conversation.reset, picture.client, lasting]
        exact ⟨_, .next _ reached trivial moved, congrArg Party.reset picture.client,
          picture.server, picture.ended⟩
      · rw [setExchange_other own] at agrees ⊢
        exact pictured call answers agrees
  | @resetServer mover lasting =>
      intro call answers agrees
      by_cases own : call = mover
      · subst own
        rw [setExchange_self] at agrees ⊢
        obtain ⟨conversation, reached, picture⟩ := pictured call answers agrees
        cases alive : state.terminated with
        | true =>
            exact ⟨conversation, reached, picture.client,
              fun running => absurd (alive.symm.trans running) nofun,
              fun _ => picture.ended alive⟩
        | false =>
            have known := picture.server alive
            have lasting : (conversation .server).socket.resetAt = none :=
              (congrArg (fun party => party.socket.resetAt) known).trans lasting
            have moved
                : (process.conversation answers call).step (.reset .server) conversation
                  = some (Function.update conversation .server (conversation .server).reset) := by
              change conversation.reset .server = _
              rw [Conversation.reset, lasting]
            exact ⟨_, .next _ reached trivial moved, picture.client,
              fun _ => congrArg Party.reset known,
              fun terminated => absurd (alive.symm.trans terminated) nofun⟩
      · rw [setExchange_other own] at agrees ⊢
        exact pictured call answers agrees
  | @answer mover answer server alive given moved =>
      intro call answers agrees
      by_cases own : call = mover
      · subst own
        rw [setExchange_self] at agrees ⊢
        obtain ⟨earlier, same⟩ := CallingParty.knowing_answered moved agrees
        obtain ⟨conversation, reached, picture⟩ := pictured call answers earlier
        exact ⟨conversation, reached, picture.client,
          fun running => (picture.server running).trans same.symm, picture.ended⟩
      · rw [setExchange_other own] at agrees ⊢
        exact pictured call answers agrees
  | @throw mover alive threw calling | @answerer label answerer alive calling moved =>
      intro call answers agrees
      obtain ⟨conversation, reached, picture⟩ := pictured call answers agrees
      exact Exchange.PicturedBy.ending bounded reached (alive ▸ picture) _

/-- In every reached state all connections are pictured. -/
theorem pictured_of_reached (bounded : process.Bounded) (reached : Reached process.machine state)
    : state.Pictured process := by
  refine reached.invariant (ProcessState.Pictured process) ?_ ?_
  · intro call answers _
    refine ⟨_, .start, rfl, fun _ => ?_, nofun⟩
    exact congrArg (Party.mk · _) (program_stage process.server answers _).symm
  · intro label before after _ pictured _ moved
    exact (processMove_of_step moved).pictured bounded pictured

end Steps

end Pictures

end PplMe.Net
