import PplMe.Foundation.DistributedSums
import PplMe.Net.ProcessRuns

/-! Processes that go on until all is answered.
What is shared answers as it would without the connections. Somebody can move as long as a client
or a thread has not come to its end, and there are only so many operations on the connections.
-/

namespace PplMe.Net

open Stepping Failures DistributedSums

variable {ι State Label : Type*} {Call Answer : Type} {Result : Side → Type} {β : Type}

-----------------------------------------------------------------------------------------
-- Calls and answers
-----------------------------------------------------------------------------------------

namespace CallStage

/-- The answer to the call, once it is there. -/
def answer : CallStage Call Answer β → Option Answer
  | .fromAnswer _ answer _ => some answer
  | _ => none

end CallStage

section Stages

variable {calling : CallingProgram Call Answer β} {party after : CallingParty Call Answer β}
  {closed : Bool}

/-- Up to a call there is no answer, and no call before it is made. -/
theorem answer_stage (program : Program (Option Call)) : (calling.stage program).answer = none := by
  cases program with
  | ended outcome =>
      cases outcome with
      | error failure => rfl
      | ok call => cases call <;> rfl
  | _ => rfl

theorem call_stage (program : Program (Option Call))
    : (calling.stage program).call = none
      ∨ ∃ call, calling.stage program = .calling call := by
  cases program with
  | ended outcome =>
      cases outcome with
      | error failure => exact .inl rfl
      | ok call =>
          cases call with
          | none => exact .inl rfl
          | some call => exact .inr ⟨call, rfl⟩
  | _ => exact .inl rfl

/-- No operation gives an answer, or changes the call. -/
theorem CallingParty.answer_run (moved : party.run calling closed = some after)
    : after.stage.answer = party.stage.answer := by
  obtain ⟨stage, socket⟩ := party
  cases stage with
  | calling call => cases moved
  | toCall program unended =>
      obtain ⟨_, ⟨⟩⟩ := Option.ite_none_right_eq_some.mp moved
      exact answer_stage _
  | fromAnswer call answer program | withoutCall program =>
      obtain ⟨_, ⟨⟩⟩ := Option.ite_none_right_eq_some.mp moved
      rfl

theorem CallingParty.call_run (moved : party.run calling closed = some after)
    : after.stage.call = party.stage.call ∨ ∃ call, after.stage = .calling call := by
  obtain ⟨stage, socket⟩ := party
  cases stage with
  | calling call => cases moved
  | toCall program unended =>
      obtain ⟨_, ⟨⟩⟩ := Option.ite_none_right_eq_some.mp moved
      exact call_stage _
  | fromAnswer call answer program | withoutCall program =>
      obtain ⟨_, ⟨⟩⟩ := Option.ite_none_right_eq_some.mp moved
      exact .inl rfl

/-- Where there is no call, the program without one begins, or an exception has been thrown. -/
theorem withoutCall_stage {good : Program β → Prop} (first : good calling.withoutCall)
    (failed : ∀ failure, good (.ended (.error failure))) {toCall : Program (Option Call)}
    {program : Program β} (same : calling.stage toCall = .withoutCall program)
    : good program := by
  cases toCall with
  | ended outcome =>
      cases outcome with
      | error failure =>
          cases same
          exact failed failure
      | ok call =>
          cases call with
          | none =>
              cases same
              exact first
          | some call => cases same
  | _ => cases same

theorem CallingParty.withoutCall_run {good : Program β → Prop} (first : good calling.withoutCall)
    (failed : ∀ failure, good (.ended (.error failure)))
    (kept : ∀ party : Party β, good party.program → good party.perform.program)
    (before : ∀ program, party.stage = .withoutCall program → good program)
    (moved : party.run calling closed = some after) {program : Program β}
    (same : after.stage = .withoutCall program)
    : good program := by
  obtain ⟨stage, socket⟩ := party
  cases stage with
  | calling call => cases moved
  | toCall program unended =>
      obtain ⟨_, ⟨⟩⟩ := Option.ite_none_right_eq_some.mp moved
      exact withoutCall_stage first failed same
  | fromAnswer call answer program =>
      obtain ⟨_, ⟨⟩⟩ := Option.ite_none_right_eq_some.mp moved
      cases same
  | withoutCall earlier =>
      obtain ⟨_, ⟨⟩⟩ := Option.ite_none_right_eq_some.mp moved
      cases same
      exact kept ⟨earlier, socket⟩ (before earlier rfl)

/-- Whoever always gives the same answer agrees with it, and with none. -/
theorem CallStage.agrees_same {stage : CallStage Call Answer β} {answer : Answer}
    (same : stage.answer = none ∨ stage.answer = some answer)
    : stage.Agrees fun _ => answer := by
  cases stage with
  | fromAnswer call given program => exact Option.some.inj (same.resolve_left nofun)
  | _ => trivial

/-- Some answers agree with what has been answered. -/
theorem exists_agrees [Nonempty Answer] (stage : CallStage Call Answer β)
    : ∃ answers, stage.Agrees answers := by
  cases given : stage.answer with
  | none => exact ⟨fun _ => Classical.arbitrary Answer, CallStage.agrees_same (.inl given)⟩
  | some answer => exact ⟨fun _ => answer, CallStage.agrees_same (.inr given)⟩

/-- Who has ended without an answer has not made a call. -/
theorem CallStage.withoutCall_of_answer_none {stage : CallStage Call Answer β}
    {outcome : Except SocketException β} (unanswered : stage.answer = none)
    (ended : stage.outcome = some outcome)
    : stage = .withoutCall (.ended outcome) := by
  cases stage with
  | withoutCall program =>
      cases program with
      | ended inner => cases ended; rfl
      | _ => cases ended
  | fromAnswer call answer program => cases unanswered
  | _ => cases ended

/-- A party that is calling performs no operation. -/
theorem CallingParty.isCalling_of_run (moved : party.run calling closed = some after)
    : party.stage.isCalling = false := by
  obtain ⟨stage, socket⟩ := party
  cases stage with
  | calling call => cases moved
  | _ => rfl

/-- Only a party that is calling can get an answer, and then it does. -/
theorem CallingParty.exists_answered (calling : CallingProgram Call Answer β) (answer : Answer)
    (standing : party.stage.isCalling = true)
    : ∃ after, party.answered calling answer = some after := by
  obtain ⟨stage, socket⟩ := party
  cases stage with
  | calling call => exact ⟨_, rfl⟩
  | _ => cases standing

theorem CallingParty.answered_inv {answer : Answer}
    (moved : party.answered calling answer = some after)
    : after.stage.answer = some answer ∧ after.stage.call = party.stage.call := by
  obtain ⟨stage, socket⟩ := party
  cases stage with
  | calling call =>
      cases moved
      exact ⟨rfl, rfl⟩
  | _ => cases moved

end Stages

namespace ProcessLabel

/-- The step of what answers, if it is one. -/
def shared : ProcessLabel ι Label → Option Label
  | .answerer label => some label
  | _ => none

/-- An operation on a connection, or the answer to a call. -/
def onConnection : ProcessLabel ι Label → Bool
  | .client _ | .server _ | .answer _ => true
  | .reset _ _ | .answerer _ => false

/-- A step of a thread, and not a reset or what else just happens. -/
def isRun (own : Label → Bool) (label : ProcessLabel ι Label) : Bool :=
  label.onConnection || label.shared.any own

end ProcessLabel

section Shared

variable [DecidableEq ι] {process : Process ι Call Answer Result State Label}
  {state after : ProcessState ι Call Answer Result State} {label : ProcessLabel ι Label}

/-- What is shared follows its own machine. -/
theorem follow_shared {schedule : List (ProcessLabel ι Label)}
    (run : process.machine.follow schedule process.machine.start = some state)
    : process.answerer.machine.follow (schedule.filterMap ProcessLabel.shared)
        process.answerer.machine.start
      = some state.answerer := by
  refine Machine.follow_filterMap ProcessState.answerer ProcessLabel.shared ?_ ?_ run
  · intro label before after other moved
    cases processMove_of_step moved with
    | answerer => cases other
    | _ => rfl
  · intro label own before after same moved
    cases processMove_of_step moved with
    | answerer _ _ ran =>
        cases same
        exact ran
    | _ => cases same

theorem answerer_of_reached (reached : Reached process.machine state)
    : Reached process.answerer.machine state.answerer := by
  obtain ⟨schedule, _, run⟩ := @ReachedBy.leads _ _ _ (fun _ => True) _ reached
  exact Reached.follow .start (follow_shared run)

/-- A connection thread stays at its stage, performs an operation, or gets its answer. -/
theorem ProcessMove.server_cases (moved : ProcessMove process state label after) (call : ι)
    : (after.exchanges call).server.stage = (state.exchanges call).server.stage
      ∨ state.terminated = false
        ∧ (state.exchanges call).server.run process.server (state.exchanges call).client.isEnded
          = some (after.exchanges call).server
      ∨ ∃ answer,
          process.answerer.answer state.answerer call = some (some answer)
          ∧ (state.exchanges call).server.answered process.server answer
            = some (after.exchanges call).server := by
  cases moved with
  | @client mover ready | @resetClient mover lasting | @resetServer mover lasting =>
      by_cases own : call = mover
      · subst own
        rw [setExchange_self]
        exact .inl rfl
      · rw [setExchange_other own]
        exact .inl rfl
  | @server mover server alive ran =>
      by_cases own : call = mover
      · subst own
        dsimp only
        rw [setExchange_self]
        exact .inr (.inl ⟨alive, ran⟩)
      · dsimp only
        rw [setExchange_other own]
        exact .inl rfl
  | @answer mover answer server alive given answered =>
      by_cases own : call = mover
      · subst own
        rw [setExchange_self]
        exact .inr (.inr ⟨answer, given, answered⟩)
      · rw [setExchange_other own]
        exact .inl rfl
  | throw | answerer => exact .inl rfl

/-- Every answer was given in a state that what is shared can reach. -/
theorem answer_of_reached (reached : Reached process.machine state)
    : ∀ call answer,
        (state.exchanges call).server.stage.answer = some answer
        → ∃ answering,
            Reached process.answerer.machine answering
            ∧ process.answerer.answer answering call = some (some answer) := by
  refine reached.invariant
    (fun state => ∀ call answer,
      (state.exchanges call).server.stage.answer = some answer
      → ∃ answering,
          Reached process.answerer.machine answering
          ∧ process.answerer.answer answering call = some (some answer)) ?_ ?_
  · intro call answer given
    cases (@answer_stage _ _ _ process.server _).symm.trans given
  · intro label before after earlier holds _ moved call answer given
    rcases (processMove_of_step moved).server_cases call with
      same | ⟨_, ran⟩ | ⟨found, provided, answered⟩
    · exact holds call answer (same ▸ given)
    · exact holds call answer ((CallingParty.answer_run ran).symm.trans given)
    · cases (CallingParty.answered_inv answered).1.symm.trans given
      exact ⟨_, answerer_of_reached earlier, provided⟩

/-- What is known of a call from the picture of the thread that makes it holds of all calls that
have been made.
-/
theorem call_of_reached (bounded : process.Bounded) (answers : Call → Answer)
    (good : ι → Call → Prop)
    (making
      : ∀ index conversation call,
          Reached (process.conversation answers index) conversation
          → (conversation .server).program = process.server.fromAnswer call (answers call)
          → good index call)
    (reached : Reached process.machine state)
    : ∀ index call, (state.exchanges index).server.stage.call = some call → good index call := by
  refine reached.invariant
    (fun state => ∀ index call,
      (state.exchanges index).server.stage.call = some call → good index call) ?_ ?_
  · intro index call made
    rcases @call_stage _ _ _ process.server process.server.toCall with nobody | ⟨other, same⟩
    · cases nobody.symm.trans made
    · cases (congrArg CallStage.call same).symm.trans made
      refine making index _ _ .start ?_
      exact (program_stage process.server answers _).symm.trans
        (congrArg (CallStage.program process.server answers) same)
  · intro label before after earlier holds _ moved index call made
    rcases (processMove_of_step moved).server_cases index with
      same | ⟨alive, ran⟩ | ⟨found, provided, answered⟩
    · exact holds index call (same ▸ made)
    · rcases CallingParty.call_run ran with same | ⟨other, same⟩
      · exact holds index call (same.symm.trans made)
      · cases (congrArg CallStage.call same).symm.trans made
        have agrees : (after.exchanges index).server.stage.Agrees answers := by
          rw [same]
          trivial
        obtain ⟨earlierAgrees, _, _⟩ := CallingParty.knowing_run ran agrees
        obtain ⟨conversation, reached, picture⟩ :=
          pictured_of_reached bounded earlier index answers earlierAgrees
        obtain ⟨next, toNext, picture⟩ :=
          Exchange.PicturedBy.runServer reached (alive ▸ picture) ran agrees
        refine making index next call toNext ?_
        exact (congrArg Party.program (picture.server rfl)).trans
          (congrArg (CallStage.program process.server answers) same)
    · exact holds index call ((CallingParty.answered_inv answered).2.symm.trans made)

/-- What holds of the program without a call, and is kept by its operations, holds of what is left
of it.
-/
theorem withoutCall_of_reached (good : Program (Result .server) → Prop)
    (first : good process.server.withoutCall)
    (failed : ∀ failure, good (.ended (.error failure)))
    (kept : ∀ party : Party (Result .server), good party.program → good party.perform.program)
    (reached : Reached process.machine state)
    : ∀ call program,
        (state.exchanges call).server.stage = .withoutCall program → good program := by
  refine reached.invariant
    (fun state => ∀ call program,
      (state.exchanges call).server.stage = .withoutCall program → good program) ?_ ?_
  · intro call program same
    exact withoutCall_stage first failed same
  · intro label before after earlier holds _ moved call program same
    rcases (processMove_of_step moved).server_cases call with
      kept | ⟨alive, ran⟩ | ⟨found, provided, answered⟩
    · exact holds call program (kept.symm.trans same)
    · exact CallingParty.withoutCall_run first failed kept (holds call) ran same
    · cases (congrArg CallStage.answer same).symm.trans (CallingParty.answered_inv answered).1

/-- A process that does not crash is ended only by an exception: after a reset, or of a call. -/
theorem terminated_of_reached (bounded : process.Bounded)
    (running
      : ∀ answering, Reached process.answerer.machine answering
        → process.answerer.crashed answering = false)
    (thrown
      : ∀ answers call conversation failure,
          Reached (process.conversation answers call) conversation
          → (conversation .server).program = .ended (.error failure)
          → (conversation .server).socket.resetAt ≠ none)
    [Nonempty Answer] (reached : Reached process.machine state)
    : state.terminated = true
      → ∃ call,
          (state.exchanges call).server.socket.resetAt ≠ none
          ∨ process.answerer.answer state.answerer call = some none := by
  refine reached.invariant
    (fun state => state.terminated = true
      → ∃ call,
          (state.exchanges call).server.socket.resetAt ≠ none
          ∨ process.answerer.answer state.answerer call = some none) nofun ?_
  intro label before after earlier holds _ moved terminated
  have toAfter : Reached process.machine after := .next label earlier trivial moved
  cases processMove_of_step moved with
  | @client mover ready | @resetClient mover lasting | @resetServer mover lasting =>
      obtain ⟨call, lost⟩ := holds terminated
      refine ⟨call, lost.imp_left fun reset => ?_⟩
      by_cases own : call = mover
      · subst own
        rw [setExchange_self]
        first
        | exact (Socket.arrive_resetAt _).trans_ne reset
        | exact reset
        | exact absurd lasting reset
      · rw [setExchange_other own]
        exact reset
  | @server mover server alive ran =>
      obtain ⟨failure, threw⟩ : ∃ failure, server.stage.outcome = some (.error failure) := by
        change server.threw = true at terminated
        unfold CallingParty.threw at terminated
        split at terminated
        · exact ⟨_, by assumption⟩
        · cases terminated
      obtain ⟨answers, agrees⟩ := exists_agrees server.stage
      obtain ⟨earlierAgrees, _, _⟩ := CallingParty.knowing_run ran agrees
      obtain ⟨conversation, reached, picture⟩ :=
        pictured_of_reached bounded earlier mover answers earlierAgrees
      obtain ⟨next, toNext, picture⟩ :=
        Exchange.PicturedBy.runServer reached (alive ▸ picture) ran agrees
      have known := picture.server rfl
      have reset := thrown answers mover next failure toNext
        ((congrArg Party.program known).trans (CallingParty.knowing_of_outcome threw))
      rw [known] at reset
      refine ⟨mover, .inl ?_⟩
      dsimp only
      rw [setExchange_self]
      exact reset
  | @answer mover answer server alive given answered =>
      cases alive.symm.trans terminated
  | @throw mover alive threw calling => exact ⟨mover, .inr threw⟩
  | @answerer label answerer alive calling ran =>
      cases (running _ (answerer_of_reached toAfter)).symm.trans terminated

/-- A call that has come to an end can be answered, or ends the process. -/
theorem enabled_answer {call : ι} {outcome : Option Answer} (alive : state.terminated = false)
    (calling : (state.exchanges call).server.stage.isCalling = true)
    (given : process.answerer.answer state.answerer call = some outcome)
    : process.machine.Enabled (.answer call) state := by
  cases outcome with
  | none => exact ⟨_, step_of_processMove (.throw alive given calling)⟩
  | some answer =>
      have ⟨server, answered⟩ := CallingParty.exists_answered process.server answer calling
      exact ⟨_, step_of_processMove (.answer alive given answered)⟩

/-- As long as a client has not come to its end, or a thread of a running process, somebody can
move, if every conversation goes on, and if calls are answered or there is something left to do for
them.
-/
theorem canRun_of_reached [Nonempty Answer] (bounded : process.Bounded) (own : Label → Bool)
    (sessions
      : ∀ answers call conversation,
          Reached (process.conversation answers call) conversation
          → ∀ side,
              (conversation side).isEnded = false
              → ∃ mover, (process.conversation answers call).Enabled (.run mover) conversation)
    (reached : Reached process.machine state)
    (answering
      : state.terminated = false
        → ∀ call,
            (state.exchanges call).server.stage.isCalling = true
            → process.answerer.answer state.answerer call = none
            → ∃ label, own label = true ∧ process.machine.Enabled (.answerer label) state)
    {call : ι}
    (unended
      : (state.exchanges call).client.isEnded = false
        ∨ state.terminated = false ∧ (state.exchanges call).server.isEnded = false)
    : ∃ label, ProcessLabel.isRun own label = true ∧ process.machine.Enabled label state := by
  cases alive : state.terminated with
  | true =>
      have unended := unended.resolve_right fun running => nomatch alive.symm.trans running.1
      have closed : state.closed call = true := by rw [ProcessState.closed, alive, Bool.true_or]
      have ready : (state.exchanges call).client.Ready (state.closed call) :=
        closed ▸ ready_of_closed unended
      exact ⟨.client call, rfl, _, step_of_processMove (.client ready)⟩
  | false =>
      cases standing : (state.exchanges call).server.stage.isCalling with
      | true =>
          cases given : process.answerer.answer state.answerer call with
          | some outcome => exact ⟨.answer call, rfl, enabled_answer alive standing given⟩
          | none =>
              obtain ⟨label, owned, enabled⟩ := answering alive call standing given
              exact ⟨.answerer label, owned, enabled⟩
      | false =>
          obtain ⟨answers, agrees⟩ := exists_agrees (state.exchanges call).server.stage
          obtain ⟨conversation, toConversation, picture⟩ :=
            pictured_of_reached bounded reached call answers agrees
          have known := picture.server alive
          have ended : (conversation .server).isEnded = (state.exchanges call).server.isEnded := by
            rw [known, CallingParty.isEnded_knowing standing]
          have waiting : ∃ side, (conversation side).isEnded = false := by
            rcases unended with client | ⟨_, server⟩
            · exact ⟨.client, picture.client.symm ▸ client⟩
            · exact ⟨.server, ended.trans server⟩
          obtain ⟨side, waiting⟩ := waiting
          obtain ⟨mover, next, moved⟩ :=
            sessions answers call conversation toConversation side waiting
          have ready := ready_of_run moved
          cases mover with
          | client =>
              have closed : (conversation .server).isEnded = state.closed call := by
                rw [ended, ProcessState.closed, alive, Bool.false_or]
              have ready : (state.exchanges call).client.Ready (state.closed call) := by
                rw [← closed, ← picture.client]
                exact ready
              exact ⟨.client call, rfl, _, step_of_processMove (.client ready)⟩
          | server =>
              have ready : ((state.exchanges call).server.knowing process.server answers).Ready
                  (state.exchanges call).client.isEnded := by
                rw [← known, ← picture.client]
                exact ready
              obtain ⟨server, ran⟩ :=
                Option.isSome_iff_exists.mp (CallingParty.run_isSome standing ready)
              exact ⟨.server call, rfl, _, step_of_processMove (.server alive ran)⟩

end Shared

-----------------------------------------------------------------------------------------
-- How many operations all connections take
-----------------------------------------------------------------------------------------

/-- A calling program takes so many operations up to its call, and so many after it. -/
structure CallingProgram.Within (calling : CallingProgram Call Answer β) (toCall rest : ℕ)
    : Prop where
  toCall : calling.toCall.Within toCall
  withoutCall : calling.withoutCall.Within rest
  fromAnswer : ∀ call answer, (calling.fromAnswer call answer).Within rest

/-- The answer to a call counts as one operation. -/
def CallStage.Within (rest : ℕ) : CallStage Call Answer β → ℕ → Prop
  | .toCall program _, operations =>
      ∃ left, left + (rest + 1) = operations ∧ program.Within left
  | .calling _, operations => rest + 1 ≤ operations
  | .fromAnswer _ _ program, operations | .withoutCall program, operations =>
      program.Within operations

/-- Both sides of a connection take no more operations than this, the server's only as long as the
process is running.
-/
def Exchange.Within (rest : ℕ) (terminated : Bool) (exchange : Exchange Call Answer Result)
    (operations : ℕ)
    : Prop :=
  ∃ client server,
    client + server = operations
    ∧ exchange.client.program.Within client
    ∧ (terminated = false → exchange.server.stage.Within rest server)

theorem Exchange.Within.ending {rest operations : ℕ} {exchange : Exchange Call Answer Result}
    (within : exchange.Within rest false operations) (terminated : Bool)
    : exchange.Within rest terminated operations := by
  obtain ⟨client, server, same, bound, stage⟩ := within
  exact ⟨client, server, same, bound, fun _ => stage rfl⟩

/-- Whoever is calling has an operation left. -/
theorem CallStage.within_calling {stage : CallStage Call Answer β} {rest operations : ℕ}
    (within : stage.Within rest operations) (calling : stage.isCalling = true)
    : 1 ≤ operations := by
  cases stage with
  | calling call => exact Nat.le_of_add_left_le within
  | _ => cases calling

section Bounds

variable {calling : CallingProgram Call Answer β} {party next : CallingParty Call Answer β}
  {toCall rest operations left : ℕ} {closed : Bool}

theorem CallingProgram.Within.stage (within : calling.Within toCall rest)
    {program : Program (Option Call)} (bound : program.Within left)
    : (calling.stage program).Within rest (left + (rest + 1)) := by
  cases program with
  | ended outcome =>
      cases outcome with
      | error failure => trivial
      | ok call =>
          cases call with
          | none => exact within.withoutCall.weaken (by omega)
          | some call => exact Nat.le_add_left _ _
  | _ => exact ⟨left, rfl, bound⟩

/-- An operation of a thread is one less, and so is an answer. -/
theorem CallingParty.within_run (within : calling.Within toCall rest)
    (moved : party.run calling closed = some next) (bound : party.stage.Within rest operations)
    : ∃ left, left + 1 = operations ∧ next.stage.Within rest left := by
  obtain ⟨stage, socket⟩ := party
  cases stage with
  | calling call => cases moved
  | toCall program unended =>
      obtain ⟨ready, ⟨⟩⟩ := Option.ite_none_right_eq_some.mp moved
      obtain ⟨before, rfl, bound⟩ := bound
      obtain ⟨left, rfl, less⟩ := bound.perform ready
      exact ⟨left + (rest + 1), by omega, within.stage less⟩
  | fromAnswer call answer program | withoutCall program =>
      obtain ⟨ready, ⟨⟩⟩ := Option.ite_none_right_eq_some.mp moved
      obtain ⟨left, same, less⟩ := Program.Within.perform ready bound
      exact ⟨left, same.symm, less⟩

theorem CallingParty.within_answered {answer : Answer} (within : calling.Within toCall rest)
    (moved : party.answered calling answer = some next)
    (bound : party.stage.Within rest operations)
    : ∃ left, left + 1 = operations ∧ next.stage.Within rest left := by
  obtain ⟨stage, socket⟩ := party
  cases stage with
  | calling call =>
      cases moved
      have enough : rest + 1 ≤ operations := bound
      exact ⟨operations - 1, by omega, (within.fromAnswer call answer).weaken (by omega)⟩
  | _ => cases moved

variable [Fintype ι] [DecidableEq ι] {process : Process ι Call Answer Result State Label}
  {state after : ProcessState ι Call Answer Result State} {label : ProcessLabel ι Label}
  {shares : ι → ℕ}

/-- What one connection has used up, all have. -/
theorem update_shares {exchanges : ι → Exchange Call Answer Result} {terminated : Bool}
    (bounds : ∀ call, (exchanges call).Within rest terminated (shares call)) (mover : ι)
    {exchange : Exchange Call Answer Result} {used : ℕ}
    (less : ∃ left, left + used = shares mover ∧ exchange.Within rest terminated left)
    : ∃ fewer : ι → ℕ,
        (∀ call,
          (Function.update exchanges mover exchange call).Within rest terminated (fewer call))
        ∧ ∑ call, fewer call + used = ∑ call, shares call := by
  obtain ⟨left, same, within⟩ := less
  refine ⟨Function.update shares mover left, fun call => ?_, ?_⟩
  · by_cases own : call = mover
    · subst own
      rw [Function.update_self, Function.update_self]
      exact within
    · rw [Function.update_of_ne own, Function.update_of_ne own]
      exact bounds call
  · have traded := sum_update shares mover left id
    simp only [id_eq] at traded
    omega

/-- Every step leaves as much for all connections, and an operation one less. -/
theorem ProcessMove.exists_shares (within : process.server.Within toCall rest)
    (moved : ProcessMove process state label after)
    (bounds : ∀ call, (state.exchanges call).Within rest state.terminated (shares call))
    : ∃ fewer : ι → ℕ,
        (∀ call, (after.exchanges call).Within rest after.terminated (fewer call))
        ∧ ∑ call, fewer call + label.onConnection.toNat = ∑ call, shares call := by
  cases moved with
  | @client mover ready =>
      obtain ⟨client, server, same, bound, stage⟩ := bounds mover
      obtain ⟨left, rfl, less⟩ := bound.perform ready
      exact update_shares bounds mover
        ⟨left + server, by rw [← same]; exact Nat.add_right_comm .., left, server, rfl, less, stage⟩
  | @server mover server alive ran =>
      obtain ⟨client, before, same, bound, stage⟩ := bounds mover
      obtain ⟨left, rfl, less⟩ := CallingParty.within_run within ran (stage alive)
      exact update_shares (fun call => (alive ▸ bounds call).ending _) mover
        ⟨client + left, same, client, left, rfl, bound, fun _ => less⟩
  | @resetClient mover lasting | @resetServer mover lasting =>
      exact update_shares bounds mover ⟨_, rfl, bounds mover⟩
  | @answer mover answer server alive given answered =>
      obtain ⟨client, before, same, bound, stage⟩ := bounds mover
      obtain ⟨left, rfl, less⟩ := CallingParty.within_answered within answered (stage alive)
      exact update_shares bounds mover
        ⟨client + left, same, client, left, rfl, bound, fun _ => less⟩
  | @throw mover alive threw calling =>
      obtain ⟨client, before, same, bound, stage⟩ := bounds mover
      have standing := CallStage.within_calling (stage alive) calling
      have less : ∃ left,
          left + 1 = shares mover ∧ (state.exchanges mover).Within rest true left :=
        ⟨client + (before - 1), by omega, client, before - 1, rfl, bound, nofun⟩
      have fewer := update_shares (fun call => (alive ▸ bounds call).ending true) mover less
      rw [Function.update_eq_self] at fewer
      exact fewer
  | answerer alive =>
      exact ⟨shares, fun call => (alive ▸ bounds call).ending _, rfl⟩

/-- So all connections together take no more operations than were left, by induction on the
schedule.
-/
theorem onConnection_le (within : process.server.Within toCall rest)
    (bounds : ∀ call, (state.exchanges call).Within rest state.terminated (shares call))
    {schedule : List (ProcessLabel ι Label)} {final : ProcessState ι Call Answer Result State}
    (run : process.machine.follow schedule state = some final)
    : schedule.countP ProcessLabel.onConnection ≤ ∑ call, shares call := by
  induction schedule generalizing state shares with
  | nil => exact Nat.zero_le _
  | cons label rest ih =>
      obtain ⟨middle, moved, later⟩ := Machine.follow_cons_some.mp run
      obtain ⟨fewer, less, same⟩ := (processMove_of_step moved).exists_shares within bounds
      have count := ih less later
      rw [List.countP_cons]
      cases own : label.onConnection with
      | true =>
          simp only [own, Bool.toNat_true] at same
          simp only [if_true]
          omega
      | false =>
          simp only [own, Bool.toNat_false] at same
          simp only [Bool.false_eq_true, if_false]
          omega

omit [Fintype ι] [DecidableEq ι] in
/-- The steps of a schedule are those on connections and those of what is shared. -/
theorem countP_isRun (own : Label → Bool) (schedule : List (ProcessLabel ι Label))
    : schedule.countP (ProcessLabel.isRun own)
      = schedule.countP ProcessLabel.onConnection
        + (schedule.filterMap ProcessLabel.shared).countP own := by
  induction schedule with
  | nil => rfl
  | cons label rest ih =>
      rw [List.countP_cons, List.countP_cons, ih]
      cases label with
      | answerer label =>
          have own : (ProcessLabel.answerer label : ProcessLabel ι Label).shared = some label := rfl
          rw [List.filterMap_cons_some own, List.countP_cons]
          exact Nat.add_assoc ..
      | client call | server call | answer call | reset call side =>
          exact Nat.add_right_comm ..

omit [Fintype ι] in
/-- Where each client takes no more operations than this. -/
theorem start_shares {clients : ℕ} (within : process.server.Within toCall rest)
    (bound : ∀ call, (process.clients call).Within clients)
    : ∀ call,
        (process.machine.start.exchanges call).Within rest false
          (clients + (toCall + (rest + 1))) :=
  fun call =>
    ⟨clients, toCall + (rest + 1), rfl, bound call, fun _ => within.stage within.toCall⟩

end Bounds

end PplMe.Net
