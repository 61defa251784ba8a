import PplMe.Net.CallingPrograms

/-! A process whose connection threads have their calls answered by what they share.
Each connection has a client of its own at the other end. An exception in one thread ends them all.
-/

namespace PplMe.Net

open Stepping Failures

/-- What answers calls: a machine, some of whose steps are taken by the threads that have called.
A call has come to an end with an answer, or with an exception.
-/
structure Answerer (ι : Type*) (Answer : Type) (State Label : Type*) where
  machine : Machine State Label
  answer : State → ι → Option (Option Answer)
  caller : Label → Option ι
  crashed : State → Bool

structure Exchange (Call Answer : Type) (Result : Side → Type) where
  client : Party (Result .client)
  server : CallingParty Call Answer (Result .server)

/-- Clients, the program of all connection threads, and what these share. -/
structure Process (ι : Type*) (Call Answer : Type) (Result : Side → Type)
    (State Label : Type*) where
  clients : ι → Program (Result .client)
  server : CallingProgram Call Answer (Result .server)
  endpoints : ι → Side → Endpoint
  answerer : Answerer ι Answer State Label

structure ProcessState (ι : Type*) (Call Answer : Type) (Result : Side → Type)
    (State : Type*) where
  exchanges : ι → Exchange Call Answer Result
  answerer : State
  terminated : Bool

inductive ProcessLabel (ι Label : Type*) where
  | client (call : ι)
  | server (call : ι)
  | reset (call : ι) (side : Side)
  /-- A thread's call has come to an end, and the thread goes on, or does not. -/
  | answer (call : ι)
  | answerer (label : Label)

variable {ι State Label : Type*} {Call Answer : Type} {Result : Side → Type}

-----------------------------------------------------------------------------------------
-- Steps
-----------------------------------------------------------------------------------------

namespace ProcessState

variable (state : ProcessState ι Call Answer Result State) (call : ι)

/-- The server's end of a connection is closed when its thread has ended, or the process. -/
def closed : Bool := state.terminated || (state.exchanges call).server.isEnded

variable [DecidableEq ι]

def setExchange (exchange : Exchange Call Answer Result)
    : ProcessState ι Call Answer Result State :=
  { state with exchanges := Function.update state.exchanges call exchange }

/-- The client performs an operation. -/
def runClient : Option (ProcessState ι Call Answer Result State) :=
  let exchange := state.exchanges call
  if exchange.client.Ready (state.closed call) then
    let client := exchange.client.perform
    some
      (state.setExchange call ⟨client, exchange.server.arrive (client.sentSince exchange.client)⟩)
  else
    none

/-- The connection is reset for one of its sides. -/
def reset (side : Side) : Option (ProcessState ι Call Answer Result State) :=
  let exchange := state.exchanges call
  match side with
  | .client =>
      match exchange.client.socket.resetAt with
      | none => some (state.setExchange call { exchange with client := exchange.client.reset })
      | some _ => none
  | .server =>
      match exchange.server.socket.resetAt with
      | none => some (state.setExchange call { exchange with server := exchange.server.reset })
      | some _ => none

end ProcessState

namespace Process

variable [DecidableEq ι] (process : Process ι Call Answer Result State Label)
  (state : ProcessState ι Call Answer Result State)

/-- A connection thread performs an operation. -/
def runServer (call : ι) : Option (ProcessState ι Call Answer Result State) :=
  if state.terminated then
    none
  else
    let exchange := state.exchanges call
    (exchange.server.run process.server exchange.client.isEnded).map fun server =>
      { state.setExchange call
          ⟨exchange.client.arrive (server.sentSince exchange.server), server⟩ with
        terminated := server.threw }

/-- A connection thread gets the answer to its call, or the exception. -/
def answerCall (call : ι) : Option (ProcessState ι Call Answer Result State) :=
  if state.terminated then
    none
  else
    let exchange := state.exchanges call
    match process.answerer.answer state.answerer call with
    | none => none
    | some none =>
        if exchange.server.stage.isCalling then some { state with terminated := true } else none
    | some (some answer) =>
        (exchange.server.answered process.server answer).map fun server =>
          state.setExchange call { exchange with server }

/-- A step towards an answer; on a connection thread only while it is calling. -/
def runAnswerer (label : Label) : Option (ProcessState ι Call Answer Result State) :=
  if state.terminated then
    none
  else if (process.answerer.caller label).all
      fun call => (state.exchanges call).server.stage.isCalling then
    (process.answerer.machine.step label state.answerer).map fun answerer =>
      { state with answerer, terminated := process.answerer.crashed answerer }
  else
    none

/-- All connections have been accepted, and nothing has happened on them yet. -/
def start : ProcessState ι Call Answer Result State where
  exchanges call :=
    { client := ⟨process.clients call, .connected (process.endpoints call .server) [] none⟩
      server :=
        ⟨process.server.stage process.server.toCall,
          .connected (process.endpoints call .client) [] none⟩ }
  answerer := process.answerer.machine.start
  terminated := false

def machine : Machine (ProcessState ι Call Answer Result State) (ProcessLabel ι Label) where
  start := process.start
  step label state :=
    match label with
    | .client call => state.runClient call
    | .server call => process.runServer state call
    | .reset call side => state.reset call side
    | .answer call => process.answerCall state call
    | .answerer label => process.runAnswerer state label

end Process

-----------------------------------------------------------------------------------------
-- Moves
-----------------------------------------------------------------------------------------

/-- Everything that can happen in one step. -/
inductive ProcessMove [DecidableEq ι] (process : Process ι Call Answer Result State Label)
    (state : ProcessState ι Call Answer Result State)
    : ProcessLabel ι Label → ProcessState ι Call Answer Result State → Prop
  | client {call} (ready : (state.exchanges call).client.Ready (state.closed call))
    : ProcessMove process state (.client call)
        (state.setExchange call
          ⟨(state.exchanges call).client.perform,
            (state.exchanges call).server.arrive
              ((state.exchanges call).client.perform.sentSince (state.exchanges call).client)⟩)
  | server {call server} (alive : state.terminated = false)
    (moved
      : (state.exchanges call).server.run process.server (state.exchanges call).client.isEnded
        = some server)
    : ProcessMove process state (.server call)
        { state.setExchange call
            ⟨(state.exchanges call).client.arrive
              (server.sentSince (state.exchanges call).server), server⟩ with
          terminated := server.threw }
  | resetClient {call} (lasting : (state.exchanges call).client.socket.resetAt = none)
    : ProcessMove process state (.reset call .client)
        (state.setExchange call
          { state.exchanges call with client := (state.exchanges call).client.reset })
  | resetServer {call} (lasting : (state.exchanges call).server.socket.resetAt = none)
    : ProcessMove process state (.reset call .server)
        (state.setExchange call
          { state.exchanges call with server := (state.exchanges call).server.reset })
  | answer {call answer server} (alive : state.terminated = false)
    (given : process.answerer.answer state.answerer call = some (some answer))
    (moved : (state.exchanges call).server.answered process.server answer = some server)
    : ProcessMove process state (.answer call)
        (state.setExchange call { state.exchanges call with server })
  | throw {call} (alive : state.terminated = false)
    (threw : process.answerer.answer state.answerer call = some none)
    (calling : (state.exchanges call).server.stage.isCalling = true)
    : ProcessMove process state (.answer call) { state with terminated := true }
  | answerer {label answerer} (alive : state.terminated = false)
    (calling
      : (process.answerer.caller label).all
          (fun call => (state.exchanges call).server.stage.isCalling)
        = true)
    (moved : process.answerer.machine.step label state.answerer = some answerer)
    : ProcessMove process state (.answerer label)
        { state with answerer, terminated := process.answerer.crashed answerer }

section Moves

variable [DecidableEq ι] {process : Process ι Call Answer Result State Label}
  {state after : ProcessState ι Call Answer Result State} {label : ProcessLabel ι Label}

theorem processMove_of_step (moved : process.machine.step label state = some after)
    : ProcessMove process state label after := by
  cases label with
  | client call =>
      obtain ⟨ready, ⟨⟩⟩ := Option.ite_none_right_eq_some.mp moved
      exact .client ready
  | server call =>
      obtain ⟨alive, moved⟩ := Option.ite_none_left_eq_some.mp moved
      obtain ⟨server, ran, rfl⟩ := Option.map_eq_some_iff.mp moved
      exact .server (Bool.not_eq_true _ ▸ alive) ran
  | reset call side =>
      cases side with
      | client =>
          change state.reset call .client = some after at moved
          unfold ProcessState.reset at moved
          dsimp only at moved
          split at moved
          · cases moved
            exact .resetClient (by assumption)
          · cases moved
      | server =>
          change state.reset call .server = some after at moved
          unfold ProcessState.reset at moved
          dsimp only at moved
          split at moved
          · cases moved
            exact .resetServer (by assumption)
          · cases moved
  | answer call =>
      obtain ⟨alive, moved⟩ := Option.ite_none_left_eq_some.mp moved
      have alive := Bool.not_eq_true _ ▸ alive
      split at moved
      · cases moved
      · rename_i threw
        obtain ⟨calling, ⟨⟩⟩ := Option.ite_none_right_eq_some.mp moved
        exact .throw alive threw calling
      · rename_i answer given
        obtain ⟨server, answered, rfl⟩ := Option.map_eq_some_iff.mp moved
        exact .answer alive given answered
  | answerer label =>
      obtain ⟨alive, moved⟩ := Option.ite_none_left_eq_some.mp moved
      obtain ⟨calling, moved⟩ := Option.ite_none_right_eq_some.mp moved
      obtain ⟨answerer, ran, rfl⟩ := Option.map_eq_some_iff.mp moved
      exact .answerer (Bool.not_eq_true _ ▸ alive) calling ran

/-- And all of that can happen. -/
theorem step_of_processMove (moved : ProcessMove process state label after)
    : process.machine.step label state = some after := by
  cases moved with
  | client ready => exact if_pos ready
  | @server call server alive ran =>
      change process.runServer state call = _
      simp only [Process.runServer, alive, Bool.false_eq_true, if_false, ran, Option.map_some]
  | @resetClient call lasting =>
      change state.reset call .client = _
      simp only [ProcessState.reset, lasting]
  | @resetServer call lasting =>
      change state.reset call .server = _
      simp only [ProcessState.reset, lasting]
  | @answer call answer server alive given answered =>
      change process.answerCall state call = _
      simp only [Process.answerCall, alive, Bool.false_eq_true, if_false, given, answered,
        Option.map_some]
  | @throw call alive threw calling =>
      change process.answerCall state call = _
      simp only [Process.answerCall, alive, Bool.false_eq_true, if_false, threw, calling, if_true]
  | @answerer label answerer alive calling ran =>
      change process.runAnswerer state label = _
      simp only [Process.runAnswerer, alive, Bool.false_eq_true, if_false, calling, if_true, ran,
        Option.map_some]

end Moves

end PplMe.Net
