import PplMe.Pplmec.PplmeRuns
import PplMe.Pplmed.SharedSearches

/-! Many clients of one server.
Each has a connection thread of its own, and the threads share the searches and their workers.
Connections may be reset at any moment, and with a thread that is thrown out the server ends.
-/

namespace PplMe.Pplmec

open PplMe.Core PplMe.Engine PplMe.Net PplMe.Pplmed Stepping Octets

abbrev PplmeExchange := Exchange HandlerCall (Option Message) PplmeResult

/-- All clients and the server. -/
def pplmeProcess {ι : Type*} [DecidableEq ι] (hosts : ι → Host) (arguments : ι → Arguments)
    (requests : Requests ι) (ω : Type*) [DecidableEq ω] (endpoints : ι → Side → Endpoint)
    : Process ι HandlerCall (Option Message) PplmeResult (FindState requests.Search ω)
        (FindLabel requests.Search ω) :=
  requests.process ω (fun call => (hosts call).pplme (arguments call) true)
    (serviceCalling requests.host) endpoints

/-- Nothing has gone wrong on a connection, and both of its ends are closed. -/
structure Undisturbed (exchange : PplmeExchange) (terminated : Bool) : Prop where
  running : terminated = false
  client : exchange.client.socket.resetAt = none
  server : exchange.server.socket.resetAt = none
  clientEnded : exchange.client.isEnded = true
  serverEnded : exchange.server.isEnded = true

/-- A connection on which the handler is called with the client's own request, and which shows the
people that the handler's search has found, or that the request failed.
-/
structure ServedClient {ι : Type*} (host : Host) (arguments : Arguments) (requests : Requests ι)
    (people : List Person) (call : ι) (exchange : PplmeExchange) (terminated : Bool)
    : Prop where
  asked
    : ∀ made, exchange.server.stage.call = some made → made.request = requests.messages call
  answered
    : ∀ answer,
        exchange.server.stage.answer = some answer
        → ∃ ppl window,
            answer = some (requests.framed ppl)
            ∧ Found requests.settings arguments people ppl window
            ∧ Shows host requests.host arguments ppl exchange.client
                (Undisturbed exchange terminated)
  unanswered
    : exchange.server.stage.answer = none
      → ∀ outcome,
          exchange.client.program = .ended outcome
          → outcome = .ok arguments.noResponse
            ∨ outcome = .error .notConnected ∧ exchange.client.socket.resetAt ≠ none
  undisturbed
    : Undisturbed exchange terminated → exchange.server.stage.answer.isSome = true

-----------------------------------------------------------------------------------------
-- Connections of the process
-----------------------------------------------------------------------------------------

section Connections

variable {ι ω : Type*} [DecidableEq ι] [DecidableEq ω] {hosts : ι → Host}
  {arguments : ι → Arguments} {requests : Requests ι} {endpoints : ι → Side → Endpoint}
  {state : ProcessState ι HandlerCall (Option Message) PplmeResult (FindState requests.Search ω)}
  {answers : HandlerCall → Option Message} {call : ι} {terminated : Bool}
  {conversation : Conversation PplmeResult}

/-- A handler with these answers. -/
def handlerOf (answers : HandlerCall → Option Message) : RequestHandler :=
  fun address port request => answers ⟨address, port, request⟩

/-- Each client talks to its connection thread as if to a server of its own. -/
theorem pplmeProcess_conversation
    : (pplmeProcess hosts arguments requests ω endpoints).conversation answers call
      = pplmeSession (hosts call) requests.host (handlerOf answers) (arguments call)
        (endpoints call) := by
  refine congrArg (fun programs => Net.conversation programs (endpoints call)) ?_
  funext side
  cases side with
  | client => rfl
  | server => exact serviceCalling_answeredBy requests.host (handlerOf answers)

theorem pplmeProcess_bounded
    : (pplmeProcess hosts arguments requests ω endpoints).Bounded := by
  intro answers call side
  cases side with
  | client => exact ⟨7, within_pplme⟩
  | server =>
      have same
          : (pplmeProcess hosts arguments requests ω endpoints).programs answers call .server
            = .service requests.host (handlerOf answers) :=
        serviceCalling_answeredBy requests.host (handlerOf answers)
      exact ⟨11, same ▸ within_service (handlerOf answers)⟩

/-- In a reached state each connection looks like one of its own. -/
theorem exists_picture
    (reached : Reached (pplmeProcess hosts arguments requests ω endpoints).machine state)
    (agrees : (state.exchanges call).server.stage.Agrees answers)
    : ∃ conversation,
        Reached
          (pplmeSession (hosts call) requests.host (handlerOf answers) (arguments call)
            (endpoints call)) conversation
        ∧ (state.exchanges call).PicturedBy (serviceCalling requests.host) answers
          state.terminated conversation := by
  rw [← @pplmeProcess_conversation _ ω]
  exact pictured_of_reached pplmeProcess_bounded reached call answers agrees

/-- And is undisturbed in the picture where it is in the process. -/
theorem Undisturbed.picture {host : ByteOrder} {exchange : PplmeExchange}
    (undisturbed : Undisturbed exchange terminated)
    (picture : exchange.PicturedBy (serviceCalling host) answers terminated conversation)
    : EndedInPeace conversation := by
  have server := picture.server undisturbed.running
  constructor <;> intro side
  · cases side with
    | client => exact picture.client.symm ▸ undisturbed.client
    | server => exact server.symm ▸ undisturbed.server
  · cases side with
    | client => exact picture.client.symm ▸ undisturbed.clientEnded
    | server =>
        obtain ⟨outcome, ended⟩ := Option.isSome_iff_exists.mp undisturbed.serverEnded
        rw [server, Party.isEnded, CallingParty.knowing_of_outcome ended]

end Connections

-----------------------------------------------------------------------------------------
-- What a connection comes to
-----------------------------------------------------------------------------------------

section Served

variable {ι ω : Type*} [DecidableEq ι] [DecidableEq ω] {parsers : Proto.Parsers}
  {hosts : ι → Host} {arguments : ι → Arguments} {requests : Requests ι} {people : List Person}
  {endpoints : ι → Side → Endpoint}
  {state : ProcessState ι HandlerCall (Option Message) PplmeResult (FindState requests.Search ω)}

/-- The handler is called only with the request of the connection's client. -/
theorem asked_of_reached
    (deployed : ∀ call, Deployed parsers (hosts call) (arguments call) requests people call)
    (reached : Reached (pplmeProcess hosts arguments requests ω endpoints).machine state)
    : ∀ call made,
        (state.exchanges call).server.stage.call = some made
        → made.request = requests.messages call := by
  refine call_of_reached pplmeProcess_bounded (fun _ => none)
    (fun call made => made.request = requests.messages call) ?_ reached
  intro call conversation made toConversation calling
  rw [pplmeProcess_conversation] at toConversation
  have ended : (conversation .server).program = .ended (.ok [made.request]) := calling
  rcases pplme_handled toConversation ended with nothing | whole | ⟨threw, _⟩
  · cases nothing
  · have same := List.cons.inj (Except.ok.inj whole)
    exact same.1.trans (deployed call).asked.symm
  · cases threw

/-- Without an answer there is no response. -/
theorem sessionResponses_of_unanswered {orders : Side → ByteOrder} {peers : Side → Endpoint}
    {request : Message}
    : sessionResponses orders peers (handlerOf fun _ => none) request = [] := by
  have nothing : answered (orders .server) (handlerOf fun _ => none) (peers .client)
      (request.wire (orders .client)) = [] :=
    List.flatMap_eq_nil_iff.mpr fun _ _ => rfl
  rw [sessionResponses, nothing]
  exact if_neg (by decide)

/-- So a client whose thread has not got an answer reports a failure. -/
theorem unanswered_of_reached
    (reached : Reached (pplmeProcess hosts arguments requests ω endpoints).machine state)
    {call : ι} (unanswered : (state.exchanges call).server.stage.answer = none)
    {outcome : Except SocketException Report}
    (ended : (state.exchanges call).client.program = .ended outcome)
    : outcome = .ok (arguments call).noResponse
      ∨ outcome = .error .notConnected
        ∧ (state.exchanges call).client.socket.resetAt ≠ none := by
  obtain ⟨conversation, toConversation, picture⟩ :=
    exists_picture reached (@CallStage.agrees_same _ _ _ _ none (.inl unanswered))
  rw [← picture.client] at ended ⊢
  rcases pplme_outcome toConversation ended with shown | shown | lost
  · exact .inl shown
  · rw [sessionResponses_of_unanswered] at shown
    exact .inl shown
  · exact .inr lost

/-- And one whose thread has got people shows just these. -/
theorem shows_of_reached {call : ι}
    (deployed : Deployed parsers (hosts call) (arguments call) requests people call)
    (reached : Reached (pplmeProcess hosts arguments requests ω endpoints).machine state)
    {ppl : List Person} (stored : ∀ person ∈ ppl, person ∈ people)
    (sized : responseSize requests.host ppl < 2 ^ 31)
    (answered : (state.exchanges call).server.stage.answer = some (some (requests.framed ppl)))
    : Shows (hosts call) requests.host (arguments call) ppl (state.exchanges call).client
        (Undisturbed (state.exchanges call) state.terminated) := by
  obtain ⟨conversation, toConversation, picture⟩ :=
    exists_picture reached (CallStage.agrees_same (.inr answered))
  have shown := deployed.shows stored sized rfl toConversation
  rw [← picture.client]
  exact ⟨shown.outcome, fun undisturbed => shown.lasting (undisturbed.picture picture),
    shown.sameOrder⟩

/-- Without a call a thread logs that it got no request, and has handled none. -/
theorem handled_of_withoutCall
    (reached : Reached (pplmeProcess hosts arguments requests ω endpoints).machine state)
    {call : ι} {handled : List Message}
    (same : (state.exchanges call).server.stage = .withoutCall (.ended (.ok handled)))
    : handled = [] := by
  let logging : Program (List Message) := (serviceCalling requests.host).withoutCall
  have good := withoutCall_of_reached
    (fun program : Program (List Message) =>
      program = logging
      ∨ program = .ended (.ok [])
      ∨ ∃ failure, program = .ended (.error failure))
    (.inl rfl) (fun failure => .inr (.inr ⟨failure, rfl⟩)) ?_ reached call _ same
  · rcases good with unended | ended | ⟨failure, threw⟩
    · change Program.ended (.ok handled) = Program.remoteEndpoint _ at unended
      cases unended
    · exact Except.ok.inj (Program.ended.inj ended)
    · cases threw
  · rintro ⟨program, socket⟩ (rfl | rfl | ⟨failure, rfl⟩)
    · cases reset : socket.isReset with
      | false => exact .inr (.inl (congrArg Party.program (perform_remoteEndpoint reset)))
      | true =>
          exact .inr
            (.inr ⟨_, congrArg Party.program (perform_remoteEndpoint_of_isReset reset)⟩)
    · exact .inr (.inl rfl)
    · exact .inr (.inr ⟨failure, rfl⟩)

/-- A thread that has ended undisturbed has got an answer. -/
theorem answered_of_undisturbed
    (reached : Reached (pplmeProcess hosts arguments requests ω endpoints).machine state)
    {call : ι} (undisturbed : Undisturbed (state.exchanges call) state.terminated)
    : (state.exchanges call).server.stage.answer.isSome = true := by
  cases answered : (state.exchanges call).server.stage.answer with
  | some answer => rfl
  | none =>
      obtain ⟨conversation, toConversation, picture⟩ :=
        exists_picture reached (@CallStage.agrees_same _ _ _ _ none (.inl answered))
      obtain ⟨lasting, ended⟩ := undisturbed.picture picture
      have whole := (pplme_result toConversation lasting ended).1
      rw [picture.server undisturbed.running] at whole
      obtain ⟨outcome, ended⟩ := Option.isSome_iff_exists.mp undisturbed.serverEnded
      have known := (CallingParty.knowing_of_outcome ended).symm.trans whole
      cases Program.ended.inj known
      have same := CallStage.withoutCall_of_answer_none answered ended
      cases handled_of_withoutCall reached same

/-- Each connection of the process. -/
theorem served_of_reached [Fintype ω]
    (deployed : ∀ call, Deployed parsers (hosts call) (arguments call) requests people call)
    (reached : Reached (pplmeProcess hosts arguments requests ω endpoints).machine state)
    (call : ι)
    : ServedClient (hosts call) (arguments call) requests people call (state.exchanges call)
        state.terminated where
  asked := asked_of_reached deployed reached call
  answered answer given := by
    obtain ⟨findState, toFindState, handled⟩ := answer_of_reached reached call answer given
    obtain ⟨outcome, handled, same⟩ := Option.map_eq_some_iff.mp handled
    obtain ⟨ppl, window, found, ⟨rfl, large⟩ | ⟨rfl, sized⟩⟩ :=
      (deployed call).answer toFindState handled
    · cases same
    · cases same
      exact ⟨ppl, window, rfl, found,
        shows_of_reached (deployed call) reached found.stored sized given⟩
  unanswered nothing _ ended := unanswered_of_reached reached nothing ended
  undisturbed := answered_of_undisturbed reached

end Served

-----------------------------------------------------------------------------------------
-- All clients
-----------------------------------------------------------------------------------------

/-- No search fails, and the server ends only after a connection was lost, or after so many people
were found that the handler has thrown. Each client is served, and as long as one has not ended, or
a connection thread, somebody can move.
-/
structure ClientsServed {ι ω : Type*} [DecidableEq ι] [DecidableEq ω] (hosts : ι → Host)
    (arguments : ι → Arguments) (requests : Requests ι) (people : List Person)
    (endpoints : ι → Side → Endpoint)
    (state
      : ProcessState ι HandlerCall (Option Message) PplmeResult (FindState requests.Search ω))
    : Prop where
  running : state.answerer.crashed = none
  terminated
    : state.terminated = true
      → ∃ call,
          (state.exchanges call).server.socket.resetAt ≠ none
          ∨ ∃ search ppl,
              search.1 = call
              ∧ state.answerer.callers search = .returned ppl
              ∧ 2 ^ 31 ≤ responseSize requests.host ppl
  served
    : ∀ call,
        ServedClient (hosts call) (arguments call) requests people call (state.exchanges call)
          state.terminated
  progress
    : ∀ call,
        (state.exchanges call).client.isEnded = false
          ∨ state.terminated = false ∧ (state.exchanges call).server.isEnded = false
        → ∃ label,
            ProcessLabel.isRun FindLabel.isRun label = true
            ∧ (pplmeProcess hosts arguments requests ω endpoints).machine.Enabled label state

section Clients

variable {ι ω : Type*} [DecidableEq ι] [DecidableEq ω] [Fintype ω] [Nonempty ω]
  {parsers : Proto.Parsers} {hosts : ι → Host} {arguments : ι → Arguments}
  {requests : Requests ι} {people : List Person} {endpoints : ι → Side → Endpoint}
  {state : ProcessState ι HandlerCall (Option Message) PplmeResult (FindState requests.Search ω)}

omit [Fintype ω] [Nonempty ω] in
/-- A connection thread throws only after a reset. -/
theorem thrown_of_reached (answers : HandlerCall → Option Message) (call : ι)
    (conversation : Conversation PplmeResult) (failure : SocketException)
    (reached
      : Reached ((pplmeProcess hosts arguments requests ω endpoints).conversation answers call)
          conversation)
    (threw : (conversation .server).program = .ended (.error failure))
    : (conversation .server).socket.resetAt ≠ none := by
  rw [pplmeProcess_conversation] at reached
  rcases pplme_handled reached threw with nothing | whole | ⟨_, reset⟩
  · cases nothing
  · cases whole
  · exact reset

theorem clientsServed_of_reached (answerable : requests.finds.Answerable)
    (deployed : ∀ call, Deployed parsers (hosts call) (arguments call) requests people call)
    (reached : Reached (pplmeProcess hosts arguments requests ω endpoints).machine state)
    : ClientsServed hosts arguments requests people endpoints state where
  running := crashed_of_reached answerable (answerer_of_reached reached)
  terminated terminated := by
    have running (findState) (toFindState : Reached (requests.finds.machine ω) findState)
        : findState.crashed.isSome = false :=
      congrArg Option.isSome (crashed_of_reached answerable toFindState)
    obtain ⟨call, lost⟩ :=
      terminated_of_reached pplmeProcess_bounded running thrown_of_reached reached terminated
    refine ⟨call, lost.imp_right fun threw => ?_⟩
    obtain ⟨outcome, handled, same⟩ := Option.map_eq_some_iff.mp threw
    cases outcome with
    | error fault => exact returned_of_fault handled
    | ok answer => cases same
  served := served_of_reached deployed reached
  progress call unended := by
    refine canRun_of_reached pplmeProcess_bounded FindLabel.isRun ?_ reached ?_ unended
    · intro answers other conversation toConversation side waiting
      rw [pplmeProcess_conversation] at toConversation ⊢
      exact pplme_progress toConversation waiting
    · intro alive other calling unanswered
      exact canAnswer_of_reached answerable reached alive calling
        (Option.map_eq_none_iff.mp unanswered)

omit [Nonempty ω] in
/-- All connections take 19 operations each, and the searches what they take without clients. -/
theorem isRun_le [Fintype ι] (answerable : requests.finds.Answerable)
    : ∃ steps perWakeup, ∀ schedule state,
        (pplmeProcess hosts arguments requests ω endpoints).machine.follow schedule
            (pplmeProcess hosts arguments requests ω endpoints).machine.start
          = some state
        → schedule.countP (ProcessLabel.isRun FindLabel.isRun)
          ≤ Fintype.card ι * 19 + steps
            + perWakeup
              * (schedule.filterMap ProcessLabel.shared).countP fun label => !label.isRun := by
  obtain ⟨steps, perWakeup, bounded⟩
    : ∃ steps perWakeup, ∀ schedule state,
        (requests.finds.machine ω).follow schedule (requests.finds.machine ω).start = some state
        → schedule.countP FindLabel.isRun
          ≤ steps + perWakeup * schedule.countP (fun label => !label.isRun) :=
    ⟨_, _, fun _ _ run => runs_le_weight answerable run⟩
  refine ⟨steps, perWakeup, fun schedule state run => ?_⟩
  have searches := bounded _ _ (follow_shared run)
  have within := within_serviceCalling requests.host
  have connections := onConnection_le within (start_shares within fun call => within_pplme) run
  rw [Finset.sum_const, Finset.card_univ, nsmul_eq_mul, Nat.cast_id] at connections
  rw [countP_isRun]
  omega

end Clients

/-- Any number of clients that ask a server at the same time, over any interleaving of their own
operations, the operations of the connection threads and the steps of the searches, and with
whatever resets: all are served, and come to their ends after so many operations.
-/
theorem clients_served {ι ω : Type*} [DecidableEq ι] [DecidableEq ω] [Fintype ι] [Nonempty ι]
    [Fintype ω] [Nonempty ω] {parsers : Proto.Parsers} {hosts : ι → Host}
    {arguments : ι → Arguments} {requests : Requests ι} {people : List Person}
    (deployed : ∀ call, Deployed parsers (hosts call) (arguments call) requests people call)
    (endpoints : ι → Side → Endpoint)
    : ∃ steps perWakeup, ∀ schedule state,
        (pplmeProcess hosts arguments requests ω endpoints).machine.follow schedule
            (pplmeProcess hosts arguments requests ω endpoints).machine.start
          = some state
        → ClientsServed hosts arguments requests people endpoints state
          ∧ schedule.countP (ProcessLabel.isRun FindLabel.isRun)
            ≤ Fintype.card ι * 19 + steps
              + perWakeup
                * (schedule.filterMap ProcessLabel.shared).countP fun label => !label.isRun := by
  have first := deployed (Classical.arbitrary ι)
  have answerable := answerable_of_admissible (Settings.populated_of_populate first.populates)
    first.admissible
  obtain ⟨steps, perWakeup, bounded⟩ :=
    @isRun_le ι ω _ _ _ hosts arguments requests endpoints _ answerable
  exact ⟨steps, perWakeup, fun schedule state run =>
    ⟨clientsServed_of_reached answerable deployed (.follow .start run), bounded schedule state run⟩⟩

/-- Three users on the island, and two workers. -/
theorem clients_served_islanders
    : ∃ steps perWakeup, ∀ schedule state,
        (pplmeProcess (fun _ => islandHost) (fun _ => islandArguments) (crowdedServer (Fin 3))
              (Fin 2) fun _ _ => ⟨"host", 1⟩).machine.follow schedule
            (pplmeProcess (fun _ => islandHost) (fun _ => islandArguments)
              (crowdedServer (Fin 3)) (Fin 2) fun _ _ => ⟨"host", 1⟩).machine.start
          = some state
        → ClientsServed (fun _ => islandHost) (fun _ => islandArguments) (crowdedServer (Fin 3))
            [namesake 1] (fun _ _ => ⟨"host", 1⟩) state
          ∧ schedule.countP (ProcessLabel.isRun FindLabel.isRun)
            ≤ Fintype.card (Fin 3) * 19 + steps
              + perWakeup
                * (schedule.filterMap ProcessLabel.shared).countP fun label => !label.isRun :=
  clients_served crowdedDeployed fun _ _ => ⟨"host", 1⟩

end PplMe.Pplmec
