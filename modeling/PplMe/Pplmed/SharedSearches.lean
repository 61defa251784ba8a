import PplMe.Engine.FindsUnderWay
import PplMe.Net.HandlerCalls
import PplMe.Pplmed.Server

/-! The server as a process: connection threads, and the searches that they share.
A thread whose request starts a search takes the search's steps itself, between its last
operation before the call and its first one after it; the workers take theirs at any time.
-/

namespace PplMe.Pplmed

open PplMe.Engine PplMe.Net Stepping

section Processes

variable {ι : Type*} [DecidableEq ι] (requests : Requests ι) (ω : Type*) [DecidableEq ω]

/-- The searches answer the calls, each the call of its own thread, unless the handler throws. -/
def Requests.answerer
    : Answerer ι (Option Message) (FindState requests.Search ω) (FindLabel requests.Search ω) where
  machine := requests.finds.machine ω
  answer state call := (requests.handlePplmeRequest state call).map Except.toOption
  caller
    | .run (.caller search) => some search.1
    | _ => none
  crashed state := state.crashed.isSome

/-- The server with a connection thread for each of these clients. -/
def Requests.process {Result : Side → Type} (clients : ι → Program (Result .client))
    (server : CallingProgram HandlerCall (Option Message) (Result .server))
    (endpoints : ι → Side → Endpoint)
    : Process ι HandlerCall (Option Message) Result (FindState requests.Search ω)
        (FindLabel requests.Search ω) where
  clients := clients
  server := server
  endpoints := endpoints
  answerer := requests.answerer ω

end Processes

section Searches

variable {ι ω : Type*} [DecidableEq ι] [DecidableEq ω] {requests : Requests ι}
  {Result : Side → Type} {clients : ι → Program (Result .client)}
  {server : CallingProgram HandlerCall (Option Message) (Result .server)}
  {endpoints : ι → Side → Endpoint}
  {state : ProcessState ι HandlerCall (Option Message) Result (FindState requests.Search ω)}

omit [DecidableEq ι] [DecidableEq ω] in
/-- A search that has answered has returned. -/
theorem returned_of_answer {findState : FindState requests.Search ω} {search : requests.Search}
    {outcome : Except HandlerFault (Option Message)}
    (given : requests.handlePplmeRequest findState search.1 = some outcome)
    : ∃ ppl, findState.callers search = .returned ppl := by
  by_contra unreturned
  have nothing := handlePplmeRequest_eq_none (not_exists.mp unreturned)
  cases nothing.symm.trans given

/-- The search of a thread that is not calling has not begun, or has returned. -/
theorem outside_of_reached
    (reached : Reached (requests.process ω clients server endpoints).machine state)
    : ∀ search : requests.Search,
        (state.exchanges search.1).server.stage.isCalling = false
        → (state.answerer.callers search).Outside := by
  refine reached.invariant
    (fun state => ∀ search : requests.Search,
      (state.exchanges search.1).server.stage.isCalling = false
      → (state.answerer.callers search).Outside) (fun _ _ => .inl rfl) ?_
  intro label before after _ holds _ moved search standing
  cases processMove_of_step moved with
  | @client mover ready | @resetClient mover lasting | @resetServer mover lasting =>
      by_cases own : search.1 = mover
      · subst own
        rw [setExchange_self] at standing
        exact holds search standing
      · rw [setExchange_other own] at standing
        exact holds search standing
  | @server mover server alive ran =>
      by_cases own : search.1 = mover
      · subst own
        exact holds search (CallingParty.isCalling_of_run ran)
      · dsimp only at standing
        rw [setExchange_other own] at standing
        exact holds search standing
  | @answer mover answer server alive given answered =>
      by_cases own : search.1 = mover
      · subst own
        obtain ⟨outcome, handled, _⟩ := Option.map_eq_some_iff.mp given
        exact .inr (returned_of_answer handled)
      · rw [setExchange_other own] at standing
        exact holds search standing
  | throw => exact holds search standing
  | @answerer label answerer alive calling ran =>
      refine outside_of_step ran (fun same => ?_) (holds search standing)
      subst same
      cases standing.symm.trans calling

/-- As long as a call is not answered, its thread or a worker can take a step towards an answer,
or a thread with another search can.
-/
theorem canAnswer_of_reached [Fintype ω] [Nonempty ω] (answerable : requests.finds.Answerable)
    (reached : Reached (requests.process ω clients server endpoints).machine state)
    (alive : state.terminated = false) {call : ι}
    (calling : (state.exchanges call).server.stage.isCalling = true)
    (unanswered : requests.handlePplmeRequest state.answerer call = none)
    : ∃ label : FindLabel requests.Search ω,
        label.isRun = true
        ∧ (requests.process ω clients server endpoints).machine.Enabled (.answerer label)
          state := by
  have isSearch : (requests.matchingParameters call).isSome = true := by
    by_contra ignored
    cases (dif_neg ignored).symm.trans unanswered
  let search : requests.Search := ⟨call, isSearch⟩
  have unreturned (ppl : List Core.Person) : state.answerer.callers search ≠ .returned ppl := by
    intro returned
    cases (handlePplmeRequest_of_returned returned).symm.trans unanswered
  obtain ⟨thread, calls, next, moved⟩ :=
    @canMove_of_underWay _ _ _ _ _ _
      (fun search => (state.exchanges search.1).server.stage.isCalling) _ _ answerable
      (answerer_of_reached reached) (outside_of_reached reached) search calling unreturned
  refine ⟨.run thread, rfl, _, step_of_processMove (.answerer alive ?_ moved)⟩
  cases thread with
  | caller search => exact calls search rfl
  | worker worker => rfl

end Searches

end PplMe.Pplmed
