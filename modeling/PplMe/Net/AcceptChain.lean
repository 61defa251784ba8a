import PplMe.Net.ServerShutdown

/-! The chain of accepts.
The handler of a completed accept runs `HandleAcceptResult`, and starts the next accept once that
has returned. While it handles a connection the handler still has the socket that the
`Connection` was moved from.
-/

namespace PplMe.Net

open Stepping

-----------------------------------------------------------------------------------------
-- The chain
-----------------------------------------------------------------------------------------

/-- Where the I/O thread is in the handler of a completed accept. -/
inductive CompletionPc where
  /-- In none. -/
  | outside
  /-- Is about to move the socket into a `Connection`. -/
  | move
  /-- In the rest of `HandleAcceptResult`. -/
  | handle
  | kickOff
  deriving DecidableEq

structure ChainState (ι : Type*) where
  server : ServerState ι
  handler : CompletionPc
  /-- The peer of the handler's socket, if that is connected. -/
  socket : Option ι
  /-- The accepts that were started and have not completed. -/
  outstanding : ℕ

/-- `HandleAcceptResult` has returned once the I/O thread is out of it. -/
def AcceptPc.handlerAfter {ι : Type*} : AcceptPc ι → CompletionPc
  | .waiting => .kickOff
  | _ => .handle

section Steps

variable {ι : Type*} [DecidableEq ι]

namespace ChainState

/-- `socket->remote_endpoint()` throws if the socket is not connected. -/
def remoteEndpoint (state : ChainState ι) : Except ServerFault ι :=
  match state.socket with
  | some peer => .ok peer
  | none => .error .notConnected

def kickOffAccept (state : ChainState ι) : ChainState ι :=
  { state with handler := .outside, outstanding := state.outstanding + 1 }

/-- An outstanding accept completes. `HandleAcceptResult` only writes an error to the log. -/
def acceptCompletes (state : ChainState ι) (result : Option ι) : Option (ChainState ι) :=
  if state.handler = .outside ∧ 0 < state.outstanding then
    ((singleShotServer ι).step (.accept result) state.server).map fun server =>
      { server
        handler := if result.isSome then .move else .kickOff
        socket := result
        outstanding := state.outstanding - 1 }
  else
    none

/-- A step of `HandleAcceptResult` with a connection. -/
def handleAcceptResult (state : ChainState ι) : Option (ChainState ι) :=
  match state.server.io, state.server.registry with
  | .inspect _, none =>
      match state.remoteEndpoint with
      | .ok _ => some { state with server := { state.server with io := .leave } }
      | .error fault => some { state with server := state.server.crash fault }
  | _, _ =>
      ((singleShotServer ι).step (.run .io) state.server).map fun server =>
        { state with server, handler := server.io.handlerAfter }

/-- A step of the I/O thread: of the handler, or the end of `run`. -/
def ioStep (state : ChainState ι) : Option (ChainState ι) :=
  match state.handler with
  | .outside =>
      ((singleShotServer ι).step (.run .io) state.server).map fun server =>
        { state with server }
  | .move => some { state with socket := none, handler := .handle }
  | .handle => state.handleAcceptResult
  | .kickOff => some state.kickOffAccept

/-- A successful `Start` ends with the first accept. -/
def started : ChainState ι :=
  kickOffAccept
    { server := .started, handler := .outside, socket := none, outstanding := 0 }

end ChainState

/-- The server with its handlers. -/
def acceptChain (ι : Type*) [DecidableEq ι] : Machine (ChainState ι) (ServerLabel ι) where
  start := .started
  step label state :=
    match state.server.crashed with
    | some _ => none
    | none =>
        match label with
        | .accept result => state.acceptCompletes result
        | .run .io => state.ioStep
        | label =>
            ((singleShotServer ι).step label state.server).map fun server =>
              { state with server }

end Steps

-----------------------------------------------------------------------------------------
-- What a step does
-----------------------------------------------------------------------------------------

section Moves

variable {ι : Type*} [DecidableEq ι]

/-- The label of a step that is neither the acceptor's nor the I/O thread's. -/
def ServerLabel.elsewhere : ServerLabel ι → Prop
  | .accept _ | .run .io => False
  | _ => True

/-- The steps of the chain, over those of the server. -/
inductive ChainMove (state : ChainState ι) : ServerLabel ι → ChainState ι → Prop
  | complete {result server} (outside : state.handler = .outside)
    (moved : (singleShotServer ι).step (.accept result) state.server = some server)
    : ChainMove state (.accept result)
        { server
          handler := if result.isSome then .move else .kickOff
          socket := result
          outstanding := state.outstanding - 1 }
  | ioEnd {server} (outside : state.handler = .outside)
    (moved : (singleShotServer ι).step (.run .io) state.server = some server)
    : ChainMove state (.run .io) { state with server }
  | moveSocket (at_pc : state.handler = .move)
    : ChainMove state (.run .io) { state with socket := none, handler := .handle }
  | handle {server} (at_pc : state.handler = .handle)
    (moved : (singleShotServer ι).step (.run .io) state.server = some server)
    : ChainMove state (.run .io) { state with server, handler := server.io.handlerAfter }
  | writeRefusal {peer} (at_pc : state.handler = .handle) (connected : state.socket = some peer)
    : ChainMove state (.run .io) { state with server := { state.server with io := .leave } }
  | kickOff (at_pc : state.handler = .kickOff) : ChainMove state (.run .io) state.kickOffAccept
  | elsewhere {label server} (other : label.elsewhere)
    (moved : (singleShotServer ι).step label state.server = some server)
    : ChainMove state label { state with server }

variable {state after : ChainState ι}

omit [DecidableEq ι] in
theorem remoteEndpoint_eq_ok_iff {peer : ι}
    : state.remoteEndpoint = .ok peer ↔ state.socket = some peer := by
  unfold ChainState.remoteEndpoint
  cases state.socket <;> simp

omit [DecidableEq ι] in
theorem remoteEndpoint_eq_error_iff {fault : ServerFault}
    : state.remoteEndpoint = .error fault ↔ state.socket = none ∧ fault = .notConnected := by
  unfold ChainState.remoteEndpoint
  cases state.socket <;> simp [eq_comm]

/-- The server refuses a connection where it has no registry. -/
theorem step_of_absent {server : ServerState ι} {connection : ι} (running : server.crashed = none)
    (at_pc : server.io = .inspect connection) (absent : server.registry = none)
    : (singleShotServer ι).step (.run .io) server = some (server.crash .notConnected) := by
  simp only [singleShotServer, running, ServerState.handleAcceptResultStep, at_pc, absent]

theorem chainMove_of_handleAcceptResult (running : state.server.crashed = none)
    (at_pc : state.handler = .handle) (moved : state.handleAcceptResult = some after)
    : ChainMove state (.run .io) after := by
  unfold ChainState.handleAcceptResult at moved
  split at moved
  · rename_i connection inspects absent
    split at moved
    · rename_i peer connected
      cases moved
      exact .writeRefusal at_pc (remoteEndpoint_eq_ok_iff.mp connected)
    · rename_i fault thrown
      obtain ⟨-, rfl⟩ := remoteEndpoint_eq_error_iff.mp thrown
      cases moved
      have move := ChainMove.handle at_pc (step_of_absent running inspects absent)
      have still : (state.server.crash .notConnected).io.handlerAfter = state.handler := by
        rw [at_pc]
        simp only [ServerState.crash, inspects, AcceptPc.handlerAfter]
      rw [still] at move
      exact move
  · obtain ⟨server, stepped, rfl⟩ := Option.map_eq_some_iff.mp moved
    exact .handle at_pc stepped

/-- Every step of the chain is one of the moves. -/
theorem chainMove_of_step {label : ServerLabel ι}
    (moved : (acceptChain ι).step label state = some after)
    : state.server.crashed = none ∧ ChainMove state label after := by
  simp only [acceptChain] at moved
  split at moved
  · cases moved
  · rename_i running
    refine ⟨running, ?_⟩
    split at moved
    · unfold ChainState.acceptCompletes at moved
      split at moved
      · rename_i armed
        obtain ⟨server, stepped, rfl⟩ := Option.map_eq_some_iff.mp moved
        exact .complete armed.1 stepped
      · cases moved
    · unfold ChainState.ioStep at moved
      split at moved
      · rename_i outside
        obtain ⟨server, stepped, rfl⟩ := Option.map_eq_some_iff.mp moved
        exact .ioEnd outside stepped
      · rename_i at_pc
        cases moved
        exact .moveSocket at_pc
      · rename_i at_pc
        exact chainMove_of_handleAcceptResult running at_pc moved
      · rename_i at_pc
        cases moved
        exact .kickOff at_pc
    · rename_i notAccept notIo
      obtain ⟨server, stepped, rfl⟩ := Option.map_eq_some_iff.mp moved
      refine .elsewhere ?_ stepped
      cases label with
      | accept result => exact absurd rfl (notAccept result)
      | served thread threw => trivial
      | run party =>
          cases party with
          | io => exact absurd rfl notIo
          | connection thread => trivial
          | shutdown => trivial
      | join thread => trivial

end Moves

-----------------------------------------------------------------------------------------
-- What every step keeps
-----------------------------------------------------------------------------------------

section Invariant

variable {ι : Type*}

/-- The handler's program point goes with that of the server's I/O thread. -/
def CompletionPc.Fits : CompletionPc → AcceptPc ι → Prop
  | .outside, io => io = .waiting ∨ io = .ended
  | .move, io => ∃ connection, io = .enter connection
  | .handle, io => io ≠ .waiting ∧ io ≠ .ended
  | .kickOff, io => io = .waiting

/-- What holds of every state of the chain. -/
structure ChainState.Linked (state : ChainState ι) : Prop where
  armed : state.outstanding = if state.handler = .outside then 1 else 0
  fits : state.handler.Fits state.server.io
  /-- The `Connection` owns what the socket was connected to. -/
  moved : state.handler = .handle → state.socket = none

/-- Where the handler of an accept has ended the process. -/
def ServerState.Blames (state : ServerState ι) : Prop :=
  state.crashed = some .notConnected
  → ∃ connection, state.io = .inspect connection ∧ state.registry = none

end Invariant

section Kept

variable {ι : Type*} [DecidableEq ι] {server next : ServerState ι} {state after : ChainState ι}
  {label : ServerLabel ι}

/-- The server's I/O thread does not end in the middle of `HandleAcceptResult`. -/
theorem fits_handlerAfter (moved : ServerMove server (.run .io) next)
    (inside : server.io ≠ .waiting ∧ server.io ≠ .ended)
    : next.io.handlerAfter.Fits next.io ∧ next.io.handlerAfter ≠ .outside := by
  cases moved with
  | ioEnd waiting => exact absurd waiting inside.1
  | refuse at_pc _ | emplaceAbsent at_pc _ =>
      simp [ServerState.crash, at_pc, AcceptPc.handlerAfter, CompletionPc.Fits]
  | _ => simp [AcceptPc.handlerAfter, CompletionPc.Fits]

/-- Nobody else moves the I/O thread. -/
theorem io_elsewhere (moved : ServerMove server label next) (other : label.elsewhere)
    : next.io = server.io := by
  cases moved with
  | acceptError | accept _ _ | ioEnd _ | ioLock _ _ | startThread _ _ | emplace _ _ | ioUnlock _
  | refuse _ _ | emplaceAbsent _ _ => exact other.elim
  | _ => rfl

/-- An error leaves the I/O thread where it waits, and a connection is handled. -/
theorem fits_complete {result : Option ι} (waiting : server.io = .waiting)
    (moved : ServerMove server (.accept result) next)
    : (if result.isSome then CompletionPc.move else .kickOff).Fits next.io := by
  cases moved with
  | acceptError => exact waiting
  | accept _ _ => exact ⟨_, rfl⟩

/-- An accept completes only where the I/O thread waits. -/
theorem waiting_of_accept {result : Option ι}
    (moved : (singleShotServer ι).step (.accept result) server = some next)
    : server.io = .waiting := by
  simp only [singleShotServer] at moved
  split at moved
  · cases moved
  · unfold ServerState.acceptCompletes at moved
    split at moved
    · assumption
    · cases moved

/-- Outside a handler the I/O thread only ends. -/
theorem ended_of_waiting (moved : ServerMove server (.run .io) next)
    (outside : server.io = .waiting ∨ server.io = .ended)
    : next.io = .ended := by
  cases moved with
  | ioEnd _ => rfl
  | ioLock at_pc _ | startThread at_pc _ | emplace at_pc _ | ioUnlock at_pc | refuse at_pc _
  | emplaceAbsent at_pc _ => simp [at_pc] at outside

omit [DecidableEq ι] in
theorem linked_started : (ChainState.started : ChainState ι).Linked where
  armed := rfl
  fits := .inl rfl
  moved at_pc := nomatch at_pc

/-- Every move of the chain keeps the handler with the I/O thread, and one accept. -/
theorem ChainMove.linked (moved : ChainMove state label after) (linked : state.Linked)
    : after.Linked := by
  obtain ⟨armed, fits, owned⟩ := linked
  cases moved with
  | @complete result server outside moved =>
      have waiting := waiting_of_accept moved
      refine ⟨?_, fits_complete waiting (serverMove_of_step moved).2, ?_⟩
      · rw [outside] at armed
        cases result <;> simp [armed]
      · cases result <;> simp
  | ioEnd outside moved =>
      rw [outside] at fits
      refine ⟨armed, ?_, owned⟩
      simp only [outside]
      exact .inr (ended_of_waiting (serverMove_of_step moved).2 fits)
  | moveSocket at_pc =>
      rw [at_pc] at armed fits
      obtain ⟨connection, enters⟩ := fits
      refine ⟨armed, ?_, fun _ => rfl⟩
      simp [enters, CompletionPc.Fits]
  | handle at_pc moved =>
      rw [at_pc] at armed fits
      have later := fits_handlerAfter (serverMove_of_step moved).2 fits
      refine ⟨?_, later.1, fun _ => owned at_pc⟩
      rw [armed, if_neg later.2]
      rfl
  | writeRefusal at_pc connected => cases (owned at_pc).symm.trans connected
  | kickOff at_pc =>
      rw [at_pc] at armed fits
      refine ⟨?_, .inl fits, fun at_handle => nomatch at_handle⟩
      simp only [ChainState.kickOffAccept, armed]
      rfl
  | elsewhere other moved =>
      refine ⟨armed, ?_, owned⟩
      rw [io_elsewhere (serverMove_of_step moved).2 other]
      exact fits

/-- Only a step of the I/O thread is such an end. -/
theorem ServerMove.blames (moved : ServerMove server label next) (running : server.crashed = none)
    : next.Blames := by
  cases moved with
  | refuse at_pc absent => exact fun _ => ⟨_, at_pc, absent⟩
  | emplaceAbsent _ _ | escape _ | unregisterAbsent _ _ | unregisterMissing _ _ _ =>
      exact fun same => by cases same
  | _ => exact fun same => by cases running.symm.trans same

theorem blames_of_reached (reached : Reached (singleShotServer ι) server) : server.Blames :=
  reached.invariant ServerState.Blames (fun same => by cases same)
    fun _ _ _ _ _ _ moved =>
      have move := serverMove_of_step moved
      move.2.blames move.1

/-- The chain's server is the single-shot server, and the chain is linked. -/
theorem linked_of_reached (reached : Reached (acceptChain ι) state)
    : Reached (singleShotServer ι) state.server ∧ state.Linked := by
  refine reached.invariant
    (fun state => Reached (singleShotServer ι) state.server ∧ state.Linked)
    ⟨.start, linked_started⟩ fun label before after _ holds _ moved => ?_
  have move := (chainMove_of_step moved).2
  refine ⟨?_, move.linked holds.2⟩
  cases move with
  | complete _ stepped | ioEnd _ stepped | handle _ stepped | elsewhere _ stepped =>
      exact holds.1.next _ trivial stepped
  | moveSocket _ | kickOff _ => exact holds.1
  | writeRefusal at_pc connected => cases (holds.2.moved at_pc).symm.trans connected

end Kept

-----------------------------------------------------------------------------------------
-- Unbroken chains
-----------------------------------------------------------------------------------------

section Unbroken

variable {ι : Type*} [DecidableEq ι] {state after : ChainState ι} {label : ServerLabel ι}

/-- How many steps of the I/O thread it takes until the handler has started the next accept. -/
def ChainState.remaining (state : ChainState ι) : ℕ :=
  match state.handler, state.server.io with
  | .outside, _ => 0
  | .kickOff, _ => 1
  | .handle, .leave => 2
  | .handle, .emplace _ => 3
  | .handle, .inspect _ => 4
  | .handle, _ => 5
  | .move, _ => 6

/-- Outside a handler there is exactly one outstanding accept. A handler has not ended the process,
and does not: each step that it takes brings it nearer to the next accept, and it waits for
nothing but the lock, whose holder can move. A connection that it finds no registry for is
dropped without a thread.
-/
structure ChainState.Unbroken (state : ChainState ι) : Prop where
  armed : state.outstanding = if state.handler = .outside then 1 else 0
  alive : state.server.crashed ≠ some .notConnected
  returns
    : state.handler ≠ .outside
      → ∀ label after,
          (acceptChain ι).step label state = some after
          → after.remaining ≤ state.remaining
            ∧ (label = .run .io
              → after.remaining < state.remaining ∧ after.server.crashed = none)
  progress
    : state.server.crashed = none
      → state.handler ≠ .outside
      → (acceptChain ι).Enabled (.run .io) state
        ∨ ∃ party,
            state.server.mutex = some party ∧ (acceptChain ι).Enabled (.run party) state
  dropped
    : state.handler = .handle
      → state.server.registry = none
      → ∀ after,
          state.ioStep = some after
          → after.server.threads = state.server.threads
            ∧ after.server.crashed = state.server.crashed

/-- No handler looks for the registry where there is none. -/
def ChainState.FindsRegistry (state : ChainState ι) : Prop :=
  ∀ connection, state.server.io = .inspect connection → state.server.registry.isSome

/-- A step of `HandleAcceptResult` that finds the registry keeps the process alive, brings the
handler nearer to the next accept, and starts a thread only where there is a registry.
-/
theorem handle_of_finds {server : ServerState ι} (sound : state.server.Sound)
    (at_pc : state.handler = .handle)
    (inside : state.server.io ≠ .waiting ∧ state.server.io ≠ .ended)
    (finds : state.FindsRegistry) (running : state.server.crashed = none)
    (moved : ServerMove state.server (.run .io) server)
    : ({ state with server, handler := server.io.handlerAfter } : ChainState ι).remaining
        < state.remaining
      ∧ server.crashed = none
      ∧ (state.server.registry = none → server.threads = state.server.threads) := by
  cases moved with
  | ioEnd waiting => exact absurd waiting inside.1
  | ioLock enters _ =>
      exact ⟨by simp [ChainState.remaining, at_pc, enters, AcceptPc.handlerAfter], running,
        fun _ => rfl⟩
  | startThread inspects present =>
      refine ⟨by simp [ChainState.remaining, at_pc, inspects, AcceptPc.handlerAfter], running, ?_⟩
      exact fun absent => nomatch present.symm.trans absent
  | emplace emplaces present =>
      refine ⟨by simp [ChainState.remaining, at_pc, emplaces, AcceptPc.handlerAfter], running, ?_⟩
      exact fun absent => nomatch present.symm.trans absent
  | ioUnlock leaves =>
      exact ⟨by simp [ChainState.remaining, at_pc, leaves, AcceptPc.handlerAfter], running,
        fun _ => rfl⟩
  | refuse inspects absent =>
      have present := finds _ inspects
      simp [absent] at present
  | emplaceAbsent emplaces absent =>
      have present := (sound.starting _ emplaces).2
      simp [absent] at present

/-- A handler that finds the registry gets nearer to the next accept. -/
theorem ChainMove.remaining (moved : ChainMove state label after) (linked : state.Linked)
    (sound : state.server.Sound) (finds : state.FindsRegistry)
    (running : state.server.crashed = none) (inside : state.handler ≠ .outside)
    : after.remaining ≤ state.remaining
      ∧ (label = .run .io → after.remaining < state.remaining ∧ after.server.crashed = none) := by
  have fits := linked.fits
  cases moved with
  | complete outside _ | ioEnd outside _ => exact absurd outside inside
  | moveSocket at_pc =>
      rw [at_pc] at fits
      obtain ⟨connection, enters⟩ := fits
      have nearer : 5 < state.remaining := by simp [ChainState.remaining, at_pc]
      have next
          : ({ state with socket := none, handler := .handle } : ChainState ι).remaining = 5 := by
        simp [ChainState.remaining, enters]
      exact ⟨next ▸ nearer.le, fun _ => ⟨next ▸ nearer, running⟩⟩
  | handle at_pc moved =>
      rw [at_pc] at fits
      have step := handle_of_finds sound at_pc fits finds running (serverMove_of_step moved).2
      exact ⟨step.1.le, fun _ => ⟨step.1, step.2.1⟩⟩
  | writeRefusal at_pc connected => cases (linked.moved at_pc).symm.trans connected
  | kickOff at_pc =>
      have nearer : 0 < state.remaining := by simp [ChainState.remaining, at_pc]
      exact ⟨Nat.zero_le _, fun _ => ⟨nearer, running⟩⟩
  | @elsewhere _ server other moved =>
      have still := io_elsewhere (serverMove_of_step moved).2 other
      refine ⟨?_, fun same => (same ▸ other).elim⟩
      simp only [ChainState.remaining, still, le_refl]

/-- What the server can do while a connection is handled, the chain can. -/
theorem enabled_of_server {party : ServerParty ι} (at_pc : state.handler = .handle)
    (enabled : (singleShotServer ι).Enabled (.run party) state.server)
    : (acceptChain ι).Enabled (.run party) state := by
  obtain ⟨server, moved⟩ := enabled
  have running := (serverMove_of_step moved).1
  unfold Machine.Enabled
  simp only [acceptChain, running]
  cases party with
  | io =>
      simp only [ChainState.ioStep, at_pc, ChainState.handleAcceptResult]
      split
      · cases state.remoteEndpoint with
        | ok peer => exact ⟨_, rfl⟩
        | error fault => exact ⟨_, rfl⟩
      · exact ⟨_, by rw [moved]; rfl⟩
  | connection thread | shutdown =>
      refine ⟨{ state with server }, ?_⟩
      simp only [moved, Option.map_some]

/-- A handler waits for nothing but the lock. -/
theorem progress_of_linked (linked : state.Linked) (sound : state.server.Sound)
    (running : state.server.crashed = none) (inside : state.handler ≠ .outside)
    : (acceptChain ι).Enabled (.run .io) state
      ∨ ∃ party,
          state.server.mutex = some party ∧ (acceptChain ι).Enabled (.run party) state := by
  have fits := linked.fits
  cases at_pc : state.handler with
  | outside => exact absurd at_pc inside
  | move =>
      refine .inl ⟨{ state with socket := none, handler := .handle }, ?_⟩
      simp only [acceptChain, running, ChainState.ioStep, at_pc]
  | kickOff =>
      refine .inl ⟨state.kickOffAccept, ?_⟩
      simp only [acceptChain, running, ChainState.ioStep, at_pc]
  | handle =>
      rw [at_pc] at fits
      cases held : state.server.mutex with
      | some party =>
          have holds := (sound.locked party).mp held
          exact .inr ⟨party, rfl, enabled_of_server at_pc (enabled_of_holds running holds)⟩
      | none =>
          refine .inl (enabled_of_server at_pc ?_)
          cases io : state.server.io with
          | waiting => exact absurd io fits.1
          | ended => exact absurd io fits.2
          | enter connection =>
              refine ⟨{ state.server with mutex := some .io, io := .inspect connection }, ?_⟩
              simp only [singleShotServer, running, ServerState.handleAcceptResultStep, io,
                ServerState.lock, held, Option.map_some]
          | inspect connection | emplace connection | leave =>
              have holds : state.server.Holds .io := by
                rw [ServerState.Holds, io]
                trivial
              exact enabled_of_holds running holds

/-- Without the registry the handler's step ends the process: its socket was moved from. -/
theorem ioStep_of_refusal {connection : ι} (linked : state.Linked)
    (at_pc : state.server.io = .inspect connection) (absent : state.server.registry = none)
    : state.handler = .handle
      ∧ state.ioStep = some { state with server := state.server.crash .notConnected } := by
  have handles : state.handler = .handle := by
    have fits := linked.fits
    cases handler : state.handler <;> simp_all [CompletionPc.Fits]
  refine ⟨handles, ?_⟩
  simp only [ChainState.ioStep, handles, ChainState.handleAcceptResult, at_pc, absent,
    ChainState.remoteEndpoint, linked.moved handles]

/-- A connection that is handled where there is no registry is dropped without a thread. -/
theorem dropped_of_finds (linked : state.Linked) (sound : state.server.Sound)
    (finds : state.FindsRegistry) (at_pc : state.handler = .handle)
    (absent : state.server.registry = none) (moved : state.ioStep = some after)
    : after.server.threads = state.server.threads
      ∧ after.server.crashed = state.server.crashed := by
  have fits := linked.fits
  rw [at_pc] at fits
  simp only [ChainState.ioStep, at_pc, ChainState.handleAcceptResult] at moved
  split at moved
  · rename_i connection inspects _
    have present := finds connection inspects
    simp [absent] at present
  · obtain ⟨server, stepped, rfl⟩ := Option.map_eq_some_iff.mp moved
    obtain ⟨running, move⟩ := serverMove_of_step stepped
    have step := handle_of_finds sound at_pc fits finds running move
    exact ⟨step.2.2 absent, step.2.1.trans running.symm⟩

theorem unbroken_of_finds (reached : Reached (acceptChain ι) state) (finds : state.FindsRegistry)
    : state.Unbroken := by
  obtain ⟨server, linked⟩ := linked_of_reached reached
  have sound := sound_of_reached server
  refine ⟨linked.armed, ?_, ?_, progress_of_linked linked sound, ?_⟩
  · intro thrown
    obtain ⟨connection, inspects, absent⟩ := blames_of_reached server thrown
    have present := finds connection inspects
    simp [absent] at present
  · intro inside label after moved
    have move := chainMove_of_step moved
    exact move.2.remaining linked sound finds move.1 inside
  · intro at_pc absent after moved
    exact dropped_of_finds linked sound finds at_pc absent moved

theorem finds_of_unbroken (reached : Reached (acceptChain ι) state) (unbroken : state.Unbroken)
    : state.FindsRegistry := by
  obtain ⟨_, linked⟩ := linked_of_reached reached
  intro connection inspects
  refine Option.isSome_iff_ne_none.mpr fun absent => ?_
  obtain ⟨handles, step⟩ := ioStep_of_refusal linked inspects absent
  exact unbroken.alive (unbroken.dropped handles absent _ step).2.symm

end Unbroken

/-- In every run from a successful `Start`, the chain is unbroken in exactly the states where no
handler looks for the registry after `Shutdown` has taken it.
-/
theorem acceptChain_unbroken_iff {ι : Type*} [DecidableEq ι] {state : ChainState ι}
    (reached : Reached (acceptChain ι) state)
    : state.Unbroken ↔ state.FindsRegistry :=
  ⟨finds_of_unbroken reached, unbroken_of_finds reached⟩

/-- A chain with at most one connection, after some steps. -/
def smallChain (schedule : List (ServerLabel (Fin 1))) : ChainState (Fin 1) :=
  ((acceptChain (Fin 1)).follow schedule .started).getD .started

/-- An accept fails, and the next one is outstanding. -/
theorem acceptChain_unbroken_small : (smallChain [.accept none, .run .io]).Unbroken :=
  (acceptChain_unbroken_iff (.getD_follow rfl)).mpr fun _ _ => rfl

/-- A client connects once `Shutdown` has taken the registry and before it stops the I/O loop. -/
def refusing : List (ServerLabel (Fin 1)) :=
  takingRegistry ++ connecting.take 4

/-- The handler asks the socket that was moved from for its peer, which ends the process. -/
theorem acceptChain_breaks
    : Reached (acceptChain (Fin 1)) (smallChain refusing)
      ∧ (smallChain refusing).server.crashed = some .notConnected
      ∧ ¬ ∀ state, Reached (acceptChain (Fin 1)) state → state.Unbroken :=
  have reached : Reached (acceptChain (Fin 1)) (smallChain refusing) := .getD_follow rfl
  ⟨reached, rfl, fun always => (always _ reached).alive rfl⟩

end PplMe.Net
