import PplMe.Net.Sessions

/-! How sessions end.
Nobody waits in vain: a client waits for a response only after its request was sent, and the
server for a request only until it is complete, or the client is gone.
-/

namespace PplMe.Net

open Stepping Octets Failures

-----------------------------------------------------------------------------------------
-- Sides that go on by themselves
-----------------------------------------------------------------------------------------

section Leading

variable {Result : Side → Type} {programs : (side : Side) → Program (Result side)}
  {endpoints : Side → Endpoint} {state : Conversation Result}

/-- What a side can do without waiting it can do in the conversation, and what it writes arrives
at the other side.
-/
theorem leads_of_proceeds {side : Side} {party final : Party (Result side)} {closed : Bool}
    (proceeds : party.Proceeds closed final) (own : state side = party)
    (other : (state side.other).isEnded = closed)
    : ∃ after octets,
        (conversation programs endpoints).Leads ConversationLabel.IsRun state after
        ∧ after side = final
        ∧ final.socket.written = party.socket.written ++ octets
        ∧ after side.other = (state side.other).arrive octets := by
  induction proceeds generalizing state with
  | refl party =>
      refine ⟨state, [], .refl _, own, (List.append_nil _).symm, ?_⟩
      rw [Party.arrive, Socket.arrive_nil]
  | @step party final ready later ih =>
      have ready : (state side).Ready (state side.other).isEnded := by rwa [own, other]
      let next : Conversation Result :=
        Function.update (Function.update state side (state side).perform) side.other
          ((state side.other).arrive ((state side).perform.sentSince (state side)))
      have moved : (conversation programs endpoints).step (.run side) state = some next :=
        if_pos ready
      have nextOwn : next side = party.perform := by
        rw [← own]
        cases side <;> rfl
      have nextOther : next side.other
          = (state side.other).arrive ((state side).perform.sentSince (state side)) := by
        cases side <;> rfl
      obtain ⟨after, octets, leads, ended, written, arrived⟩ :=
        ih nextOwn (by rw [nextOther]; exact other)
      refine ⟨after, (state side).perform.sentSince (state side) ++ octets,
        .step (show ConversationLabel.IsRun (.run side) from trivial) moved leads, ended, ?_, ?_⟩
      · rw [written, ← own, Party.written_perform, List.append_assoc]
      · rw [arrived, nextOther, Party.arrive, Party.arrive, Socket.arrive_arrive]
        rfl

end Leading

section Ends

variable {hosts : Side → ByteOrder} {endpoints : Side → Endpoint}
  {requestHandler : RequestHandler} {request : Message} {rest : List Message} {state : Session}

/-- Only a read waits, and not where the connection was reset or the other side is closed. -/
theorem ready_of_isReset {α : Type} {party : Party α} {closed : Bool}
    (reset : party.socket.isReset = true) (unended : party.isEnded = false)
    : party.Ready closed := by
  obtain ⟨program, socket⟩ := party
  cases program with
  | ended outcome => cases unended
  | read size next => exact .inr (.inl reset)
  | _ => exact trivial

theorem ready_of_closed {α : Type} {party : Party α} (unended : party.isEnded = false)
    : party.Ready true := by
  obtain ⟨program, socket⟩ := party
  cases program with
  | ended outcome => cases unended
  | read size next => exact .inr (.inr (.inr rfl))
  | _ => exact trivial

/-- A well-sized message is complete, or too big to be received. -/
theorem wire_complete {host : ByteOrder} (wellSized : request.WellSized host)
    : 4 ≤ (request.wire host).length
      ∧ (declaredLength (request.wire host) ≤ Message.kMaxBodyLength
        → declaredLength (request.wire host) ≤ ((request.wire host).drop 4).length) := by
  have declared := @declaredLength_wire host [] request
  rw [List.append_nil, ← wellSized] at declared
  rw [declared, wire_eq_frame wellSized]
  simp [Message.frame]

/-- The client sends its first request, before anything else happens. -/
theorem leads_request
    : ∃ first,
        (session hosts endpoints requestHandler (request :: rest)).Leads ConversationLabel.IsRun
          (session hosts endpoints requestHandler (request :: rest)).start first
        ∧ first .server
          = ⟨.service (hosts .server) requestHandler,
            .connected (endpoints .client) (request.wire (hosts .client)) none⟩ := by
  have ran : (Program.sendMessage (hosts .client) request).run.run
      (.connected (endpoints .server) [] none) = _ :=
    (run_sendMessage request).symm ▸ sendMessage_of_lasting (by exact rfl) request
  have sends := @Party.Proceeds.bind _ _ _ _ _ (Program.afterSending (hosts .client) rest)
    ((@completes_sendMessage _ false _ request).proceeds ran)
  obtain ⟨first, octets, leads, _, written, arrived⟩ := @leads_of_proceeds
    _ (sessionPrograms hosts requestHandler (request :: rest)) endpoints
    (session hosts endpoints requestHandler (request :: rest)).start .client _ _ _ sends
    (congrArg (Party.mk · _) (Program.drainQueue_cons _ _ _)) rfl
  have sent : request.wire (hosts .client) = octets := written
  exact ⟨first, leads, sent ▸ arrived⟩

variable {requests : List Message}

/-- A side that completes comes to its end. -/
theorem leads_completes {side : Side}
    (completes : (state side).Completes (state side.other).isEnded)
    : ∃ after,
        (session hosts endpoints requestHandler requests).Leads ConversationLabel.IsRun state after
        ∧ (after side).isEnded = true
        ∧ (after side.other).isEnded = (state side.other).isEnded := by
  obtain ⟨outcome, socket, proceeds⟩ := completes
  obtain ⟨after, octets, leads, own, _, other⟩ := leads_of_proceeds proceeds rfl rfl
  exact ⟨after, leads, by rw [own]; rfl, by rw [other]; rfl⟩

/-- The client sends its first request, the server answers it, and the client goes on. -/
theorem session_leads (wellSized : request.WellSized (hosts .client))
    : ∃ final,
        (session hosts endpoints requestHandler (request :: rest)).Leads ConversationLabel.IsRun
          (session hosts endpoints requestHandler (request :: rest)).start final
        ∧ ∀ side, (final side).isEnded = true := by
  obtain ⟨header, complete⟩ := wire_complete wellSized
  obtain ⟨first, asks, server⟩ := @leads_request hosts endpoints requestHandler request rest
  have serves : (first .server).Completes (first .client).isEnded := by
    rw [server]
    exact completes_service requestHandler rfl header complete
  obtain ⟨second, answers, ended, _⟩ := @leads_completes hosts endpoints requestHandler first
    (request :: rest) .server serves
  have goesOn : (second .client).Completes (second .server).isEnded := by
    rw [ended]
    exact completes_of_closed _ _
  obtain ⟨final, drains, clientEnded, serverEnded⟩ := @leads_completes hosts endpoints
    requestHandler second (request :: rest) .client goesOn
  refine ⟨final, asks.trans (answers.trans drains), fun side => ?_⟩
  cases side with
  | client => exact clientEnded
  | server => exact serverEnded.trans ended

/-- Where both have ended, nothing moves but resets. -/
theorem stuck_of_ended (ended : ∀ side, (state side).isEnded = true)
    : (session hosts endpoints requestHandler requests).Stuck ConversationLabel.IsRun state := by
  intro label runs
  cases label with
  | reset side => exact runs.elim
  | run side =>
      refine if_neg fun ready => ?_
      cases (ended side).symm.trans ready.isEnded

-----------------------------------------------------------------------------------------
-- Undisturbed sessions
-----------------------------------------------------------------------------------------

/-- Operations do not reset the connection. -/
theorem lasting_of_runs
    (reached
      : ReachedBy (session hosts endpoints requestHandler requests)
          (fun label _ => label.IsRun) state)
    (side : Side)
    : (state side).socket.resetAt = none := by
  refine reached.invariant (fun state => ∀ side, (state side).socket.resetAt = none) ?_ ?_ side
  · intro side
    rfl
  · intro label before after _ lasting runs moved side
    cases conversationMove_of_step moved with
    | reset never => exact runs.elim
    | @run mover ready =>
        have own := (before mover).performed.resetAt.trans (lasting mover)
        have other := (Socket.arrive_resetAt ((before mover).perform.sentSince (before mover))).trans
          (lasting mover.other)
        cases mover with
        | client => exact Side.rec own other side
        | server => exact Side.rec other own side

/-- A run whose connection was not reset for anybody consists of operations, by induction on the
run: a reset stays.
-/
theorem runs_of_lasting (reached : Reached (session hosts endpoints requestHandler requests) state)
    (lasting : ∀ side, (state side).socket.resetAt = none)
    : ReachedBy (session hosts endpoints requestHandler requests)
        (fun label _ => label.IsRun) state := by
  induction reached with
  | start => exact .start
  | @next before after label _ _ moved ih =>
      cases conversationMove_of_step moved with
      | @reset side never =>
          have reset := lasting side
          rw [Function.update_self] at reset
          cases reset
      | @run mover ready =>
          refine .next (.run mover) (ih fun side => ?_) trivial moved
          have kept := (before mover).performed.resetAt
          have own := lasting mover
          have other
              : (before mover.other).socket.resetAt = none := by
            have arrived := lasting mover.other
            rw [Function.update_self, Party.arrive, Socket.arrive_resetAt] at arrived
            exact arrived
          cases mover with
          | client => exact Side.rec (kept.symm.trans own) other side
          | server => exact Side.rec other (kept.symm.trans own) side

/-- A party that has ended on a lasting connection has done what its computation does. -/
theorem Party.Explained.result {α : Type} {party : Party α} {program : Program α}
    {peer : Endpoint} {arrived : List UInt8} {closed : Bool}
    (explained : party.Explained program peer arrived closed)
    (lasting : party.socket.resetAt = none) (ended : party.isEnded = true)
    {value : α} {after : Socket}
    (ran : program.run.run (.connected peer arrived none) = .ok (value, after))
    : party.program = .ended (.ok value) ∧ party.socket.written = after.written := by
  have same := explained.runs [] none (fun _ => rfl) (.inl lasting.symm)
  rw [List.append_nil, ran, Party.reading] at same
  unfold Party.isEnded at ended
  split at ended
  · rename_i outcome program
    rw [program] at same ⊢
    refine ⟨congrArg _ (outcome_of_run same.symm), ?_⟩
    cases outcome with
    | error failure => cases same
    | ok other =>
        have socket := (Prod.mk.inj (Except.ok.inj same)).2
        rw [socket]
        rfl
  · cases ended

/-- When both sides have ended and no reset came in between, the server has handled the first
request of the queue, and the client has the answer to it.
-/
theorem session_result (wellSized : request.WellSized (hosts .client))
    (reached
      : ReachedBy (session hosts endpoints requestHandler (request :: rest))
          (fun label _ => label.IsRun) state)
    (ended : ∀ side, (state side).isEnded = true)
    : (state .server).program = .ended (.ok (sessionHandled hosts request))
      ∧ (state .client).program
        = .ended (.ok (sessionResponses hosts endpoints requestHandler request)) := by
  have lasting := lasting_of_runs reached
  obtain ⟨asked, server⟩ := explained_of_reached reached.reached .server
  obtain ⟨told, client⟩ := explained_of_reached reached.reached .client
  cases server.whole (lasting .server)
  cases client.whole (lasting .client)
  obtain ⟨_, serves, answers⟩ := @service_of_lasting (hosts .server)
    (.connected (endpoints .client) (state .client).socket.written none) requestHandler rfl
  rw [← run_server (request :: rest)] at serves
  obtain ⟨handled, written⟩ := server.explained.result (lasting .server) (ended .server) serves
  have answer : (state .server).socket.written
      = answered (hosts .server) requestHandler (endpoints .client)
        (state .client).socket.written :=
    written.trans answers
  obtain ⟨_, drains⟩ := @drainQueue_of_lasting (hosts .client)
    (.connected (endpoints .server) (state .server).socket.written none) rfl request rest
    (length_le_of_prefix_answered (by rw [← answer]; exact List.prefix_refl _))
  have sends := drainQueue_written (by exact rfl) drains
  rw [← @run_client hosts requestHandler] at drains
  obtain ⟨responses, sent⟩ := client.explained.result (lasting .client) (ended .client) drains
  have whole : received (hosts .server) (state .client).socket.written
      = sessionHandled hosts request := by
    obtain ⟨more, same⟩ := sends
    rw [sent, ← same]
    exact (received_wire_append wellSized _ more).trans (received_wire wellSized _).symm
  refine ⟨handled.trans (congrArg _ (congrArg _ whole)), responses.trans ?_⟩
  change Program.ended (.ok (received (hosts .client) (state .server).socket.written)) = _
  rw [answer, answered, whole]
  rfl

/-- Without resets every run of a session, whatever the order of its steps, can go on to the same
end, and has no more steps than it takes. The server handles the first request, and the client
gets the answer to it, with both hosts' byte orders; the rest of the queue is left.
-/
theorem session_undisturbed (hosts : Side → ByteOrder) (endpoints : Side → Endpoint)
    (requestHandler : RequestHandler) (request : Message) (rest : List Message)
    (wellSized : request.WellSized (hosts .client))
    : ∃ whole final,
        (∀ side, (final side).isEnded = true)
        ∧ (final .server).program = .ended (.ok (sessionHandled hosts request))
        ∧ (final .client).program
          = .ended (.ok (sessionResponses hosts endpoints requestHandler request))
        ∧ ∀ schedule state,
            (∀ label ∈ schedule, label.IsRun)
            → (session hosts endpoints requestHandler (request :: rest)).follow schedule
                (session hosts endpoints requestHandler (request :: rest)).start
              = some state
            → ∃ more,
                (session hosts endpoints requestHandler (request :: rest)).follow more state
                  = some final
                ∧ (schedule ++ more).Perm whole := by
  obtain ⟨final, ⟨whole, runs, run⟩, ended⟩ :=
    @session_leads hosts endpoints requestHandler request rest wellSized
  have reached := ReachedBy.start.extend ⟨whole, runs, run⟩
  obtain ⟨handled, responses⟩ := session_result wellSized reached ended
  refine ⟨whole, final, ended, handled, responses, fun schedule state own followed => ?_⟩
  obtain ⟨more, _, goesOn, same⟩ :=
    conversation_independent.converge (stuck_of_ended ended) runs own run followed
  exact ⟨more, goesOn, same⟩

/-- A little-endian client gets its own octets back from an echo server on a big-endian host. -/
theorem session_undisturbed_echo
    : ∃ schedule final,
        (session (@Side.rec (fun _ => ByteOrder) .littleEndian .bigEndian)
            (fun _ => ⟨"host", 1⟩) (fun _ _ request => some request)
            [.ofBody .littleEndian [7, 8] 2, .ofBody .littleEndian [] 0]).follow schedule
            (session (@Side.rec (fun _ => ByteOrder) .littleEndian .bigEndian)
              (fun _ => ⟨"host", 1⟩) (fun _ _ request => some request)
              [.ofBody .littleEndian [7, 8] 2, .ofBody .littleEndian [] 0]).start
          = some final
        ∧ (final .server).program = .ended (.ok [.ofBody .bigEndian [7, 8] 2])
        ∧ (final .client).program = .ended (.ok [.ofBody .littleEndian [7, 8] 2]) := by
  obtain ⟨whole, final, _, handled, responses, converge⟩ :=
    session_undisturbed (@Side.rec (fun _ => ByteOrder) .littleEndian .bigEndian)
      (fun _ => ⟨"host", 1⟩) (fun _ _ request => some request)
      (.ofBody .littleEndian [7, 8] 2) [.ofBody .littleEndian [] 0] (by decide)
  obtain ⟨more, run, _⟩ := converge [] _ (fun _ member => absurd member List.not_mem_nil) rfl
  refine ⟨more, final, run, handled.trans ?_, responses.trans ?_⟩
  · exact congrArg (Program.ended ∘ Except.ok) (by decide +kernel)
  · exact congrArg (Program.ended ∘ Except.ok) (by decide +kernel)

/-- Whoever has not ended, somebody can move: a side whose connection was reset waits for nothing,
and a session without resets has an end to go on to.
-/
theorem session_progress (wellSized : request.WellSized (hosts .client))
    (reached : Reached (session hosts endpoints requestHandler (request :: rest)) state)
    {side : Side} (unended : (state side).isEnded = false)
    : ∃ mover,
        (session hosts endpoints requestHandler (request :: rest)).Enabled (.run mover) state := by
  by_cases lasting : ∀ side, (state side).socket.resetAt = none
  · obtain ⟨final, ⟨whole, owns, run⟩, ended⟩ :=
      @session_leads hosts endpoints requestHandler request rest wellSized
    obtain ⟨schedule, runs, followed⟩ := (runs_of_lasting reached lasting).leads
    obtain ⟨more, moreRuns, goesOn, _⟩ :=
      conversation_independent.converge (stuck_of_ended ended) owns runs run followed
    cases more with
    | nil =>
        cases Option.some.inj goesOn
        cases unended.symm.trans (ended side)
    | cons label more =>
        obtain ⟨after, moved, _⟩ := Machine.follow_cons_some.mp goesOn
        cases label with
        | reset side => exact (moreRuns _ List.mem_cons_self).elim
        | run mover => exact ⟨mover, after, moved⟩
  · obtain ⟨reset, never⟩ := not_forall.mp lasting
    obtain ⟨_, heard⟩ := explained_of_reached reached reset
    have isReset := heard.explained.reset.resolve_left never
    cases stopped : (state reset).isEnded with
    | false => exact ⟨reset, _, if_pos (ready_of_isReset isReset stopped)⟩
    | true =>
        have other : side = reset.other := by
          refine (side.eq_or_eq_other reset).resolve_left fun same => ?_
          cases unended.symm.trans (same ▸ stopped)
        subst other
        refine ⟨reset.other, _, if_pos ?_⟩
        rw [Side.other_other, stopped]
        exact ready_of_closed unended

-----------------------------------------------------------------------------------------
-- How many operations a session takes
-----------------------------------------------------------------------------------------

end Ends

/-- A program takes no more operations than this, whatever they give. -/
def Program.Within {α : Type} : Program α → ℕ → Prop
  | .ended _, _ => True
  | .remoteEndpoint next, operations =>
      ∃ left, operations = left + 1 ∧ ∀ peer, (next peer).Within left
  | .createBodyBuffer _ next, operations => ∃ left, operations = left + 1 ∧ next.Within left
  | .read _ next, operations => ∃ left, operations = left + 1 ∧ ∀ octets, (next octets).Within left
  | .write _ next, operations => ∃ left, operations = left + 1 ∧ ∀ sent, (next sent).Within left

section Within

variable {α β : Type} {host : ByteOrder} {first second : ℕ} {program : Program α}

/-- By induction on the program. -/
theorem Program.Within.weaken (within : program.Within first) (more : first ≤ second)
    : program.Within second := by
  induction program generalizing first second with
  | ended outcome => trivial
  | createBodyBuffer size next ih =>
      obtain ⟨left, rfl, within⟩ := within
      exact ⟨second - 1, by omega, ih within (by omega)⟩
  | remoteEndpoint next ih | read size next ih | write octets next ih =>
      obtain ⟨left, rfl, within⟩ := within
      exact ⟨second - 1, by omega, fun value => ih value (within value) (by omega)⟩

/-- Two programs take as many operations as both, by induction on the first. -/
theorem Program.Within.bind {continuation : α → Program β} (within : program.Within first)
    (continues : ∀ value, (continuation value).Within second)
    : (program >>= continuation).Within (first + second) := by
  induction program generalizing first with
  | ended outcome =>
      cases outcome with
      | error failure => trivial
      | ok value => exact (continues value).weaken (Nat.le_add_left _ _)
  | createBodyBuffer size next ih =>
      obtain ⟨left, rfl, within⟩ := within
      exact ⟨left + second, by omega, ih within⟩
  | remoteEndpoint next ih | read size next ih | write octets next ih =>
      obtain ⟨left, rfl, within⟩ := within
      exact ⟨left + second, by omega, fun value => ih value (within value)⟩

theorem within_remoteEndpoint : (Program.remoteEndpoint pure).Within 1 := ⟨0, rfl, fun _ => trivial⟩

theorem within_write (octets : List UInt8) : (Program.write octets pure).Within 1 :=
  ⟨0, rfl, fun _ => trivial⟩

theorem within_read (size : ℕ) : (Program.read size pure).Within 1 := ⟨0, rfl, fun _ => trivial⟩

theorem within_createBodyBuffer (size : ℕ) : (Program.createBodyBuffer size (pure ())).Within 1 :=
  ⟨0, rfl, trivial⟩

theorem within_sendMessage (message : Message)
    : (Program.sendMessage host message).Within 3 := by
  refine @Program.Within.bind _ _ 1 2 _ _ (within_write _) fun headerWritten =>
    @Program.Within.bind _ _ 1 1 _ _ ?_ fun written => ?_
  · cases headerWritten with
    | true => exact within_write _
    | false => exact trivial
  · cases written with
    | true => exact trivial
    | false => exact @Program.Within.bind _ _ 1 0 _ _ within_remoteEndpoint fun _ => trivial

theorem within_receiveMessage : (Program.receiveMessage host).Within 4 := by
  have logged : (Program.remoteEndpoint pure >>= fun _ => pure (none : Option Message)).Within 1 :=
    @Program.Within.bind _ _ 1 0 _ _ within_remoteEndpoint fun _ => trivial
  refine @Program.Within.bind _ _ 1 3 _ _ (within_read 4) fun octets => ?_
  cases octets with
  | none => exact logged.weaken (by decide)
  | some octets =>
      dsimp only
      split
      · refine @Program.Within.bind _ _ 1 2 _ _ (within_createBodyBuffer _) fun _ =>
          @Program.Within.bind _ _ 1 1 _ _ (within_read _) fun body => ?_
        cases body with
        | none => exact logged
        | some body => exact trivial
      · exact logged.weaken (by decide)

theorem within_sendRequest (request : Message)
    : (Program.sendRequest host request).Within 7 := by
  refine @Program.Within.bind _ _ 3 4 _ _ (within_sendMessage request) fun sent => ?_
  cases sent with
  | true => exact within_receiveMessage
  | false => exact trivial

/-- By induction on the requests. -/
theorem within_drainQueue (requests : List Message)
    : (Program.drainQueue host requests).Within (7 * requests.length) := by
  induction requests with
  | nil => trivial
  | cons request rest ih =>
      refine (@Program.Within.bind _ _ 7 (7 * rest.length) _ _ (within_sendRequest request)
        fun received => ?_).weaken (by rw [List.length_cons]; omega)
      cases received with
      | none => exact trivial
      | some response =>
          exact @Program.Within.bind _ _ (7 * rest.length) 0 _ _ ih fun responses => trivial

theorem within_service (requestHandler : RequestHandler)
    : (Program.service host requestHandler).Within 11 := by
  refine @Program.Within.bind _ _ 1 10 _ _ within_remoteEndpoint fun _ =>
    @Program.Within.bind _ _ 4 6 _ _ within_receiveMessage fun received => ?_
  cases received with
  | none =>
      have logged : (Program.remoteEndpoint pure >>= fun _ => pure ([] : List Message)).Within 1 :=
        @Program.Within.bind _ _ 1 0 _ _ within_remoteEndpoint fun _ => trivial
      exact logged.weaken (by decide)
  | some request =>
      refine @Program.Within.bind _ _ 6 0 _ _ ?_ fun _ => trivial
      refine @Program.Within.bind _ _ 1 5 _ _ within_remoteEndpoint fun addressed =>
        @Program.Within.bind _ _ 1 4 _ _ within_remoteEndpoint fun connected => ?_
      split
      · exact trivial
      · refine @Program.Within.bind _ _ 3 1 _ _ (within_sendMessage _) fun sent => ?_
        cases sent with
        | true => exact trivial
        | false => exact @Program.Within.bind _ _ 1 0 _ _ within_remoteEndpoint fun _ => trivial

/-- An operation is one less to perform. -/
theorem Program.Within.perform {party : Party α} {closed : Bool} (ready : party.Ready closed)
    {operations : ℕ} (within : party.program.Within operations)
    : ∃ left, operations = left + 1 ∧ party.perform.program.Within left := by
  obtain ⟨program, socket⟩ := party
  cases program with
  | ended outcome => exact ready.elim
  | remoteEndpoint next =>
      obtain ⟨left, same, within⟩ := within
      refine ⟨left, same, ?_⟩
      cases reset : socket.isReset with
      | true =>
          rw [perform_remoteEndpoint_of_isReset reset]
          trivial
      | false =>
          rw [perform_remoteEndpoint reset]
          exact within _
  | createBodyBuffer size next => exact within
  | read size next =>
      obtain ⟨left, same, within⟩ := within
      obtain ⟨octets, after, ran⟩ := exists_read size socket
      exact ⟨left, same, by rw [perform_read ran]; exact within octets⟩
  | write octets next =>
      obtain ⟨left, same, within⟩ := within
      obtain ⟨sent, after, ran⟩ := exists_write octets socket
      exact ⟨left, same, by rw [perform_write ran]; exact within sent⟩

end Within

-----------------------------------------------------------------------------------------
-- Orderly sessions
-----------------------------------------------------------------------------------------

def ConversationLabel.isRun : ConversationLabel → Bool
  | .run _ => true
  | .reset _ => false

section Orderly

variable {Result : Side → Type} {programs : (side : Side) → Program (Result side)}
  {endpoints : Side → Endpoint}

/-- Both sides perform no more operations than their programs take, by induction on the
schedule.
-/
theorem conversation_bounded {state final : Conversation Result} {operations : Side → ℕ}
    (within : ∀ side, (state side).program.Within (operations side))
    {schedule : List ConversationLabel}
    (run : (conversation programs endpoints).follow schedule state = some final)
    : schedule.countP ConversationLabel.isRun ≤ operations .client + operations .server := by
  induction schedule generalizing state operations with
  | nil => exact Nat.zero_le _
  | cons label rest ih =>
      obtain ⟨middle, moved, later⟩ := Machine.follow_cons_some.mp run
      cases conversationMove_of_step moved with
      | @reset side lasting =>
          rw [List.countP_cons_of_neg (by simp [ConversationLabel.isRun])]
          refine ih (fun other => ?_) later
          cases side <;> exact Side.rec (within .client) (within .server) other
      | @run mover ready =>
          obtain ⟨left, same, less⟩ := (within mover).perform ready
          rw [List.countP_cons_of_pos rfl]
          cases mover with
          | client =>
              have bound : _ ≤ left + operations .server :=
                @ih _ (@Side.rec (fun _ => ℕ) left (operations .server))
                  (Side.rec less (within .server)) later
              omega
          | server =>
              have bound : _ ≤ operations .client + left :=
                @ih _ (@Side.rec (fun _ => ℕ) (operations .client) left)
                  (Side.rec (within .client) less) later
              omega

end Orderly

/-- The server handles the first request at most, the client gets the answer to it or none, and
who is thrown out has lost the connection; while a side has not ended, somebody can move.
-/
structure Session.Orderly (hosts : Side → ByteOrder) (endpoints : Side → Endpoint)
    (requestHandler : RequestHandler) (request : Message) (rest : List Message)
    (state : Session)
    : Prop where
  handled
    : ∀ outcome,
        (state .server).program = .ended outcome
        → outcome = .ok []
          ∨ outcome = .ok (sessionHandled hosts request)
          ∨ outcome = .error .notConnected ∧ (state .server).socket.resetAt ≠ none
  answered
    : ∀ outcome,
        (state .client).program = .ended outcome
        → outcome = .ok []
          ∨ outcome = .ok (sessionResponses hosts endpoints requestHandler request)
          ∨ outcome = .error .notConnected ∧ (state .client).socket.resetAt ≠ none
  progress
    : ∀ side,
        (state side).isEnded = false
        → ∃ mover,
            (session hosts endpoints requestHandler (request :: rest)).Enabled (.run mover) state

/-- In every run of a session, with whatever resets of the connection on either side, every state
is orderly, and the sides perform no more than seven operations for each request in the queue and
eleven for the one that is handled.
-/
theorem session_orderly (hosts : Side → ByteOrder) (endpoints : Side → Endpoint)
    (requestHandler : RequestHandler) (request : Message) (rest : List Message)
    (wellSized : request.WellSized (hosts .client))
    : ∀ schedule state,
        (session hosts endpoints requestHandler (request :: rest)).follow schedule
            (session hosts endpoints requestHandler (request :: rest)).start
          = some state
        → Session.Orderly hosts endpoints requestHandler request rest state
          ∧ schedule.countP ConversationLabel.isRun ≤ 7 * (rest.length + 1) + 11 := by
  intro schedule state run
  have reached := Reached.follow .start run
  refine ⟨⟨fun outcome => server_outcome wellSized reached, fun outcome =>
    client_outcome wellSized reached, fun side => session_progress wellSized reached⟩, ?_⟩
  exact @conversation_bounded _ _ _ _ _
    (@Side.rec (fun _ => ℕ) (7 * (rest.length + 1)) 11)
    (Side.rec (within_drainQueue (request :: rest)) (within_service requestHandler)) _ run

def mixedHosts : Side → ByteOrder
  | .client => .littleEndian
  | .server => .bigEndian

/-- A client that gets no answers. -/
def silentSession : Stepping.Machine Session ConversationLabel :=
  session mixedHosts (fun _ => ⟨"host", 1⟩) (fun _ _ _ => none)
    [.ofBody .littleEndian [7, 8] 2, .ofBody .littleEndian [] 0]

/-- The client has sent its request when the server finds the connection reset. -/
def resetRun : List ConversationLabel :=
  [.run .client, .run .client, .reset .server, .run .server]

theorem session_orderly_silent
    : ((silentSession.follow resetRun silentSession.start).map
          fun state => (state .server).isEnded)
        = some true
      ∧ Session.Orderly mixedHosts (fun _ => ⟨"host", 1⟩) (fun _ _ _ => none)
          (.ofBody .littleEndian [7, 8] 2) [.ofBody .littleEndian [] 0]
          ((silentSession.follow resetRun silentSession.start).getD silentSession.start) := by
  have ended
      : ((silentSession.follow resetRun silentSession.start).map
            fun state => (state .server).isEnded)
          = some true := by
    decide +kernel
  obtain ⟨state, run, _⟩ := Option.map_eq_some_iff.mp ended
  refine ⟨ended, ?_⟩
  rw [run]
  exact (session_orderly mixedHosts (fun _ => ⟨"host", 1⟩) (fun _ _ _ => none)
    (.ofBody .littleEndian [7, 8] 2) [.ofBody .littleEndian [] 0] (by decide) resetRun state run).1

end PplMe.Net
