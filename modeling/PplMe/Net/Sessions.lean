import PplMe.Net.Framing
import PplMe.Net.SoloRuns

/-! A client's queue of requests against a connection thread of the single-shot server.
The client goes on with its queue while its requests are answered; the server answers a single
request, and then lets go of the connection.
-/

namespace PplMe.Net

open Stepping Octets Failures

-----------------------------------------------------------------------------------------
-- What the two computations do with a lasting connection
-----------------------------------------------------------------------------------------

/-- The octets that are sent of a message. -/
def Message.wire (host : ByteOrder) (message : Message) : List UInt8 :=
  message.header.octets host ++ message.bodyOctets host

/-- The message that comes first, if one does. -/
def received (host : ByteOrder) (octets : List UInt8) : List Message :=
  if Framed octets then [firstMessage host octets] else []

/-- The octets that are sent to a client for what it has sent. -/
def answered (host : ByteOrder) (requestHandler : RequestHandler) (peer : Endpoint)
    (octets : List UInt8)
    : List UInt8 :=
  (received host octets).flatMap fun request =>
    ((requestHandler peer.address peer.port request).map (Message.wire host)).getD []

section Lasting

variable {host : ByteOrder} {socket : Socket} {octets more : List UInt8} {message : Message}

/-- The header says how long the rest is, and no more than that is sent. -/
theorem declaredLength_wire
    : declaredLength (message.wire host ++ more) = (message.getBodyLength host).toNat := by
  have four : (message.header.octets host).length = 4 := host.store_length _
  have header : (message.wire host ++ more).take 4 = message.header.octets host := by
    rw [Message.wire, List.append_assoc, List.take_append_of_le_length (by omega),
      List.take_of_length_le (by omega)]
  rw [declaredLength, header, Message.octets_eq, networkValue_networkOctets]
  rfl

theorem wire_length_le
    : (message.wire host).length ≤ 4 + declaredLength (message.wire host) := by
  have declared := @declaredLength_wire host [] message
  rw [List.append_nil] at declared
  rw [declared, Message.wire, List.length_append, Message.bodyOctets, List.length_take]
  have four : (message.header.octets host).length = 4 := host.store_length _
  omega

/-- What is sent of a well-sized message is its frame. -/
theorem wire_eq_frame (wellSized : message.WellSized host)
    : message.wire host = Message.frame message.body := by
  rw [Message.wire, Message.bodyOctets, ← wellSized, List.take_length,
    Message.octets_of_wellSized wellSized]

/-- Whatever follows, a complete message stays the first one. -/
theorem framed_append (framed : Framed octets) : Framed (octets ++ more) := by
  obtain ⟨header, admitted, complete⟩ := framed
  have same : declaredLength (octets ++ more) = declaredLength octets := by
    rw [declaredLength, List.take_append_of_le_length header]
    rfl
  refine ⟨by rw [List.length_append]; omega, same ▸ admitted, ?_⟩
  rw [same, List.drop_append_of_le_length header, List.length_append]
  omega

theorem firstMessage_append (framed : Framed octets)
    : firstMessage host (octets ++ more) = firstMessage host octets := by
  obtain ⟨header, admitted, complete⟩ := framed
  have same : declaredLength (octets ++ more) = declaredLength octets := by
    rw [declaredLength, List.take_append_of_le_length header]
    rfl
  rw [firstMessage, same, List.take_append_of_le_length header,
    List.drop_append_of_le_length header, List.take_append_of_le_length complete]
  rfl

/-- A well-sized message is received just if its length is admitted, whatever follows. -/
theorem received_wire_append (wellSized : message.WellSized host) (receiver : ByteOrder)
    (more : List UInt8)
    : received receiver (message.wire host ++ more)
      = if message.body.length ≤ Message.kMaxBodyLength then [message.onHost host receiver]
        else [] := by
  rw [received, wire_eq_frame wellSized]
  by_cases admitted : message.body.length ≤ Message.kMaxBodyLength
  · rw [if_pos (framed_frame admitted), if_pos admitted, firstMessage_frame wellSized admitted]
  · have declared := @declaredLength_wire host more message
    rw [wire_eq_frame wellSized, ← wellSized] at declared
    rw [if_neg admitted, if_neg fun framed => admitted (declared ▸ framed.2.1)]

theorem received_wire (wellSized : message.WellSized host) (receiver : ByteOrder)
    : received receiver (message.wire host)
      = if message.body.length ≤ Message.kMaxBodyLength then [message.onHost host receiver]
        else [] := by
  rw [← received_wire_append wellSized receiver [], List.append_nil]

/-- Of a beginning of a stream nothing is received that is not received of the stream. -/
theorem received_of_beginning (earlier : octets <+: more)
    : received host octets = [] ∨ received host octets = received host more := by
  unfold received
  by_cases framed : Framed octets
  · obtain ⟨rest, rfl⟩ := earlier
    rw [if_pos framed, if_pos (framed_append framed), firstMessage_append framed]
    exact .inr rfl
  · exact .inl (if_neg framed)

/-- A beginning of a message ends where the message does, at the latest. -/
theorem length_le_of_prefix (earlier : octets <+: message.wire host)
    : octets.length ≤ 4 + declaredLength octets := by
  by_cases header : 4 ≤ octets.length
  · obtain ⟨rest, whole⟩ := earlier
    have same : declaredLength octets = declaredLength (message.wire host) := by
      rw [declaredLength, declaredLength, ← whole, List.take_append_of_le_length header]
    have bound := @wire_length_le host message
    rw [← whole, List.length_append] at bound
    rw [same, ← whole]
    omega
  · omega

/-- What is answered is one message at most. -/
theorem answered_eq (requestHandler : RequestHandler) (peer : Endpoint)
    : answered host requestHandler peer octets = []
      ∨ ∃ response : Message,
          answered host requestHandler peer octets = response.wire host := by
  unfold answered received
  split
  · rw [List.flatMap_singleton]
    cases requestHandler peer.address peer.port (firstMessage host octets) with
    | none => exact .inl rfl
    | some response => exact .inr ⟨response, rfl⟩
  · exact .inl rfl

theorem length_le_of_prefix_answered {requestHandler : RequestHandler} {peer : Endpoint}
    (earlier : more <+: answered host requestHandler peer octets)
    : more.length ≤ 4 + declaredLength more := by
  rcases @answered_eq host octets requestHandler peer with nothing | ⟨response, sent⟩
  · rw [nothing, List.prefix_nil] at earlier
    rw [earlier]
    exact Nat.zero_le _
  · exact length_le_of_prefix (sent ▸ earlier)

/-- A request on a lasting connection is sent, and then a message is received. -/
theorem sendRequest_of_lasting (lasting : socket.Lasting) (request : Message)
    : ∃ middle,
        (sendRequest host request).run socket = (receiveMessage host).run middle
        ∧ middle.Lasting
        ∧ middle.unread = socket.unread :=
  ⟨_, run_bind_ok (sendMessage_of_lasting lasting request), lasting, rfl⟩

/-- A queue whose first request is not answered is left. -/
theorem drainQueue_of_not_framed (lasting : socket.Lasting) (unframed : ¬ Framed socket.unread)
    (requests : List Message)
    : ∃ after, (drainQueue host requests).run socket = .ok ([], after) := by
  cases requests with
  | nil => exact ⟨socket, rfl⟩
  | cons request rest =>
      obtain ⟨middle, sent, middleLasting, same⟩ :=
        @sendRequest_of_lasting host _ lasting request
      obtain ⟨after, nothing, _⟩ :=
        @needsUntil_receiveMessage_of_not_framed host _ middleLasting (same ▸ unframed)
      exact ⟨after, run_bind_ok (sent.trans nothing.ran)⟩

/-- A queue gets the first message of what arrives as the response to its first request. Where
nothing comes after that, it leaves the other requests.
-/
theorem drainQueue_of_lasting (lasting : socket.Lasting) (request : Message)
    (rest : List Message) (single : socket.unread.length ≤ 4 + declaredLength socket.unread)
    : ∃ after,
        (drainQueue host (request :: rest)).run socket
          = .ok (received host socket.unread, after) := by
  unfold received
  split
  · rename_i framed
    obtain ⟨middle, sent, middleLasting, same⟩ := @sendRequest_of_lasting host _ lasting request
    have response := @receiveMessage_of_framed host _ (same ▸ framed)
    have nothingMore : ¬ Framed middle.afterMessage.unread := by
      intro more
      have header := more.1
      rw [Socket.afterMessage, same, List.length_drop] at header
      omega
    obtain ⟨after, nothing⟩ := @drainQueue_of_not_framed host _
      (show middle.afterMessage.Lasting from middleLasting) nothingMore rest
    rw [same] at response
    refine ⟨after, (run_bind_ok (sent.trans response)).trans ?_⟩
    exact run_bind_ok nothing
  · rename_i unframed
    exact drainQueue_of_not_framed lasting unframed _

/-- It has sent the first request, whatever came of it. -/
theorem drainQueue_written {request : Message} {rest responses : List Message} {after : Socket}
    (lasting : socket.Lasting)
    (ran : (drainQueue host (request :: rest)).run socket = .ok (responses, after))
    : socket.written ++ request.wire host <+: after.written := by
  rw [← run_drainQueue, Program.drainQueue_cons, Program.run_bind, run_sendMessage] at ran
  obtain ⟨sent, middle, first, later⟩ := run_bind_inv ran
  cases first.symm.trans (sendMessage_of_lasting lasting request)
  exact (performed_of_run later).written

/-- Receiving writes nothing. -/
theorem receiveMessage_written {message : Option Message} {after : Socket}
    (lasting : socket.Lasting) (ran : (receiveMessage host).run socket = .ok (message, after))
    : after.written = socket.written := by
  by_cases framed : Framed socket.unread
  · cases ran.symm.trans (receiveMessage_of_framed framed)
    rfl
  · by_cases header : 4 ≤ socket.unread.length
    · by_cases admitted : declaredLength socket.unread ≤ Message.kMaxBodyLength
      · have short := Nat.not_le.mp fun complete => framed ⟨header, admitted, complete⟩
        cases ran.symm.trans (receiveMessage_of_shortBody lasting header admitted short)
        rfl
      · cases ran.symm.trans (receiveMessage_of_tooBig lasting header (Nat.not_le.mp admitted))
        rfl
    · cases ran.symm.trans (receiveMessage_of_shortHeader lasting (Nat.not_le.mp header))
      rfl

/-- Answering writes what the handler returns. -/
theorem answerRequest_written (requestHandler : RequestHandler) (request : Message)
    (lasting : socket.Lasting)
    : ∃ after,
        (answerRequest host requestHandler request).run socket = .ok ((), after)
        ∧ after.written
          = socket.written
            ++ ((requestHandler socket.peer.address socket.peer.port request).map
              (Message.wire host)).getD [] := by
  have ran : (answerRequest host requestHandler request).run socket = _ :=
    (run_bind_ok (remoteEndpoint_of_sound lasting.isReset)).trans
      (run_bind_ok (remoteEndpoint_of_sound (by exact Socket.Lasting.isReset lasting)))
  rw [ran]
  cases requestHandler socket.peer.address socket.peer.port request with
  | none => exact ⟨_, rfl, (List.append_nil _).symm⟩
  | some response =>
      exact ⟨_, run_bind_ok (sendMessage_of_lasting (by exact lasting) response), rfl⟩

/-- A connection thread handles the first message of what its client sends, and writes the
answer.
-/
theorem service_of_lasting (requestHandler : RequestHandler) (lasting : socket.Lasting)
    : ∃ after,
        (service host requestHandler).run socket = .ok (received host socket.unread, after)
        ∧ after.written
          = socket.written ++ answered host requestHandler socket.peer socket.unread := by
  unfold answered received
  split
  · rename_i framed
    have request := @receiveMessage_of_framed host socket.tick framed
    obtain ⟨after, ran, written⟩ := @answerRequest_written host _ requestHandler
      (firstMessage host socket.unread) (show socket.tick.afterMessage.Lasting from lasting)
    refine ⟨after, ?_, by rw [written, List.flatMap_singleton]; rfl⟩
    exact (run_bind_ok (remoteEndpoint_of_sound lasting.isReset)).trans
      ((run_bind_ok request).trans (run_bind_ok ran))
  · rename_i unframed
    obtain ⟨middle, nothing, _⟩
      := @needsUntil_receiveMessage_of_not_framed host socket.tick lasting unframed
    have silent := receiveMessage_written (by exact lasting) nothing.ran
    refine ⟨middle.tick, ?_, silent.trans (List.append_nil _).symm⟩
    exact (run_bind_ok (remoteEndpoint_of_sound lasting.isReset)).trans
      ((run_bind_ok nothing.ran).trans
        (run_bind_ok (remoteEndpoint_of_sound nothing.lasting.isReset)))

end Lasting

section Resets

variable (host : ByteOrder)

theorem endsOrThrows_sendRequest (request : Message)
    : EndsOrThrows (sendRequest host request) := by
  refine .bind (endsOrThrows_sendMessage host request) fun sent => ?_
  cases sent with
  | true => exact endsOrThrows_receiveMessage host
  | false => exact .pure none

/-- A queue comes to its end or throws, by induction on its requests. -/
theorem endsOrThrows_drainQueue (requests : List Message)
    : EndsOrThrows (drainQueue host requests) := by
  induction requests with
  | nil => exact .pure []
  | cons request rest ih =>
      refine .bind (endsOrThrows_sendRequest host request) fun received => ?_
      cases received with
      | none => exact .pure []
      | some response => exact .bind ih fun responses => .pure _

end Resets

-----------------------------------------------------------------------------------------
-- Sessions
-----------------------------------------------------------------------------------------

/-- A client's queue and a connection thread. -/
def sessionPrograms (hosts : Side → ByteOrder) (requestHandler : RequestHandler)
    (requests : List Message)
    : Side → Program (List Message)
  | .client => .drainQueue (hosts .client) requests
  | .server => .service (hosts .server) requestHandler

/-- The client's result is the responses that it got, and the server's the requests that it
handled. -/
abbrev Session := Conversation fun _ => List Message

def session (hosts : Side → ByteOrder) (endpoints : Side → Endpoint)
    (requestHandler : RequestHandler) (requests : List Message)
    : Machine Session ConversationLabel :=
  conversation (sessionPrograms hosts requestHandler requests) endpoints

section Outcomes

variable {α : Type} {party : Party α} {program : Program α} {peer : Endpoint}
  {arrived : List UInt8} {closed : Bool}

/-- The run of a program that has ended is its outcome. -/
theorem outcome_of_run {outcome : Except SocketException α} {value : α} {socket after : Socket}
    (ran : (Program.ended outcome).run.run socket = .ok (value, after))
    : outcome = .ok value := by
  cases outcome with
  | error failure => cases ran
  | ok other => exact congrArg Except.ok (Prod.mk.inj (Except.ok.inj ran)).1

theorem outcome_of_threw {outcome : Except SocketException α} {failure : SocketException}
    {socket : Socket} (threw : (Program.ended outcome).run.run socket = .error failure)
    : outcome = .error failure := by
  cases outcome with
  | error other => exact congrArg Except.error (Except.error.inj threw)
  | ok value => cases threw

/-- A party that has ended has the result of a lasting connection, or threw because of a reset. -/
theorem Party.Explained.outcome (explained : party.Explained program peer arrived closed)
    (ends : EndsOrThrows program.run) {outcome : Except SocketException α}
    (ended : party.program = .ended outcome)
    : (∃ value after,
        program.run.run (.connected peer arrived none) = .ok (value, after)
        ∧ outcome = .ok value)
      ∨ outcome = .error .notConnected ∧ party.socket.resetAt ≠ none := by
  have same := explained.runs [] party.socket.resetAt (fun _ => rfl) (.inl rfl)
  rw [List.append_nil, Party.reading, ended] at same
  obtain ⟨value, after, needed, needs⟩ := ends (.connected peer arrived none) rfl
  cases reset : party.socket.resetAt with
  | none =>
      rw [reset, needs.ran] at same
      exact .inl ⟨value, after, needs.ran, outcome_of_run same.symm⟩
  | some moment =>
      rw [reset] at same
      rcases Nat.lt_or_ge moment needed with early | late
      · exact .inr ⟨outcome_of_threw (same.symm.trans (needs.early moment early)),
          Option.some_ne_none moment⟩
      · exact .inl ⟨value, after, needs.ran,
          outcome_of_run (same.symm.trans (needs.late moment late))⟩

/-- What a party has written so far is the beginning of what it writes on a lasting connection. -/
theorem Party.Explained.written_beginning
    (explained : party.Explained program peer arrived closed) (ends : EndsOrThrows program.run)
    : ∃ value after,
        program.run.run (.connected peer arrived none) = .ok (value, after)
        ∧ party.socket.written <+: after.written := by
  obtain ⟨rest, same, ran⟩ := explained.written [] fun _ => rfl
  obtain ⟨value, after, _, needs⟩ := ends (.connected peer arrived none) rfl
  rw [List.append_nil] at ran
  exact ⟨value, after, needs.ran, same ▸ (performed_of_run (ran.symm.trans needs.ran)).written⟩

end Outcomes

section Sessions

variable {hosts : Side → ByteOrder} {endpoints : Side → Endpoint}
  {requestHandler : RequestHandler} {request : Message} {rest : List Message} {state : Session}

/-- The requests that are handled of a queue that begins with this one, if nothing gets lost. -/
def sessionHandled (hosts : Side → ByteOrder) (request : Message) : List Message :=
  received (hosts .server) (request.wire (hosts .client))

/-- And the responses to a queue that begins with this one. -/
def sessionResponses (hosts : Side → ByteOrder) (endpoints : Side → Endpoint)
    (requestHandler : RequestHandler) (request : Message)
    : List Message :=
  received (hosts .client)
    (answered (hosts .server) requestHandler (endpoints .client) (request.wire (hosts .client)))

theorem run_client (requests : List Message)
    : (sessionPrograms hosts requestHandler requests .client).run
      = drainQueue (hosts .client) requests :=
  run_drainQueue requests

theorem run_server (requests : List Message)
    : (sessionPrograms hosts requestHandler requests .server).run
      = service (hosts .server) requestHandler :=
  run_service requestHandler

/-- The client has sent a beginning of its first request, or that and more. -/
theorem client_written (reached : Reached (session hosts endpoints requestHandler
      (request :: rest)) state)
    : (state .client).socket.written <+: request.wire (hosts .client)
      ∨ request.wire (hosts .client) <+: (state .client).socket.written := by
  have ends := endsOrThrows_drainQueue (hosts .client) (request :: rest)
  rw [← @run_client hosts requestHandler] at ends
  obtain ⟨_, heard⟩ := explained_of_reached reached .client
  obtain ⟨_, after, ran, sent⟩ := heard.explained.written_beginning ends
  rw [run_client] at ran
  exact List.prefix_or_prefix_of_prefix sent (drainQueue_written (by exact rfl) ran)

/-- Of what has arrived from the client the server handles the first request, or nothing. -/
theorem received_client_written (wellSized : request.WellSized (hosts .client))
    (reached : Reached (session hosts endpoints requestHandler (request :: rest)) state)
    {arrived : List UInt8} (beginning : arrived <+: (state .client).socket.written)
    : received (hosts .server) arrived = []
      ∨ received (hosts .server) arrived = sessionHandled hosts request := by
  rcases @received_of_beginning (hosts .server) _ _ beginning with nothing | whole
  · exact .inl nothing
  rw [whole]
  rcases client_written reached with earlier | ⟨more, same⟩
  · exact received_of_beginning earlier
  · right
    rw [← same, received_wire_append wellSized, sessionHandled, received_wire wellSized]

/-- The server has written a beginning of the answer to the first request. -/
theorem server_written (wellSized : request.WellSized (hosts .client))
    (reached : Reached (session hosts endpoints requestHandler (request :: rest)) state)
    : (state .server).socket.written
      <+: answered (hosts .server) requestHandler (endpoints .client)
        (request.wire (hosts .client)) := by
  have ends := endsOrThrows_service (hosts .server) requestHandler
  rw [← run_server (request :: rest)] at ends
  obtain ⟨arrived, heard⟩ := explained_of_reached reached .server
  obtain ⟨_, after, ran, sent⟩ := heard.explained.written_beginning ends
  obtain ⟨_, service, written⟩ := @service_of_lasting (hosts .server)
    (.connected (endpoints .client) arrived none) requestHandler rfl
  rw [run_server] at ran
  cases service.symm.trans ran
  refine sent.trans ?_
  rw [written]
  unfold answered
  rcases received_client_written wellSized reached heard.beginning with nothing | whole
  · exact nothing ▸ List.nil_prefix
  · exact whole ▸ List.prefix_refl _

/-- What a connection thread has handled, when it has ended. -/
theorem server_outcome (wellSized : request.WellSized (hosts .client))
    (reached : Reached (session hosts endpoints requestHandler (request :: rest)) state)
    {outcome : Except SocketException (List Message)}
    (ended : (state .server).program = .ended outcome)
    : outcome = .ok []
      ∨ outcome = .ok (sessionHandled hosts request)
      ∨ outcome = .error .notConnected ∧ (state .server).socket.resetAt ≠ none := by
  have ends := endsOrThrows_service (hosts .server) requestHandler
  rw [← run_server (request :: rest)] at ends
  obtain ⟨arrived, heard⟩ := explained_of_reached reached .server
  rcases heard.explained.outcome ends ended with ⟨value, after, ran, rfl⟩ | threw
  · obtain ⟨_, service, _⟩ := @service_of_lasting (hosts .server)
      (.connected (endpoints .client) arrived none) requestHandler rfl
    rw [run_server] at ran
    cases service.symm.trans ran
    rcases received_client_written wellSized reached heard.beginning with nothing | whole
    · exact .inl (congrArg Except.ok nothing)
    · exact .inr (.inl (congrArg Except.ok whole))
  · exact .inr (.inr threw)

/-- What a client's queue was answered, when it has ended. -/
theorem client_outcome (wellSized : request.WellSized (hosts .client))
    (reached : Reached (session hosts endpoints requestHandler (request :: rest)) state)
    {outcome : Except SocketException (List Message)}
    (ended : (state .client).program = .ended outcome)
    : outcome = .ok []
      ∨ outcome = .ok (sessionResponses hosts endpoints requestHandler request)
      ∨ outcome = .error .notConnected ∧ (state .client).socket.resetAt ≠ none := by
  have ends := endsOrThrows_drainQueue (hosts .client) (request :: rest)
  rw [← @run_client hosts requestHandler] at ends
  obtain ⟨arrived, heard⟩ := explained_of_reached reached .client
  have sent := heard.beginning.trans (server_written wellSized reached)
  rcases heard.explained.outcome ends ended with ⟨value, after, ran, rfl⟩ | threw
  · obtain ⟨_, drained⟩ := @drainQueue_of_lasting (hosts .client)
      (.connected (endpoints .server) arrived none) rfl request rest
      (length_le_of_prefix_answered sent)
    rw [run_client] at ran
    cases drained.symm.trans ran
    rcases @received_of_beginning (hosts .client) _ _ sent with nothing | whole
    · exact .inl (congrArg Except.ok nothing)
    · exact .inr (.inl (congrArg Except.ok whole))
  · exact .inr (.inr threw)

end Sessions

end PplMe.Net
