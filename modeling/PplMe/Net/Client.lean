import PplMe.Foundation.CallHistories
import PplMe.Foundation.ThreadHandles
import PplMe.Net.Programs
import Mathlib.Data.List.Induction

/-! A client from its constructor to its destructor, whatever it is asked for in between.
The calls on a client are made one after the other. What the host does in a call of `Connect`
(whether a thread starts, what an address resolves to, who can be connected to, and what is sent
over the connection until when it is reset) is part of the call.
-/

namespace PplMe.Net

open Octets CallHistories Failures ThreadHandles

inductive TcpEndpoint where
  | v4 (address : UInt32) (port : UInt16)
  | v6 (address : List UInt8) (port : UInt16)
  deriving DecidableEq, Repr

/-- The default endpoint is no address and no port of IPv4. -/
def TcpEndpoint.unspecified : TcpEndpoint := .v4 0 0

def TcpEndpoint.isV4 : TcpEndpoint → Bool
  | .v4 _ _ => true
  | .v6 _ _ => false

/-- What the host does in a call of `Connect`. -/
structure ConnectHost where
  /-- Whether the I/O thread starts. -/
  starts : Bool
  /-- What the server's address resolves to; nothing where that fails. -/
  resolved : Option (List TcpEndpoint)
  connects : TcpEndpoint → Option Socket

inductive ClientCall where
  | connect (host : ConnectHost)
  | sendRequest (request : Message)
  | disconnect

inductive ClientReturn where
  | connected (success : Bool)
  | response (response : Option Message)
  | disconnected

inductive ClientFault where
  | handle (fault : HandleFault)
  /-- The pointer to the connection is null. -/
  | noConnection
  | socket (exception : SocketException)
  deriving DecidableEq, Repr

-----------------------------------------------------------------------------------------
-- Requests
-----------------------------------------------------------------------------------------

/-- How many operations on the socket it takes until a request does not need the connection any
more: what has come before a reset can be received after it. -/
def requestOperations (byteOrder : ByteOrder) (request : Message) (sent : List UInt8) : Nat :=
  sendOperations byteOrder request + if Framed sent then 0 else receiveOperations sent

section Requests

variable {byteOrder : ByteOrder} {socket : Socket}

/-- A request needs the connection until it is sent, and then until there is a response. -/
theorem needsUntil_sendRequest (request : Message) (lasting : socket.Lasting)
    : ∃ response after,
        NeedsUntil (sendRequest byteOrder request) socket response after
          (socket.operations + requestOperations byteOrder request socket.unread) := by
  obtain ⟨middle, sent⟩ := @needsUntil_sendMessage byteOrder _ request lasting
  have same : middle.unread = socket.unread
      ∧ middle.operations = socket.operations + sendOperations byteOrder request := by
    cases sent.ran.symm.trans (sendMessage_of_lasting lasting request)
    exact ⟨rfl, Nat.add_assoc _ _ _⟩
  unfold requestOperations
  by_cases framed : Framed socket.unread
  · rw [if_pos framed]
    have received := @needsUntil_receiveMessage_of_framed byteOrder _ sent.lasting
      (same.1.symm ▸ framed)
    exact ⟨_, _, sent.bindFree received⟩
  · rw [if_neg framed]
    obtain ⟨after, received, _⟩ := @needsUntil_receiveMessage_of_not_framed byteOrder _
      sent.lasting (same.1.symm ▸ framed)
    rw [same.1, same.2, Nat.add_assoc] at received
    exact ⟨none, after, sent.bindLonger received (by omega)⟩

/-- So it throws just if the connection is reset before that. -/
theorem sendRequest_ends_iff (request : Message)
    : (∃ response after, (sendRequest byteOrder request).run socket = .ok (response, after))
      ↔ socket.LastsFor (requestOperations byteOrder request socket.unread) := by
  obtain ⟨response, after, needs⟩
    := @needsUntil_sendRequest byteOrder socket.lasting request rfl
  exact needs.ends_iff

end Requests

-----------------------------------------------------------------------------------------
-- The client
-----------------------------------------------------------------------------------------

structure ClientImpl where
  ioThread : ThreadHandle
  connection : Option Socket

/-- The first endpoint of IPv4, or the default one. -/
def resolve (resolved : Option (List TcpEndpoint)) : TcpEndpoint :=
  match resolved with
  | none => .unspecified
  | some endpoints => ((endpoints.filter TcpEndpoint.isV4).head?).getD .unspecified

def onHandle {α : Type} (used : Except HandleFault α) : Except ClientFault α :=
  used.mapError .handle

namespace ClientImpl

variable (byteOrder : ByteOrder) (client : ClientImpl)

def connect (host : ConnectHost) : Except ClientFault (ClientImpl × Bool) :=
  if host.starts then do
    let ioThread ← onHandle client.ioThread.assign
    let client := { client with ioThread }
    let endpoint := resolve host.resolved
    if endpoint ≠ .unspecified then
      match host.connects endpoint with
      | some socket => pure ({ client with connection := some socket }, true)
      | none => pure (client, false)
    else
      pure (client, false)
  else
    pure (client, false)

def sendRequest (request : Message) : Except ClientFault (ClientImpl × Option Message) :=
  match client.connection with
  | none => .error .noConnection
  | some socket =>
      match (Net.sendRequest byteOrder request).run socket with
      | .error exception => .error (.socket exception)
      | .ok (response, socket) => .ok ({ client with connection := some socket }, response)

def disconnect : ClientImpl := { client with connection := none }

/-- The destructor joins the I/O thread, whether there is one or not. -/
def destroy : Except ClientFault Unit := do
  let ioThread ← onHandle client.ioThread.join
  onHandle ioThread.destroy

def perform : ClientCall → Except ClientFault (ClientImpl × ClientReturn)
  | .connect host =>
      (client.connect host).map (fun (client, success) => (client, .connected success))
  | .sendRequest request =>
      (client.sendRequest byteOrder request).map
        (fun (client, response) => (client, .response response))
  | .disconnect => .ok (client.disconnect, .disconnected)

end ClientImpl

/-- A client without a thread and a connection, its calls, and its destructor. -/
def clientObject (byteOrder : ByteOrder)
    : Object ClientImpl ClientCall ClientReturn ClientFault where
  create := ⟨.empty, none⟩
  perform := ClientImpl.perform byteOrder
  destroy := ClientImpl.destroy

-----------------------------------------------------------------------------------------
-- What the calls so far say
-----------------------------------------------------------------------------------------

/-- The connection that the call makes. -/
def ConnectHost.connection (host : ConnectHost) : Option Socket :=
  if host.starts && resolve host.resolved ≠ .unspecified then
    host.connects (resolve host.resolved)
  else
    none

/-- The call starts a thread. -/
def ClientCall.startsThread : ClientCall → Bool
  | .connect host => host.starts
  | _ => false

/-- There was a call that connected, and none that disconnected after it. -/
def Connected (history : List ClientCall) : Prop :=
  ∃ early host late,
    history = early ++ .connect host :: late
    ∧ host.connection.isSome = true
    ∧ .disconnect ∉ late

/-- What is received in response to a request over a connection, and the connection after it. -/
def exchange (byteOrder : ByteOrder) (socket : Socket) (request : Message)
    : Option Message × Socket :=
  match (sendRequest byteOrder request).run socket with
  | .ok result => result
  | .error _ => (none, socket)

section Histories

variable (byteOrder : ByteOrder)

/-- The connection after one more call. -/
def afterCall (connection : Option Socket) : ClientCall → Option Socket
  | .connect host => host.connection <|> connection
  | .sendRequest request => connection.map fun socket => (exchange byteOrder socket request).2
  | .disconnect => none

/-- The connection after some calls, each on the one that those before it have left. -/
def connectionAfter (history : List ClientCall) : Option Socket :=
  history.foldl (afterCall byteOrder) none

def clientAfter (history : List ClientCall) : ClientImpl :=
  ⟨⟨history.any ClientCall.startsThread⟩, connectionAfter byteOrder history⟩

/-- At most one call may start a thread, and requests need a connection that lasts. -/
def ClientPermits (history : List ClientCall) : ClientCall → Prop
  | .connect host => host.starts = true → history.any ClientCall.startsThread = false
  | .sendRequest request =>
      ∃ socket, connectionAfter byteOrder history = some socket
        ∧ socket.LastsFor (requestOperations byteOrder request socket.unread)
  | .disconnect => True

def ClientCall.answer (history : List ClientCall) : ClientCall → ClientReturn
  | .connect host => .connected host.connection.isSome
  | .sendRequest request =>
      .response ((connectionAfter byteOrder history).bind fun socket =>
        (exchange byteOrder socket request).1)
  | .disconnect => .disconnected

variable {byteOrder}

theorem connectionAfter_concat (history : List ClientCall) (call : ClientCall)
    : connectionAfter byteOrder (history ++ [call])
      = afterCall byteOrder (connectionAfter byteOrder history) call :=
  List.foldl_concat ..

/-- What a client does depends on the calls so far in this way only. -/
theorem client_contract
    : Contract (clientObject byteOrder) (clientAfter byteOrder) (ClientPermits byteOrder)
        (fun history call => call.answer byteOrder history) where
  created := rfl
  performed history call permitted := by
    cases call with
    | connect host =>
        cases starts : host.starts with
        | false =>
            simp [clientObject, ClientImpl.perform, ClientImpl.connect, clientAfter,
              connectionAfter_concat, afterCall, ClientCall.startsThread, ClientCall.answer,
              ConnectHost.connection, starts, Except.map, pure, Except.pure]
        | true =>
            have fresh := permitted starts
            by_cases found : resolve host.resolved = .unspecified <;>
              cases reached : host.connects (resolve host.resolved) <;>
              simp [clientObject, ClientImpl.perform, ClientImpl.connect, clientAfter,
                connectionAfter_concat, afterCall, ClientCall.startsThread, ClientCall.answer,
                ConnectHost.connection, starts, fresh, found, reached, onHandle, Except.map,
                Except.mapError, bind, Except.bind, pure, Except.pure]
    | sendRequest request =>
        obtain ⟨socket, connected, lasts⟩ := permitted
        obtain ⟨response, after, ran⟩ := (sendRequest_ends_iff request).mpr lasts
        simp [clientObject, ClientImpl.perform, ClientImpl.sendRequest, clientAfter,
          connectionAfter_concat, afterCall, exchange, ClientCall.startsThread, ClientCall.answer,
          connected, ran, Except.map]
    | disconnect =>
        simp [clientObject, ClientImpl.perform, ClientImpl.disconnect, clientAfter,
          connectionAfter_concat, afterCall, ClientCall.startsThread, ClientCall.answer]
  refused history call refused := by
    cases call with
    | connect host =>
        obtain ⟨starts, again⟩ := Classical.not_imp.mp refused
        refine ⟨.handle .assignedJoinable, ?_⟩
        simp [clientObject, ClientImpl.perform, ClientImpl.connect, clientAfter, starts,
          Bool.not_eq_false _ ▸ again, onHandle, Except.map, Except.mapError, bind, Except.bind]
    | sendRequest request =>
        cases connected : connectionAfter byteOrder history with
        | none =>
            refine ⟨.noConnection, ?_⟩
            simp [clientObject, ClientImpl.perform, ClientImpl.sendRequest, clientAfter,
              connected, Except.map]
        | some socket =>
            cases ran : (sendRequest byteOrder request).run socket with
            | ok result =>
                exact absurd ⟨socket, connected, (sendRequest_ends_iff request).mp ⟨_, _, ran⟩⟩
                  refused
            | error exception =>
                refine ⟨.socket exception, ?_⟩
                simp [clientObject, ClientImpl.perform, ClientImpl.sendRequest, clientAfter,
                  connected, ran, Except.map]
    | disconnect => exact absurd trivial refused

/-- Where there is a connection a call has made it, by induction on the calls from the last. -/
theorem connectionAfter_isSome_iff {history : List ClientCall}
    : (connectionAfter byteOrder history).isSome = true ↔ Connected history := by
  induction history using List.reverseRecOn with
  | nil =>
      refine iff_of_false nofun ?_
      rintro ⟨early, host, late, same, _⟩
      cases early <;> cases same
  | append_singleton history call ih =>
      rw [connectionAfter_concat]
      -- A call that keeps the peer keeps the connection.
      have kept (keeps : call ≠ .disconnect)
          (notNow : ∀ host, call = .connect host → host.connection = none)
          : Connected (history ++ [call]) ↔ Connected history := by
        constructor
        · rintro ⟨early, host, late, same, succeeds, lasting⟩
          rcases List.eq_nil_or_concat' late with rfl | ⟨middle, final, rfl⟩
          · obtain ⟨_, only⟩ := List.append_inj' same rfl
            rw [notNow host (List.head_eq_of_cons_eq only)] at succeeds
            cases succeeds
          · rw [← List.cons_append, ← List.append_assoc] at same
            obtain ⟨rfl, _⟩ := List.append_inj' same rfl
            exact ⟨early, host, middle, rfl, succeeds, fun member =>
              lasting (List.mem_append_left _ member)⟩
        · rintro ⟨early, host, late, rfl, succeeds, lasting⟩
          refine ⟨early, host, late ++ [call], by simp, succeeds, ?_⟩
          simpa [keeps.symm] using lasting
      cases call with
      | connect host =>
          cases succeeds : host.connection with
          | none =>
              rw [kept (by simp) (fun other same => by cases same; exact succeeds), ← ih]
              simp [afterCall, succeeds]
          | some socket =>
              refine iff_of_true (by simp [afterCall, succeeds]) ?_
              exact ⟨history, host, [], rfl, by simp [succeeds], by simp⟩
      | sendRequest request =>
          refine Iff.trans ?_ (ih.trans (kept (by simp) (by simp)).symm)
          simp [afterCall]
      | disconnect =>
          refine iff_of_false (by simp [afterCall]) ?_
          rintro ⟨early, host, late, same, _, lasting⟩
          rcases List.eq_nil_or_concat' late with rfl | ⟨middle, final, rfl⟩
          · obtain ⟨_, only⟩ := List.append_inj' same rfl
            cases List.head_eq_of_cons_eq only
          · rw [← List.cons_append, ← List.append_assoc] at same
            obtain ⟨_, only⟩ := List.append_inj' same rfl
            exact lasting (by rw [← List.head_eq_of_cons_eq only]; simp)

/-- A request is made over a connection, which is not reset before the response to it. -/
def Sendable (byteOrder : ByteOrder) (history : List ClientCall) (request : Message) : Prop :=
  Connected history
  ∧ ∀ socket ∈ connectionAfter byteOrder history,
    socket.LastsFor (requestOperations byteOrder request socket.unread)

theorem clientPermits_sendRequest_iff {history : List ClientCall} {request : Message}
    : ClientPermits byteOrder history (.sendRequest request)
      ↔ Sendable byteOrder history request := by
  unfold Sendable
  rw [← @connectionAfter_isSome_iff byteOrder]
  cases connected : connectionAfter byteOrder history <;> simp [ClientPermits, connected]

/-- The calls that a client permits, by induction on them from the last. -/
theorem allPermitted_client_iff {calls : List ClientCall}
    : AllPermitted (ClientPermits byteOrder) calls
      ↔ calls.countP ClientCall.startsThread ≤ 1
        ∧ ∀ before request after,
          calls = before ++ .sendRequest request :: after → Sendable byteOrder before request := by
  have sends (calls : List ClientCall)
      : (∀ before request after,
          calls = before ++ .sendRequest request :: after → Sendable byteOrder before request)
        ↔ AllPermitted
            (fun history call =>
              ∀ request, call = .sendRequest request → Sendable byteOrder history request)
            calls := by
    constructor
    · rintro sendable before call after rfl request rfl
      exact sendable before request after rfl
    · rintro permitted before request after rfl
      exact permitted before _ after rfl request rfl
  rw [sends]
  induction calls using List.reverseRecOn with
  | nil => simp [allPermitted_nil]
  | append_singleton history call ih =>
      rw [allPermitted_concat_iff, allPermitted_concat_iff, List.countP_append,
        List.countP_singleton]
      refine (and_congr_left' ih).trans ?_
      have fresh : history.any ClientCall.startsThread = false
          ↔ history.countP ClientCall.startsThread = 0 := by
        rw [List.countP_eq_zero, List.any_eq_false]
      cases call with
      | connect host =>
          cases starts : host.starts with
          | false => simp [ClientPermits, ClientCall.startsThread, starts]
          | true =>
              have first : ClientPermits byteOrder history (.connect host)
                  ↔ history.countP ClientCall.startsThread = 0 :=
                ⟨fun permitted => fresh.mp (permitted starts), fun none _ => fresh.mpr none⟩
              rw [first]
              simp only [ClientCall.startsThread, starts, if_true, reduceCtorEq,
                false_implies, implies_true, and_true]
              constructor
              · rintro ⟨⟨_, connected⟩, none⟩
                exact ⟨by omega, connected⟩
              · rintro ⟨once, connected⟩
                exact ⟨⟨by omega, connected⟩, by omega⟩
      | sendRequest request =>
          simp [clientPermits_sendRequest_iff, ClientCall.startsThread, and_assoc]
      | disconnect => simp [ClientPermits, ClientCall.startsThread]

end Histories

-----------------------------------------------------------------------------------------
-- A client's life
-----------------------------------------------------------------------------------------

/-- Only a client whose thread was started can be destroyed. -/
theorem destroy_clientAfter_iff {byteOrder : ByteOrder} {history : List ClientCall}
    : (clientAfter byteOrder history).destroy = .ok ()
      ↔ 0 < history.countP ClientCall.startsThread := by
  rw [List.countP_pos_iff, ← List.any_eq_true]
  cases started : history.any ClientCall.startsThread <;>
    simp [ClientImpl.destroy, clientAfter, started, onHandle, Except.mapError, bind, Except.bind]

/-- Whatever the host does, a client's life goes well exactly if one of its calls of `Connect`
started a thread and no other one did, and each request was made over a connection that was not
reset before the response. Then each `Connect` says whether it connected, and each request returns
what it gets over its connection.
-/
theorem client_survives_iff (byteOrder : ByteOrder) (calls : List ClientCall)
    : ((∃ returns, (clientObject byteOrder).live calls = .ok returns)
        ↔ calls.countP ClientCall.startsThread = 1
          ∧ ∀ before request after,
            calls = before ++ .sendRequest request :: after
            → Sendable byteOrder before request)
      ∧ ∀ returns, (clientObject byteOrder).live calls = .ok returns
        → ∀ before call after, calls = before ++ call :: after
          → returns[before.length]? = some (call.answer byteOrder before) := by
  constructor
  · simp only [client_contract.live_eq_ok_iff, exists_and_left, exists_eq, and_true,
      allPermitted_client_iff]
    have ends : (clientObject byteOrder).destroy (clientAfter byteOrder calls) = .ok ()
        ↔ 0 < calls.countP ClientCall.startsThread :=
      destroy_clientAfter_iff
    rw [ends]
    constructor
    · rintro ⟨⟨once, sendable⟩, some⟩
      exact ⟨by omega, sendable⟩
    · rintro ⟨once, sendable⟩
      exact ⟨⟨by omega, sendable⟩, by omega⟩
  · rintro returns lived before call after rfl
    obtain ⟨_, _, rfl⟩ := client_contract.live_eq_ok_iff.mp lived
    exact getElem?_answers [] before call after

end PplMe.Net
