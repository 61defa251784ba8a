import PplMe.Net.Service

/-! What a party of a connection does with its socket, one operation at a time.
A computation on a socket runs to its end at once, and knows from the start everything that its
peer will send. As a program it can be stopped before each operation, so that what its peer does
in between is left open.
-/

namespace PplMe.Net

open Octets Failures

inductive Program (α : Type) where
  | ended (outcome : Except SocketException α)
  | remoteEndpoint (next : Endpoint → Program α)
  | createBodyBuffer (size : Nat) (next : Program α)
  | read (size : Nat) (next : Option (List UInt8) → Program α)
  | write (octets : List UInt8) (next : Bool → Program α)

namespace Program

variable {α β : Type}

def bind : Program α → (α → Program β) → Program β
  | .ended (.ok value), continuation => continuation value
  | .ended (.error failure), _ => .ended (.error failure)
  | .remoteEndpoint next, continuation =>
      .remoteEndpoint fun peer => (next peer).bind continuation
  | .createBodyBuffer size next, continuation => .createBodyBuffer size (next.bind continuation)
  | .read size next, continuation => .read size fun octets => (next octets).bind continuation
  | .write octets next, continuation => .write octets fun sent => (next sent).bind continuation

instance : Monad Program where
  pure value := .ended (.ok value)
  bind := bind

/-- The first operation, and what is left of the program after it. -/
def perform : Program α → SocketM (Program α)
  | .ended outcome => pure (.ended outcome)
  | .remoteEndpoint next => next <$> Net.remoteEndpoint
  | .createBodyBuffer size next => (fun _ => next) <$> Net.createBodyBuffer size
  | .read size next => next <$> Net.read size
  | .write octets next => next <$> Net.write octets

/-- All operations, one after the other. -/
def run : Program α → SocketM α
  | .ended (.ok value) => pure value
  | .ended (.error failure) => throw failure
  | .remoteEndpoint next => do (next (← Net.remoteEndpoint)).run
  | .createBodyBuffer size next => do
      Net.createBodyBuffer size
      next.run
  | .read size next => do (next (← Net.read size)).run
  | .write octets next => do (next (← Net.write octets)).run

/-- A program in two parts runs the one and then the other, by induction on the first. -/
theorem run_bind (program : Program α) (continuation : α → Program β)
    : (program >>= continuation).run = program.run >>= fun value => (continuation value).run := by
  induction program with
  | ended outcome => cases outcome <;> rfl
  | remoteEndpoint next ih =>
      change (Net.remoteEndpoint >>= fun peer => (next peer >>= continuation).run) = _
      simp only [ih, run, bind_assoc]
  | createBodyBuffer size next ih =>
      change (Net.createBodyBuffer size >>= fun _ => (next >>= continuation).run) = _
      simp only [ih, run, bind_assoc]
  | read size next ih =>
      change (Net.read size >>= fun octets => (next octets >>= continuation).run) = _
      simp only [ih, run, bind_assoc]
  | write octets next ih =>
      change (Net.write octets >>= fun sent => (next sent >>= continuation).run) = _
      simp only [ih, run, bind_assoc]

/-- Three programs one after the other, by induction on the first. -/
theorem bind_bind {γ : Type} (program : Program α) (second : α → Program β)
    (third : β → Program γ)
    : program >>= second >>= third = program >>= fun value => second value >>= third := by
  induction program with
  | ended outcome => cases outcome <;> rfl
  | remoteEndpoint next ih => exact congrArg Program.remoteEndpoint (funext ih)
  | createBodyBuffer size next ih => exact congrArg (Program.createBodyBuffer size) ih
  | read size next ih => exact congrArg (Program.read size) (funext ih)
  | write octets next ih => exact congrArg (Program.write octets) (funext ih)

@[simp] theorem run_pure (value : α) : (pure value : Program α).run = pure value := rfl

/-- A program goes on with its first operation. -/
theorem run_perform (program : Program α)
    : program.run = program.perform >>= fun next => next.run := by
  cases program with
  | ended outcome => rfl
  | _ => simp only [run, perform, bind_map_left]

/-- The program of a single operation is that operation. -/
@[simp] theorem run_remoteEndpoint
    : (remoteEndpoint pure : Program Endpoint).run = Net.remoteEndpoint := by
  simp [run]

@[simp] theorem run_createBodyBuffer (size : Nat)
    : (createBodyBuffer size (pure ()) : Program Unit).run = Net.createBodyBuffer size := by
  simp [run]

@[simp] theorem run_read (size : Nat) : (read size pure).run = Net.read size := by
  simp [run]

@[simp] theorem run_write (octets : List UInt8) : (write octets pure).run = Net.write octets := by
  simp [run]

end Program

-----------------------------------------------------------------------------------------
-- The programs of the connection
-----------------------------------------------------------------------------------------

section Programs

variable (host : ByteOrder)

/-- `SendRequest` of a client: nothing is received where nothing could be sent. -/
def sendRequest (request : Message) : SocketM (Option Message) := do
  if ← sendMessage host request then
    receiveMessage host
  else
    pure none

/-- How a client is to be used: it sends the requests of a queue, one after the other, until one
is not answered. The responses to them.
-/
def drainQueue : List Message → SocketM (List Message)
  | [] => pure []
  | request :: rest => do
      match ← sendRequest host request with
      | none => pure []
      | some response => do
          let responses ← drainQueue rest
          pure (response :: responses)

namespace Program

def sendMessage (message : Message) : Program Bool := do
  let headerWritten ← write (message.header.octets host) pure
  let written ← (if headerWritten then write (message.bodyOctets host) pure else pure false)
  if written then
    pure true
  else
    let _ ← remoteEndpoint pure
    pure false

def receiveMessage : Program (Option Message) := do
  match ← read 4 pure with
  | none =>
      let _ ← remoteEndpoint pure
      pure none
  | some octets =>
      let header := Header.ofOctets host octets
      let bodyLength := (header.getBodyLength host).toNat
      if bodyLength ≤ Message.kMaxBodyLength then
        createBodyBuffer bodyLength (pure ())
        match ← read bodyLength pure with
        | none =>
            let _ ← remoteEndpoint pure
            pure none
        | some body => pure (some ⟨header, body⟩)
      else
        let _ ← remoteEndpoint pure
        pure none

def sendRequest (request : Message) : Program (Option Message) := do
  if ← sendMessage host request then
    receiveMessage host
  else
    pure none

def drainQueue : List Message → Program (List Message)
  | [] => pure []
  | request :: rest => do
      match ← sendRequest host request with
      | none => pure []
      | some response => do
          let responses ← drainQueue rest
          pure (response :: responses)

/-- What is left to do with a queue once its first request was sent, or was not. -/
def afterSending (rest : List Message) (sent : Bool) : Program (List Message) := do
  match ← (if sent then receiveMessage host else pure none) with
  | none => pure []
  | some response => do
      let responses ← drainQueue host rest
      pure (response :: responses)

theorem drainQueue_cons (request : Message) (rest : List Message)
    : drainQueue host (request :: rest)
      = sendMessage host request >>= afterSending host rest := by
  rw [drainQueue, sendRequest, bind_bind]
  rfl

def answerRequest (requestHandler : RequestHandler) (request : Message) : Program Unit := do
  let addressed ← remoteEndpoint pure
  let connected ← remoteEndpoint pure
  match requestHandler addressed.address connected.port request with
  | none => pure ()
  | some response =>
      let sent ← sendMessage host response
      if sent then
        pure ()
      else
        let _ ← remoteEndpoint pure
        pure ()

def service (requestHandler : RequestHandler) : Program (List Message) := do
  let _ ← remoteEndpoint pure
  match ← receiveMessage host with
  | some request =>
      answerRequest host requestHandler request
      pure [request]
  | none =>
      let _ ← remoteEndpoint pure
      pure []

end Program

end Programs

section Runs

variable {host : ByteOrder}

theorem run_sendMessage (message : Message)
    : (Program.sendMessage host message).run = sendMessage host message := by
  simp only [Program.sendMessage, sendMessage, Program.run_bind, Program.run_write]
  refine bind_congr fun headerWritten => ?_
  cases headerWritten with
  | true =>
      simp only [if_true, Program.run_write]
      refine bind_congr fun written => ?_
      cases written <;> simp [Program.run_bind]
  | false => simp [Program.run_bind]

theorem run_receiveMessage : (Program.receiveMessage host).run = receiveMessage host := by
  simp only [Program.receiveMessage, receiveMessage, Program.run_bind, Program.run_read]
  refine bind_congr fun octets => ?_
  cases octets with
  | none => simp [Program.run_bind]
  | some octets =>
      dsimp only
      split
      · simp only [Program.run_bind, Program.run_createBodyBuffer, Program.run_read]
        refine bind_congr fun _ => bind_congr fun body => ?_
        cases body <;> simp [Program.run_bind]
      · simp [Program.run_bind]

theorem run_sendRequest (request : Message)
    : (Program.sendRequest host request).run = sendRequest host request := by
  simp only [Program.sendRequest, sendRequest, Program.run_bind, run_sendMessage]
  refine bind_congr fun sent => ?_
  cases sent <;> simp [run_receiveMessage]

/-- By induction on the requests. -/
theorem run_drainQueue (requests : List Message)
    : (Program.drainQueue host requests).run = drainQueue host requests := by
  induction requests with
  | nil => rfl
  | cons request rest ih =>
      simp only [Program.drainQueue, drainQueue, Program.run_bind, run_sendRequest]
      refine bind_congr fun received => ?_
      cases received with
      | none => simp
      | some response => simp [Program.run_bind, ih]

theorem run_answerRequest (requestHandler : RequestHandler) (request : Message)
    : (Program.answerRequest host requestHandler request).run
      = answerRequest host requestHandler request := by
  simp only [Program.answerRequest, answerRequest, getPeerEndpoint, Program.run_bind,
    Program.run_remoteEndpoint]
  refine bind_congr fun addressed => bind_congr fun connected => ?_
  cases requestHandler addressed.address connected.port request with
  | none => simp
  | some response =>
      simp only [Program.run_bind, run_sendMessage]
      refine bind_congr fun sent => ?_
      cases sent <;> simp [Program.run_bind]

theorem run_service (requestHandler : RequestHandler)
    : (Program.service host requestHandler).run = service host requestHandler := by
  simp only [Program.service, service, getPeerEndpoint, Program.run_bind, run_receiveMessage,
    Program.run_remoteEndpoint]
  refine bind_congr fun _ => bind_congr fun received => ?_
  cases received with
  | none => simp [Program.run_bind]
  | some request => simp [Program.run_bind, run_answerRequest]

end Runs

end PplMe.Net
