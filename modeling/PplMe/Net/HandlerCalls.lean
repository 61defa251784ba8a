import PplMe.Net.ProcessProgress

/-! A connection thread's function as a program that makes a call.
The call is that of the server's handler, which may take as long as it likes.
-/

namespace PplMe.Net

open Octets

/-- What the server's handler is called with. -/
structure HandlerCall where
  address : String
  port : UInt16
  request : Message

section Calls

variable (host : ByteOrder)

/-- The connection thread's function, without what the handler does. -/
def serviceCalling : CallingProgram HandlerCall (Option Message) (List Message) where
  toCall := do
    let _ ← Program.remoteEndpoint pure
    match ← Program.receiveMessage host with
    | some request =>
        let addressed ← Program.remoteEndpoint pure
        let connected ← Program.remoteEndpoint pure
        pure (some ⟨addressed.address, connected.port, request⟩)
    | none => pure none
  withoutCall := do
    let _ ← Program.remoteEndpoint pure
    pure []
  fromAnswer call
    | none => pure [call.request]
    | some response => do
        let sent ← Program.sendMessage host response
        if sent then
          pure [call.request]
        else
          let _ ← Program.remoteEndpoint pure
          pure [call.request]

/-- Where there is no operation, the program goes on at once. -/
theorem Program.bind_pure {α β : Type} (value : α) (continuation : α → Program β)
    : (pure value : Program α).bind continuation = continuation value := rfl

/-- What a handler answers to a call. -/
def RequestHandler.answers (requestHandler : RequestHandler) (call : HandlerCall)
    : Option Message :=
  requestHandler call.address call.port call.request

/-- Together with a handler that answers at once it is that function again. -/
theorem serviceCalling_answeredBy (requestHandler : RequestHandler)
    : (serviceCalling host).answeredBy requestHandler.answers
      = Program.service host requestHandler := by
  refine (Program.bind_bind _ _ _).trans ?_
  refine congrArg (Program.bind _) (funext fun _ => ?_)
  refine (Program.bind_bind _ _ _).trans ?_
  refine congrArg (Program.bind _) (funext fun received => ?_)
  cases received with
  | none => rfl
  | some request =>
      refine congrArg Program.remoteEndpoint (funext fun addressed => ?_)
      refine congrArg Program.remoteEndpoint (funext fun connected => ?_)
      change (serviceCalling host).fromAnswer _
        (requestHandler addressed.address connected.port request) = _
      beta_reduce
      rw [Program.bind_pure connected]
      cases requestHandler addressed.address connected.port request with
      | none => rfl
      | some response =>
          refine Eq.trans ?_ (Program.bind_bind _ _ _).symm
          refine congrArg (Program.bind _) (funext fun sent => ?_)
          cases sent <;> rfl

/-- Up to seven operations before the call, and up to four after it. -/
theorem within_serviceCalling : (serviceCalling host).Within 7 4 where
  toCall := by
    refine @Program.Within.bind _ _ 1 6 _ _ within_remoteEndpoint fun _ =>
      @Program.Within.bind _ _ 4 2 _ _ within_receiveMessage fun received => ?_
    cases received with
    | none => exact trivial
    | some request =>
        exact @Program.Within.bind _ _ 1 1 _ _ within_remoteEndpoint fun _ =>
          @Program.Within.bind _ _ 1 0 _ _ within_remoteEndpoint fun _ => trivial
  withoutCall :=
    Program.Within.weaken
      (@Program.Within.bind _ _ 1 0 _ _ within_remoteEndpoint fun _ => trivial) (by decide)
  fromAnswer call answer := by
    cases answer with
    | none => exact trivial
    | some response =>
        refine @Program.Within.bind _ _ 3 1 _ _ (within_sendMessage response) fun sent => ?_
        cases sent with
        | true => exact trivial
        | false => exact @Program.Within.bind _ _ 1 0 _ _ within_remoteEndpoint fun _ => trivial

end Calls

end PplMe.Net
