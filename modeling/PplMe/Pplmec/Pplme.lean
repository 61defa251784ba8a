import PplMe.Net.MappedConversations
import PplMe.Net.SessionEnds
import PplMe.Pplmec.Ages
import PplMe.Proto.Parsing

/-! The client: it asks for the people that suit its user, and shows them. -/

namespace PplMe.Pplmec

open PplMe.Net Octets Floats

/-- What is written to a stream at a time. -/
inductive Piece where
  | text (text : String)
  | number (value : Int)
  | float (value : FloatValue)
  | octets (octets : List UInt8)
  deriving DecidableEq, Repr

abbrev Line := List Piece

/-- What `Pplme` has written to `std::cout` and `std::cerr`, and what it returns. -/
structure Report where
  output : List Line
  errors : List Line
  succeeded : Bool
  deriving DecidableEq, Repr

structure Arguments where
  pplmeServerAddress : String
  pplmeServerPort : UInt16
  usersLatitude : FloatValue
  usersLongitude : FloatValue
  usersAge : Int32

/-- The client's host: how it parses a response, its day when it shows each person, and what the
variable for an id holds at first.
-/
structure Host where
  byteOrder : ByteOrder
  parseFromArray : List UInt8 → Option Proto.PplmeResponse
  localDay : Nat → Core.Date
  id : Core.PersonId

-----------------------------------------------------------------------------------------
-- Requests and reports
-----------------------------------------------------------------------------------------

def Arguments.requestPb (arguments : Arguments) : Proto.Request :=
  ⟨some
    ⟨some ⟨some arguments.usersLatitude, some arguments.usersLongitude⟩,
      some arguments.usersAge⟩⟩

/-- The request as a generic message. -/
def Arguments.request (byteOrder : ByteOrder) (arguments : Arguments) : Message :=
  let octets := arguments.requestPb.serialize FloatValue.bits
  .ofBody byteOrder octets (.ofNat octets.length)

/-- A line about the server. -/
def Arguments.failure (arguments : Arguments) (before after : String) : Report where
  output := []
  errors :=
    [[.text before, .text arguments.pplmeServerAddress, .text ":",
      .number arguments.pplmeServerPort.toNat, .text after]]
  succeeded := false

def Arguments.notConnected (arguments : Arguments) : Report :=
  arguments.failure "Failed to connect to pplMe server " ""

def Arguments.noResponse (arguments : Arguments) : Report :=
  arguments.failure "pplMe request to " " failed (check logs for details)"

def Arguments.invalidResponse (arguments : Arguments) : Report :=
  arguments.failure "Invalid pplMe response received from " ""

def personLine (localDay : Core.Date) (person : Core.Person) : Line :=
  [.octets person.name, .text ", ", .number (ageInYears localDay person.dateOfBirth),
    .text " @ ", .float person.locationOfHome.latitude, .text ", ",
    .float person.locationOfHome.longitude]

/-- The line for a person of the response, the first of which has the number 0. -/
def Host.showPerson (host : Host) (n : Nat) (message : Proto.Person) : Line :=
  match converted : message.convert host.byteOrder host.id .invalid with
  | (true, person) =>
      personLine (host.localDay n) (person.get (Proto.isSome_of_convertPerson converted))
  | (false, _) => [.text "pplMe: warning: failed to grok person result"]

def Host.showResponse (host : Host) (arguments : Arguments) (responsePb : Proto.PplmeResponse)
    : Report where
  output :=
    [.text "pplMe for user, ", .number arguments.usersAge.toInt, .text " @ ",
      .float arguments.usersLatitude, .text ", ", .float arguments.usersLongitude]
    :: if 0 < responsePb.ppl.length then
        [.text "pplMe: you have ", .number responsePb.ppl.length, .text " potential friends :)"]
        :: responsePb.ppl.mapIdx host.showPerson
      else
        [[.text "pplMe: no matching ppl found :("]]
  errors := []
  succeeded := true

/-- What is made of the response to the request, if there is one. -/
def Host.report (host : Host) (arguments : Arguments) (response : Option Message) : Report :=
  match response with
  | none => arguments.noResponse
  | some response =>
      match host.parseFromArray (response.bodyOctets host.byteOrder) with
      | none => arguments.invalidResponse
      | some responsePb => host.showResponse arguments responsePb

/-- `Pplme`, from where it has tried to connect. -/
def Host.pplme (host : Host) (arguments : Arguments) (connected : Bool) : Program Report :=
  if connected then do
    let response ← Program.sendRequest host.byteOrder (arguments.request host.byteOrder)
    pure (host.report arguments response)
  else
    pure arguments.notConnected

-----------------------------------------------------------------------------------------
-- The client on its connection
-----------------------------------------------------------------------------------------

/-- A client with a report, and a connection thread with the requests that it has handled. -/
abbrev PplmeResult : Side → Type
  | .client => Report
  | .server => List Message

section Sessions

variable (host : Host) (server : ByteOrder) (requestHandler : RequestHandler)
  (arguments : Arguments) (endpoints : Side → Endpoint)

def pplmePrograms : (side : Side) → Program (PplmeResult side)
  | .client => host.pplme arguments true
  | .server => .service server requestHandler

/-- The client against a connection thread of the server. -/
def pplmeSession : Stepping.Machine (Conversation PplmeResult) ConversationLabel :=
  conversation (pplmePrograms host server requestHandler arguments) endpoints

def pplmeHosts : Side → ByteOrder
  | .client => host.byteOrder
  | .server => server

/-- What the sides make of the responses and the requests of a session. -/
def pplmeFunctions : (side : Side) → List Message → PplmeResult side
  | .client => fun responses => host.report arguments responses.head?
  | .server => fun requests => requests

variable {host server requestHandler arguments endpoints}

/-- The client makes its report from the answers to a queue of one request. -/
theorem pplme_eq_map
    : host.pplme arguments true
      = (fun responses => host.report arguments responses.head?)
        <$> Program.drainQueue host.byteOrder [arguments.request host.byteOrder] := by
  change Program.bind _ _ = Program.bind _ _
  rw [Program.drainQueue]
  refine Eq.trans ?_ (Program.bind_bind _ _ _).symm
  refine congrArg (Program.bind _) (funext fun received => ?_)
  cases received <;> rfl

/-- A connection thread has nothing left to do. -/
theorem map_id_program {α : Type} (program : Program α)
    : (fun value => value) <$> program = program := by
  induction program with
  | ended outcome => cases outcome <;> rfl
  | remoteEndpoint next ih => exact congrArg Program.remoteEndpoint (funext ih)
  | createBodyBuffer size next ih => exact congrArg (Program.createBodyBuffer size) ih
  | read size next ih => exact congrArg (Program.read size) (funext ih)
  | write octets next ih => exact congrArg (Program.write octets) (funext ih)

theorem pplmePrograms_eq_map
    : pplmePrograms host server requestHandler arguments
      = fun side =>
          pplmeFunctions host arguments side
          <$> sessionPrograms (pplmeHosts host server) requestHandler
            [arguments.request host.byteOrder] side := by
  funext side
  cases side with
  | client => exact pplme_eq_map
  | server => exact (map_id_program _).symm

/-- Every run of the client is one of a session with a single request. -/
theorem session_of_reached {state : Conversation PplmeResult}
    (reached
      : Stepping.Reached (pplmeSession host server requestHandler arguments endpoints) state)
    : ∃ session : Session,
        Stepping.Reached
          (Net.session (pplmeHosts host server) endpoints requestHandler
            [arguments.request host.byteOrder]) session
        ∧ state = session.map (pplmeFunctions host arguments) := by
  obtain ⟨schedule, _, run⟩ := @Stepping.ReachedBy.leads _ _ _ (fun _ => True) _ reached
  rw [pplmeSession, pplmePrograms_eq_map, conversation_follow_map] at run
  obtain ⟨session, followed, same⟩ := Option.map_eq_some_iff.mp run
  exact ⟨session, .follow .start followed, same.symm⟩

/-- The client takes no more operations than it takes to send a request. -/
theorem within_pplme : (host.pplme arguments true).Within 7 :=
  @Program.Within.bind _ _ 7 0 _ _ (within_sendRequest _) fun _ => trivial

end Sessions

end PplMe.Pplmec
