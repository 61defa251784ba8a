import PplMe.Pplmec.Pplme
import PplMe.Pplmed.Response

/-! What users see.
From the client's arguments to its output: the request crosses to the server, a search finds
people there, and the response crosses back.
-/

namespace PplMe.Pplmec

open PplMe.Core PplMe.Engine PplMe.Net PplMe.Pplmed Stepping Octets Floats

/-- What is shown of people that the client's host reads as they are. -/
def Host.shown (host : Host) (arguments : Arguments) (ppl : List Person) : Report where
  output :=
    [.text "pplMe for user, ", .number arguments.usersAge.toInt, .text " @ ",
      .float arguments.usersLatitude, .text ", ", .float arguments.usersLongitude]
    :: if 0 < ppl.length then
        [.text "pplMe: you have ", .number ppl.length, .text " potential friends :)"]
        :: ppl.mapIdx fun n person => personLine (host.localDay n) person
      else
        [[.text "pplMe: no matching ppl found :("]]
  errors := []
  succeeded := true

/-- What a user asks for. -/
def Arguments.matchingParameters (arguments : Arguments) : PplMatchingParameters :=
  ⟨⟨arguments.usersLatitude, arguments.usersLongitude⟩, arguments.usersAge.toInt⟩

/-- A client and a server that have the same parsers, and one of the server's calls, which is for
the client's request. The server's people and requests are such that it answers.
-/
structure Deployed {ι : Type*} (parsers : Proto.Parsers) (host : Host) (arguments : Arguments)
    (requests : Requests ι) (people : List Person) (call : ι)
    : Prop where
  requestParser : requests.parseFromArray = parsers.request
  responseParser : host.parseFromArray = parsers.response
  floatBits : requests.floatBits = FloatValue.bits
  populates : requests.settings.populate people = .ok requests.grid
  homes : ∀ person ∈ people, person.locationOfHome.isValid = true
  single
    : ∀ person ∈ people,
        person.locationOfHome.latitude.IsSingle ∧ person.locationOfHome.longitude.IsSingle
  user : arguments.usersLatitude.IsSingle ∧ arguments.usersLongitude.IsSingle
  asked
    : requests.messages call
      = (arguments.request host.byteOrder).onHost host.byteOrder requests.host
  admissible : requests.Admissible

/-- The people that were found: as many from the user's window as may be. -/
structure Found (settings : Settings) (arguments : Arguments) (people ppl : List Person)
    (window : Date × Date)
    : Prop where
  representable : settings.Representable arguments.matchingParameters window
  among : (ppl : Multiset Person) ≤ (people.filter (InWindow window) : List Person)
  length : ppl.length = min settings.maxPpl (people.filter (InWindow window)).length

theorem Found.stored {settings : Settings} {arguments : Arguments} {people ppl : List Person}
    {window : Date × Date} (found : Found settings arguments people ppl window)
    : ∀ person ∈ ppl, person ∈ people :=
  fun _ member => List.mem_of_mem_filter (Multiset.mem_of_le found.among member)

-----------------------------------------------------------------------------------------
-- The request
-----------------------------------------------------------------------------------------

section Request

variable {arguments : Arguments} {byteOrder receiver : ByteOrder}

/-- Two coordinates and an age are a few octets. -/
theorem requestPb_length (arguments : Arguments)
    : (arguments.requestPb.serialize FloatValue.bits).length ≤ 25 := by
  have age : Protobuf.varintSize (Proto.varintOfInt32 arguments.usersAge) ≤ 10 := by
    refine Protobuf.varintSize_le (by decide) ?_
    have bound := Int.emod_lt_of_pos arguments.usersAge.toInt (show (0 : Int) < 2 ^ 64 by decide)
    rw [Proto.varintOfInt32]
    omega
  have location : (Proto.GeoPosition.serialize FloatValue.bits
      ⟨some arguments.usersLatitude, some arguments.usersLongitude⟩).length = 10 :=
    Proto.GeoPosition.serialize_length FloatValue.bits
      ⟨arguments.usersLatitude, arguments.usersLongitude⟩
  have request : (Proto.PplmeRequest.serialize FloatValue.bits
      ⟨some ⟨some arguments.usersLatitude, some arguments.usersLongitude⟩,
        some arguments.usersAge⟩).length
      = 12 + (1 + Protobuf.varintSize (Proto.varintOfInt32 arguments.usersAge)) := by
    rw [Proto.PplmeRequest.serialize, List.length_append, Protobuf.optionalField_some,
      Protobuf.optionalField_some, Protobuf.lengthDelimitedField_length (by decide),
      Protobuf.varintField_length (by decide), location,
      Protobuf.varintSize_of_lt (by decide)]
  rw [Arguments.requestPb, Proto.Request.serialize, Protobuf.optionalField_some,
    Protobuf.lengthDelimitedField_length (by decide), request,
    Protobuf.varintSize_of_lt (by omega)]
  omega

theorem request_wellSized : (arguments.request byteOrder).WellSized byteOrder := by
  have few := requestPb_length arguments
  rw [Message.WellSized, Arguments.request, Message.getBodyLength_ofBody, UInt32.toNat_ofNat']
  exact (Nat.mod_eq_of_lt (Nat.lt_of_le_of_lt few (by decide))).symm

/-- A well-sized message has the same octets on every host. -/
theorem bodyOctets_onHost {message : Message} (wellSized : message.WellSized byteOrder)
    : (message.onHost byteOrder receiver).bodyOctets receiver = message.body := by
  rw [Message.bodyOctets, Message.getBodyLength_onHost, ← wellSized]
  exact List.take_length

/-- The server gets the request as it was sent. -/
theorem received_request
    : received receiver ((arguments.request byteOrder).wire byteOrder)
      = [(arguments.request byteOrder).onHost byteOrder receiver] :=
  (received_wire request_wellSized receiver).trans
    (if_pos ((requestPb_length arguments).trans (by decide)))

variable {ι : Type*} {parsers : Proto.Parsers} {host : Host} {requests : Requests ι} {call : ι}

/-- A call with the user's request is for what the user asks. -/
theorem asks_request (parser : requests.parseFromArray = parsers.request)
    (user : arguments.usersLatitude.IsSingle ∧ arguments.usersLongitude.IsSingle)
    (asked
      : requests.messages call
        = (arguments.request host.byteOrder).onHost host.byteOrder requests.host)
    : requests.Asks call arguments.matchingParameters := by
  have parsed : requests.parseFromArray ((requests.messages call).bodyOctets requests.host)
      = some arguments.requestPb := by
    rw [asked, bodyOctets_onHost request_wellSized, parser]
    refine parsers.request_serialize _ ?_ ((requestPb_length arguments).trans (by decide))
    rintro _ ⟨⟩ _ ⟨⟩
    exact ⟨fun _ same => Option.some.inj same ▸ user.1,
      fun _ same => Option.some.inj same ▸ user.2⟩
  exact .intro parsed rfl

end Request

-----------------------------------------------------------------------------------------
-- The response
-----------------------------------------------------------------------------------------

section Response

variable {ι ω : Type*} {parsers : Proto.Parsers} {host : Host} {arguments : Arguments}
  {requests : Requests ι} {people ppl : List Person} {call : ι}

/-- The call is answered with people in the user's window, as many as may be found, or these take
too many octets.
-/
theorem Deployed.answer [DecidableEq ι] [DecidableEq ω] [Fintype ω]
    {findState : FindState requests.Search ω} {outcome : Except HandlerFault (Option Message)}
    (deployed : Deployed parsers host arguments requests people call)
    (reached : Reached (requests.finds.machine ω) findState)
    (answered : requests.handlePplmeRequest findState call = some outcome)
    : ∃ ppl window,
        Found requests.settings arguments people ppl window
        ∧ (outcome = .error .negativeOverflow ∧ 2 ^ 31 ≤ responseSize requests.host ppl
          ∨ outcome = .ok (some (requests.framed ppl))
            ∧ responseSize requests.host ppl < 2 ^ 31) := by
  have started := matchingParameters_eq_some_iff.mpr
    (asks_request deployed.requestParser deployed.user deployed.asked)
  have isSearch : (requests.matchingParameters call).isSome := by
    rw [started]
    rfl
  let search : requests.Search := ⟨call, isSearch⟩
  have same : requests.finds.requests search = arguments.matchingParameters := by
    simp [Requests.finds, search, started]
  have asked (search : requests.Search) := deployed.admissible _ _ (asks_of_search search)
  choose windows representables using fun search : requests.Search =>
    GridSettings.representable_of_ageInCalendar (asked search).2
  obtain ⟨grid, populates, populated⟩ := Settings.populate_of_isValid deployed.homes
  cases deployed.populates.symm.trans populates
  by_cases returned : ∃ ppl, findState.callers search = .returned ppl
  · obtain ⟨ppl, returned⟩ := returned
    obtain ⟨among, length⟩ := matching_of_returned populated deployed.homes
      (fun search => (asked search).1) representables reached returned
    have answer := handlePplmeRequest_of_returned returned
    cases Option.some.inj (answered.symm.trans answer)
    refine ⟨ppl, windows search, ⟨same ▸ representables search, among, length⟩, ?_⟩
    rcases Nat.lt_or_ge (responseSize requests.host ppl) (2 ^ 31) with small | large
    · exact .inr ⟨by rw [respond_of_lt small]; rfl, small⟩
    · exact .inl ⟨by rw [respond_of_le large]; rfl, large⟩
  · have nothing := handlePplmeRequest_eq_none (not_exists.mp returned)
    cases answered.symm.trans nothing

/-- Whoever may be found, all who are stored take at least as many octets. -/
theorem Deployed.responseSize_le (deployed : Deployed parsers host arguments requests people call)
    {workers : ℕ} (found : requests.MayFind workers call ppl)
    : responseSize requests.host ppl ≤ responseSize requests.host people := by
  have asked := asks_request deployed.requestParser deployed.user deployed.asked
  obtain ⟨window, representable⟩ :=
    GridSettings.representable_of_ageInCalendar (deployed.admissible _ _ asked).2
  obtain ⟨among, _⟩ := matching_of_mayFind (Settings.populated_of_populate deployed.populates)
    deployed.homes asked representable found
  exact responseSize_le_of_among (among.trans (Multiset.coe_le.mpr List.filter_sublist.subperm))

/-- What the client shows of a response that it receives. -/
theorem Deployed.report (deployed : Deployed parsers host arguments requests people call)
    (stored : ∀ person ∈ ppl, person ∈ people)
    (small : responseSize requests.host ppl ≤ Message.kMaxBodyLength)
    : host.report arguments
        (some ((requests.framed ppl).onHost requests.host host.byteOrder))
      = host.showResponse arguments ⟨ppl.map (Proto.Person.ofPerson requests.host)⟩ := by
  have length := @framedResponse_length requests.host requests.floatBits ppl
  have wellSized : (requests.framed ppl).WellSized requests.host :=
    framedResponse_wellSized (Nat.lt_of_le_of_lt small (by decide))
  have octets : (requests.framed ppl).body
      = (Proto.PplmeResponse.mk (ppl.map (Proto.Person.ofPerson requests.host))).serialize
        FloatValue.bits := by
    rw [Requests.framed, framedResponse, deployed.floatBits]
    rfl
  have parsed := parsers.response_serialize
    ⟨ppl.map (Proto.Person.ofPerson requests.host)⟩
    (Proto.isSingle_ofPerson _ fun person member => deployed.single person (stored person member))
    (Proto.isInitialized_ofPerson _ _)
    (by rw [← octets, Requests.framed, length]; exact small)
  simp only [Host.report, bodyOctets_onHost wellSized, octets, deployed.responseParser, parsed]

/-- A host reads people that were written on a host of the same byte order. -/
theorem showResponse_ofPerson (ppl : List Person)
    : host.showResponse arguments ⟨ppl.map (Proto.Person.ofPerson host.byteOrder)⟩
      = host.shown arguments ppl := by
  have lines (n : ℕ) (person : Person)
      : host.showPerson n (.ofPerson host.byteOrder person)
        = personLine (host.localDay n) person := by
    have read := (Proto.convertPerson_inverts host.byteOrder host.id).reads person .invalid
    unfold Host.showPerson
    split
    · rename_i written converted
      cases read.symm.trans converted
      rfl
    · rename_i written failed
      cases read.symm.trans failed
  have people
      : (ppl.map (Proto.Person.ofPerson host.byteOrder)).mapIdx host.showPerson
        = ppl.mapIdx fun n person => personLine (host.localDay n) person := by
    refine List.ext_getElem? fun n => ?_
    rw [List.getElem?_mapIdx, List.getElem?_mapIdx, List.getElem?_map, Option.map_map]
    exact congrArg (Option.map · _) (funext (lines n))
  rw [Host.showResponse, Host.shown, List.length_map, people]

/-- The client receives the response if it is small enough, and else nothing. -/
theorem sessionResponses_framed {endpoints : Side → Endpoint} {requestHandler : RequestHandler}
    (deployed : Deployed parsers host arguments requests people call)
    (sized : responseSize requests.host ppl < 2 ^ 31)
    (handles
      : requestHandler (endpoints .client).address (endpoints .client).port
          (requests.messages call)
        = some (requests.framed ppl))
    : sessionResponses (pplmeHosts host requests.host) endpoints requestHandler
        (arguments.request host.byteOrder)
      = if responseSize requests.host ppl ≤ Message.kMaxBodyLength then
          [(requests.framed ppl).onHost requests.host host.byteOrder]
        else
          [] := by
  have wellSized : (requests.framed ppl).WellSized requests.host :=
    framedResponse_wellSized (Nat.lt_trans sized (by decide))
  have sent : answered requests.host requestHandler (endpoints .client)
      ((arguments.request host.byteOrder).wire host.byteOrder)
      = (requests.framed ppl).wire requests.host := by
    rw [answered, received_request, List.flatMap_singleton, ← deployed.asked, handles]
    rfl
  change received host.byteOrder (answered requests.host requestHandler (endpoints .client)
    ((arguments.request host.byteOrder).wire host.byteOrder)) = _
  rw [sent, received_wire wellSized]
  rw [show (requests.framed ppl).body.length = responseSize requests.host ppl
    from framedResponse_length]

end Response

-----------------------------------------------------------------------------------------
-- What is shown
-----------------------------------------------------------------------------------------

/-- What a client reports when it has ended: the people that were found, if the response was small
enough, or that the request failed. Only a reset takes the report away.
-/
structure Shows (host : Host) (server : ByteOrder) (arguments : Arguments) (ppl : List Person)
    (client : Party Report) (undisturbed : Prop)
    : Prop where
  outcome
    : ∀ outcome,
        client.program = .ended outcome
        → outcome = .ok arguments.noResponse
          ∨ responseSize server ppl ≤ Message.kMaxBodyLength
            ∧ outcome
              = .ok (host.showResponse arguments ⟨ppl.map (Proto.Person.ofPerson server)⟩)
          ∨ outcome = .error .notConnected ∧ client.socket.resetAt ≠ none
  lasting
    : undisturbed
      → client.program
        = .ended (.ok
            (if responseSize server ppl ≤ Message.kMaxBodyLength then
              host.showResponse arguments ⟨ppl.map (Proto.Person.ofPerson server)⟩
            else
              arguments.noResponse))
  sameOrder
    : server = host.byteOrder
      → host.showResponse arguments ⟨ppl.map (Proto.Person.ofPerson server)⟩
        = host.shown arguments ppl

/-- Both sides have come to their ends, and none of them was reset. -/
structure EndedInPeace (state : Conversation PplmeResult) : Prop where
  lasting : ∀ side, (state side).socket.resetAt = none
  ended : ∀ side, (state side).isEnded = true

section Conversations

variable {ι : Type*} {parsers : Proto.Parsers} {host : Host} {arguments : Arguments}
  {requests : Requests ι} {people ppl : List Person} {call : ι} {server : ByteOrder}
  {endpoints : Side → Endpoint} {requestHandler : RequestHandler}
  {state : Conversation PplmeResult}

/-- While a side has not ended, somebody can move. -/
theorem pplme_progress
    (reached : Reached (pplmeSession host server requestHandler arguments endpoints) state)
    {side : Side} (unended : (state side).isEnded = false)
    : ∃ mover,
        (pplmeSession host server requestHandler arguments endpoints).Enabled (.run mover)
          state := by
  obtain ⟨session, sessionReached, rfl⟩ := session_of_reached reached
  rw [Conversation.map, Party.map_isEnded] at unended
  obtain ⟨mover, after, moved⟩ := session_progress request_wellSized sessionReached unended
  refine ⟨mover, after.map (pplmeFunctions host arguments), ?_⟩
  rw [pplmeSession, pplmePrograms_eq_map, conversation_step_map]
  exact congrArg (Option.map _) moved

/-- What the client may report when it has ended. -/
theorem pplme_outcome
    (reached : Reached (pplmeSession host server requestHandler arguments endpoints) state)
    {outcome : Except SocketException Report} (ended : (state .client).program = .ended outcome)
    : outcome = .ok arguments.noResponse
      ∨ outcome
        = .ok (host.report arguments
            (sessionResponses (pplmeHosts host server) endpoints requestHandler
              (arguments.request host.byteOrder)).head?)
      ∨ outcome = .error .notConnected ∧ (state .client).socket.resetAt ≠ none := by
  obtain ⟨session, sessionReached, rfl⟩ := session_of_reached reached
  obtain ⟨inner, sessionEnded, rfl⟩ := Program.ended_of_map ended
  rcases client_outcome request_wellSized sessionReached sessionEnded
    with rfl | rfl | ⟨rfl, reset⟩
  · exact .inl rfl
  · exact .inr (.inl rfl)
  · exact .inr (.inr ⟨rfl, reset⟩)

/-- And what a connection thread may have handled. -/
theorem pplme_handled
    (reached : Reached (pplmeSession host server requestHandler arguments endpoints) state)
    {outcome : Except SocketException (List Message)}
    (ended : (state .server).program = .ended outcome)
    : outcome = .ok []
      ∨ outcome = .ok [(arguments.request host.byteOrder).onHost host.byteOrder server]
      ∨ outcome = .error .notConnected ∧ (state .server).socket.resetAt ≠ none := by
  obtain ⟨session, sessionReached, rfl⟩ := session_of_reached reached
  obtain ⟨inner, sessionEnded, rfl⟩ := Program.ended_of_map ended
  rcases server_outcome request_wellSized sessionReached sessionEnded
    with rfl | rfl | ⟨rfl, reset⟩
  · exact .inl rfl
  · exact .inr (.inl (congrArg Except.ok received_request))
  · exact .inr (.inr ⟨rfl, reset⟩)

/-- Where nothing was reset, what the sides have come to. -/
theorem pplme_result
    (reached : Reached (pplmeSession host server requestHandler arguments endpoints) state)
    (lasting : ∀ side, (state side).socket.resetAt = none)
    (ended : ∀ side, (state side).isEnded = true)
    : (state .server).program
        = .ended (.ok [(arguments.request host.byteOrder).onHost host.byteOrder server])
      ∧ (state .client).program
        = .ended (.ok
            (host.report arguments
              (sessionResponses (pplmeHosts host server) endpoints requestHandler
                (arguments.request host.byteOrder)).head?)) := by
  obtain ⟨session, sessionReached, rfl⟩ := session_of_reached reached
  have runs := runs_of_lasting sessionReached lasting
  have sessionEnded (side : Side) : (session side).isEnded = true :=
    (@Party.map_isEnded _ _ (pplmeFunctions host arguments side) _).symm.trans (ended side)
  obtain ⟨handled, answered⟩ := session_result request_wellSized runs sessionEnded
  constructor
  · refine (congrArg (pplmeFunctions host arguments .server <$> ·) handled).trans ?_
    rw [sessionHandled]
    exact (Program.map_ended _).trans
      (congrArg (Program.ended ∘ Except.ok) received_request)
  · refine (congrArg (pplmeFunctions host arguments .client <$> ·) answered).trans ?_
    exact Program.map_ended _

/-- What is reported of the response to a handled request, if nothing gets lost. -/
theorem Deployed.reported (deployed : Deployed parsers host arguments requests people call)
    (stored : ∀ person ∈ ppl, person ∈ people)
    (sized : responseSize requests.host ppl < 2 ^ 31)
    (handles
      : requestHandler (endpoints .client).address (endpoints .client).port
          (requests.messages call)
        = some (requests.framed ppl))
    : host.report arguments
        (sessionResponses (pplmeHosts host requests.host) endpoints requestHandler
          (arguments.request host.byteOrder)).head?
      = if responseSize requests.host ppl ≤ Message.kMaxBodyLength then
          host.showResponse arguments ⟨ppl.map (Proto.Person.ofPerson requests.host)⟩
        else
          arguments.noResponse := by
  rw [sessionResponses_framed deployed sized handles]
  split
  · rename_i small
    exact deployed.report stored small
  · rfl

/-- The client of a connection thread that answers with people from the store. -/
theorem Deployed.shows (deployed : Deployed parsers host arguments requests people call)
    (stored : ∀ person ∈ ppl, person ∈ people)
    (sized : responseSize requests.host ppl < 2 ^ 31)
    (handles
      : requestHandler (endpoints .client).address (endpoints .client).port
          (requests.messages call)
        = some (requests.framed ppl))
    (reached
      : Reached (pplmeSession host requests.host requestHandler arguments endpoints) state)
    : Shows host requests.host arguments ppl (state .client) (EndedInPeace state) := by
  have reported := deployed.reported stored sized handles
  refine ⟨fun outcome ended => ?_, fun peace => ?_, fun same => ?_⟩
  · rcases pplme_outcome reached ended with rfl | rfl | lost
    · exact .inl rfl
    · have shown := reported
      split at shown
      · rename_i small
        exact .inr (.inl ⟨small, congrArg Except.ok shown⟩)
      · exact .inl (congrArg Except.ok shown)
    · exact .inr (.inr lost)
  · rw [← reported]
    exact (pplme_result reached peace.lasting peace.ended).2
  · rw [same]
    exact showResponse_ofPerson ppl

end Conversations

/-- A search for the user's request that has ended has found as many people of the user's window as
it may; and unless these take too many octets, a connection thread that answers with them, and the
client, come to their ends after a few operations, with a report of just these people, or a failure
for a reason.
-/
def ShowsMatches {ι : Type*} [DecidableEq ι] (ω : Type*) [DecidableEq ω] (host : Host)
    (arguments : Arguments) (requests : Requests ι) (people : List Person) (call : ι)
    : Prop :=
  ∀ (findState : FindState requests.Search ω) outcome,
    Reached (requests.finds.machine ω) findState
    → requests.handlePplmeRequest findState call = some outcome
    → ∃ (ppl : List Person) (window : Date × Date),
        Found requests.settings arguments people ppl window
        ∧ (outcome = .error .negativeOverflow ∧ 2 ^ 31 ≤ responseSize requests.host ppl
          ∨ ∃ message,
              outcome = .ok (some message)
              ∧ ∀ (endpoints : Side → Endpoint) (requestHandler : RequestHandler),
                  requestHandler (endpoints .client).address (endpoints .client).port
                      (requests.messages call)
                    = some message
                  → ∀ schedule state,
                      (pplmeSession host requests.host requestHandler arguments endpoints).follow
                          schedule
                          (pplmeSession host requests.host requestHandler arguments
                            endpoints).start
                        = some state
                      → Shows host requests.host arguments ppl (state .client)
                          (EndedInPeace state)
                        ∧ (∀ side,
                          (state side).isEnded = false
                          → ∃ mover,
                              (pplmeSession host requests.host requestHandler arguments
                                endpoints).Enabled (.run mover) state)
                        ∧ schedule.countP ConversationLabel.isRun ≤ 18)

/-- From the arguments to the output. -/
theorem pplme_shows {ι ω : Type*} [DecidableEq ι] [DecidableEq ω] [Fintype ω]
    {parsers : Proto.Parsers} {host : Host} {arguments : Arguments} {requests : Requests ι}
    {people : List Person} {call : ι}
    (deployed : Deployed parsers host arguments requests people call)
    : ShowsMatches ω host arguments requests people call := by
  intro findState outcome reached answered
  obtain ⟨ppl, window, found, ⟨rfl, large⟩ | ⟨rfl, sized⟩⟩ := deployed.answer reached answered
  · exact ⟨ppl, window, found, .inl ⟨rfl, large⟩⟩
  · refine ⟨ppl, window, found, .inr ⟨_, rfl, fun endpoints requestHandler handles schedule state
      run => ?_⟩⟩
    have reached := Reached.follow .start run
    refine ⟨deployed.shows found.stored sized handles reached,
      fun side unended => pplme_progress reached unended, ?_⟩
    exact @conversation_bounded _ _ _ _ _ (@Side.rec (fun _ => ℕ) 7 11)
      (Side.rec within_pplme (within_service requestHandler)) _ run

-----------------------------------------------------------------------------------------
-- A user on the island
-----------------------------------------------------------------------------------------

def islandArguments : Arguments := ⟨"localhost", 3333, .finite 0, .finite 0, 25⟩

def islandHost : Host where
  byteOrder := .littleEndian
  parseFromArray := Proto.Parsers.readers.response
  localDay _ := smallSettings.today
  id := islander.id

/-- A server of another byte order, with one islander. -/
def islandServer : Requests Unit where
  host := .bigEndian
  parseFromArray := Proto.Parsers.readers.request
  floatBits := FloatValue.bits
  settings := smallSettings
  grid := (namesakeRequest 1).grid
  messages _ := (islandArguments.request .littleEndian).onHost .littleEndian .bigEndian

theorem isSingle_zero : (FloatValue.finite 0).IsSingle := ⟨0, by decide +kernel⟩

/-- The server, asked by any number of users at the same place and of the same age. -/
def crowdedServer (ι : Type*) : Requests ι :=
  { islandServer with messages := fun _ => islandServer.messages () }

theorem crowdedDeployed {ι : Type*} (call : ι)
    : Deployed .readers islandHost islandArguments (crowdedServer ι) [namesake 1] call where
  requestParser := rfl
  responseParser := rfl
  floatBits := rfl
  populates := populate_namesake
  homes := namesakes_isValid
  single := fun _ member => List.mem_singleton.mp member ▸ ⟨isSingle_zero, isSingle_zero⟩
  user := ⟨isSingle_zero, isSingle_zero⟩
  asked := rfl
  admissible := by
    intro call parameters asks
    have known : (crowdedServer ι).Asks call islandArguments.matchingParameters :=
      @asks_request islandArguments _ .readers islandHost (crowdedServer ι) call rfl
        ⟨isSingle_zero, isSingle_zero⟩ rfl
    cases (matchingParameters_eq_some_iff.mpr asks).symm.trans
      (matchingParameters_eq_some_iff.mpr known)
    exact ⟨nullIsland_isValid, show smallSettings.AgeInCalendar (25 : Int32).toInt by decide⟩

theorem islandDeployed
    : Deployed .readers islandHost islandArguments islandServer [namesake 1] () :=
  crowdedDeployed ()

theorem pplme_shows_islander
    : ShowsMatches (Fin 2) islandHost islandArguments islandServer [namesake 1] () :=
  pplme_shows islandDeployed

end PplMe.Pplmec
