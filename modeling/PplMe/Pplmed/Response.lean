import PplMe.Net.Framing
import PplMe.Pplmed.Server

/-! The responses that the server sends, and whether a client receives them.
Only the receiving side has a limit on the length of a message. A response is as long as the
records of the people that were found.
-/

namespace PplMe.Pplmed

open PplMe.Core PplMe.Engine PplMe.Net Stepping Octets Floats

section Received

variable {server client : ByteOrder} {message : Message}

/-- The message has an admitted length, and what is sent of it is received as that message. -/
def ClientReceives (server client : ByteOrder) (message : Message) : Prop :=
  (message.getBodyLength server).toNat ≤ Message.kMaxBodyLength
  ∧ ∀ written socket,
      Sent server message written
      → socket.Lasting
      → socket.unread = written
      → ∃ after,
          (receiveMessage client).run socket = .ok (some (message.onHost server client), after)

/-- What is sent of a message whose buffer is large enough is the frame of its first octets. -/
theorem receives_cut (enough : (message.getBodyLength server).toNat ≤ message.body.length)
    (admitted : (message.getBodyLength server).toNat ≤ Message.kMaxBodyLength)
    {written : List UInt8} (sent : Sent server message written) {socket : Socket}
    (lasting : socket.Lasting) (stream : socket.unread = written)
    : ∃ after,
        (receiveMessage client).run socket
          = .ok
              (some (Message.onHost server client ⟨message.header, message.bodyOctets server⟩),
                after) := by
  let cut : Message := ⟨message.header, message.bodyOctets server⟩
  have length : cut.body.length = (message.getBodyLength server).toNat :=
    List.length_take_of_le enough
  have wellSized : cut.WellSized server := length
  have stream : socket.unread = Message.frame cut.body ++ [] := by
    rw [stream, sent.eq, List.append_nil]
    exact Message.octets_of_wellSized wellSized
  obtain ⟨after, received, _⟩
    := receiveMessage_of_frame wellSized (length ▸ admitted) lasting stream
  exact ⟨after, received⟩

/-- A client receives the message just if its length is the declared one and admitted. -/
theorem clientReceives_iff
    (enough : (message.getBodyLength server).toNat ≤ message.body.length)
    : ClientReceives server client message
      ↔ message.WellSized server ∧ message.body.length ≤ Message.kMaxBodyLength := by
  constructor
  · rintro ⟨admitted, receives⟩
    have sent : Sent server message _ :=
      ⟨.connected ⟨"", 0⟩ [] none, _, sendMessage_of_lasting (by exact rfl) message, rfl⟩
    obtain ⟨_, received⟩ := receives _ (.connected ⟨"", 0⟩ _ none) sent rfl rfl
    obtain ⟨_, cut⟩ := @receives_cut server client message enough admitted _ sent
      (.connected ⟨"", 0⟩ _ none) rfl rfl
    have same : message.body = message.bodyOctets server := by
      have results := received.symm.trans cut
      simp only [Except.ok.injEq, Prod.mk.injEq, Option.some.injEq] at results
      exact congrArg Message.body results.1
    have wellSized : message.WellSized server := by
      rw [Message.WellSized, same]
      exact List.length_take_of_le enough
    exact ⟨wellSized, by rw [wellSized]; exact admitted⟩
  · rintro ⟨wellSized, admitted⟩
    refine ⟨by rw [← wellSized]; exact admitted, fun written socket sent lasting stream => ?_⟩
    have stream : socket.unread = Message.frame message.body ++ [] := by
      rw [stream, sent.eq_frame wellSized, List.append_nil]
    obtain ⟨after, received, _⟩ := receiveMessage_of_frame wellSized admitted lasting stream
    exact ⟨after, received⟩

end Received

section Responses

variable {host client : ByteOrder} {floatBits : FloatValue → UInt32} {ppl : List Person}

/-- The declared length is a word. -/
theorem framedResponse_getBodyLength
    : ((framedResponse host floatBits ppl).getBodyLength host).toNat
      = responseSize host ppl % 2 ^ 32 := by
  rw [← @framedResponse_length host floatBits ppl, framedResponse, Message.getBodyLength_ofBody,
    UInt32.toNat_ofNat']
  rfl

/-- It is the length of the body if a word can hold that. -/
theorem framedResponse_wellSized (sized : responseSize host ppl < 2 ^ 32)
    : (framedResponse host floatBits ppl).WellSized host := by
  rw [Message.WellSized, framedResponse_getBodyLength, framedResponse_length]
  exact (Nat.mod_eq_of_lt sized).symm

/-- A client receives a response just if the people's records are small enough. -/
theorem clientReceives_framedResponse_iff
    : ClientReceives host client (framedResponse host floatBits ppl)
      ↔ responseSize host ppl ≤ Message.kMaxBodyLength := by
  have small : Message.kMaxBodyLength < 2 ^ 32 := by decide
  rw [clientReceives_iff, framedResponse_length]
  · constructor
    · exact And.right
    · intro admitted
      exact ⟨framedResponse_wellSized (admitted.trans_lt small), admitted⟩
  · rw [framedResponse_getBodyLength, framedResponse_length]
    exact Nat.mod_le _ _

end Responses

-----------------------------------------------------------------------------------------
-- Responses to requests
-----------------------------------------------------------------------------------------

/-- Whatever the schedule, the request's client receives the response to it, if there is one. -/
def Requests.Received {ι : Type*} [DecidableEq ι] (requests : Requests ι) (ω : Type*)
    [DecidableEq ω] (client : ByteOrder) (call : ι)
    : Prop :=
  ∀ (state : FindState requests.Search ω) message,
    Reached (requests.finds.machine ω) state
    → requests.handlePplmeRequest state call = some (.ok (some message))
    → ClientReceives requests.host client message

section Answers

variable {ι ω : Type*} [DecidableEq ι] [DecidableEq ω] [Fintype ω] {requests : Requests ι}
  {people ppl : List Person} {call : ι} {client : ByteOrder}

/-- Some response can be too large for the client, though not for an int. -/
theorem not_received_of_mayFind (populated : requests.settings.Populated people requests.grid)
    (found : requests.MayFind (Fintype.card ω) call ppl)
    (long : Message.kMaxBodyLength < responseSize requests.host ppl)
    (small : responseSize requests.host ppl < 2 ^ 31)
    : ¬ requests.Received ω client call := by
  intro receives
  obtain ⟨search, state, rfl, reached, returned⟩ := search_of_mayFind populated found
  have answered := handlePplmeRequest_of_returned returned
  rw [respond_of_lt small] at answered
  have received := receives state _ reached answered
  exact Nat.not_le.mpr long (clientReceives_framedResponse_iff.mp received)

end Answers

-----------------------------------------------------------------------------------------
-- Received responses
-----------------------------------------------------------------------------------------

/-- Whoever is stored and whatever is asked, a client receives every response to a request just if
the records of whoever may be found for it are small enough together, or too large for a response
to be built. It is enough that those of any people in the window are, as many as may be found; and
where everybody in the window may be found, theirs are the only ones.
-/
theorem response_received_iff {ι ω : Type*} [DecidableEq ι] [DecidableEq ω] [Fintype ω]
    [Nonempty ω] {requests : Requests ι} {people : List Person}
    (populates : requests.settings.populate people = .ok requests.grid) (client : ByteOrder)
    (call : ι)
    : (requests.Received ω client call
        ↔ ∀ ppl,
            requests.MayFind (Fintype.card ω) call ppl
            → responseSize requests.host ppl ≤ Message.kMaxBodyLength
              ∨ 2 ^ 31 ≤ responseSize requests.host ppl)
      ∧ ∀ parameters window,
          requests.Asks call parameters
          → parameters.locationOfUser.isValid = true
          → requests.settings.Representable parameters window
          → (∀ person ∈ people, person.locationOfHome.isValid = true)
          → ((∀ ppl : List Person,
                (ppl : Multiset Person) ≤ (people.filter (InWindow window) : List Person)
                → ppl.length ≤ requests.settings.maxPpl
                → responseSize requests.host ppl ≤ Message.kMaxBodyLength)
              → requests.Received ω client call)
            ∧ ((people.filter (InWindow window)).length ≤ requests.settings.maxPpl
              → (requests.Received ω client call
                ↔ responseSize requests.host (people.filter (InWindow window))
                    ≤ Message.kMaxBodyLength
                  ∨ 2 ^ 31 ≤ responseSize requests.host (people.filter (InWindow window)))) := by
  have populated := Settings.populated_of_populate populates
  have received
      : requests.Received ω client call
        ↔ ∀ ppl,
            requests.MayFind (Fintype.card ω) call ppl
            → responseSize requests.host ppl ≤ Message.kMaxBodyLength
              ∨ 2 ^ 31 ≤ responseSize requests.host ppl := by
    constructor
    · intro receives ppl found
      by_contra! between
      exact not_received_of_mayFind populated found between.1 between.2 receives
    · intro small state message reached answered
      obtain ⟨search, ppl, rfl, returned, built, rfl⟩ := returned_of_response answered
      refine clientReceives_framedResponse_iff.mpr ?_
      rcases mayFind_of_search populated reached returned with found | rfl
      · exact (small ppl found).resolve_right (Nat.not_le.mpr built)
      · exact Nat.zero_le _
  refine ⟨received, fun parameters window asked valid representable homes => ?_⟩
  rw [received]
  constructor
  · intro fit ppl found
    obtain ⟨among, length⟩ := matching_of_mayFind populated homes asked representable found
    exact .inl (fit ppl among (length.trans_le (Nat.min_le_left _ _)))
  · intro few
    obtain ⟨⟨ppl, found⟩, sizes⟩ :=
      responseSize_of_few populated homes asked representable valid few (@Fintype.card_pos ω _ _)
    constructor
    · exact fun small => sizes ppl found ▸ small ppl found
    · exact fun small others found => (sizes others found).symm ▸ small

/-- With a short name. -/
theorem response_received_short : (namesakeRequest 1).Received (Fin 2) .bigEndian () :=
  (@response_received_iff Unit (Fin 2) _ _ _ _ _ _ populate_namesake .bigEndian ()).1.mpr
    fun ppl found => by
      have small := @Proto.recordSize_le .littleEndian (namesake 1) (by decide)
      rw [← responseSize_namesake.2 ppl found] at small
      exact .inl (small.trans (by decide))

/-- With a name as long as a message may be, some response is not received. -/
theorem response_refused_long
    : ¬ (namesakeRequest 1048576).Received (Fin 2) .bigEndian () := by
  obtain ⟨⟨ppl, found⟩, sizes⟩ := @responseSize_namesake 1048576
  have long := @Proto.lt_recordSize .littleEndian (namesake 1048576)
  have small := @Proto.recordSize_le .littleEndian (namesake 1048576)
    (by rw [namesake_length]; decide)
  rw [namesake_length, ← sizes ppl found] at long small
  exact not_received_of_mayFind (Settings.populated_of_populate populate_namesake) found long
    (small.trans_lt (by decide))

end PplMe.Pplmed
