import PplMe.Engine.FindSchedules
import PplMe.Net.Connection
import PplMe.Proto.Wire

/-! The server's request handler, together with the finds that it starts.
A request is ignored for what it lacks, or handed to the provider as it is; then the call
returns when the find does, unless there are too many octets in what was found.
-/

namespace PplMe.Pplmed

open PplMe.Core PplMe.Engine PplMe.Net Stepping Octets Floats

/-- Requests that are handled concurrently, on one provider. How the protobuf library parses a
message's body, and the bits of a single-precision float, are left open.
-/
structure Requests (ι : Type*) where
  host : ByteOrder
  parseFromArray : List UInt8 → Option Proto.Request
  floatBits : FloatValue → UInt32
  settings : Settings
  grid : PplGrid
  messages : ι → Message

section Handling

variable {ι ω : Type*} (requests : Requests ι)

/-- The basic validation of a request, up to the search that it starts: nothing is started
for a request that is malformed, of an unknown type or without a location.
-/
def Requests.matchingParameters (call : ι) : Option PplMatchingParameters := do
  let request ← requests.parseFromArray ((requests.messages call).bodyOctets requests.host)
  let pplmeRequest ← request.pplmeRequest
  let locationOfUser ← (pplmeRequest.locationOfUser.getD {}).toGeoPosition
  pure ⟨locationOfUser, (pplmeRequest.ageOfUser.getD 0).toInt⟩

/-- The requests that start a search. -/
abbrev Requests.Search := { call : ι // (requests.matchingParameters call).isSome }

/-- The searches, all on the server's provider. -/
def Requests.finds : Finds requests.Search where
  settings := requests.settings
  grid := requests.grid
  requests search := (requests.matchingParameters search.1).get search.2

/-- Why the handler ends without returning. -/
inductive HandlerFault where
  | negativeOverflow
  deriving DecidableEq, Repr

/-- The people that were found, as a protobuf message framed as a generic one. -/
def framedResponse (host : ByteOrder) (floatBits : FloatValue → UInt32) (ppl : List Person)
    : Message :=
  let response : Proto.PplmeResponse := ⟨ppl.map (.ofPerson host)⟩
  let octets := response.serialize floatBits
  .ofBody host octets (.ofNat octets.length)

/-- That message, if an int holds the size of its body. -/
def pplmeResponse (host : ByteOrder) (floatBits : FloatValue → UInt32) (ppl : List Person)
    : Except HandlerFault Message :=
  let message := framedResponse host floatBits ppl
  -- from there on `ByteSize` has overflowed, and `numeric_cast` throws
  if message.body.length < 2 ^ 31 then .ok message else .error .negativeOverflow

def Requests.framed (ppl : List Person) : Message :=
  framedResponse requests.host requests.floatBits ppl

def Requests.respond (ppl : List Person) : Except HandlerFault Message :=
  pplmeResponse requests.host requests.floatBits ppl

/-- What `HandlePplmeRequest` has come to: nothing yet, no message, a response, or an exception. -/
def Requests.handlePplmeRequest (state : FindState requests.Search ω) (call : ι)
    : Option (Except HandlerFault (Option Message)) :=
  if search : (requests.matchingParameters call).isSome then
    match state.callers ⟨call, search⟩ with
    | .returned ppl => some ((requests.respond ppl).map some)
    | _ => none
  else
    some (.ok none)

end Handling

-----------------------------------------------------------------------------------------
-- Sizes
-----------------------------------------------------------------------------------------

/-- How many octets people take in a response. -/
def responseSize (host : ByteOrder) (ppl : List Person) : Nat :=
  (ppl.map (Proto.recordSize host)).sum

section Sizes

variable {host : ByteOrder} {floatBits : FloatValue → UInt32} {ppl people : List Person}

theorem framedResponse_length
    : (framedResponse host floatBits ppl).body.length = responseSize host ppl :=
  Proto.PplmeResponse.serialize_length floatBits ppl

/-- Some of the people take no more octets than all. -/
theorem responseSize_le_of_among (among : (ppl : Multiset Person) ≤ (people : Multiset Person))
    : responseSize host ppl ≤ responseSize host people := by
  obtain ⟨others, same⟩ := Multiset.le_iff_exists_add.mp among
  have sums := congrArg (fun persons => (Multiset.map (Proto.recordSize host) persons).sum) same
  rw [Multiset.map_add, Multiset.sum_add, Multiset.map_coe, Multiset.map_coe, Multiset.sum_coe,
    Multiset.sum_coe] at sums
  exact Nat.le.intro sums.symm

variable {ι : Type*} {requests : Requests ι}

/-- There is a response just if it is small enough. -/
theorem respond_of_lt (small : responseSize requests.host ppl < 2 ^ 31)
    : requests.respond ppl = .ok (requests.framed ppl) :=
  if_pos (framedResponse_length.trans_lt small)

theorem respond_of_le (large : 2 ^ 31 ≤ responseSize requests.host ppl)
    : requests.respond ppl = .error .negativeOverflow :=
  if_neg (Nat.not_lt.mpr (large.trans_eq framedResponse_length.symm))

end Sizes

-----------------------------------------------------------------------------------------
-- What requests ask
-----------------------------------------------------------------------------------------

section Asked

variable {ι : Type*} {requests : Requests ι} {call : ι}

/-- The request's location, if it has one, and its age, if that is missing 0. -/
inductive Requests.Asks (requests : Requests ι) (call : ι) : PplMatchingParameters → Prop where
  | intro {pplmeRequest latitude longitude}
    (parsed
      : requests.parseFromArray ((requests.messages call).bodyOctets requests.host)
        = some ⟨some pplmeRequest⟩)
    (located : pplmeRequest.locationOfUser = some ⟨some latitude, some longitude⟩)
    : Requests.Asks requests call
        ⟨⟨latitude, longitude⟩, (pplmeRequest.ageOfUser.getD 0).toInt⟩

/-- Every request that has a location has a valid one, and asks for an age in the calendar. -/
def Requests.Admissible (requests : Requests ι) : Prop :=
  ∀ call parameters, requests.Asks call parameters
    → parameters.locationOfUser.isValid = true
      ∧ requests.settings.AgeInCalendar parameters.ageOfUser

/-- A search is started for just what a request asks. -/
theorem matchingParameters_eq_some_iff {parameters : PplMatchingParameters}
    : requests.matchingParameters call = some parameters ↔ requests.Asks call parameters := by
  simp only [Requests.matchingParameters, Option.bind_eq_bind, Option.bind_eq_some_iff,
    Option.pure_def, Option.some.injEq]
  constructor
  · rintro ⟨⟨_⟩, parsed, pplmeRequest, rfl, position, converted, rfl⟩
    simp only [Proto.GeoPosition.toGeoPosition, Option.bind_eq_bind, Option.bind_eq_some_iff,
      Option.pure_def, Option.some.injEq] at converted
    obtain ⟨latitude, latitudeSent, longitude, longitudeSent, rfl⟩ := converted
    refine .intro parsed ?_
    cases location : pplmeRequest.locationOfUser with
    | none => simp [location] at latitudeSent
    | some sent =>
        rw [location, Option.getD_some] at latitudeSent longitudeSent
        rw [← latitudeSent, ← longitudeSent]
  · rintro ⟨parsed, located⟩
    exact ⟨_, parsed, _, rfl, _, by rw [located]; rfl, rfl⟩

/-- A request that asks for nothing is answered with no message, whatever happens. -/
theorem handlePplmeRequest_of_not_asks {ω : Type*} {state : FindState requests.Search ω}
    (nothing : ∀ parameters, ¬ requests.Asks call parameters)
    : requests.handlePplmeRequest state call = some (.ok none) := by
  refine dif_neg fun search => ?_
  obtain ⟨parameters, asked⟩ := Option.isSome_iff_exists.mp search
  exact nothing parameters (matchingParameters_eq_some_iff.mp asked)

/-- Any other has not returned before its search has. -/
theorem handlePplmeRequest_eq_none {ω : Type*} {state : FindState requests.Search ω}
    {search : requests.Search}
    (unreturned : ∀ ppl, state.callers search ≠ .returned ppl)
    : requests.handlePplmeRequest state search.1 = none := by
  unfold Requests.handlePplmeRequest
  rw [dif_pos search.2]
  split
  · rename_i ppl returned
    exact absurd returned (unreturned ppl)
  · rfl

/-- A search is for what its request asks. -/
theorem asks_of_search (search : requests.Search)
    : requests.Asks search.1 (requests.finds.requests search) :=
  matchingParameters_eq_some_iff.mp (Option.some_get search.2).symm

/-- Admissible requests can be answered, whoever is stored. -/
theorem answerable_of_admissible {people : List Person}
    (populated : requests.settings.Populated people requests.grid) (asked : requests.Admissible)
    : requests.finds.Answerable := by
  have asked (search : requests.Search) := asked _ _ (asks_of_search search)
  choose windows representable using fun search : requests.Search =>
    GridSettings.representable_of_ageInCalendar (asked search).2
  exact answerable_of_populated populated (fun search => (asked search).1) representable

/-- A search's answer is built from what it returns. -/
theorem handlePplmeRequest_of_returned {ω : Type*} {state : FindState requests.Search ω}
    {search : requests.Search} {ppl : List Person}
    (returned : state.callers search = .returned ppl)
    : requests.handlePplmeRequest state search.1 = some ((requests.respond ppl).map some) := by
  unfold Requests.handlePplmeRequest
  rw [dif_pos search.2]
  simp only [Subtype.coe_eta, returned]

/-- Whatever else than no message a request comes to, its search has returned. -/
theorem returned_of_handlePplmeRequest {ω : Type*} {state : FindState requests.Search ω}
    {outcome : Except HandlerFault (Option Message)}
    (answered : requests.handlePplmeRequest state call = some outcome)
    (different : outcome ≠ .ok none)
    : ∃ (search : requests.Search) (ppl : List Person),
        search.1 = call
        ∧ state.callers search = .returned ppl
        ∧ (requests.respond ppl).map some = outcome := by
  unfold Requests.handlePplmeRequest at answered
  split at answered
  · rename_i search
    split at answered
    · rename_i ppl returned
      exact ⟨⟨call, search⟩, ppl, rfl, returned, Option.some.inj answered⟩
    · cases answered
  · exact absurd (Option.some.inj answered).symm different

/-- Only a search is answered with a response, of the people that it returned. -/
theorem returned_of_response {ω : Type*} {state : FindState requests.Search ω}
    {message : Message}
    (answered : requests.handlePplmeRequest state call = some (.ok (some message)))
    : ∃ (search : requests.Search) (ppl : List Person),
        search.1 = call
        ∧ state.callers search = .returned ppl
        ∧ responseSize requests.host ppl < 2 ^ 31
        ∧ requests.framed ppl = message := by
  obtain ⟨search, ppl, same, returned, outcome⟩ := returned_of_handlePplmeRequest answered nofun
  rcases Nat.lt_or_ge (responseSize requests.host ppl) (2 ^ 31) with small | large
  · rw [respond_of_lt small] at outcome
    exact ⟨search, ppl, same, returned, small, Option.some.inj (Except.ok.inj outcome)⟩
  · rw [respond_of_le large] at outcome
    cases outcome

/-- And only a search whose people take too many octets ends in an exception. -/
theorem returned_of_fault {ω : Type*} {state : FindState requests.Search ω} {fault : HandlerFault}
    (threw : requests.handlePplmeRequest state call = some (.error fault))
    : ∃ (search : requests.Search) (ppl : List Person),
        search.1 = call
        ∧ state.callers search = .returned ppl
        ∧ 2 ^ 31 ≤ responseSize requests.host ppl := by
  obtain ⟨search, ppl, same, returned, outcome⟩ := returned_of_handlePplmeRequest threw nofun
  rcases Nat.lt_or_ge (responseSize requests.host ppl) (2 ^ 31) with small | large
  · rw [respond_of_lt small] at outcome
    cases outcome
  · exact ⟨search, ppl, same, returned, large⟩

end Asked

-----------------------------------------------------------------------------------------
-- Who may be found
-----------------------------------------------------------------------------------------

/-- Who so many workers may find for a request. -/
def Requests.MayFind {ι : Type*} (requests : Requests ι) (workers : ℕ) (call : ι)
    (ppl : List Person)
    : Prop :=
  ∃ parameters,
    requests.Asks call parameters
    ∧ requests.settings.MayFind requests.grid workers parameters ppl

section Found

variable {ι ω : Type*} [DecidableEq ι] [DecidableEq ω] [Fintype ω] {requests : Requests ι}
  {people ppl : List Person} {call : ι}

omit [DecidableEq ι] in
/-- There is a search for whatever is asked. -/
theorem exists_search {parameters : PplMatchingParameters} (asked : requests.Asks call parameters)
    : ∃ search : requests.Search,
        search.1 = call ∧ requests.finds.requests search = parameters := by
  have started := matchingParameters_eq_some_iff.mpr asked
  refine ⟨⟨call, by rw [started]; rfl⟩, rfl, ?_⟩
  simp only [Requests.finds, started, Option.get_some]

/-- Whoever a search returns may be found for its request, or is nobody. -/
theorem mayFind_of_search [Nonempty ω]
    (populated : requests.settings.Populated people requests.grid)
    {state : FindState requests.Search ω} (reached : Reached (requests.finds.machine ω) state)
    {search : requests.Search} (returned : state.callers search = .returned ppl)
    : requests.MayFind (Fintype.card ω) search.1 ppl ∨ ppl = [] :=
  (mayFind_of_returned populated reached returned).imp_left fun found =>
    ⟨_, asks_of_search search, found⟩

/-- And a search can return whoever may be found. -/
theorem search_of_mayFind (populated : requests.settings.Populated people requests.grid)
    (found : requests.MayFind (Fintype.card ω) call ppl)
    : ∃ (search : requests.Search) (state : FindState requests.Search ω),
        search.1 = call
        ∧ Reached (requests.finds.machine ω) state
        ∧ state.callers search = .returned ppl := by
  obtain ⟨parameters, asked, found⟩ := found
  obtain ⟨search, same, rfl⟩ := exists_search asked
  obtain ⟨state, reached, returned⟩ := returned_of_mayFind populated found
  exact ⟨search, state, same, reached, returned⟩

end Found

section Matching

variable {ι : Type*} {requests : Requests ι} {people : List Person} {workers : ℕ} {call : ι}
  {parameters : PplMatchingParameters} {window : Date × Date}
  (populated : requests.settings.Populated people requests.grid)
  (homes : ∀ person ∈ people, person.locationOfHome.isValid = true)
  (asked : requests.Asks call parameters)
  (representable : requests.settings.Representable parameters window)

include populated homes asked representable

/-- Who may be found for a request: as many as may be of the people who match. -/
theorem matching_of_mayFind {ppl : List Person} (found : requests.MayFind workers call ppl)
    : (ppl : Multiset Person) ≤ (people.filter (InWindow window) : List Person)
      ∧ ppl.length
        = min requests.settings.maxPpl (people.filter (InWindow window)).length := by
  obtain ⟨others, askedOthers, found⟩ := found
  cases (matchingParameters_eq_some_iff.mpr askedOthers).symm.trans
    (matchingParameters_eq_some_iff.mpr asked)
  obtain ⟨found, same, among, length⟩ := found.matching populated homes
  cases Prod.ext (Option.some.inj (same.1.symm.trans representable.1))
    (Option.some.inj (same.2.symm.trans representable.2))
  exact ⟨among, length⟩

/-- Where everybody who matches may be found, their records are all that can be found. -/
theorem responseSize_of_few (valid : parameters.locationOfUser.isValid = true)
    (few : (people.filter (InWindow window)).length ≤ requests.settings.maxPpl)
    (some : 0 < workers)
    : (∃ ppl, requests.MayFind workers call ppl)
      ∧ ∀ ppl,
          requests.MayFind workers call ppl
          → responseSize requests.host ppl
            = responseSize requests.host (people.filter (InWindow window)) := by
  constructor
  · obtain ⟨ppl, found⟩ :=
      @exists_mayFind requests.settings requests.grid _ _ _ valid representable some
    exact ⟨ppl, parameters, asked, found⟩
  · intro ppl found
    obtain ⟨among, length⟩ := matching_of_mayFind populated homes asked representable found
    exact ((perm_of_matching among length few).map _).sum_eq

end Matching

-----------------------------------------------------------------------------------------
-- Requests that always end
-----------------------------------------------------------------------------------------

/-- Whatever the schedule, no check fails and nothing is thrown; while a request is being
handled some thread can move, and threads only move so often unless the system wakes them; and
a request without a valid location is ignored.
-/
structure Requests.AlwaysEnd {ι : Type*} [DecidableEq ι] (requests : Requests ι) (ω : Type*)
    [DecidableEq ω]
    : Prop where
  running : ∀ state, Reached (requests.finds.machine ω) state → state.crashed = none
  returns
    : ∀ state, Reached (requests.finds.machine ω) state
      → ∀ call fault, requests.handlePplmeRequest state call ≠ some (.error fault)
  progress
    : ∀ state, Reached (requests.finds.machine ω) state
      → (∃ call, requests.handlePplmeRequest state call = none)
      → ∃ thread, (requests.finds.machine ω).Enabled (.run thread) state
  bounded
    : ∃ steps perWakeup, ∀ schedule state,
        (requests.finds.machine ω).follow schedule (requests.finds.machine ω).start = some state
        → schedule.countP FindLabel.isRun
          ≤ steps + perWakeup * schedule.countP (fun label => !label.isRun)
  ignored
    : ∀ call,
        (∀ parameters, requests.Asks call parameters
          → parameters.locationOfUser.isValid = false)
        → ∀ state, Reached (requests.finds.machine ω) state
        → requests.handlePplmeRequest state call = some (.ok none)

section Ends

variable {ι ω : Type*} [DecidableEq ι] [DecidableEq ω] {requests : Requests ι}
  {people : List Person}

/-- A request that asks from an invalid location is not ignored: it starts a search. -/
theorem not_alwaysEnd_of_invalid {call : ι} {parameters : PplMatchingParameters}
    (asked : requests.Asks call parameters)
    (invalid : parameters.locationOfUser.isValid = false)
    : ¬ requests.AlwaysEnd ω := by
  intro ends
  have started := matchingParameters_eq_some_iff.mpr asked
  let search : requests.Search := ⟨call, by rw [started]; rfl⟩
  have same : ∀ other, requests.Asks call other → other.locationOfUser.isValid = false := by
    intro other otherAsked
    have otherStarted := matchingParameters_eq_some_iff.mpr otherAsked
    cases started.symm.trans otherStarted
    exact invalid
  have unreturned : requests.handlePplmeRequest (requests.finds.machine ω).start call = none :=
    @handlePplmeRequest_eq_none _ _ ω _ search nofun
  cases unreturned.symm.trans (ends.ignored call same _ .start)

/-- A request that asks for an age out of the calendar can end the process. -/
theorem not_alwaysEnd_of_outside {call : ι} {parameters : PplMatchingParameters} (worker : ω)
    (populated : requests.settings.Populated people requests.grid)
    (asked : requests.Asks call parameters) (valid : parameters.locationOfUser.isValid = true)
    (outside : ¬ requests.settings.AgeInCalendar parameters.ageOfUser)
    : ¬ requests.AlwaysEnd ω := by
  intro ends
  obtain ⟨search, rfl, same⟩ := exists_search asked
  obtain ⟨origin, cell, rest, fault, located, cells, failed⟩
    := @searchCell_error _ requests.finds search populated.size (same ▸ valid) (same ▸ outside)
  obtain ⟨state, reached, crashed⟩ := crash_of_unanswered worker located cells failed
  cases crashed.symm.trans (ends.running state reached)

/-- And one for which too many octets may be found can make the handler throw. -/
theorem not_alwaysEnd_of_large [Fintype ω] {call : ι} {ppl : List Person}
    (populated : requests.settings.Populated people requests.grid)
    (found : requests.MayFind (Fintype.card ω) call ppl)
    (large : 2 ^ 31 ≤ responseSize requests.host ppl)
    : ¬ requests.AlwaysEnd ω := by
  intro ends
  obtain ⟨search, state, _, reached, returned⟩ := search_of_mayFind populated found
  have threw := handlePplmeRequest_of_returned returned
  rw [respond_of_le large] at threw
  exact ends.returns state reached search.1 _ threw

/-- All other requests always end. -/
theorem alwaysEnd_of_admissible [Fintype ι] [Fintype ω] [Nonempty ω]
    (populated : requests.settings.Populated people requests.grid) (asked : requests.Admissible)
    (small
      : ∀ call ppl,
          requests.MayFind (Fintype.card ω) call ppl
          → responseSize requests.host ppl < 2 ^ 31)
    : requests.AlwaysEnd ω := by
  have answerable := answerable_of_admissible populated asked
  refine ⟨fun state reached => crashed_of_reached answerable reached, ?_, ?_, ?_, ?_⟩
  · intro state reached call fault threw
    obtain ⟨search, ppl, _, returned, large⟩ := returned_of_fault threw
    rcases mayFind_of_search populated reached returned with found | rfl
    · exact Nat.not_le.mpr (small _ ppl found) large
    · exact Nat.not_le.mpr (show 0 < 2 ^ 31 by decide) large
  · rintro state reached ⟨call, unanswered⟩
    unfold Requests.handlePplmeRequest at unanswered
    split at unanswered
    · rename_i search
      have unreturned (ppl : List Person) : state.callers ⟨call, search⟩ ≠ .returned ppl := by
        intro returned
        simp [returned] at unanswered
      exact canMove_of_reached answerable reached unreturned
    · cases unanswered
  · exact ⟨_, _, fun schedule state run => runs_le_weight answerable run⟩
  · intro call invalid state _
    refine handlePplmeRequest_of_not_asks fun parameters asks => ?_
    cases (invalid parameters asks).symm.trans (asked call parameters asks).1

/-- Whoever is stored, requests always end just if each that has a location has a valid one,
and asks for an age in the calendar, and the records of whoever may be found for it are less than
2 ^ 31 octets together.
-/
theorem handlePplmeRequest_ends_iff [Fintype ι] [Fintype ω] [Nonempty ω] {people : List Person}
    (populates : requests.settings.populate people = .ok requests.grid)
    : requests.AlwaysEnd ω
      ↔ requests.Admissible
        ∧ ∀ call ppl,
            requests.MayFind (Fintype.card ω) call ppl
            → responseSize requests.host ppl < 2 ^ 31 := by
  have populated := Settings.populated_of_populate populates
  constructor
  · refine fun ends => ⟨fun call parameters asked => ?_, fun call ppl found => ?_⟩
    · cases valid : parameters.locationOfUser.isValid with
      | false => exact absurd ends (not_alwaysEnd_of_invalid asked valid)
      | true =>
          refine ⟨rfl, Classical.not_not.mp fun outside => ?_⟩
          exact not_alwaysEnd_of_outside (Classical.arbitrary ω) populated asked valid outside ends
    · refine Nat.lt_of_not_le fun large => ?_
      exact not_alwaysEnd_of_large populated found large ends
  · exact fun ⟨admissible, small⟩ => alwaysEnd_of_admissible populated admissible small

end Ends

-----------------------------------------------------------------------------------------
-- A few requests
-----------------------------------------------------------------------------------------

/-- A request to a server that stores nobody, from the Greenwich meridian. -/
def meridianRequest (latitude : ℚ) (age : Int32) : Requests Unit where
  host := .littleEndian
  parseFromArray _ := some ⟨some ⟨some ⟨some (.finite latitude), some (.finite 0)⟩, some age⟩⟩
  floatBits _ := 0
  settings := smallSettings
  grid := smallSettings.emptyGrid
  messages _ := .ofBody .littleEndian [] 0

theorem asks_meridianRequest (latitude : ℚ) (age : Int32)
    : (meridianRequest latitude age).Asks () ⟨⟨.finite latitude, .finite 0⟩, age.toInt⟩ :=
  @Requests.Asks.intro Unit (meridianRequest latitude age) ()
    ⟨some ⟨some (.finite latitude), some (.finite 0)⟩, some age⟩ _ _ rfl rfl

/-- Nobody is found on an empty grid. -/
theorem eq_nil_of_mayFind {settings : Settings} {workers : ℕ} {parameters : PplMatchingParameters}
    {ppl : List Person} (found : settings.MayFind settings.emptyGrid workers parameters ppl)
    : ppl = [] := by
  obtain @⟨origin, window, order, _, _, _⟩ := found
  have nobody : order.flatMap (settings.matchingPpl settings.emptyGrid window) = [] :=
    List.flatMap_eq_nil_iff.mpr fun _ _ => rfl
  rw [nobody, List.take_nil]

/-- From the equator at the age of 25. -/
theorem handlePplmeRequest_ends_equator : (meridianRequest 0 25).AlwaysEnd (Fin 2) :=
  (@handlePplmeRequest_ends_iff Unit (Fin 2) _ _ (meridianRequest 0 25) _ _ _ [] rfl).mpr
    ⟨by
      rintro _ _ ⟨parsed, located⟩
      cases parsed
      cases located
      exact ⟨nullIsland_isValid, by decide⟩,
    by
      rintro call ppl ⟨parameters, _, found⟩
      cases eq_nil_of_mayFind found
      decide⟩

/-- The islander, under a name of some length. -/
def namesake (length : Nat) : Person := { islander with name := List.replicate length 97 }

/-- The request from the equator, where the islander is stored. -/
def namesakeRequest (length : Nat) : Requests Unit :=
  { meridianRequest 0 25 with
    grid :=
      match smallSettings.populate [namesake length] with
      | .ok grid => grid
      | .error _ => smallSettings.emptyGrid }

section Namesake

variable {length : Nat}

theorem namesakes_isValid
    : ∀ person ∈ [namesake length], person.locationOfHome.isValid = true :=
  fun _ member => List.mem_singleton.mp member ▸ nullIsland_isValid

theorem populate_namesake
    : smallSettings.populate [namesake length] = .ok (namesakeRequest length).grid := by
  obtain ⟨grid, populates, _⟩
    := @Settings.populate_of_isValid smallSettings _ (@namesakes_isValid length)
  simp only [namesakeRequest, populates]

theorem namesakeRequest_asks : (namesakeRequest length).Asks () islandRequest :=
  @Requests.Asks.intro Unit (namesakeRequest length) ()
    ⟨some ⟨some (.finite 0), some (.finite 0)⟩, some 25⟩ _ _ rfl rfl

theorem filter_namesake
    : [namesake length].filter (InWindow islandWindow) = [namesake length] := by
  have born : InWindow islandWindow (namesake length) :=
    show InWindow islandWindow islander by decide
  rw [List.filter_cons_of_pos (by simpa using born), List.filter_nil]

/-- The islander can be found, and nobody else. -/
theorem responseSize_namesake
    : (∃ ppl, (namesakeRequest length).MayFind 2 () ppl)
      ∧ ∀ ppl,
          (namesakeRequest length).MayFind 2 () ppl
          → responseSize .littleEndian ppl
            = Proto.recordSize .littleEndian (namesake length) := by
  have few : ([namesake length].filter (InWindow islandWindow)).length ≤ smallSettings.maxPpl := by
    rw [filter_namesake]
    exact Nat.le_succ 1
  have sizes :=
    responseSize_of_few (Settings.populated_of_populate (@populate_namesake length))
      namesakes_isValid namesakeRequest_asks islandRequest_representable nullIsland_isValid few
      Nat.two_pos
  rw [filter_namesake] at sizes
  refine sizes.imp_right fun only ppl found => (only ppl found).trans ?_
  rw [responseSize, List.map_singleton, List.sum_singleton]
  rfl

theorem namesake_length : (namesake length).name.length = length := List.length_replicate

end Namesake

/-- From the equator at the age of 1000, from beyond the pole, and where somebody with a very long
name is stored.
-/
theorem handlePplmeRequest_fails
    : ¬ (meridianRequest 0 1000).AlwaysEnd (Fin 2)
      ∧ ¬ (meridianRequest 91 25).AlwaysEnd (Fin 2)
      ∧ ¬ (namesakeRequest (2 ^ 31)).AlwaysEnd (Fin 2) := by
  refine ⟨?_, ?_, ?_⟩
  · exact not_alwaysEnd_of_outside 0 Settings.populated_emptyGrid (asks_meridianRequest 0 1000)
      nullIsland_isValid (by decide)
  · exact not_alwaysEnd_of_invalid (asks_meridianRequest 91 25) (by decide +kernel)
  · obtain ⟨⟨ppl, found⟩, sizes⟩ := @responseSize_namesake (2 ^ 31)
    have long := @Proto.lt_recordSize .littleEndian (namesake (2 ^ 31))
    rw [namesake_length, ← sizes ppl found] at long
    exact not_alwaysEnd_of_large (Settings.populated_of_populate populate_namesake) found long.le

end PplMe.Pplmed
