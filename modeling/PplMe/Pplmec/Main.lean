import PplMe.Foundation.Narrowing
import PplMe.Pplmec.PplmeRuns
import PplMe.Pplmed.Main

/-! The client from its command line, and together with a daemon.
What the two command lines are validated for is what the requests between them need, but for the
ages.
-/

namespace PplMe.Pplmec

open PplMe.Core PplMe.Engine PplMe.Net PplMe.Pplmed Floats

-----------------------------------------------------------------------------------------
-- Flags
-----------------------------------------------------------------------------------------

/-- The values of the flags, those of the command line or else their defaults. Coordinates are in
double precision.
-/
structure ClientFlagValues where
  server : String := "localhost"
  port : Int32 := 3333
  latitude : FloatValue := .finite 91
  longitude : FloatValue := .finite (-181)
  age : Int32 := -1
  deriving DecidableEq, Repr

def serverValidation (value : String) : Bool := !value.isEmpty

def portValidation (value : Int32) : Bool := 0 < value && value ≤ 65535

def latitudeValidation (value : FloatValue) : Bool := value.ge (-90) && value.le 90

def longitudeValidation (value : FloatValue) : Bool := value.ge (-180) && value.le 180

def ageValidation (age : Int32) : Bool := 0 ≤ age

def ClientFlagValues.isValid (values : ClientFlagValues) : Bool :=
  serverValidation values.server
  && portValidation values.port
  && latitudeValidation values.latitude
  && longitudeValidation values.longitude
  && ageValidation values.age

/-- Flags that have passed their validation. -/
structure ClientFlags extends ClientFlagValues where
  validated : toClientFlagValues.isValid = true

/-- The values go on as flags, or end the process. -/
def parseCommandLineFlags (values : ClientFlagValues) : Option ClientFlags :=
  if validated : values.isValid = true then some ⟨values, validated⟩ else none

/-- The user's place and age have no defaults that are valid. -/
example : latitudeValidation ({} : ClientFlagValues).latitude = false
    ∧ longitudeValidation ({} : ClientFlagValues).longitude = false
    ∧ ageValidation ({} : ClientFlagValues).age = false := by
  decide +kernel

/-- The arguments of `Pplme`: the port is converted to a short, the coordinates to single
precision.
-/
def ClientFlags.arguments (flags : ClientFlags) (narrowing : Narrowing) : Arguments where
  pplmeServerAddress := flags.server
  pplmeServerPort := flags.port.toUInt32.toUInt16
  usersLatitude := flags.latitude.narrowed narrowing
  usersLongitude := flags.longitude.narrowed narrowing
  usersAge := flags.age

inductive ExitStatus where
  | success
  | failure
  deriving DecidableEq, Repr

/-- The client's `main`, from where it has tried to connect; there is no program where the command
line is refused.
-/
def Host.main (host : Host) (narrowing : Narrowing) (values : ClientFlagValues)
    (connected : Bool)
    : Option (Program (Report × ExitStatus)) :=
  (parseCommandLineFlags values).map
    (fun flags =>
      (fun report => (report, if report.succeeded then .success else .failure))
      <$> host.pplme (flags.arguments narrowing) connected)

section Narrowed

variable {narrowing : Narrowing} {coordinate : FloatValue} {bound : ℤ}

/-- A coordinate on the map stays there when it is narrowed. -/
theorem narrowed_of_mem (single : (FloatValue.finite bound).IsSingle)
    (notBelow : coordinate.ge (-bound) = true) (notAbove : coordinate.le bound = true)
    : (coordinate.narrowed narrowing).IsSingle
      ∧ (coordinate.narrowed narrowing).ge (-bound) = true
      ∧ (coordinate.narrowed narrowing).le bound = true := by
  cases coordinate with
  | notANumber => cases notBelow
  | infinity negative =>
      cases negative with
      | true => cases notBelow
      | false => cases notAbove
  | finite value =>
      have low : -(bound : ℚ) ≤ value := by simpa [FloatValue.ge] using notBelow
      have high : value ≤ bound := of_decide_eq_true notAbove
      obtain ⟨narrow, low, high⟩ := narrowing.adjacent (isSingle_neg single) single low high
      exact ⟨narrow, by simpa [FloatValue.narrowed, FloatValue.ge] using low, decide_eq_true high⟩

end Narrowed

section Validated

variable (flags : ClientFlags) (narrowing : Narrowing)

/-- A user who is let through is on the map, in single precision. -/
theorem ClientFlags.user
    : ((flags.arguments narrowing).usersLatitude.IsSingle
        ∧ (flags.arguments narrowing).usersLongitude.IsSingle)
      ∧ (flags.arguments narrowing).matchingParameters.locationOfUser.isValid = true := by
  have validated := flags.validated
  simp only [ClientFlagValues.isValid, latitudeValidation, longitudeValidation,
    Bool.and_eq_true] at validated
  obtain ⟨⟨⟨_, latitude⟩, longitude⟩, _⟩ := validated
  have ninety : (FloatValue.finite (90 : ℤ)).IsSingle := ⟨0x42b40000, by decide +kernel⟩
  have straight : (FloatValue.finite (180 : ℤ)).IsSingle := ⟨0x43340000, by decide +kernel⟩
  obtain ⟨latitudeSingle, south, north⟩ :=
    @narrowed_of_mem narrowing _ _ ninety latitude.1 latitude.2
  obtain ⟨longitudeSingle, west, east⟩ :=
    @narrowed_of_mem narrowing _ _ straight longitude.1 longitude.2
  refine ⟨⟨latitudeSingle, longitudeSingle⟩, ?_⟩
  simp only [GeoPosition.isValid, Bool.and_eq_true]
  exact ⟨⟨⟨south, north⟩, west⟩, east⟩

end Validated

-----------------------------------------------------------------------------------------
-- Two command lines
-----------------------------------------------------------------------------------------

/-- Clients with validated flags whose requests a server handles. -/
structure Served {ι : Type*} (parsers : Proto.Parsers) (narrowing : Narrowing)
    (hosts : ι → Host) (flags : ι → ClientFlags) (server : Server) (requests : Requests ι)
    : Prop where
  requestParser : requests.parseFromArray = parsers.request
  responseParser : ∀ call, (hosts call).parseFromArray = parsers.response
  floatBits : requests.floatBits = FloatValue.bits
  settings : requests.settings = server.settings
  grid : requests.grid = server.grid
  asked
    : ∀ call,
        requests.messages call
        = (((flags call).arguments narrowing).request (hosts call).byteOrder).onHost
            (hosts call).byteOrder requests.host

section Commands

variable {ι : Type*} {parsers : Proto.Parsers} {narrowing : Narrowing} {hosts : ι → Host}
  {flags : ι → ClientFlags} {server : Server} {requests : Requests ι}

/-- What a client's request asks for is what its user asks for. -/
theorem Served.asks (served : Served parsers narrowing hosts flags server requests) (call : ι)
    : requests.Asks call ((flags call).arguments narrowing).matchingParameters :=
  asks_request served.requestParser ((flags call).user narrowing).1 (served.asked call)

/-- So the requests are admissible just if the ages are in the calendar. -/
theorem Served.admissible_iff (served : Served parsers narrowing hosts flags server requests)
    : requests.Admissible ↔ ∀ call, server.settings.AgeInCalendar (flags call).age.toInt := by
  rw [← served.settings]
  constructor
  · intro admissible call
    exact (admissible call _ (served.asks call)).2
  · intro ages call parameters asks
    cases (matchingParameters_eq_some_iff.mpr asks).symm.trans
      (matchingParameters_eq_some_iff.mpr (served.asks call))
    exact ⟨((flags call).user narrowing).2, ages call⟩

/-- Where a daemon listens and clients are let through, all requests end whatever the schedule,
just if all users' ages are in the calendar around the daemon's day, and the records of whoever may
be found for them are less than 2 ^ 31 octets together. With such ages everything that answers
rest on is given as well, if those who are stored live on the map.
-/
theorem commandLines_deploy {ω : Type*} [DecidableEq ι] [DecidableEq ω] [Fintype ι] [Fintype ω]
    [Nonempty ω] {daemon : DaemonHost} {daemonFlags : Flags} {people : List Person}
    {complete : Bool} {output : List String}
    (provided : daemon.Provides daemonFlags.toFlagValues people complete)
    (listening : daemon.main daemonFlags.toFlagValues = some (.listening server output))
    (served : Served parsers narrowing hosts flags server requests)
    : (requests.AlwaysEnd ω
        ↔ (∀ call, (daemon.settings daemonFlags).AgeInCalendar (flags call).age.toInt)
          ∧ ∀ call ppl,
              requests.MayFind (Fintype.card ω) call ppl
              → responseSize requests.host ppl < 2 ^ 31)
      ∧ ((∀ person ∈ people,
            person.locationOfHome.isValid = true
            ∧ person.locationOfHome.latitude.IsSingle
            ∧ person.locationOfHome.longitude.IsSingle)
        → (∀ call, (daemon.settings daemonFlags).AgeInCalendar (flags call).age.toInt)
        → ∀ call,
            Deployed parsers (hosts call) ((flags call).arguments narrowing) requests people
              call) := by
  obtain ⟨outcome, ran, isOf⟩ := main_isOf provided
  obtain rfl : outcome = .listening server output :=
    Option.some.inj (ran.symm.trans listening)
  obtain ⟨settings, populates, _, _⟩ := isOf.stored server output rfl
  have stored : requests.settings.populate people = .ok requests.grid := by
    rw [served.settings, served.grid, populates]
  have populated := Settings.populated_of_populate stored
  rw [← settings]
  refine ⟨⟨fun ends => ⟨fun call => ?_, fun call ppl found => ?_⟩, ?_⟩, fun onMap ages call => ?_⟩
  · by_contra outside
    rw [← served.settings] at outside
    exact not_alwaysEnd_of_outside (Classical.arbitrary ω) populated (served.asks call)
      ((flags call).user narrowing).2 outside ends
  · refine Nat.lt_of_not_le fun large => ?_
    exact not_alwaysEnd_of_large populated found large ends
  · rintro ⟨ages, small⟩
    exact alwaysEnd_of_admissible populated (served.admissible_iff.mpr ages) small
  · exact
      { requestParser := served.requestParser
        responseParser := served.responseParser call
        floatBits := served.floatBits
        populates := stored
        homes := fun person member => (onMap person member).1
        single := fun person member => (onMap person member).2
        user := ((flags call).user narrowing).1
        asked := served.asked call
        admissible := served.admissible_iff.mpr ages }

end Commands

/-- A daemon whose test people are from the island, and that can listen on every port. -/
def islandDaemon : DaemonHost where
  hardwareConcurrency := 1
  concurrent := by decide
  rounding := .exact
  today := smallSettings.today
  localDay _ := smallSettings.today
  plusDays day _ := day
  draws _ :=
    { id := islander.id
      age := -10000
      latitude := 0
      longitude := 0
      ageInRange := by decide
      latitudeInRange := by constructor <;> norm_num
      longitudeInRange := by constructor <;> norm_num
      single := ⟨isSingle_zero, isSingle_zero⟩ }
  readers := sampleReaders
  opens _ := none
  starts _ := true

/-- One test person, and all other flags by default. -/
def islandDaemonFlags : Flags := ⟨{ testDatabaseSize := 1 }, by decide⟩

def islandFlags : ClientFlags :=
  ⟨{ latitude := .finite 0, longitude := .finite 0, age := 25 }, by decide +kernel⟩

/-- The request of the user's client, on the daemon's server. -/
def islandRequests (server : Server) : Requests Unit where
  host := .bigEndian
  parseFromArray := Proto.Parsers.readers.request
  floatBits := FloatValue.bits
  settings := server.settings
  grid := server.grid
  messages _ :=
    ((islandFlags.arguments .towardZero).request .littleEndian).onHost .littleEndian .bigEndian

theorem islandDaemon_provides
    : islandDaemon.Provides islandDaemonFlags.toFlagValues [islandDaemon.testPerson 0] true :=
  .testData rfl

theorem islandDaemon_listens
    : ∃ server output,
        islandDaemon.main islandDaemonFlags.toFlagValues = some (.listening server output) := by
  obtain ⟨outcome, ran, isOf⟩ := main_isOf islandDaemon_provides
  obtain ⟨server, output, rfl⟩ :=
    isOf.listening.mpr ⟨by decide +kernel, rfl, 3333, by decide, rfl⟩
  exact ⟨server, output, ran⟩

/-- From the daemon's test data and the user's flags, all is given that an answer needs, and the
requests always end.
-/
theorem commandLines_deploy_islander
    : ∃ server output,
        islandDaemon.main islandDaemonFlags.toFlagValues = some (.listening server output)
        ∧ (islandRequests server).AlwaysEnd (Fin 2)
        ∧ Deployed .readers islandHost (islandFlags.arguments .towardZero)
            (islandRequests server) [islandDaemon.testPerson 0] () := by
  obtain ⟨server, output, listening⟩ := islandDaemon_listens
  have served : Served .readers .towardZero (fun _ : Unit => islandHost)
      (fun _ => islandFlags) server (islandRequests server) :=
    ⟨rfl, fun _ => rfl, rfl, rfl, rfl, fun _ => rfl⟩
  have ages : ∀ call : Unit,
      (islandDaemon.settings islandDaemonFlags).AgeInCalendar islandFlags.age.toInt :=
    fun _ => by decide +kernel
  obtain ⟨ends, deploys⟩ :=
    @commandLines_deploy Unit _ _ _ _ server _ (Fin 2) _ _ _ _ _ _ _ _ _ _
      islandDaemon_provides listening served
  have deployed := deploys (islandDaemon_provides.testPpl rfl) ages ()
  have small : responseSize .bigEndian [islandDaemon.testPerson 0] < 2 ^ 31 := by decide +kernel
  exact ⟨server, output, listening,
    ends.mpr ⟨ages, fun _ _ found => (deployed.responseSize_le found).trans_lt small⟩, deployed⟩

end PplMe.Pplmec
