import PplMe.Engine.ProviderConstruction
import PplMe.Foundation.SingleFloats
import PplMe.Pplmed.Server

/-! The daemon from its command line to the point where it listens.
The flags are validated before anything else. Then a server is constructed, its provider filled
from a file or with test data, and only then are connections accepted.
-/

namespace PplMe.Pplmed

open PplMe.Core PplMe.Engine Failures Floats

-----------------------------------------------------------------------------------------
-- Flags
-----------------------------------------------------------------------------------------

/-- The values of the flags, those of the command line or else their defaults. -/
structure FlagValues where
  port : Int32 := 3333
  testDatabaseSize : Int32 := 10000000
  gridResolution : Int32 := 10
  maxPpl : Int32 := 10
  maxAgeDifference : Int32 := 10
  /-- The octets of a path. -/
  ppldata : List UInt8 := []
  deriving DecidableEq, Repr

def portValidation (value : Int32) : Bool := 0 < value && value ≤ 65535

def testDatabaseSizeValidation (value : Int32) : Bool := 0 ≤ value

def gridResolutionValidation (value : Int32) : Bool := 0 < value && value ≤ 100

def maxPplValidation (value : Int32) : Bool := 0 < value

def maxAgeDifferenceValidation (value : Int32) : Bool := 0 ≤ value

def FlagValues.isValid (values : FlagValues) : Bool :=
  portValidation values.port
  && testDatabaseSizeValidation values.testDatabaseSize
  && gridResolutionValidation values.gridResolution
  && maxPplValidation values.maxPpl
  && maxAgeDifferenceValidation values.maxAgeDifference

/-- Flags that have passed their validation. -/
structure Flags extends FlagValues where
  validated : toFlagValues.isValid = true

/-- The values go on as flags, or end the process. -/
def parseCommandLineFlags (values : FlagValues) : Option Flags :=
  if validated : values.isValid = true then some ⟨values, validated⟩ else none

/-- What the validators promise. -/
theorem FlagValues.isValid_iff {values : FlagValues}
    : values.isValid = true
      ↔ (0 < values.port ∧ values.port ≤ 65535)
        ∧ 0 ≤ values.testDatabaseSize
        ∧ (0 < values.gridResolution ∧ values.gridResolution ≤ 100)
        ∧ 0 < values.maxPpl
        ∧ 0 ≤ values.maxAgeDifference := by
  simp only [isValid, portValidation, testDatabaseSizeValidation, gridResolutionValidation,
    maxPplValidation, maxAgeDifferenceValidation, Bool.and_eq_true, decide_eq_true_eq, and_assoc]

/-- Every default passes its own validation. -/
example : FlagValues.isValid {} = true := by decide

-----------------------------------------------------------------------------------------
-- The server
-----------------------------------------------------------------------------------------

/-- What is drawn at random for a test person: days of birth from today on, and coordinates in
single precision.
-/
structure TestDraw where
  id : PersonId
  age : Int
  latitude : ℚ
  longitude : ℚ
  ageInRange : -36500 ≤ age ∧ age ≤ -6570
  latitudeInRange : -90 ≤ latitude ∧ latitude ≤ 90
  longitudeInRange : -180 ≤ longitude ∧ longitude ≤ 180
  single : (FloatValue.finite latitude).IsSingle ∧ (FloatValue.finite longitude).IsSingle

/-- The daemon's host: it knows how many processors it has, what files hold that can be opened,
and on which ports a server can listen.
-/
structure DaemonHost where
  hardwareConcurrency : UInt32
  concurrent : hardwareConcurrency ≠ 0
  rounding : Rounding
  today : Date
  /-- The local day when each of the test people is made. -/
  localDay : Nat → Date
  plusDays : Date → Int → Date
  draws : Nat → TestDraw
  readers : Readers
  opens : List UInt8 → Option (List UInt8)
  starts : UInt16 → Bool

/-- The server, with its provider's settings and grid. -/
structure Server where
  testDbSize : Int32
  ppldataFilename : List UInt8
  settings : Settings
  grid : PplGrid
  port : UInt16

/-- `boost::numeric_cast<unsigned short>`. -/
def toUnsignedShort (value : Int32) : Except ConstructionFault UInt16 :=
  if value < 0 then
    .error .negativeOverflow
  else if 65535 < value then
    .error .positiveOverflow
  else
    .ok value.toUInt32.toUInt16

section Hosts

variable (host : DaemonHost)

/-- The server's constructor. Its provider searches as many cells at a time as there are
processors.
-/
def DaemonHost.construct (flags : Flags) : Except ConstructionFault Server :=
  match constructed
    : constructProvider host.hardwareConcurrency flags.gridResolution flags.maxAgeDifference
        flags.maxPpl none with
  | .error fault => .error fault
  | .ok members =>
      let settings :=
        members.settings
          (.of_constructed constructed (FlagValues.isValid_iff.mp flags.validated).2.2.1.1
            (fun _ => host.concurrent))
          host.today host.rounding
      (toUnsignedShort flags.port).map
        (fun port =>
          { testDbSize := flags.testDatabaseSize
            ppldataFilename := flags.ppldata
            settings
            grid := settings.emptyGrid
            port })

def DaemonHost.testPerson (i : Nat) : Person where
  id := (host.draws i).id
  name := ("John Malkovich " ++ toString i).toUTF8.data.toList
  dateOfBirth := host.plusDays (host.localDay i) (host.draws i).age
  locationOfHome := ⟨.finite (host.draws i).latitude, .finite (host.draws i).longitude⟩

namespace Server

variable (server : Server)

/-- The provider with what has been added to it so far. -/
def holding (grid : PplGrid) : Server := { server with grid }

def populateTestDb : Except Fault Server :=
  ((List.range server.testDbSize.toInt.toNat).foldlM
    (fun grid i => server.settings.addPerson grid (host.testPerson i)) server.grid).map
    server.holding

/-- The slurper's `Populate` on the server's provider. A file that cannot be opened is a stream
that has failed.
-/
def slurp : Option (Except Fault (Bool × Server)) :=
  let slurped :=
    match host.opens server.ppldataFilename with
    | none =>
        populateRepoFrom host.readers server.settings.addPerson 1 ⟨[], false, true⟩ server.grid
    | some text => populateRepo host.readers server.settings.addPerson text server.grid
  slurped.map (fun slurped => slurped.map (fun (success, grid) => (success, server.holding grid)))

/-- `Go`; there is no result where the slurper does not end. -/
def go : Option (Except Fault (Bool × Server)) :=
  if server.ppldataFilename ≠ [] then
    (server.slurp host).map
      (fun slurped =>
        slurped.map (fun (success, server) => (success && host.starts server.port, server)))
  else
    some ((server.populateTestDb host).map (fun server => (host.starts server.port, server)))

end Server

/-- How far the daemon gets. -/
inductive Outcome where
  /-- The command line is refused. -/
  | refused
  | notConstructed (fault : ConstructionFault)
  /-- The process ends while its database is being filled. -/
  | terminated (fault : Fault)
  /-- The process fails and says so. -/
  | failed (errors : List String)
  /-- The server listens, until there is input. -/
  | listening (server : Server) (output : List String)

def Outcome.ofGo (flags : Flags) : Except Fault (Bool × Server) → Outcome
  | .error fault => .terminated fault
  | .ok (false, _) => .failed ["Failed to start pplMe server (check logs for details)"]
  | .ok (true, server) =>
      .listening server
        ["pplMe: Server up and running and listening on port " ++ toString flags.port.toInt,
          "[stdin to continue]"]

/-- The daemon's `main`. -/
def DaemonHost.main (values : FlagValues) : Option Outcome :=
  match parseCommandLineFlags values with
  | none => some .refused
  | some flags =>
      match host.construct flags with
      | .error fault => some (.notConstructed fault)
      | .ok server => (server.go host).map (.ofGo flags)

end Hosts

-----------------------------------------------------------------------------------------
-- Construction
-----------------------------------------------------------------------------------------

section Construction

variable (host : DaemonHost) (flags : Flags)

/-- The settings of a provider with validated flags. -/
def DaemonHost.settings : Settings where
  resolution := flags.gridResolution.toInt.toNat
  maxAgeDifference := flags.maxAgeDifference.toInt
  today := host.today
  rounding := host.rounding
  maxPpl := flags.maxPpl.toInt.toNat
  perFindConcurrency := host.hardwareConcurrency.toNat
  resolutionPositive := by
    have positive := Int32.lt_iff_toInt_lt.mp
      (FlagValues.isValid_iff.mp flags.validated).2.2.1.1
    exact Int.pos_iff_toNat_pos.mp positive
  resolutionAdmitted := by
    have admitted := Int32.le_iff_toInt_le.mp
      (FlagValues.isValid_iff.mp flags.validated).2.2.1.2
    exact Int.toNat_le.mpr admitted
  maxAgeDifferenceNonneg :=
    Int32.le_iff_toInt_le.mp (FlagValues.isValid_iff.mp flags.validated).2.2.2.2
  maxPplPositive := by
    have positive := Int32.lt_iff_toInt_lt.mp
      (FlagValues.isValid_iff.mp flags.validated).2.2.2.1
    exact Int.pos_iff_toNat_pos.mp positive
  perFindConcurrencyPositive :=
    Nat.one_le_iff_ne_zero.mpr fun zero => host.concurrent (UInt32.toNat_inj.mp zero)

/-- A valid port is the same as a short. -/
theorem toUnsignedShort_of_valid {port : Int32} (positive : 0 < port) (small : port ≤ 65535)
    : ∃ short, toUnsignedShort port = .ok short ∧ (short.toNat : Int) = port.toInt := by
  have low : ¬ port < 0 := Int32.lt_asymm positive
  have high : ¬ 65535 < port := Int32.not_lt.mpr small
  refine ⟨port.toUInt32.toUInt16, ?_, ?_⟩
  · rw [toUnsignedShort, if_neg low, if_neg high]
  · have same := toNat_toUInt32_of_nonneg (Int32.le_of_lt positive)
    have bound : port.toInt ≤ 65535 := Int32.le_iff_toInt_le.mp small
    rw [UInt32.toNat_toUInt16]
    omega

/-- Validated flags construct a server whose provider stores nobody. -/
theorem DaemonHost.construct_eq
    : ∃ port, (port.toNat : Int) = flags.port.toInt
        ∧ host.construct flags
          = .ok ⟨flags.testDatabaseSize, flags.ppldata, host.settings flags,
            (host.settings flags).emptyGrid, port⟩ := by
  obtain ⟨⟨portPositive, portSmall⟩, _, ⟨_, admitted⟩, room, apart⟩ :=
    FlagValues.isValid_iff.mp flags.validated
  obtain ⟨port, converted, same⟩ := toUnsignedShort_of_valid portPositive portSmall
  have members := (@constructProvider_eq_ok_iff host.hardwareConcurrency _ _ _ none _).mpr
    ⟨⟨room, admitted, apart, by simp⟩, rfl⟩
  refine ⟨port, same, ?_⟩
  unfold DaemonHost.construct
  split
  · rename_i failed
    cases members.symm.trans failed
  · rename_i found constructed
    obtain ⟨_, set⟩ := constructProvider_eq_ok_iff.mp constructed
    have settings (usable : found.Usable)
        : found.settings usable host.today host.rounding = host.settings flags := by
      have sameRoom := toNat_toUInt32_of_nonneg (Int32.le_of_lt room)
      simp only [ProviderMembers.settings, DaemonHost.settings, set, Settings.mk.injEq, true_and]
      exact ⟨by omega, rfl⟩
    rw [converted, settings]
    rfl

end Construction

-----------------------------------------------------------------------------------------
-- How far the daemon gets
-----------------------------------------------------------------------------------------

/-- Whom the daemon is to store, and whether its database is complete with them. -/
inductive DaemonHost.Provides (host : DaemonHost) (values : FlagValues)
    : List Person → Bool → Prop
  | testData (unnamed : values.ppldata = [])
    : host.Provides values
        ((List.range values.testDatabaseSize.toInt.toNat).map host.testPerson) true
  | unopened (named : values.ppldata ≠ []) (absent : host.opens values.ppldata = none)
    : host.Provides values [] false
  | file {text records people tail} (named : values.ppldata ≠ [])
    (opened : host.opens values.ppldata = some text)
    (read : Records host.readers tail records people text) (last : NoRecord host.readers tail)
    : host.Provides values people tail.isEmpty

/-- How a daemon ends up that was to store some people. -/
structure Outcome.IsOf (outcome : Outcome) (host : DaemonHost) (flags : Flags)
    (people : List Person) (complete : Bool)
    : Prop where
  terminated
    : (∃ fault, outcome = .terminated fault)
      ↔ ∃ person ∈ people, (host.settings flags).homeIndex person = none
  listening
    : (∃ server output, outcome = .listening server output)
      ↔ (∀ person ∈ people, (host.settings flags).homeIndex person ≠ none)
        ∧ complete = true
        ∧ ∃ port : UInt16, (port.toNat : Int) = flags.port.toInt ∧ host.starts port = true
  stored
    : ∀ server output, outcome = .listening server output
      → server.settings = host.settings flags
        ∧ server.settings.populate people = .ok server.grid
        ∧ server.settings.Populated people server.grid
        ∧ (server.port.toNat : Int) = flags.port.toInt
  failed
    : (∀ fault, outcome ≠ .terminated fault)
      → (∀ server output, outcome ≠ .listening server output)
      → outcome = .failed ["Failed to start pplMe server (check logs for details)"]

section Outcomes

variable {host : DaemonHost} {flags : Flags} {people : List Person} {complete : Bool}

theorem exists_provides (host : DaemonHost) (values : FlagValues)
    : ∃ people complete, host.Provides values people complete := by
  by_cases unnamed : values.ppldata = []
  · exact ⟨_, _, .testData unnamed⟩
  · cases opened : host.opens values.ppldata with
    | none => exact ⟨_, _, .unopened unnamed opened⟩
    | some text =>
        obtain ⟨records, people, tail, read, last⟩ := exists_records host.readers text
        exact ⟨_, _, .file unnamed opened read last⟩

/-- Test people have their homes on the map, in single precision. -/
theorem DaemonHost.Provides.testPpl (provided : host.Provides flags.toFlagValues people complete)
    (unnamed : flags.ppldata = [])
    : ∀ person ∈ people,
        person.locationOfHome.isValid = true
        ∧ person.locationOfHome.latitude.IsSingle
        ∧ person.locationOfHome.longitude.IsSingle := by
  cases provided with
  | testData _ =>
      intro person member
      obtain ⟨i, _, rfl⟩ := List.mem_map.mp member
      have valid := GeoPosition.isValid_iff.mpr
        ⟨_, _, rfl, (host.draws i).latitudeInRange, (host.draws i).longitudeInRange⟩
      exact ⟨valid, (host.draws i).single⟩
  | unopened named _ => exact absurd unnamed named
  | file named _ _ _ => exact absurd unnamed named

/-- There are as many as there should be, and nothing else. -/
theorem DaemonHost.Provides.size_testPpl
    (provided : host.Provides flags.toFlagValues people complete) (unnamed : flags.ppldata = [])
    : (people.length : Int) = flags.testDatabaseSize.toInt ∧ complete = true := by
  cases provided with
  | testData _ =>
      have nonneg := Int32.le_iff_toInt_le.mp (FlagValues.isValid_iff.mp flags.validated).2.1
      rw [List.length_map, List.length_range]
      exact ⟨Int.toNat_of_nonneg nonneg, rfl⟩
  | unopened named _ => exact absurd unnamed named
  | file named _ _ _ => exact absurd unnamed named

/-- `Go` adds those people one after the other, and only then starts to listen. -/
theorem go_eq {server : Server} (provided : host.Provides flags.toFlagValues people complete)
    (size : server.testDbSize = flags.testDatabaseSize)
    (filename : server.ppldataFilename = flags.ppldata)
    : server.go host
      = some
        ((people.foldlM server.settings.addPerson server.grid).map
          (fun grid => (complete && host.starts server.port, server.holding grid))) := by
  have composed {Loaded Result : Type} (loaded : Except Fault PplGrid) (first : PplGrid → Loaded)
      (next : Loaded → Result)
      : (loaded.map first).map next = loaded.map (fun grid => next (first grid)) := by
    cases loaded <;> rfl
  cases provided with
  | testData unnamed =>
      rw [Server.go, filename, if_neg (not_not.mpr unnamed), Server.populateTestDb, composed, size,
        List.foldlM_map]
      rfl
  | unopened named absent =>
      rw [Server.go, filename, if_pos named, Server.slurp, filename, absent]
      rfl
  | file named opened read last =>
      rw [Server.go, filename, if_pos named, Server.slurp, filename, opened]
      simp only [populateRepo_eq read last, Option.map_some, composed]
      rfl

/-- What `main` does with validated flags is up to what becomes of the additions. -/
theorem main_eq (provided : host.Provides flags.toFlagValues people complete)
    : ∃ server : Server,
        (server.port.toNat : Int) = flags.port.toInt
        ∧ server.settings = host.settings flags
        ∧ host.main flags.toFlagValues
          = some
            (.ofGo flags
              ((server.settings.populate people).map
                (fun grid => (complete && host.starts server.port, server.holding grid)))) := by
  obtain ⟨port, same, constructed⟩ := host.construct_eq flags
  have parsed : parseCommandLineFlags flags.toFlagValues = some flags := dif_pos flags.validated
  let server : Server :=
    ⟨flags.testDatabaseSize, flags.ppldata, host.settings flags,
      (host.settings flags).emptyGrid, port⟩
  have went := @go_eq host flags people complete server provided rfl rfl
  refine ⟨server, same, rfl, ?_⟩
  rw [DaemonHost.main, parsed]
  simp only [constructed]
  exact congrArg (Option.map (Outcome.ofGo flags)) went

/-- A command line is refused just if one of its values is not valid. -/
theorem main_eq_refused_iff (values : FlagValues)
    : host.main values = some .refused ↔ values.isValid = false := by
  cases valid : values.isValid with
  | false =>
      have parsed : parseCommandLineFlags values = none := dif_neg (by simp [valid])
      simp [DaemonHost.main, parsed]
  | true =>
      let flags : Flags := ⟨values, valid⟩
      obtain ⟨people, complete, provided⟩ := exists_provides host flags.toFlagValues
      obtain ⟨server, _, _, outcome⟩ := main_eq provided
      rw [outcome]
      cases server.settings.populate people with
      | error fault => simp [Outcome.ofGo, Except.map]
      | ok grid => cases complete && host.starts server.port <;> simp [Outcome.ofGo, Except.map]

/-- Somebody who cannot be placed ends the process. -/
theorem Outcome.IsOf.of_unplaced {fault : Fault}
    (unplaced : ∃ person ∈ people, (host.settings flags).homeIndex person = none)
    : (Outcome.terminated fault).IsOf host flags people complete where
  terminated := iff_of_true ⟨fault, rfl⟩ unplaced
  listening := by
    refine iff_of_false (by simp) ?_
    rintro ⟨placed, _⟩
    obtain ⟨person, member, none⟩ := unplaced
    exact placed person member none
  stored := by simp
  failed notTerminated := absurd rfl (notTerminated fault)

section Placed

variable (placed : ∀ person ∈ people, (host.settings flags).homeIndex person ≠ none)

include placed

/-- A server that does not listen fails. -/
theorem Outcome.IsOf.of_not_up {server : Server}
    (notUp
      : ¬ (complete = true
        ∧ ∃ port : UInt16, (port.toNat : Int) = flags.port.toInt ∧ host.starts port = true))
    : (Outcome.ofGo flags (.ok (false, server))).IsOf host flags people complete where
  terminated :=
    iff_of_false (by simp [Outcome.ofGo])
      (fun ⟨person, member, unplaceable⟩ => placed person member unplaceable)
  listening := iff_of_false (by simp [Outcome.ofGo]) (fun up => notUp up.2)
  stored := by simp [Outcome.ofGo]
  failed _ _ := rfl

/-- One that listens has everybody. -/
theorem Outcome.IsOf.of_up {server : Server}
    (up : complete = true ∧ host.starts server.port = true)
    (settings : server.settings = host.settings flags)
    (populates : server.settings.populate people = .ok server.grid)
    (port : (server.port.toNat : Int) = flags.port.toInt)
    : (Outcome.ofGo flags (.ok (true, server))).IsOf host flags people complete where
  terminated :=
    iff_of_false (by simp [Outcome.ofGo])
      (fun ⟨person, member, unplaceable⟩ => placed person member unplaceable)
  listening := iff_of_true ⟨server, _, rfl⟩ ⟨placed, up.1, server.port, port, up.2⟩
  stored := by
    rintro _ _ ⟨⟩
    have stored := (@Settings.populated_emptyGrid server.settings).of_foldlM populates
    exact ⟨settings, populates, stored.1, port⟩
  failed _ notListening := absurd rfl (notListening server _)

end Placed

/-- What becomes of the daemon is what becomes of its additions, and then of `Start`. -/
theorem main_isOf (provided : host.Provides flags.toFlagValues people complete)
    : ∃ outcome,
        host.main flags.toFlagValues = some outcome
        ∧ outcome.IsOf host flags people complete := by
  obtain ⟨server, port, settings, outcome⟩ := main_eq provided
  refine ⟨_, outcome, ?_⟩
  have empty := @Settings.populated_emptyGrid server.settings
  cases populates : server.settings.populate people with
  | error fault =>
      apply Outcome.IsOf.of_unplaced
      by_contra none
      obtain ⟨grid, run⟩ :=
        (@Settings.Populated.foldlM_isOk_iff _ _ _ people empty).mpr fun person member =>
          Option.isSome_iff_ne_none.mpr fun unplaceable =>
            none ⟨person, member, settings ▸ unplaceable⟩
      cases populates.symm.trans run
  | ok grid =>
      have placed : ∀ person ∈ people, (host.settings flags).homeIndex person ≠ none := by
        intro person member none
        have home := (empty.of_foldlM populates).2 person member
        rw [settings, none] at home
        cases home
      cases up : complete && host.starts server.port with
      | true =>
          rw [Bool.and_eq_true] at up
          exact @Outcome.IsOf.of_up _ _ _ _ placed (server.holding grid) up settings populates port
      | false =>
          apply Outcome.IsOf.of_not_up placed
          rintro ⟨whole, other, same, starts⟩
          have unique : other = server.port := UInt16.toNat_inj.mp (by omega)
          simp [whole, ← unique, starts] at up

/-- With validated flags the daemon ends up in one of three ways. Its process is terminated just
if the home of somebody whom it is to store cannot be quantized. It listens just if everybody was
stored, the database is complete and the server starts; then its provider stores exactly
everybody. Otherwise it fails. Test people are never a reason not to listen.
-/
theorem main_outcome (host : DaemonHost) (flags : Flags)
    : ∃ people complete outcome,
        host.Provides flags.toFlagValues people complete
        ∧ host.main flags.toFlagValues = some outcome
        ∧ outcome.IsOf host flags people complete
        ∧ (flags.ppldata = []
          → (people.length : Int) = flags.testDatabaseSize.toInt
            ∧ ((∃ server output, outcome = .listening server output)
              ↔ ∃ port : UInt16,
                  (port.toNat : Int) = flags.port.toInt ∧ host.starts port = true)) := by
  obtain ⟨people, complete, provided⟩ := exists_provides host flags.toFlagValues
  obtain ⟨outcome, ran, isOf⟩ := main_isOf provided
  refine ⟨people, complete, outcome, provided, ran, isOf, fun unnamed => ?_⟩
  have placed : ∀ person ∈ people, (host.settings flags).homeIndex person ≠ none := by
    intro person member
    obtain ⟨_, _, _, _, _, home⟩ :=
      (host.settings flags).homeIndex_of_isValid (provided.testPpl unnamed person member).1
    exact Option.ne_none_iff_exists'.mpr ⟨_, home⟩
  obtain ⟨length, whole⟩ := provided.size_testPpl unnamed
  refine ⟨length, isOf.listening.trans ⟨fun up => up.2.2, fun starts => ⟨placed, whole, starts⟩⟩⟩

end Outcomes

end PplMe.Pplmed
