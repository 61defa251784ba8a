import PplMe.Proto.ConvertDate

/-! People as messages: three conversions within one.
A person is read from a message only if every part of it can be, and is written to the target
in one assignment at the end.
-/

namespace PplMe.Proto

open Conversions Floats Octets

-----------------------------------------------------------------------------------------
-- Ids
-----------------------------------------------------------------------------------------

/-- `Convert(Uuid const&, uuid*)`, which copies sixteen octets and no others. -/
def Uuid.convert (message : Uuid) (target : Core.PersonId) : Bool × Core.PersonId :=
  match message.octets with
  | none => (false, target)
  | some octets =>
      if size : octets.length = 16 then
        (true, ⟨octets.toArray, size⟩)
      else
        (false, target)

/-- A message with octets, of which there are sixteen. -/
def Uuid.Convertible (message : Uuid) : Prop :=
  ∃ octets, message.octets = some octets ∧ octets.length = 16

theorem convertUuid_inverts
    : Inverts Uuid.convert Uuid.ofUuid (id : Core.PersonId → Core.PersonId)
        Uuid.Convertible where
  reads uuid target := by
    have size : uuid.toList.length = 16 := uuid.length_toList
    simp only [Uuid.convert, Uuid.ofUuid, dif_pos size]
    rfl
  refuses message target refused := by
    obtain ⟨octets⟩ := message
    cases octets with
    | none => rfl
    | some octets => exact dif_neg (fun size => refused ⟨octets, rfl, size⟩)
  encoded message := by
    obtain ⟨octets⟩ := message
    constructor
    · rintro ⟨octets, rfl, size⟩
      exact ⟨⟨octets.toArray, size⟩, rfl⟩
    · rintro ⟨uuid, same⟩
      cases same
      exact ⟨_, rfl, uuid.length_toList⟩

-----------------------------------------------------------------------------------------
-- Positions
-----------------------------------------------------------------------------------------

/-- `Convert(GeoPosition const&, core::GeoPosition*)`. -/
def GeoPosition.convert (message : GeoPosition) (target : Core.GeoPosition)
    : Bool × Core.GeoPosition :=
  match message.latitude with
  | none => (false, target)
  | some latitude =>
      match message.longitude with
      | none => (false, target)
      | some longitude => (true, ⟨latitude, longitude⟩)

/-- A message with both coordinates, whatever they are. -/
def GeoPosition.Convertible (message : GeoPosition) : Prop :=
  message.latitude.isSome = true ∧ message.longitude.isSome = true

theorem convertGeoPosition_inverts
    : Inverts GeoPosition.convert GeoPosition.ofGeoPosition
        (id : Core.GeoPosition → Core.GeoPosition) GeoPosition.Convertible where
  reads position target := rfl
  refuses message target refused := by
    obtain ⟨latitude, longitude⟩ := message
    cases latitude with
    | none => rfl
    | some latitude =>
        cases longitude with
        | none => rfl
        | some longitude => exact absurd ⟨rfl, rfl⟩ refused
  encoded message := by
    obtain ⟨latitude, longitude⟩ := message
    constructor
    · rintro ⟨hasLatitude, hasLongitude⟩
      obtain ⟨latitude, rfl⟩ := Option.isSome_iff_exists.mp hasLatitude
      obtain ⟨longitude, rfl⟩ := Option.isSome_iff_exists.mp hasLongitude
      exact ⟨⟨latitude, longitude⟩, rfl⟩
    · rintro ⟨position, same⟩
      cases same
      exact ⟨rfl, rfl⟩

/-- The server's view of the same conversion, for which its target is fresh. -/
theorem convertGeoPosition_eq (message : GeoPosition) (target : Core.GeoPosition)
    : message.convert target
      = match message.toGeoPosition with
        | some position => (true, position)
        | none => (false, target) := by
  obtain ⟨latitude, longitude⟩ := message
  cases latitude with
  | none => rfl
  | some latitude =>
      cases longitude with
      | none => rfl
      | some longitude => rfl

-----------------------------------------------------------------------------------------
-- People
-----------------------------------------------------------------------------------------

/-- A person variable, whose date may be the not-a-date-time that it holds at first. -/
structure PersonVariable where
  id : Core.PersonId
  name : List UInt8
  dateOfBirth : DateVariable
  locationOfHome : Core.GeoPosition
  deriving DecidableEq, Repr

namespace PersonVariable

/-- `Person()`. -/
def invalid : PersonVariable := ⟨.replicate 16 0, [], none, ⟨.finite 0, .finite 0⟩⟩

def ofPerson (person : Core.Person) : PersonVariable :=
  ⟨person.id, person.name, some person.dateOfBirth, person.locationOfHome⟩

/-- The person in a variable that has a date. -/
def get (written : PersonVariable) (dated : written.dateOfBirth.isSome = true) : Core.Person :=
  ⟨written.id, written.name, written.dateOfBirth.get dated, written.locationOfHome⟩

end PersonVariable

/-- `Convert(Person const&, core::Person*)`. Its own id variable is not initialized and may hold
anything at first.
-/
def Person.convert (host : ByteOrder) (uninitialized : Core.PersonId) (message : Person)
    (target : PersonVariable)
    : Bool × PersonVariable :=
  match message.id, message.name, message.dateOfBirth, message.locationOfHome with
  | some id, some name, some dateOfBirth, some locationOfHome =>
      match id.convert uninitialized with
      | (false, _) => (false, target)
      | (true, id) =>
          match dateOfBirth.convert host none with
          | (false, _) => (false, target)
          | (true, dob) =>
              match locationOfHome.convert ⟨.finite 0, .finite 0⟩ with
              | (false, _) => (false, target)
              | (true, home) => (true, ⟨id, name, dob, home⟩)
  | _, _, _, _ => (false, target)

/-- A message with all four fields, the nested ones convertible themselves. -/
structure Person.Convertible (host : ByteOrder) (message : Person) : Prop where
  id : ∃ id, message.id = some id ∧ id.Convertible
  name : message.name.isSome = true
  dateOfBirth : ∃ date, message.dateOfBirth = some date ∧ date.Convertible host
  locationOfHome : ∃ home, message.locationOfHome = some home ∧ home.Convertible

/-- The conversion from messages undoes the conversion to them, as those of the parts do. -/
theorem convertPerson_inverts (host : ByteOrder) (uninitialized : Core.PersonId)
    : Inverts (Person.convert host uninitialized) (Person.ofPerson host)
        PersonVariable.ofPerson (Person.Convertible host) where
  reads person target := by
    simp only [Person.convert, Person.ofPerson, convertUuid_inverts.reads,
      (convertDate_inverts host).reads, convertGeoPosition_inverts.reads]
    rfl
  refuses message target refused := by
    obtain ⟨id, name, dateOfBirth, locationOfHome⟩ := message
    simp only [Person.convert]
    split
    · rename_i id name dateOfBirth locationOfHome
      split
      · rfl
      · rename_i uuid readId
        split
        · rfl
        · rename_i dob readDate
          have isUuid := (convertUuid_inverts.succeeds_iff id uninitialized).mp
            (congrArg Prod.fst readId)
          have isDate := ((convertDate_inverts host).succeeds_iff dateOfBirth none).mp
            (congrArg Prod.fst readDate)
          have notHome (isHome : locationOfHome.Convertible) : False :=
            refused ⟨⟨_, rfl, isUuid⟩, rfl, ⟨_, rfl, isDate⟩, ⟨_, rfl, isHome⟩⟩
          rw [convertGeoPosition_inverts.refuses _ _ notHome]
    · rfl
  encoded message := by
    obtain ⟨id, name, dateOfBirth, locationOfHome⟩ := message
    constructor
    · rintro ⟨⟨_, rfl, hasId⟩, hasName, ⟨_, rfl, hasDate⟩, ⟨_, rfl, hasHome⟩⟩
      obtain ⟨name, rfl⟩ := Option.isSome_iff_exists.mp hasName
      obtain ⟨uuid, rfl⟩ := (convertUuid_inverts.encoded _).mp hasId
      obtain ⟨date, rfl⟩ := ((convertDate_inverts host).encoded _).mp hasDate
      obtain ⟨home, rfl⟩ := (convertGeoPosition_inverts.encoded _).mp hasHome
      exact ⟨⟨uuid, name, date, home⟩, rfl⟩
    · rintro ⟨person, same⟩
      cases same
      exact ⟨⟨_, rfl, (convertUuid_inverts.encoded _).mpr ⟨_, rfl⟩⟩, rfl,
        ⟨_, rfl, ((convertDate_inverts host).encoded _).mpr ⟨_, rfl⟩⟩,
        ⟨_, rfl, (convertGeoPosition_inverts.encoded _).mpr ⟨_, rfl⟩⟩⟩

/-- A person variable that was written to has a date. -/
theorem isSome_of_convertPerson {host : ByteOrder} {uninitialized : Core.PersonId}
    {message : Person} {target written : PersonVariable}
    (converted : message.convert host uninitialized target = (true, written))
    : written.dateOfBirth.isSome = true := by
  obtain ⟨person, read, _⟩ :=
    (convertPerson_inverts host uninitialized).encode_of_succeeds (congrArg Prod.fst converted)
  cases read.symm.trans converted
  rfl

/-- People survive the conversion to messages and back, and messages the conversion to people
and back where it succeeds: exactly where all fields are there and denote something. Where it
fails it leaves its target alone, whatever that holds.
-/
theorem convertPerson_roundtrip (host : ByteOrder) (uninitialized : Core.PersonId)
    : (∀ (people : List Core.Person) (target : PersonVariable),
        people.map
          (fun person => (Person.ofPerson host person).convert host uninitialized target)
        = people.map (fun person => (true, .ofPerson person)))
      ∧ ∀ (message : Person) (target : PersonVariable),
          ((message.convert host uninitialized target).1 = true ↔ message.Convertible host)
          ∧ ((message.convert host uninitialized target).1 = true
            → ∃ person,
                (message.convert host uninitialized target).2 = .ofPerson person
                ∧ Person.ofPerson host person = message)
          ∧ ((message.convert host uninitialized target).1 = false
            → (message.convert host uninitialized target).2 = target) := by
  have inverts := convertPerson_inverts host uninitialized
  refine ⟨fun people target => ?_, fun message target => ⟨inverts.succeeds_iff message target,
    fun succeeded => ?_, inverts.target_of_fails⟩⟩
  · exact List.map_congr_left (fun person _ => inverts.reads person target)
  · obtain ⟨person, read, encodes⟩ := inverts.encode_of_succeeds succeeded
    exact ⟨person, congrArg Prod.snd read, encodes⟩

end PplMe.Proto
