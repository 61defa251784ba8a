import PplMe.Proto.Messages
import PplMe.Foundation.Protobuf

/-! What the response's messages are on the wire, and how many octets that is. -/

namespace PplMe.Proto

open Floats Octets Protobuf

section Serialization

variable (floatBits : FloatValue → UInt32)

def Date.serialize (date : Date) : List UInt8 :=
  optionalField (fun ymd : UInt32 => varintField 1 ymd.toNat) date.ymd

/-- `floatBits` are the bits of a single-precision float. -/
def GeoPosition.serialize (position : GeoPosition) : List UInt8 :=
  optionalField (fun latitude => fixed32Field 1 (floatBits latitude)) position.latitude
  ++ optionalField (fun longitude => fixed32Field 2 (floatBits longitude)) position.longitude

def Uuid.serialize (uuid : Uuid) : List UInt8 :=
  optionalField (lengthDelimitedField 1) uuid.octets

def Person.serialize (person : Person) : List UInt8 :=
  optionalField (fun id => lengthDelimitedField 1 id.serialize) person.id
  ++ (optionalField (lengthDelimitedField 2) person.name
  ++ (optionalField (fun date => lengthDelimitedField 3 date.serialize) person.dateOfBirth
  ++ optionalField (fun home => lengthDelimitedField 4 (home.serialize floatBits))
    person.locationOfHome))

def PplmeResponse.serialize (response : PplmeResponse) : List UInt8 :=
  repeatedField (fun person => lengthDelimitedField 1 (person.serialize floatBits)) response.ppl

end Serialization

section Sizes

variable (host : ByteOrder)

/-- How many octets a date's word takes, which depends on its order on the host. -/
def dateSize (date : Core.Date) : Nat := varintSize (host.htonl (packYmd date)).toNat

/-- How many octets a person is: all but the date and the name always take as many. -/
def personSize (person : Core.Person) : Nat :=
  36 + dateSize host person.dateOfBirth + varintSize person.name.length + person.name.length

/-- How many octets a person takes in a response. -/
def recordSize (person : Core.Person) : Nat :=
  1 + (varintSize (personSize host person) + personSize host person)

variable {host} (floatBits : FloatValue → UInt32)

theorem Date.serialize_length (date : Core.Date)
    : (Date.ofDate host date).serialize.length = 1 + dateSize host date :=
  varintField_length (by decide)

theorem GeoPosition.serialize_length (position : Core.GeoPosition)
    : ((GeoPosition.ofGeoPosition position).serialize floatBits).length = 10 := by
  rw [GeoPosition.serialize, List.length_append]
  simp only [GeoPosition.ofGeoPosition, optionalField_some]
  rw [fixed32Field_length (by decide), fixed32Field_length (by decide)]

theorem Uuid.serialize_length (uuid : Core.PersonId)
    : (Uuid.ofUuid uuid).serialize.length = 18 := by
  have octets : uuid.toList.length = 16 := by simp
  simp only [Uuid.serialize, Uuid.ofUuid, optionalField_some]
  rw [lengthDelimitedField_length (by decide), octets, varintSize_of_lt (by decide)]

/-- A word's varint is at most five octets. -/
theorem dateSize_le (date : Core.Date) : dateSize host date ≤ 5 :=
  varintSize_le (by decide) (Nat.lt_trans (host.htonl (packYmd date)).toNat_lt (by decide))

/-- A record is longer than the name, by a few octets. -/
theorem lt_recordSize {person : Core.Person} : person.name.length < recordSize host person := by
  rw [recordSize, personSize]
  omega

theorem recordSize_le {person : Core.Person} (short : person.name.length < 128 ^ 3)
    : recordSize host person ≤ person.name.length + 50 := by
  have date := @dateSize_le host person.dateOfBirth
  have digits : varintSize person.name.length ≤ 3 := varintSize_le (by decide) short
  have size : personSize host person ≤ person.name.length + 44 := by
    rw [personSize]
    omega
  have more : varintSize (personSize host person) ≤ 4 := varintSize_le (by decide) (by omega)
  rw [recordSize]
  omega

theorem Person.serialize_length (person : Core.Person)
    : ((Person.ofPerson host person).serialize floatBits).length = personSize host person := by
  have date : 1 + dateSize host person.dateOfBirth < 128 := by
    have := @dateSize_le host person.dateOfBirth
    omega
  simp only [Person.serialize, Person.ofPerson, optionalField_some, List.length_append]
  rw [lengthDelimitedField_length (by decide), lengthDelimitedField_length (by decide),
    lengthDelimitedField_length (by decide), lengthDelimitedField_length (by decide),
    Uuid.serialize_length, Date.serialize_length, GeoPosition.serialize_length,
    varintSize_of_lt (show 18 < 128 by decide), varintSize_of_lt (show 10 < 128 by decide),
    varintSize_of_lt date, personSize]
  omega

/-- A response is its records, one after the other. -/
theorem PplmeResponse.serialize_length (ppl : List Core.Person)
    : ((PplmeResponse.mk (ppl.map (Person.ofPerson host))).serialize floatBits).length
      = (ppl.map (recordSize host)).sum := by
  rw [PplmeResponse.serialize, repeatedField_length, List.map_map]
  congr 1
  refine List.map_congr_left fun person _ => ?_
  rw [Function.comp_apply, lengthDelimitedField_length (by decide), Person.serialize_length,
    recordSize]

end Sizes

end PplMe.Proto
