import PplMe.Core.Person
import PplMe.Foundation.Octets
import Mathlib.Data.Option.Basic

/-! The protobuf messages, as the generated classes hold them: a field that was not set reads
as its default. Conversions are between the messages and the domain types.
-/

namespace PplMe.Proto

open Floats Octets

structure Date where
  ymd : Option UInt32 := none
  deriving DecidableEq

structure GeoPosition where
  latitude : Option FloatValue := none
  longitude : Option FloatValue := none
  deriving DecidableEq

structure Uuid where
  octets : Option (List UInt8) := none
  deriving DecidableEq

structure Person where
  id : Option Uuid := none
  name : Option (List UInt8) := none
  dateOfBirth : Option Date := none
  locationOfHome : Option GeoPosition := none
  deriving DecidableEq

structure PplmeRequest where
  locationOfUser : Option GeoPosition := none
  ageOfUser : Option Int32 := none
  deriving DecidableEq

structure PplmeResponse where
  ppl : List Person := []
  deriving DecidableEq

structure Request where
  pplmeRequest : Option PplmeRequest := none
  deriving DecidableEq

/-- Year, month and day in one word, from its most significant bits on. -/
def packYmd (date : Core.Date) : UInt32 :=
  let ymd := UInt32.ofNat date.year <<< 16
  let ymd := ymd + UInt32.ofNat date.month <<< 8
  ymd + UInt32.ofNat date.day

def Date.ofDate (host : ByteOrder) (date : Core.Date) : Date :=
  ⟨some (host.htonl (packYmd date))⟩

def GeoPosition.ofGeoPosition (position : Core.GeoPosition) : GeoPosition :=
  ⟨some position.latitude, some position.longitude⟩

/-- A position that lacks a coordinate does not convert; any other does, valid or not. -/
def GeoPosition.toGeoPosition (position : GeoPosition) : Option Core.GeoPosition := do
  let latitude ← position.latitude
  let longitude ← position.longitude
  pure ⟨latitude, longitude⟩

def Uuid.ofUuid (uuid : Core.PersonId) : Uuid := ⟨some uuid.toList⟩

def Person.ofPerson (host : ByteOrder) (person : Core.Person) : Person where
  id := some (.ofUuid person.id)
  name := some person.name
  dateOfBirth := some (.ofDate host person.dateOfBirth)
  locationOfHome := some (.ofGeoPosition person.locationOfHome)

end PplMe.Proto
