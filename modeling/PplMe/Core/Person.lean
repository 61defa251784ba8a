import PplMe.Core.Date
import PplMe.Foundation.Floats

/-! The domain types of the matching service: positions, people, and matching parameters. -/

namespace PplMe.Core

open Floats

/-- A WGS 84 position: decimal latitude and longitude. -/
structure GeoPosition where
  latitude : FloatValue
  longitude : FloatValue
  deriving DecidableEq, Repr

/-- Whether both coordinates are on the map, its edges included. -/
def GeoPosition.isValid (position : GeoPosition) : Bool :=
  position.latitude.ge (-90)
  && position.latitude.le 90
  && position.longitude.ge (-180)
  && position.longitude.le 180

/-- A position with finite coordinates. -/
structure Place where
  latitude : ℚ
  longitude : ℚ
  deriving DecidableEq, Repr

def GeoPosition.place? : GeoPosition → Option Place
  | ⟨.finite latitude, .finite longitude⟩ => some ⟨latitude, longitude⟩
  | _ => none

def Place.position (place : Place) : GeoPosition :=
  ⟨.finite place.latitude, .finite place.longitude⟩

/-- A person's id: the sixteen octets of a UUID. -/
abbrev PersonId := Vector UInt8 16

structure Person where
  id : PersonId
  /-- The octets of the name, encoded using UTF-8. -/
  name : List UInt8
  dateOfBirth : Date
  locationOfHome : GeoPosition
  deriving DecidableEq, Repr

structure PplMatchingParameters where
  locationOfUser : GeoPosition
  /-- A signed 32-bit number as it came from the wire. -/
  ageOfUser : Int
  deriving DecidableEq, Repr

/-- A valid position has two finite coordinates within the map's edges. -/
theorem GeoPosition.isValid_iff {position : GeoPosition}
    : position.isValid = true
      ↔ ∃ latitude longitude : ℚ,
          position = ⟨.finite latitude, .finite longitude⟩
          ∧ (-90 ≤ latitude ∧ latitude ≤ 90)
          ∧ (-180 ≤ longitude ∧ longitude ≤ 180) := by
  constructor
  · intro valid
    obtain ⟨latitude, longitude⟩ := position
    simp only [isValid, Bool.and_eq_true] at valid
    obtain ⟨⟨⟨latLow, latHigh⟩, longLow⟩, longHigh⟩ := valid
    cases latitude with
    | notANumber => cases latLow
    | infinity negative => cases negative <;> simp [FloatValue.ge, FloatValue.le] at latLow latHigh
    | finite latitude =>
        cases longitude with
        | notANumber => cases longLow
        | infinity negative =>
            cases negative <;> simp [FloatValue.ge, FloatValue.le] at longLow longHigh
        | finite longitude =>
            simp only [FloatValue.ge, FloatValue.le, decide_eq_true_eq] at *
            push_cast at *
            exact ⟨latitude, longitude, rfl, ⟨latLow, latHigh⟩, longLow, longHigh⟩
  · rintro ⟨latitude, longitude, rfl, ⟨latLow, latHigh⟩, longLow, longHigh⟩
    simp only [isValid, FloatValue.ge, FloatValue.le, Bool.and_eq_true, decide_eq_true_eq]
    push_cast
    exact ⟨⟨⟨latLow, latHigh⟩, longLow⟩, longHigh⟩

end PplMe.Core
