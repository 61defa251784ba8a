import PplMe.Engine.PplGrid
import PplMe.Foundation.TickedWalks
import Mathlib.Analysis.Real.Sqrt

/-! The prototype provider: its grid, its distances, the cells it takes to be near a user, and
its search within one cell. Distances are exact, and indices are unsigned 64-bit numbers.
-/

namespace PplMe.Engine

open PplMe.Core Floats OrderedLists TickedWalks

/-- What the prototype is constructed with, after the constructor's further checks. `cosine` is
the host's, and may be any function.
-/
structure PrototypeSettings extends GridSettings where
  maxDistance : Nat
  cosine : ℚ → ℚ
  maxDistancePositive : 0 < maxDistance
  maxDistanceAdmitted : maxDistance < 1000

/-- A user's place with the cell that `ToCellLocator` gives for it. -/
structure Origin where
  place : Place
  cell : CellLocator

namespace PrototypeSettings

variable (settings : PrototypeSettings)

-----------------------------------------------------------------------------------------
-- Distances
-----------------------------------------------------------------------------------------

/-- 6378.137 kilometers in single precision. -/
def kRadiusOfEarth : ℚ := 13062425 / 2048

/-- `pi<float>()`. -/
def pi : ℚ := 13176795 / 4194304

def approxDistanceLatitude (value1 value2 : ℚ) : ℚ := |(value2 - value1) * 110|

def approxDistanceLongitude (latitude value1 value2 : ℚ) : ℚ :=
  |settings.cosine (latitude * pi / 180) * (pi / 180) * kRadiusOfEarth * (value2 - value1)|

/-- What `ApproxDistance` takes the square root of. -/
def approxDistanceSquared (position1 position2 : Place) : ℚ :=
  let longitudinally := settings.approxDistanceLongitude position1.latitude
    position1.longitude position2.longitude
  let latitudinally := approxDistanceLatitude position1.latitude position2.latitude
  longitudinally * longitudinally + latitudinally * latitudinally

noncomputable def approxDistance (position1 position2 : Place) : ℝ :=
  √(settings.approxDistanceSquared position1 position2 : ℝ)

/-- `ApproxDistance(user, home) <= max_distance_`; it is false of infinite coordinates. -/
def isNear (user home : GeoPosition) : Bool :=
  match user.place?, home.place? with
  | some user, some home =>
      decide (settings.approxDistanceSquared user home ≤ (settings.maxDistance : ℚ) ^ 2)
  | _, _ => false

/-- Comparing squares compares distances. -/
theorem isNear_iff {user home : GeoPosition} {userPlace homePlace : Place}
    (ofUser : user.place? = some userPlace) (ofHome : home.place? = some homePlace)
    : settings.isNear user home = true
      ↔ settings.approxDistance userPlace homePlace ≤ settings.maxDistance := by
  rw [isNear, ofUser, ofHome]
  simp only [decide_eq_true_eq]
  rw [approxDistance, Real.sqrt_le_left (Nat.cast_nonneg _)]
  norm_cast

-----------------------------------------------------------------------------------------
-- The grid
-----------------------------------------------------------------------------------------

/-- The ranges are inclusive, hence the extra cells. -/
def calculateSizeForPplGrid (resolution : Nat) : Nat :=
  ((kMaxLatitudeDegrees - kMinLatitudeDegrees) * resolution + 2).toNat
  * ((kMaxLongitudeDegrees - kMinLongitudeDegrees) * resolution + 2).toNat

def getPplIndex (cell : CellLocator) : Nat :=
  (cell.latitudeIndex * 360 + cell.longitudeIndex) % 2 ^ 64

/-- The grid as constructed. -/
def emptyGrid : PplGrid := ⟨calculateSizeForPplGrid settings.resolution, fun _ => []⟩

/-- Insert a person into the cell of their home. -/
def addPerson (grid : PplGrid) (person : Person) : Except Fault PplGrid := do
  let locator ← settings.toCellLocator person.locationOfHome
  grid.addPersonAt (getPplIndex locator) person

/-- The grid after a sequence of completed additions. -/
def populate (people : List Person) : Except Fault PplGrid :=
  people.foldlM settings.addPerson settings.emptyGrid

/-- The place and the cell of a user. -/
def locate (position : GeoPosition) : Except Fault Origin :=
  match position.place? with
  | none => .error .undefinedConversion
  | some place => (settings.toCellLocator position).map (fun cell => ⟨place, cell⟩)

-----------------------------------------------------------------------------------------
-- Ticks
-----------------------------------------------------------------------------------------

/-- Subtraction of unsigned 64-bit numbers. -/
def sizeSub (left right : Nat) : Nat := (left + 2 ^ 64 - right) % 2 ^ 64

theorem sizeSub_of_le {left right : Nat} (le : right ≤ left) (small : left < 2 ^ 64)
    : sizeSub left right = left - right := by
  unfold sizeSub
  omega

/-- Below zero, a difference starts again from the top. -/
theorem sizeSub_of_lt {left right : Nat} (lt : left < right) (small : right ≤ 2 ^ 64)
    : sizeSub left right = 2 ^ 64 - (right - left) := by
  unfold sizeSub
  omega

def tickNorth (locator : CellLocator) : CellLocator :=
  { locator with latitudeIndex := (locator.latitudeIndex + 1) % 2 ^ 64 }

def tickSouth (locator : CellLocator) : CellLocator :=
  { locator with latitudeIndex := sizeSub locator.latitudeIndex 1 }

def tickEast (locator : CellLocator) : CellLocator :=
  { locator with
    longitudeIndex :=
      if 360 * settings.resolution ≤ locator.longitudeIndex then
        0
      else
        locator.longitudeIndex + 1 }

def tickWest (locator : CellLocator) : CellLocator :=
  { locator with
    longitudeIndex :=
      if locator.longitudeIndex = 0 then
        360 * settings.resolution - 1
      else
        locator.longitudeIndex - 1 }

-----------------------------------------------------------------------------------------
-- Tests
-----------------------------------------------------------------------------------------

def isTooFarNorth (origin : Origin) (cell : CellLocator) : Bool :=
  if 180 * settings.resolution ≤ cell.latitudeIndex then
    true
  else
    let cellSouthmostLatitude : ℚ := cell.latitudeIndex / settings.resolution - 90
    decide
      (settings.maxDistance < approxDistanceLatitude origin.place.latitude cellSouthmostLatitude)

def isTooFarSouth (origin : Origin) (cell : CellLocator) : Bool :=
  if cell.latitudeIndex = 0 then
    true
  else
    let cellNorthmostLatitude : ℚ := (cell.latitudeIndex + 1) / settings.resolution - 90
    decide
      (settings.maxDistance < approxDistanceLatitude origin.place.latitude cellNorthmostLatitude)

/-- A quarter of the circumference is as far as a find goes, in either unsigned order. -/
def isTooFarFromOrigin (origin : Origin) (cell : CellLocator) : Bool :=
  decide
    (90 * settings.resolution ≤ sizeSub origin.cell.longitudeIndex cell.longitudeIndex
      ∧ 90 * settings.resolution ≤ sizeSub cell.longitudeIndex origin.cell.longitudeIndex)

def isTooFarEast (origin : Origin) (cell : CellLocator) : Bool :=
  if settings.isTooFarFromOrigin origin cell then
    true
  else
    let cellWestmostLongitude : ℚ := cell.longitudeIndex / settings.resolution - 180
    decide
      (settings.maxDistance
        < settings.approxDistanceLongitude origin.place.latitude origin.place.longitude
            cellWestmostLongitude)

def isTooFarWest (origin : Origin) (cell : CellLocator) : Bool :=
  if settings.isTooFarFromOrigin origin cell then
    true
  else
    let cellEastmostLongitude : ℚ := (cell.longitudeIndex + 1) / settings.resolution - 180
    decide
      (settings.maxDistance
        < settings.approxDistanceLongitude origin.place.latitude origin.place.longitude
            cellEastmostLongitude)

-----------------------------------------------------------------------------------------
-- Nearby cells
-----------------------------------------------------------------------------------------

/-- More tests than a loop around the globe could make. -/
def walkFuel : Nat := 360 * settings.resolution + 1

def pushBack (cell : CellLocator) (cells : List CellLocator) : Option (List CellLocator) :=
  some (cells ++ [cell])

def getNearbyCellsSameLatitude (origin : Origin) (currentPosition : CellLocator)
    (cells : List CellLocator)
    : Option (List CellLocator) := do
  let cells ← walk settings.tickEast (settings.isTooFarEast origin) pushBack settings.walkFuel
    (settings.tickEast currentPosition) cells
  walk settings.tickWest (settings.isTooFarWest origin) pushBack settings.walkFuel
    (settings.tickWest currentPosition) cells

/-- The cells around the user's, in the order in which they are searched. To the south a row's
own cell in the user's column is not pushed.
-/
def getNearbyCells (origin : Origin) : Option (List CellLocator) := do
  let bullseye := origin.cell
  let cells ← settings.getNearbyCellsSameLatitude origin bullseye []
  let cells ← walk tickNorth (settings.isTooFarNorth origin)
    (fun cell cells => settings.getNearbyCellsSameLatitude origin cell (cells ++ [cell]))
    settings.walkFuel (tickNorth bullseye) cells
  walk tickSouth (settings.isTooFarSouth origin)
    (fun cell cells => settings.getNearbyCellsSameLatitude origin cell cells)
    settings.walkFuel (tickSouth bullseye) cells

-----------------------------------------------------------------------------------------
-- Searching one cell
-----------------------------------------------------------------------------------------

/-- The people of one cell in the age window and near the user. -/
def findMatchingPplInCell (parameters : PplMatchingParameters) (cell : List Person)
    : Except Fault (List Person) := do
  let (earliest, latest) ← settings.ageWindow parameters
  pure
    ((walkWindow Person.dateOfBirth earliest latest cell).filter
      (fun person => settings.isNear parameters.locationOfUser person.locationOfHome))

/-- What a find does with a cell: access it and search it. -/
def searchCell (grid : PplGrid) (parameters : PplMatchingParameters) (cell : CellLocator)
    : Except Fault (List Person) := do
  let people ← grid.at (getPplIndex cell)
  settings.findMatchingPplInCell parameters people

end PrototypeSettings

/-- One cell per degree, thirty kilometers, and the longest degrees of longitude. -/
def shortRange : PrototypeSettings where
  toGridSettings := wholeDegrees
  maxDistance := 30
  cosine := fun _ => 1
  maxDistancePositive := by decide
  maxDistanceAdmitted := by decide

end PplMe.Engine
