import PplMe.Engine.PplGrid
import Mathlib.Tactic.Linarith

/-! The grid of the matching provider: how cells are addressed, how people are added, and the
age search within one cell.
-/

namespace PplMe.Engine

open PplMe.Core Floats OrderedLists

/-- What the matching provider is constructed with, after the constructor's further checks:
room for at least one person, and at least one cell searched at a time.
-/
structure Settings extends GridSettings where
  maxPpl : Nat
  perFindConcurrency : Nat
  maxPplPositive : 1 ≤ maxPpl
  perFindConcurrencyPositive : 1 ≤ perFindConcurrency

def Settings.getPplIndex (settings : Settings) (cell : CellLocator) : Nat :=
  cell.latitudeIndex * 361 * settings.resolution + cell.longitudeIndex

-----------------------------------------------------------------------------------------
-- The grid and its addressing
-----------------------------------------------------------------------------------------

/-- The ranges are inclusive, hence the extra cells. -/
def calculateSizeForPplGrid (resolution : Nat) : Nat :=
  ((2 + kMaxLatitudeDegrees - kMinLatitudeDegrees) * resolution).toNat
  * ((2 + kMaxLongitudeDegrees - kMinLongitudeDegrees) * resolution).toNat

/-- The rows and columns a search may name. -/
def Settings.OnGrid (settings : Settings) (cell : CellLocator) : Prop :=
  cell.latitudeIndex ≤ 181 * settings.resolution
  ∧ cell.longitudeIndex < 361 * settings.resolution

theorem calculateSizeForPplGrid_eq (resolution : Nat)
    : calculateSizeForPplGrid resolution = (182 * resolution) * (362 * resolution) := by
  unfold calculateSizeForPplGrid kMaxLatitudeDegrees kMinLatitudeDegrees
    kMaxLongitudeDegrees kMinLongitudeDegrees
  rfl

/-- Cells of the grid have indices below its size: the last row starts at row stride times
row, and one row and one column per degree were allocated in excess.
-/
theorem Settings.getPplIndex_lt (settings : Settings) {cell : CellLocator}
    (onGrid : settings.OnGrid cell)
    : settings.getPplIndex cell < calculateSizeForPplGrid settings.resolution := by
  obtain ⟨row, column⟩ := onGrid
  have positive := settings.resolutionPositive
  rw [calculateSizeForPplGrid_eq, getPplIndex]
  have stride : cell.latitudeIndex * 361 * settings.resolution
      ≤ 181 * settings.resolution * 361 * settings.resolution := by
    gcongr
  nlinarith

/-- Distinct cells of the grid have distinct indices: columns stay below the row stride. -/
theorem Settings.getPplIndex_injective (settings : Settings) {left right : CellLocator}
    (onLeft : settings.OnGrid left) (onRight : settings.OnGrid right)
    (same : settings.getPplIndex left = settings.getPplIndex right)
    : left = right := by
  obtain ⟨_, leftColumn⟩ := onLeft
  obtain ⟨_, rightColumn⟩ := onRight
  obtain ⟨leftRow, leftCol⟩ := left
  obtain ⟨rightRow, rightCol⟩ := right
  simp only [getPplIndex, Nat.mul_assoc] at same leftColumn rightColumn
  have stridePositive : 0 < 361 * settings.resolution := by
    have := settings.resolutionPositive
    omega
  have rows := congrArg (· / (361 * settings.resolution)) same
  have columns := congrArg (· % (361 * settings.resolution)) same
  simp only [Nat.mul_comm _ (361 * settings.resolution), Nat.mul_add_div stridePositive,
    Nat.mul_add_mod, Nat.div_eq_of_lt leftColumn, Nat.div_eq_of_lt rightColumn,
    Nat.mod_eq_of_lt leftColumn, Nat.mod_eq_of_lt rightColumn, Nat.add_zero]
    at rows columns
  rw [rows, columns]

/-- A valid position's cell is on the grid. -/
theorem Settings.onGrid_of_degrees (settings : Settings) {latitude longitude : Nat}
    (row : latitude ≤ 180) (column : longitude ≤ 360)
    : settings.OnGrid ⟨latitude * settings.resolution, longitude * settings.resolution⟩ := by
  have positive := settings.resolutionPositive
  constructor <;> dsimp only <;> nlinarith

-----------------------------------------------------------------------------------------
-- Adding people
-----------------------------------------------------------------------------------------

/-- The grid as constructed. -/
def Settings.emptyGrid (settings : Settings) : PplGrid :=
  ⟨calculateSizeForPplGrid settings.resolution, fun _ => []⟩

/-- Insert a person into the cell of their home. -/
def Settings.addPerson (settings : Settings) (grid : PplGrid) (person : Person)
    : Except Fault PplGrid := do
  let locator ← settings.toCellLocator person.locationOfHome
  grid.addPersonAt (settings.getPplIndex locator) person

/-- The grid after a sequence of completed additions. -/
def Settings.populate (settings : Settings) (people : List Person) : Except Fault PplGrid :=
  people.foldlM settings.addPerson settings.emptyGrid

-----------------------------------------------------------------------------------------
-- Searching one cell
-----------------------------------------------------------------------------------------

/-- The people of one cell in the age window, found from the lower bound on. -/
def Settings.findMatchingPplInCell (settings : Settings) (parameters : PplMatchingParameters)
    (cell : List Person)
    : Except Fault (List Person) := do
  let (earliest, latest) ← settings.ageWindow parameters
  pure (walkWindow Person.dateOfBirth earliest latest cell)

end PplMe.Engine
