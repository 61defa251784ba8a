import PplMe.Core.Person
import PplMe.Foundation.Failures
import PplMe.Foundation.OrderedLists
import Mathlib.Data.List.Count
import Mathlib.Logic.Function.Basic

/-! What the providers with a grid have in common: how positions are quantized to cells, how
people are added to a cell, and the dates of birth a request asks for. Every way in which the
code can stop the process here is an explicit fault.
-/

namespace PplMe.Engine

open PplMe.Core Failures Floats OrderedLists

/-- What ends the process when the engine is asked for something it cannot do. -/
inductive Fault where
  /-- A coordinate does not fit an int, so its conversion is undefined. -/
  | undefinedConversion
  | latitudeCheck
  | longitudeCheck
  | gridOutOfBounds
  /-- Signed overflow when the age difference is applied. -/
  | signedOverflow
  /-- The date library throws, and nothing catches it. -/
  | dateOutOfRange
  | pendingInsertCheck
  | pendingEraseCheck
  deriving DecidableEq, Repr

/-- What a provider is constructed with, after the constructor's checks: at most 100 cells
per degree and no negative age difference. `rounding` is the host's, not an argument.
-/
structure GridSettings where
  resolution : Nat
  maxAgeDifference : Int
  today : Date
  rounding : Rounding
  resolutionPositive : 1 ≤ resolution
  resolutionAdmitted : resolution ≤ 100
  maxAgeDifferenceNonneg : 0 ≤ maxAgeDifference

/-- One cell per degree, and ages five years apart. -/
def wholeDegrees : GridSettings where
  resolution := 1
  maxAgeDifference := 5
  today := ⟨2014, 1, 15, by decide⟩
  rounding := .exact
  resolutionPositive := by decide
  resolutionAdmitted := by decide
  maxAgeDifferenceNonneg := by decide

/-- Whole degrees, and no difference in age. -/
def sameAge : GridSettings :=
  { wholeDegrees with
    maxAgeDifference := 0
    maxAgeDifferenceNonneg := by decide }

structure CellLocator where
  latitudeIndex : Nat
  longitudeIndex : Nat
  deriving DecidableEq, Repr

def kMinLatitudeDegrees : Int := -90
def kMaxLatitudeDegrees : Int := 90
def kMinLongitudeDegrees : Int := -180
def kMaxLongitudeDegrees : Int := 180

-----------------------------------------------------------------------------------------
-- Quantization
-----------------------------------------------------------------------------------------

namespace GridSettings

variable (settings : GridSettings)

/-- Shift a coordinate to be non-negative, truncate it, check it, and scale it. -/
def coordinateIndex (shift : Nat) (failed : Fault) (coordinate : FloatValue)
    : Except Fault Nat :=
  match (coordinate.addInt settings.rounding shift).toInt? with
  | none => .error .undefinedConversion
  | some index =>
      if 0 ≤ index ∧ index ≤ ((2 * shift : Nat) : Int) then
        .ok (index * settings.resolution).toNat
      else
        .error failed

def getLatitudeIndex (latitude : FloatValue) : Except Fault Nat :=
  settings.coordinateIndex 90 .latitudeCheck latitude

def getLongitudeIndex (longitude : FloatValue) : Except Fault Nat :=
  settings.coordinateIndex 180 .longitudeCheck longitude

def toCellLocator (position : GeoPosition) : Except Fault CellLocator := do
  let latitudeIndex ← settings.getLatitudeIndex position.latitude
  let longitudeIndex ← settings.getLongitudeIndex position.longitude
  pure ⟨latitudeIndex, longitudeIndex⟩

/-- A coordinate on the map has an index that is a whole number of degrees. -/
theorem coordinateIndex_of_mem (shift : Nat) (failed : Fault) {coordinate : ℚ}
    (small : 2 * shift ≤ 2 ^ 24) (low : -(shift : ℚ) ≤ coordinate) (high : coordinate ≤ shift)
    : ∃ degrees ≤ 2 * shift,
        settings.coordinateIndex shift failed (.finite coordinate)
        = .ok (degrees * settings.resolution) := by
  obtain ⟨degrees, bound, converted⟩ :=
    toInt?_addInt_of_mem settings.rounding small low high
  refine ⟨degrees, bound, ?_⟩
  have inRange : 0 ≤ (degrees : Int) ∧ (degrees : Int) ≤ ((2 * shift : Nat) : Int) := by omega
  rw [coordinateIndex, converted]
  simp only [if_pos inRange]
  norm_cast

/-- A valid position lies in a cell whose indices are whole degrees of the map. -/
theorem toCellLocator_of_isValid {position : GeoPosition} (valid : position.isValid = true)
    : ∃ latitude ≤ 180,
        ∃ longitude ≤ 360,
          settings.toCellLocator position
          = .ok ⟨latitude * settings.resolution, longitude * settings.resolution⟩ := by
  obtain ⟨latitude, longitude, rfl, latRange, longRange⟩ := GeoPosition.isValid_iff.mp valid
  obtain ⟨row, rowBound, rowEq⟩ := settings.coordinateIndex_of_mem 90 .latitudeCheck
    (by norm_num) (by exact_mod_cast latRange.1)
    (by exact_mod_cast latRange.2)
  obtain ⟨column, columnBound, columnEq⟩ := settings.coordinateIndex_of_mem 180 .longitudeCheck
    (by norm_num) (by exact_mod_cast longRange.1)
    (by exact_mod_cast longRange.2)
  refine ⟨row, rowBound, column, columnBound, ?_⟩
  rw [toCellLocator, getLatitudeIndex, getLongitudeIndex, rowEq, columnEq]
  rfl

/-- An index is a whole number of degrees, of whatever coordinate. -/
theorem coordinateIndex_degrees {shift : Nat} {failed : Fault} {coordinate : FloatValue}
    {index : Nat} (located : settings.coordinateIndex shift failed coordinate = .ok index)
    : ∃ degrees ≤ 2 * shift, index = degrees * settings.resolution := by
  unfold coordinateIndex at located
  split at located
  · cases located
  · rename_i degrees _
    split at located
    · rename_i inRange
      obtain ⟨natural, rfl⟩ := Int.eq_ofNat_of_zero_le inRange.1
      cases located
      exact ⟨natural, by exact_mod_cast inRange.2, by norm_cast⟩
    · cases located

/-- So every cell is one of whole degrees. -/
theorem toCellLocator_degrees {position : GeoPosition} {cell : CellLocator}
    (located : settings.toCellLocator position = .ok cell)
    : ∃ latitude ≤ 180,
        ∃ longitude ≤ 360,
          cell = ⟨latitude * settings.resolution, longitude * settings.resolution⟩ := by
  obtain ⟨row, rowEq, located⟩ := of_bind_eq_ok located
  obtain ⟨column, columnEq, located⟩ := of_bind_eq_ok located
  obtain ⟨latitude, latitudeBound, rfl⟩ := settings.coordinateIndex_degrees rowEq
  obtain ⟨longitude, longitudeBound, rfl⟩ := settings.coordinateIndex_degrees columnEq
  cases located
  exact ⟨latitude, latitudeBound, longitude, longitudeBound, rfl⟩

end GridSettings

-----------------------------------------------------------------------------------------
-- Cells
-----------------------------------------------------------------------------------------

/-- A vector of cells: indices from `size` on hold nothing that may be accessed. -/
structure PplGrid where
  size : Nat
  cells : Nat → List Person

def PplGrid.at (grid : PplGrid) (index : Nat) : Except Fault (List Person) :=
  if index < grid.size then .ok (grid.cells index) else .error .gridOutOfBounds

namespace PplGrid

/-- Replace one cell. -/
def put (grid : PplGrid) (index : Nat) (cell : List Person) : PplGrid :=
  { grid with cells := Function.update grid.cells index cell }

@[simp] theorem put_size (grid : PplGrid) (index : Nat) (cell : List Person)
    : (grid.put index cell).size = grid.size := rfl

@[simp] theorem put_cells_self (grid : PplGrid) (index : Nat) (cell : List Person)
    : (grid.put index cell).cells index = cell := by
  simp [put]

theorem put_cells_other {index other : Nat} (grid : PplGrid) (cell : List Person)
    (different : other ≠ index)
    : (grid.put index cell).cells other = grid.cells other := by
  simp [put, Function.update_of_ne different]

/-- Insert a person into a cell, after everyone not born later. -/
def addPersonAt (grid : PplGrid) (index : Nat) (person : Person) : Except Fault PplGrid := do
  let cell ← grid.at index
  pure (grid.put index (insertUpper Person.dateOfBirth person cell))

/-- The grid holds exactly the given people, each in the cell of their home, and every cell
is in order of date of birth, with people of one date in the order of the given ones.
-/
structure Holds (grid : PplGrid) (homeIndex : Person → Option Nat) (people : List Person)
    : Prop where
  ordered : ∀ index, InOrder Person.dateOfBirth (grid.cells index)
  contents
    : ∀ index,
        (grid.cells index).Perm (people.filter (fun person => homeIndex person = some index))
  callOrder
    : ∀ index date,
        (grid.cells index).filter (fun person => person.dateOfBirth = date)
        = (people.filter (fun person => homeIndex person = some index)).filter
            (fun person => person.dateOfBirth = date)

variable {grid : PplGrid} {homeIndex : Person → Option Nat} {people : List Person}

/-- Adding a person to the cell of their home succeeds and adds just that person. -/
theorem Holds.addPersonAt {index : Nat} {person : Person} (holds : grid.Holds homeIndex people)
    (home : homeIndex person = some index) (inside : index < grid.size)
    : ∃ next, grid.addPersonAt index person = .ok next
        ∧ next.size = grid.size
        ∧ next.Holds homeIndex (people ++ [person]) := by
  have accessed : grid.at index = .ok (grid.cells index) := if_pos inside
  have added : [person].filter (fun person => homeIndex person = some index) = [person] := by
    simp [home]
  have absent {other : Nat} (different : other ≠ index)
      : [person].filter (fun person => homeIndex person = some other) = [] := by
    simpa [home] using fun equal => different equal.symm
  refine ⟨grid.put index (insertUpper Person.dateOfBirth person (grid.cells index)), ?_, rfl,
    ?_, ?_, ?_⟩
  · simp only [PplGrid.addPersonAt, accessed, bind, Except.bind, pure, Except.pure]
  · intro other
    by_cases same : other = index
    · subst same
      rw [put_cells_self]
      exact (holds.ordered other).insertUpper
    · rw [put_cells_other grid _ same]
      exact holds.ordered other
  · intro other
    rw [List.filter_append]
    by_cases same : other = index
    · subst same
      rw [added, put_cells_self]
      exact (insertUpper_perm person _).trans
        (((holds.contents other).cons person).trans (List.perm_append_singleton _ _).symm)
    · rw [absent same, List.append_nil, put_cells_other grid _ same]
      exact holds.contents other
  · intro other date
    rw [List.filter_append]
    by_cases same : other = index
    · subst same
      rw [added, put_cells_self, List.filter_append, ← holds.callOrder, ← List.filter_append]
      exact (holds.ordered other).filter_key_insertUpper (fun _ => decide_eq_true_iff)
    · rw [absent same, List.append_nil, put_cells_other grid _ same]
      exact holds.callOrder other date

/-- Any further additions that each add their person succeed, by induction over them. -/
theorem Holds.addPeople {add : PplGrid → Person → Except Fault PplGrid} {size : Nat}
    {earlier : List Person} (more : List Person)
    (adds
      : ∀ people,
          ∀ person ∈ more,
            ∀ grid : PplGrid,
              grid.size = size
              → grid.Holds homeIndex people
              → ∃ next, add grid person = .ok next
                  ∧ next.size = grid.size
                  ∧ next.Holds homeIndex (people ++ [person]))
    (sized : grid.size = size) (holds : grid.Holds homeIndex earlier)
    : ∃ final, more.foldlM add grid = .ok final
        ∧ final.size = size
        ∧ final.Holds homeIndex (earlier ++ more) := by
  induction more generalizing earlier grid with
  | nil => exact ⟨grid, rfl, sized, by simpa using holds⟩
  | cons person rest ih =>
      obtain ⟨next, added, same, holdsNext⟩ := adds earlier person (by simp) grid sized holds
      obtain ⟨final, run, result⟩ := ih
        (fun people other member => adds people other (by simp [member])) (same.trans sized)
        holdsNext
      refine ⟨final, ?_, by simpa using result⟩
      rw [List.foldlM_cons, added]
      exact run

/-- Of the people a cell holds, those with their home there are as many as were added. -/
theorem Holds.count_filter (holds : grid.Holds homeIndex people) (index : Nat)
    (matching : Person → Bool) (person : Person)
    : ((grid.cells index).filter matching).count person
      = if homeIndex person = some index then
          (people.filter matching).count person
        else
          0 := by
  rw [((holds.contents index).filter _).count_eq, List.filter_comm]
  by_cases here : homeIndex person = some index
  · rw [if_pos here]
    exact List.count_filter (by simpa using here)
  · rw [if_neg here]
    exact List.count_eq_zero.mpr (fun member => here (by simpa using (List.mem_filter.mp member).2))

end PplGrid

-----------------------------------------------------------------------------------------
-- The dates of birth a request asks for
-----------------------------------------------------------------------------------------

/-- An int operation's result, undefined when it overflows. -/
def checkedInt (value : Int) : Except Fault Int :=
  if -2 ^ 31 ≤ value ∧ value < 2 ^ 31 then .ok value else .error .signedOverflow

theorem checkedInt_eq_ok {value : Int} (low : -2 ^ 31 ≤ value) (high : value < 2 ^ 31)
    : checkedInt value = .ok value := if_pos ⟨low, high⟩

theorem eq_of_checkedInt {value result : Int} (checked : checkedInt value = .ok result)
    : result = value := by
  unfold checkedInt at checked
  split at checked
  · exact (Except.ok.inj checked).symm
  · cases checked

/-- `today - years(n)`. -/
def yearsBefore (today : Date) (years : Int) : Except Fault Date :=
  match today.minusYears years with
  | some date => .ok date
  | none => .error .dateOutOfRange

theorem yearsBefore_eq_ok_iff {today date : Date} {years : Int}
    : yearsBefore today years = .ok date ↔ today.minusYears years = some date := by
  unfold yearsBefore
  split <;> simp_all

/-- The earliest and the latest date of birth around an age. -/
def windowAround (today : Date) (difference age : Int) : Except Fault (Date × Date) := do
  let oldest ← checkedInt (age + difference)
  let earliest ← yearsBefore today oldest
  let youngest ← checkedInt (age - difference)
  let latest ← yearsBefore today youngest
  pure (earliest, latest)

/-- The window's dates come from the calendar, and no other fault leaves a window: the years of
two dates of the calendar are too few for an int operation to overflow.
-/
theorem windowAround_eq_ok_iff {today : Date} {difference age : Int} {window : Date × Date}
    : windowAround today difference age = .ok window
      ↔ today.minusYears (age + difference) = some window.1
        ∧ today.minusYears (age - difference) = some window.2 := by
  constructor
  · intro computed
    obtain ⟨oldest, oldestEq, computed⟩ := of_bind_eq_ok computed
    obtain ⟨earliest, earliestEq, computed⟩ := of_bind_eq_ok computed
    obtain ⟨youngest, youngestEq, computed⟩ := of_bind_eq_ok computed
    obtain ⟨latest, latestEq, computed⟩ := of_bind_eq_ok computed
    cases computed
    rw [eq_of_checkedInt oldestEq] at earliestEq
    rw [eq_of_checkedInt youngestEq] at latestEq
    exact ⟨yearsBefore_eq_ok_iff.mp earliestEq, yearsBefore_eq_ok_iff.mp latestEq⟩
  · rintro ⟨earliest, latest⟩
    have earliestYears := Date.minusYears_isSome_iff.mp (Option.isSome_of_eq_some earliest)
    have latestYears := Date.minusYears_isSome_iff.mp (Option.isSome_of_eq_some latest)
    have calendar := today.calendar.1
    have oldest : checkedInt (age + difference) = .ok (age + difference) := if_pos (by omega)
    have youngest : checkedInt (age - difference) = .ok (age - difference) := if_pos (by omega)
    simp only [windowAround, oldest, youngest, yearsBefore, earliest, latest, bind, Except.bind,
      pure, Except.pure]

namespace GridSettings

variable (settings : GridSettings)

/-- The earliest and the latest date of birth that match. -/
def ageWindow (parameters : PplMatchingParameters) : Except Fault (Date × Date) :=
  windowAround settings.today settings.maxAgeDifference parameters.ageOfUser

/-- Both dates of a window exist: going back by the greatest and by the least admitted age
stays within the calendar.
-/
def Representable (parameters : PplMatchingParameters) (window : Date × Date) : Prop :=
  settings.today.minusYears (parameters.ageOfUser + settings.maxAgeDifference) = some window.1
  ∧ settings.today.minusYears (parameters.ageOfUser - settings.maxAgeDifference)
    = some window.2

variable {settings}

/-- A request has a window exactly when both of its dates exist. -/
theorem ageWindow_eq_ok_iff {parameters : PplMatchingParameters} {window : Date × Date}
    : settings.ageWindow parameters = .ok window ↔ settings.Representable parameters window :=
  windowAround_eq_ok_iff

theorem ageWindow_of_representable {parameters : PplMatchingParameters} {window : Date × Date}
    (representable : settings.Representable parameters window)
    : settings.ageWindow parameters = .ok window :=
  ageWindow_eq_ok_iff.mpr representable

end GridSettings

/-- Born from the first through the second date. -/
def InWindow (window : Date × Date) (person : Person) : Prop :=
  window.1 ≤ person.dateOfBirth ∧ person.dateOfBirth ≤ window.2

instance (window : Date × Date) : DecidablePred (InWindow window) :=
  fun _ => inferInstanceAs (Decidable (_ ∧ _))

def nullIsland : GeoPosition := ⟨.finite 0, .finite 0⟩

def islander : Person where
  id := Vector.replicate 16 0
  name := []
  dateOfBirth := ⟨1990, 2, 28, by decide⟩
  locationOfHome := nullIsland

/-- A request from the island by somebody aged 25, and the window it asks for. -/
def islandRequest : PplMatchingParameters := ⟨nullIsland, 25⟩

def islandWindow : Date × Date := (⟨1984, 1, 15, by decide⟩, ⟨1994, 1, 15, by decide⟩)

theorem nullIsland_isValid : nullIsland.isValid = true :=
  GeoPosition.isValid_iff.mpr ⟨0, 0, rfl, by norm_num, by norm_num⟩

end PplMe.Engine
