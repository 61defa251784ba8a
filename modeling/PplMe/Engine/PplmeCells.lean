import PplMe.Engine.PplmeGrid
import Mathlib.Algebra.BigOperators.Group.List.Basic
import Mathlib.Algebra.BigOperators.Group.Finset.Basic
import Mathlib.Data.List.Count
import Mathlib.Data.Multiset.Basic

/-! What the cells of a populated grid hold, and what searching them finds.
Additions keep every cell ordered by date of birth, which is what makes the search within a
cell the same as filtering it; addressing keeps every person in the one cell of their home.
-/

namespace PplMe.Engine

open PplMe.Core Failures Floats OrderedLists

namespace Settings

variable (settings : Settings)

/-- The index of the cell a person is stored in, if their home is on the map. -/
def homeIndex (person : Person) : Option Nat :=
  (settings.toCellLocator person.locationOfHome).toOption.map settings.getPplIndex

/-- The grid is the provider's and holds exactly the given people, each in the cell of their
home.
-/
structure Populated (people : List Person) (grid : PplGrid) : Prop
    extends grid.Holds settings.homeIndex people where
  size : grid.size = calculateSizeForPplGrid settings.resolution

/-- A person with a valid home has a home cell on the grid. -/
theorem homeIndex_of_isValid {person : Person} (valid : person.locationOfHome.isValid = true)
    : ∃ latitude ≤ 180,
        ∃ longitude ≤ 360,
          settings.toCellLocator person.locationOfHome
            = .ok ⟨latitude * settings.resolution, longitude * settings.resolution⟩
          ∧ settings.homeIndex person
            = some
              (settings.getPplIndex
                ⟨latitude * settings.resolution, longitude * settings.resolution⟩) := by
  obtain ⟨latitude, row, longitude, column, located⟩ := settings.toCellLocator_of_isValid valid
  refine ⟨latitude, row, longitude, column, located, ?_⟩
  rw [homeIndex, located]
  rfl

variable {settings}

/-- The constructed grid holds nobody. -/
theorem populated_emptyGrid : settings.Populated [] settings.emptyGrid where
  size := rfl
  ordered _ := List.Pairwise.nil
  contents _ := .refl _
  callOrder _ _ := rfl

/-- Adding a person with a home cell succeeds and adds just that person. -/
theorem Populated.addPerson_of_located {people : List Person} {grid : PplGrid} {person : Person}
    {cell : CellLocator} (populated : settings.Populated people grid)
    (located : settings.toCellLocator person.locationOfHome = .ok cell)
    : ∃ next, settings.addPerson grid person = .ok next
        ∧ settings.Populated (people ++ [person]) next := by
  obtain ⟨latitude, row, longitude, column, same⟩ := settings.toCellLocator_degrees located
  have onGrid : settings.OnGrid cell := same ▸ settings.onGrid_of_degrees row column
  have home : settings.homeIndex person = some (settings.getPplIndex cell) := by
    rw [homeIndex, located]
    rfl
  have inside := populated.size ▸ settings.getPplIndex_lt onGrid
  obtain ⟨next, added, size, holds⟩ := populated.addPersonAt home inside
  refine ⟨next, ?_, holds, size.trans populated.size⟩
  rw [Settings.addPerson, located]
  exact added

/-- A valid home has one. -/
theorem Populated.addPerson {people : List Person} {grid : PplGrid} {person : Person}
    (populated : settings.Populated people grid)
    (valid : person.locationOfHome.isValid = true)
    : ∃ next, settings.addPerson grid person = .ok next
        ∧ settings.Populated (people ++ [person]) next := by
  obtain ⟨_, _, _, _, located⟩ := settings.toCellLocator_of_isValid valid
  exact populated.addPerson_of_located located

/-- Any additions that succeed populate the grid with exactly their people, by induction over
them.
-/
theorem populated_of_foldlM {earlier more : List Person} {grid final : PplGrid}
    (populated : settings.Populated earlier grid)
    (added : more.foldlM settings.addPerson grid = .ok final)
    : settings.Populated (earlier ++ more) final := by
  induction more generalizing earlier grid with
  | nil =>
      cases added
      rwa [List.append_nil]
  | cons person rest ih =>
      rw [List.foldlM_cons] at added
      obtain ⟨middle, addedFirst, addedRest⟩ := of_bind_eq_ok added
      obtain ⟨cell, located, _⟩ := of_bind_eq_ok addedFirst
      obtain ⟨next, addedNext, populatedNext⟩ := populated.addPerson_of_located located
      cases addedFirst.symm.trans addedNext
      rw [List.append_cons]
      exact ih populatedNext addedRest

theorem populated_of_populate {people : List Person} {grid : PplGrid}
    (populates : settings.populate people = .ok grid)
    : settings.Populated people grid :=
  populated_of_foldlM populated_emptyGrid populates

/-- Every sequence of additions with valid homes populates a grid with exactly them. -/
theorem populate_of_isValid {people : List Person}
    (valid : ∀ person ∈ people, person.locationOfHome.isValid = true)
    : ∃ grid, settings.populate people = .ok grid ∧ settings.Populated people grid := by
  have empty : settings.Populated [] settings.emptyGrid := populated_emptyGrid
  obtain ⟨final, run, size, holds⟩ := empty.addPeople people
    (fun earlier person member grid sized holds => by
      have populated : settings.Populated earlier grid := ⟨holds, sized⟩
      obtain ⟨next, added, more⟩ := populated.addPerson (valid person member)
      exact ⟨next, added, more.size.trans sized.symm, more.toHolds⟩)
    rfl
  exact ⟨final, run, holds, size⟩

end Settings

namespace Settings

variable (settings : Settings)

/-- What a worker does with a cell: access it and search it. -/
def searchCell (grid : PplGrid) (parameters : PplMatchingParameters) (cell : CellLocator)
    : Except Fault (List Person) := do
  let people ← grid.at (settings.getPplIndex cell)
  settings.findMatchingPplInCell parameters people

/-- The people of a cell born in a window, in cell order. -/
def matchingPpl (grid : PplGrid) (window : Date × Date) (cell : CellLocator) : List Person :=
  (grid.cells (settings.getPplIndex cell)).filter (InWindow window)

variable {settings}

/-- On a populated grid the search of a cell is the filter of the cell, in cell order. -/
theorem Populated.searchCell {people : List Person} {grid : PplGrid}
    {parameters : PplMatchingParameters} {window : Date × Date} {cell : CellLocator}
    (populated : settings.Populated people grid)
    (representable : settings.ageWindow parameters = .ok window)
    (onGrid : settings.OnGrid cell)
    : settings.searchCell grid parameters cell
      = .ok (settings.matchingPpl grid window cell) := by
  have inside : settings.getPplIndex cell < grid.size :=
    populated.size ▸ settings.getPplIndex_lt onGrid
  have accessed : grid.at (settings.getPplIndex cell)
      = .ok (grid.cells (settings.getPplIndex cell)) := if_pos inside
  simp only [Settings.searchCell, accessed, findMatchingPplInCell, representable, bind,
    Except.bind, pure, Except.pure]
  exact congrArg Except.ok (walkWindow_eq_filter (populated.ordered _))

/-- Searching distinct cells that include every home finds each matching person as often
as they were added. Witness: a person's only cell with a nonzero count is their home's.
-/
theorem Populated.flatMap_cells_perm {people : List Person} {grid : PplGrid}
    {cells : List CellLocator} (window : Date × Date)
    (populated : settings.Populated people grid) (distinct : cells.Nodup)
    (onGrid : ∀ cell ∈ cells, settings.OnGrid cell)
    (covering
      : ∀ person ∈ people,
          ∃ cell ∈ cells, settings.homeIndex person = some (settings.getPplIndex cell))
    : (cells.flatMap (settings.matchingPpl grid window)).Perm
        (people.filter (InWindow window)) := by
  rw [List.perm_iff_count]
  intro person
  rw [List.count_flatMap]
  simp only [Function.comp_def, matchingPpl, populated.count_filter]
  by_cases stored : person ∈ people
  · obtain ⟨home, member, located⟩ := covering person stored
    rw [← List.sum_toFinset _ distinct, Finset.sum_eq_single home]
    · rw [if_pos located]
    · intro other otherMember different
      refine if_neg (fun same => different ?_)
      exact settings.getPplIndex_injective (onGrid other (by simpa using otherMember))
        (onGrid home member) (Option.some.inj (same.symm.trans located))
    · intro absent
      exact absurd (by simpa using member) absent
  · have none : (people.filter (InWindow window)).count person = 0 :=
      List.count_eq_zero.mpr (fun member => stored (List.mem_filter.mp member).1)
    simp [none]

end Settings

end PplMe.Engine
