import PplMe.Engine.FindSimulation
import PplMe.Engine.SqiralCoverage

/-! Finds on a populated grid can be answered.
A walk from a valid position offers every cell of the grid that can hold somebody, once, and
each cell's search is a filter.
-/

namespace PplMe.Engine

open PplMe.Core Stepping

section Populated

variable {ι : Type*} {settings : Settings} {people : List Person} {grid : PplGrid}
  {requests : ι → PplMatchingParameters} {windows : ι → Date × Date}

/-- The cells around a located position are distinct and on the grid. -/
theorem sqiralCells_of_located {position : GeoPosition} {origin : CellLocator}
    (located : settings.toCellLocator position = .ok origin)
    : (sqiralCells settings.resolution origin).Nodup
      ∧ ∀ cell ∈ sqiralCells settings.resolution origin, settings.OnGrid cell := by
  obtain ⟨latitude, row, _, _, rfl⟩ := settings.toCellLocator_degrees located
  have inside : latitude * settings.resolution ≤ 181 * settings.resolution :=
    Nat.mul_le_mul_right _ (row.trans (by omega))
  exact ⟨sqiralCells_nodup settings.resolutionPositive inside,
    fun cell member => sqiralCells_onGrid settings.resolutionPositive inside member⟩

/-- They are the walk of a call from there. -/
theorem walk_of_located (finds : Finds ι) {call : ι} {origin : CellLocator}
    (located : finds.settings.toCellLocator (finds.requests call).locationOfUser = .ok origin)
    : finds.walk call = sqiralCells finds.settings.resolution origin := by
  rw [Finds.walk, located]

/-- A valid position is located. -/
theorem walk_of_isValid (finds : Finds ι) {call : ι}
    (valid : (finds.requests call).locationOfUser.isValid = true)
    : ∃ latitude ≤ 180,
        ∃ longitude ≤ 360,
          finds.settings.toCellLocator (finds.requests call).locationOfUser
            = .ok
              ⟨latitude * finds.settings.resolution, longitude * finds.settings.resolution⟩
          ∧ finds.walk call
            = sqiralCells finds.settings.resolution
                ⟨latitude * finds.settings.resolution,
                  longitude * finds.settings.resolution⟩ := by
  obtain ⟨latitude, row, longitude, column, located⟩ :=
    finds.settings.toCellLocator_of_isValid valid
  exact ⟨latitude, row, longitude, column, located, walk_of_located finds located⟩

theorem walk_nodup_of_located (finds : Finds ι) {call : ι} {origin : CellLocator}
    (located : finds.settings.toCellLocator (finds.requests call).locationOfUser = .ok origin)
    : (finds.walk call).Nodup ∧ ∀ cell ∈ finds.walk call, finds.settings.OnGrid cell := by
  rw [walk_of_located finds located]
  exact sqiralCells_of_located located

theorem walk_nodup_onGrid (finds : Finds ι) {call : ι}
    (valid : (finds.requests call).locationOfUser.isValid = true)
    : (finds.walk call).Nodup ∧ ∀ cell ∈ finds.walk call, finds.settings.OnGrid cell := by
  obtain ⟨_, _, _, _, located, _⟩ := walk_of_isValid finds valid
  exact walk_nodup_of_located finds located

section Calls

variable {call : ι} {origin : CellLocator} {window : Date × Date}
  (populated : settings.Populated people grid)
  (located : settings.toCellLocator (requests call).locationOfUser = .ok origin)
  (representable : settings.Representable (requests call) window)

include populated located representable

/-- Each cell of a walk is searched by filtering it. -/
theorem searchCell_of_mem_walk {cell : CellLocator}
    (member : cell ∈ (Finds.mk settings grid requests).walk call)
    : settings.searchCell grid (requests call) cell
      = .ok (settings.matchingPpl grid window cell) :=
  populated.searchCell (GridSettings.ageWindow_of_representable representable)
    ((walk_nodup_of_located ⟨settings, grid, requests⟩ located).2 cell member)

/-- What a call finds in a cell of its walk is the filter of the cell. -/
theorem found_of_mem_walk {cell : CellLocator}
    (member : cell ∈ (Finds.mk settings grid requests).walk call)
    : (Finds.mk settings grid requests).found call cell
      = settings.matchingPpl grid window cell := by
  rw [Finds.found, searchCell_of_mem_walk populated located representable member]

/-- On a populated grid a located call with a representable window can be answered. -/
theorem answersCall_of_populated : (Finds.mk settings grid requests).AnswersCall call where
  located := ⟨origin, located⟩
  distinct := (walk_nodup_of_located ⟨settings, grid, requests⟩ located).1
  searchable cell member := by
    rw [found_of_mem_walk populated located representable member]
    exact searchCell_of_mem_walk populated located representable member

end Calls

/-- The cells of a walk hold everybody in a window: every home is one of them. -/
theorem flatMap_walk_perm {position : GeoPosition} {origin : CellLocator}
    (populated : settings.Populated people grid)
    (homes : ∀ person ∈ people, person.locationOfHome.isValid = true)
    (located : settings.toCellLocator position = .ok origin) (window : Date × Date)
    : ((sqiralCells settings.resolution origin).flatMap (settings.matchingPpl grid window)).Perm
        (people.filter (InWindow window)) := by
  obtain ⟨distinct, onGrid⟩ := sqiralCells_of_located located
  refine populated.flatMap_cells_perm window distinct onGrid fun person member => ?_
  obtain ⟨_, homeRow, _, homeColumn, _, home⟩ :=
    Settings.homeIndex_of_isValid settings (homes person member)
  obtain ⟨_, row, _, column, rfl⟩ := settings.toCellLocator_degrees located
  exact ⟨_, degrees_mem_sqiralCells settings.resolutionPositive row column homeRow homeColumn, home⟩

variable (populated : settings.Populated people grid)
  (users : ∀ call, (requests call).locationOfUser.isValid = true)
  (representable : ∀ call, settings.Representable (requests call) (windows call))

include populated users representable

/-- So all valid calls can. -/
theorem answerable_of_populated : (Finds.mk settings grid requests).Answerable := by
  intro call
  obtain ⟨_, _, _, _, located, _⟩ := walk_of_isValid ⟨settings, grid, requests⟩ (users call)
  exact answersCall_of_populated populated located (representable call)

/-- What a walk finds is what its cells hold, cell by cell. -/
theorem walk_found_eq (call : ι)
    : ((Finds.mk settings grid requests).walk call).flatMap
          ((Finds.mk settings grid requests).found call)
      = ((Finds.mk settings grid requests).walk call).flatMap
          (settings.matchingPpl grid (windows call)) := by
  obtain ⟨_, _, _, _, located, _⟩ := walk_of_isValid ⟨settings, grid, requests⟩ (users call)
  exact List.flatMap_congr fun _ member =>
    found_of_mem_walk populated located (representable call) member

/-- All that a walk can find is everybody in the window: every home is a cell of the walk. -/
theorem walk_found_perm (homes : ∀ person ∈ people, person.locationOfHome.isValid = true)
    (call : ι)
    : (((Finds.mk settings grid requests).walk call).flatMap
          ((Finds.mk settings grid requests).found call)).Perm
        (people.filter (InWindow (windows call))) := by
  obtain ⟨_, _, _, _, located, walked⟩ := walk_of_isValid ⟨settings, grid, requests⟩ (users call)
  rw [walk_found_eq populated users representable call, walked]
  exact flatMap_walk_perm populated homes located (windows call)

end Populated

/-- One cell per degree, ages five years apart, two people, and one cell at a time. -/
def smallSettings : Settings where
  toGridSettings := wholeDegrees
  maxPpl := 2
  perFindConcurrency := 1
  maxPplPositive := by decide
  perFindConcurrencyPositive := Nat.one_pos

theorem islander_populates : ∃ grid, smallSettings.populate [islander] = .ok grid := by
  obtain ⟨grid, populates, _⟩ := @Settings.populate_of_isValid smallSettings [islander]
    fun _ member => List.mem_singleton.mp member ▸ nullIsland_isValid
  exact ⟨grid, populates⟩

theorem islandRequest_representable
    : smallSettings.Representable islandRequest islandWindow := by
  constructor <;> rfl

end PplMe.Engine
