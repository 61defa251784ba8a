import PplMe.Engine.NearbyCells
import PplMe.Engine.PrototypeReturns
import Mathlib.Algebra.BigOperators.Group.List.Basic

/-! When a prototype find returns exactly the matching people near the user.
A person is found as often as inspected cells share the slot of the person's home, so a find is
exact where each matching person's slot is shared by exactly one inspected cell.
-/

namespace PplMe.Engine

open PplMe.Core Failures OrderedLists Stepping

namespace PrototypeSettings

section Populated

variable (settings : PrototypeSettings)

/-- The index of the cell a person is stored in, if their home is on the map. -/
def homeIndex (person : Person) : Option Nat :=
  (settings.toCellLocator person.locationOfHome).toOption.map getPplIndex

/-- The grid is the prototype's and holds exactly the given people, each in the cell of their
home.
-/
structure Populated (people : List Person) (grid : PplGrid) : Prop
    extends grid.Holds settings.homeIndex people where
  size : grid.size = calculateSizeForPplGrid settings.resolution

variable {settings}

/-- Rows and columns of the map have indices below the grid's size, without wrapping. -/
theorem getPplIndex_lt {cell : CellLocator}
    (row : cell.latitudeIndex ≤ 180 * settings.resolution)
    (column : cell.longitudeIndex ≤ 360 * settings.resolution)
    : getPplIndex cell < calculateSizeForPplGrid settings.resolution := by
  have admitted := settings.resolutionAdmitted
  have positive := settings.resolutionPositive
  have size : calculateSizeForPplGrid settings.resolution
      = (180 * settings.resolution + 2) * (360 * settings.resolution + 2) := by
    unfold calculateSizeForPplGrid kMaxLatitudeDegrees kMinLatitudeDegrees
      kMaxLongitudeDegrees kMinLongitudeDegrees
    rfl
  have small : cell.latitudeIndex * 360 + cell.longitudeIndex < 2 ^ 64 := by omega
  rw [size, getPplIndex, Nat.mod_eq_of_lt small]
  nlinarith

/-- A person with a valid home has a home cell on the grid. -/
theorem homeIndex_of_isValid {person : Person} (valid : person.locationOfHome.isValid = true)
    : ∃ cell, settings.toCellLocator person.locationOfHome = .ok cell
        ∧ settings.homeIndex person = some (getPplIndex cell)
        ∧ getPplIndex cell < calculateSizeForPplGrid settings.resolution := by
  obtain ⟨latitude, row, longitude, column, located⟩ := settings.toCellLocator_of_isValid valid
  refine ⟨_, located, ?_, getPplIndex_lt ?_ ?_⟩
  · rw [homeIndex, located]
    rfl
  · exact Nat.mul_le_mul_right _ row
  · exact Nat.mul_le_mul_right _ column

/-- Adding a person with a valid home succeeds and adds just that person. -/
theorem Populated.addPerson {people : List Person} {grid : PplGrid} {person : Person}
    (populated : settings.Populated people grid)
    (valid : person.locationOfHome.isValid = true)
    : ∃ next, settings.addPerson grid person = .ok next
        ∧ settings.Populated (people ++ [person]) next := by
  obtain ⟨cell, located, home, inside⟩ := @homeIndex_of_isValid settings _ valid
  obtain ⟨next, added, size, holds⟩ := populated.addPersonAt home (populated.size ▸ inside)
  refine ⟨next, ?_, holds, size.trans populated.size⟩
  rw [PrototypeSettings.addPerson, located]
  exact added

/-- Every sequence of additions with valid homes populates a grid with exactly them. -/
theorem populate_of_isValid {people : List Person}
    (valid : ∀ person ∈ people, person.locationOfHome.isValid = true)
    : ∃ grid, settings.populate people = .ok grid ∧ settings.Populated people grid := by
  have empty : settings.Populated [] settings.emptyGrid :=
    ⟨⟨fun _ => List.Pairwise.nil, fun _ => .refl _, fun _ _ => rfl⟩, rfl⟩
  obtain ⟨final, run, size, holds⟩ := empty.addPeople people
    (fun earlier person member grid sized holds => by
      have populated : settings.Populated earlier grid := ⟨holds, sized⟩
      obtain ⟨next, added, more⟩ := populated.addPerson (valid person member)
      exact ⟨next, added, more.size.trans sized.symm, more.toHolds⟩)
    rfl
  exact ⟨final, run, holds, size⟩

end Populated

section Matching

variable (settings : PrototypeSettings)

/-- Born in the window, and with a home near the user. -/
def Matches (window : Date × Date) (user : GeoPosition) (person : Person) : Prop :=
  InWindow window person ∧ settings.isNear user person.locationOfHome = true

instance (window : Date × Date) (user : GeoPosition)
    : DecidablePred (settings.Matches window user) :=
  fun _ => inferInstanceAs (Decidable (_ ∧ _))

/-- The matching people of a cell, in cell order. -/
def matchingPpl (grid : PplGrid) (window : Date × Date) (user : GeoPosition) (cell : CellLocator)
    : List Person :=
  (grid.cells (getPplIndex cell)).filter (settings.Matches window user)

variable {settings} {people : List Person} {grid : PplGrid} {parameters : PplMatchingParameters}
  {window : Date × Date} {origin : Origin}

/-- In a cell that is in order, the walk and the distances make a filter. -/
theorem findMatchingPplInCell_eq {cell : List Person}
    (representable : settings.Representable parameters window)
    (ordered : InOrder Person.dateOfBirth cell)
    : settings.findMatchingPplInCell parameters cell
      = .ok (cell.filter (settings.Matches window parameters.locationOfUser)) := by
  simp only [findMatchingPplInCell, GridSettings.ageWindow_of_representable representable, bind,
    Except.bind, pure, Except.pure, walkWindow_eq_filter ordered, List.filter_filter]
  refine congrArg Except.ok (List.filter_congr fun person _ => ?_)
  rw [Bool.eq_iff_iff, Bool.and_eq_true, decide_eq_true_eq, decide_eq_true_eq]
  exact and_comm

/-- On a populated grid the search of a cell of the map is the filter of the cell, in order. -/
theorem Populated.searchCell {cell : CellLocator} (populated : settings.Populated people grid)
    (representable : settings.Representable parameters window)
    (row : cell.latitudeIndex ≤ 180 * settings.resolution)
    (column : cell.longitudeIndex ≤ 360 * settings.resolution)
    : settings.searchCell grid parameters cell
      = .ok (settings.matchingPpl grid window parameters.locationOfUser cell) := by
  have accessed : grid.at (getPplIndex cell) = .ok (grid.cells (getPplIndex cell)) :=
    if_pos (populated.size ▸ getPplIndex_lt row column)
  rw [PrototypeSettings.searchCell, accessed, matchingPpl]
  exact findMatchingPplInCell_eq representable (populated.ordered _)

/-- Adding up a number over some cells multiplies it by how many satisfy a predicate. -/
theorem sum_map_ite (cells : List CellLocator) (selected : CellLocator → Bool) (amount : Nat)
    : (cells.map (fun cell => if selected cell then amount else 0)).sum
      = cells.countP selected * amount := by
  induction cells with
  | nil => simp
  | cons cell rest ih =>
      rw [List.map_cons, List.sum_cons, ih, List.countP_cons]
      split <;> ring

/-- A person is found as often as inspected cells share their slot. -/
theorem Populated.count_flatMap (populated : settings.Populated people grid)
    (cells : List CellLocator) (user : GeoPosition) {person : Person} {index : Nat}
    (home : settings.homeIndex person = some index)
    : (cells.flatMap (settings.matchingPpl grid window user)).count person
      = cells.countP (fun cell => getPplIndex cell = index)
        * (people.filter (settings.Matches window user)).count person := by
  rw [List.count_flatMap, ← sum_map_ite]
  refine congrArg List.sum (List.map_congr_left fun cell _ => ?_)
  rw [Function.comp_apply, matchingPpl, populated.count_filter, home]
  simp [eq_comm]

end Matching

section Once

/-- Exactly one of the inspected cells shares the slot of the person's home. -/
def FoundOnce (settings : PrototypeSettings) (origin : Origin) (person : Person) : Prop :=
  ∃ index, settings.homeIndex person = some index
    ∧ ∃! cell, settings.Inspects origin cell ∧ getPplIndex cell = index

variable {settings : PrototypeSettings} {people : List Person} {grid : PplGrid}
  {window : Date × Date} {user : GeoPosition} {origin : Origin}

/-- One item of a list without repetitions is selected when there is a unique one. -/
theorem countP_eq_one_iff {cells : List CellLocator} (distinct : cells.Nodup)
    (selected : CellLocator → Bool)
    : cells.countP selected = 1 ↔ ∃! cell, cell ∈ cells ∧ selected cell = true := by
  have filtered := distinct.filter selected
  rw [List.countP_eq_length_filter, List.length_eq_one_iff]
  constructor
  · rintro ⟨cell, only⟩
    have members (other : CellLocator) : other ∈ cells ∧ selected other = true ↔ other = cell := by
      rw [← List.mem_filter, only, List.mem_singleton]
    exact ⟨cell, (members cell).mpr rfl, fun other => (members other).mp⟩
  · rintro ⟨cell, here, unique⟩
    refine ⟨cell, List.perm_singleton.mp ?_⟩
    refine (List.perm_ext_iff_of_nodup filtered (List.nodup_singleton cell)).mpr fun other => ?_
    rw [List.mem_filter, List.mem_singleton]
    exact ⟨unique other, fun same => same ▸ here⟩

/-- The cells inspected from a place on the map hold the matching people, each as often as they
were added, exactly where each of them is found once.
-/
theorem Populated.inspected_perm_iff (populated : settings.Populated people grid)
    (homes : ∀ person ∈ people, person.locationOfHome.isValid = true)
    (onMap : origin.OnMap settings)
    : ((origin.cell :: settings.nearbyCells origin).flatMap
          (settings.matchingPpl grid window user)).Perm
        (people.filter (settings.Matches window user))
      ↔ ∀ person ∈ people, settings.Matches window user person
          → settings.FoundOnce origin person := by
  have once {person : Person} {index : Nat} (home : settings.homeIndex person = some index)
      : settings.FoundOnce origin person
        ↔ (origin.cell :: settings.nearbyCells origin).countP
            (fun cell => getPplIndex cell = index) = 1 := by
    rw [countP_eq_one_iff (inspected_nodup onMap), FoundOnce]
    simp only [home, Option.some.injEq, exists_eq_left', mem_inspected onMap,
      decide_eq_true_eq]
  rw [List.perm_iff_count]
  constructor
  · intro same person member matching
    obtain ⟨_, _, home, _⟩ := @homeIndex_of_isValid settings _ (homes person member)
    have found : 0 < (people.filter (settings.Matches window user)).count person :=
      List.count_pos_iff.mpr (List.mem_filter.mpr ⟨member, by simpa using matching⟩)
    have counted := same person
    rw [populated.count_flatMap _ user home] at counted
    exact (once home).mpr (Nat.eq_of_mul_eq_mul_right found (by rw [counted, one_mul]))
  · intro eachOnce person
    by_cases member : person ∈ people.filter (settings.Matches window user)
    · obtain ⟨stored, matching⟩ := List.mem_filter.mp member
      obtain ⟨_, _, home, _⟩ := @homeIndex_of_isValid settings _ (homes person stored)
      have single := (once home).mp (eachOnce person stored (by simpa using matching))
      rw [populated.count_flatMap _ user home, single, one_mul]
    · rw [List.count_eq_zero.mpr member]
      refine List.count_eq_zero.mpr (fun found => member ?_)
      obtain ⟨cell, _, inCell⟩ := List.mem_flatMap.mp found
      obtain ⟨held, matching⟩ := List.mem_filter.mp inCell
      have stored := (populated.contents _).mem_iff.mp held
      exact List.mem_filter.mpr ⟨(List.mem_filter.mp stored).1, matching⟩

end Once

end PrototypeSettings

-----------------------------------------------------------------------------------------
-- What a find does by itself
-----------------------------------------------------------------------------------------

section Finds

variable {ι : Type*} {finds : PrototypeFinds ι} {people : List Person} {call : ι}
  {window : Date × Date} {origin : Origin}

/-- A find searches the user's cell and lists the nearby cells; its walks end. -/
theorem beginFind_of_populated (populated : finds.settings.Populated people finds.grid)
    (located : finds.settings.locate (finds.requests call).locationOfUser = .ok origin)
    (onMap : origin.OnMap finds.settings)
    (representable : finds.settings.Representable (finds.requests call) window)
    : finds.beginFind call
      = .ok
        (some
          (finds.settings.matchingPpl finds.grid window (finds.requests call).locationOfUser
            origin.cell,
          finds.settings.nearbyCells origin)) := by
  have searched := populated.searchCell representable onMap.row onMap.column
  simp only [PrototypeFinds.beginFind, located, searched,
    PrototypeSettings.getNearbyCells_eq onMap, bind, Except.bind, pure, Except.pure,
    Option.map_some]

/-- Each nearby cell can be searched, and the search finds the cell's matching people. -/
theorem searchCell_of_nearby (populated : finds.settings.Populated people finds.grid)
    (onMap : origin.OnMap finds.settings)
    (representable : finds.settings.Representable (finds.requests call) window)
    {cell : CellLocator} (nearby : cell ∈ finds.settings.nearbyCells origin)
    : finds.settings.searchCell finds.grid (finds.requests call) cell
      = .ok
        (finds.settings.matchingPpl finds.grid window (finds.requests call).locationOfUser
          cell) := by
  have inspected := (PrototypeSettings.mem_inspected onMap).mp (List.mem_cons_of_mem _ nearby)
  obtain ⟨row, column⟩ := inspected.bounds onMap
  exact populated.searchCell representable row column

/-- What a find in time returns are the matching people of all cells it inspects. -/
theorem perm_of_returned {ω : Type*} [DecidableEq ι] [DecidableEq ω] [Fintype ω]
    {state : PrototypeState ι ω} {ppl : List Person}
    (populated : finds.settings.Populated people finds.grid)
    (located : finds.settings.locate (finds.requests call).locationOfUser = .ok origin)
    (onMap : origin.OnMap finds.settings)
    (representable : finds.settings.Representable (finds.requests call) window)
    (reached : ReachedBy (finds.machine ω) (InTime call) state)
    (returned : (state.calls call).pc = .returned ppl)
    : ppl.Perm
        ((origin.cell :: finds.settings.nearbyCells origin).flatMap
          (finds.settings.matchingPpl finds.grid window
            (finds.requests call).locationOfUser)) := by
  obtain ⟨delivered, perm, rfl⟩ := returned_of_inTime reached returned
  have begun : finds.begun call
      = (finds.settings.matchingPpl finds.grid window (finds.requests call).locationOfUser
          origin.cell,
        finds.settings.nearbyCells origin) := by
    rw [PrototypeFinds.begun, beginFind_of_populated populated located onMap representable]
  have found {cell : CellLocator} (nearby : cell ∈ finds.settings.nearbyCells origin)
      : finds.found call cell
        = finds.settings.matchingPpl finds.grid window (finds.requests call).locationOfUser
            cell := by
    rw [PrototypeFinds.found, searchCell_of_nearby populated onMap representable nearby]
  simp only [PrototypeFinds.job, begun] at perm ⊢
  rw [List.flatMap_cons]
  refine List.Perm.append_left _ ((perm.flatMap_right _).trans ?_)
  rw [List.flatMap_congr fun cell nearby => found nearby]

/-- A find that has returned had a window: without one its first search ends the process. -/
theorem representable_of_begun {begun : List Person × List CellLocator}
    (began : finds.beginFind call = .ok (some begun))
    : ∃ window, finds.settings.Representable (finds.requests call) window := by
  obtain ⟨origin, _, began⟩ := of_bind_eq_ok began
  obtain ⟨ppl, searched, _⟩ := of_bind_eq_ok began
  obtain ⟨cell, _, searched⟩ := of_bind_eq_ok searched
  obtain ⟨window, computed, _⟩ := of_bind_eq_ok searched
  exact ⟨window, GridSettings.ageWindow_eq_ok_iff.mp computed⟩

end Finds

-----------------------------------------------------------------------------------------
-- Exactness
-----------------------------------------------------------------------------------------

/-- A find whose cells are all searched in time returns each matching person once and nobody
else exactly where each matching person is found once. Given an age window, the find's own
part and the search of each nearby cell come to their ends.
-/
theorem prototype_exact_iff {ι ω : Type*} [DecidableEq ι] [DecidableEq ω] [Fintype ω]
    {settings : PrototypeSettings} {people : List Person} {requests : ι → PplMatchingParameters}
    (homes : ∀ person ∈ people, person.locationOfHome.isValid = true)
    : ∃ grid, settings.populate people = .ok grid
        ∧ ∀ call, (requests call).locationOfUser.isValid = true
          → ∃ origin, settings.locate (requests call).locationOfUser = .ok origin
            ∧ (∀ window, settings.ageWindow (requests call) = .ok window
              → ∃ ppl cells,
                (PrototypeFinds.mk settings grid requests).beginFind call
                  = .ok (some (ppl, cells))
                ∧ ∀ cell ∈ cells, ∃ found,
                    settings.searchCell grid (requests call) cell = .ok found)
            ∧ ∀ state ppl,
              ReachedBy ((PrototypeFinds.mk settings grid requests).machine ω) (InTime call)
                state
              → (state.calls call).pc = .returned ppl
              → ∃ window, settings.ageWindow (requests call) = .ok window
                ∧ (ppl.Perm
                    (people.filter
                      (settings.Matches window (requests call).locationOfUser))
                  ↔ ∀ person ∈ people,
                    settings.Matches window (requests call).locationOfUser person
                    → settings.FoundOnce origin person) := by
  obtain ⟨grid, populates, populated⟩ := PrototypeSettings.populate_of_isValid homes
  refine ⟨grid, populates, fun call user => ?_⟩
  obtain ⟨origin, located, onMap⟩ := @PrototypeSettings.locate_of_isValid settings _ user
  let finds : PrototypeFinds ι := ⟨settings, grid, requests⟩
  have stored : finds.settings.Populated people finds.grid := populated
  refine ⟨origin, located, fun window computed => ?_, fun state ppl reached returned => ?_⟩
  · have representable := GridSettings.ageWindow_eq_ok_iff.mp computed
    refine ⟨_, _, beginFind_of_populated stored located onMap representable, ?_⟩
    exact fun cell nearby => ⟨_, searchCell_of_nearby stored onMap representable nearby⟩
  · obtain ⟨_, begun⟩ := (begun_of_reached reached.reached call).resolve_left
      (fun idle => by cases returned.symm.trans idle)
    obtain ⟨window, representable⟩ := representable_of_begun begun
    have same := perm_of_returned stored located onMap representable reached returned
    refine ⟨window, GridSettings.ageWindow_eq_ok_iff.mpr representable, ?_⟩
    rw [← populated.inspected_perm_iff homes onMap]
    exact ⟨same.symm.trans, same.trans⟩

-----------------------------------------------------------------------------------------
-- A neighbour to the south
-----------------------------------------------------------------------------------------

/-- Somebody just south of the equator. -/
def southerner : Person :=
  { islander with locationOfHome := ⟨.finite (-1 / 8), .finite (1 / 2)⟩ }

/-- A request from just north of it, and the window it asks for. -/
def northernRequest : PplMatchingParameters := ⟨⟨.finite (1 / 8), .finite (1 / 2)⟩, 25⟩

def northernWindow : Date × Date := islandWindow

def southernGrid : PplGrid := shortRange.emptyGrid.put (89 * 360 + 180) [southerner]

theorem southerner_isValid : southerner.locationOfHome.isValid = true := by decide +kernel

theorem northernRequest_isValid : northernRequest.locationOfUser.isValid = true := by
  decide +kernel

theorem populate_southerner : shortRange.populate [southerner] = .ok southernGrid := by
  have home : shortRange.toCellLocator southerner.locationOfHome = .ok ⟨89, 180⟩ := by
    decide +kernel
  rw [PrototypeSettings.populate, List.foldlM_cons, PrototypeSettings.addPerson, home]
  rfl

/-- The neighbour is 27.5 kilometers away in the cell to the south, and no nearby cell is
searched for them.
-/
theorem prototype_misses_southerner
    : shortRange.populate [southerner] = .ok southernGrid
      ∧ northernRequest.locationOfUser.isValid = true
      ∧ shortRange.ageWindow northernRequest = .ok northernWindow
      ∧ shortRange.Matches northernWindow northernRequest.locationOfUser southerner
      ∧ ∃ state : PrototypeState Unit (Fin 1),
          ReachedBy
            ((PrototypeFinds.mk shortRange southernGrid (fun _ => northernRequest)).machine
              (Fin 1))
            (InTime ()) state
          ∧ (state.calls ()).pc = .returned [] := by
  have begun : (PrototypeFinds.mk shortRange southernGrid
      (fun _ : Unit => northernRequest)).beginFind () = .ok (some ([], [])) := by
    decide +kernel
  refine ⟨populate_southerner, northernRequest_isValid, ?_, ?_, ?_⟩
  · exact GridSettings.ageWindow_of_representable ⟨rfl, rfl⟩
  · exact ⟨by decide, by decide +kernel⟩
  · refine ⟨PrototypeState.start.setCall ()
        { PrototypeState.start.calls () with ppl := [], pc := .firstCell [] [] },
      .next (.run (.caller ())) .start (fun _ early => nomatch early) ?_, ?_⟩
    · simp only [PrototypeFinds.machine, PrototypeFinds.step, PrototypeState.start,
        PrototypeFinds.findMatchingPplStep, begun]
    · rfl

/-- The find that misses the neighbour, by the same account. -/
theorem prototype_exact_iff_southerner
    : ∃ grid origin,
        shortRange.populate [southerner] = .ok grid
        ∧ shortRange.locate northernRequest.locationOfUser = .ok origin
        ∧ ∀ (state : PrototypeState Unit (Fin 1)) (ppl : List Person),
          ReachedBy
            ((PrototypeFinds.mk shortRange grid (fun _ => northernRequest)).machine (Fin 1))
            (InTime ()) state
          → (state.calls ()).pc = .returned ppl
          → ∃ window, shortRange.ageWindow northernRequest = .ok window
            ∧ (ppl.Perm
                ([southerner].filter
                  (shortRange.Matches window northernRequest.locationOfUser))
              ↔ ∀ person ∈ [southerner],
                shortRange.Matches window northernRequest.locationOfUser person
                → shortRange.FoundOnce origin person) := by
  obtain ⟨grid, populates, exact_iff⟩ := @prototype_exact_iff Unit (Fin 1) _ _ _
    shortRange [southerner] (fun _ => northernRequest)
    (fun _ member => List.mem_singleton.mp member ▸ southerner_isValid)
  obtain ⟨origin, located, _, results⟩ := exact_iff () northernRequest_isValid
  exact ⟨grid, origin, populates, located, results⟩

end PplMe.Engine
