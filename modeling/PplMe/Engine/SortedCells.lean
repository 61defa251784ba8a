import PplMe.Engine.FindsOnGrid
import PplMe.Engine.PrototypeExactness

/-! What both providers rely on within a cell: additions keep it sorted, stably, and in a sorted
cell the walk from the lower bound on finds what a filter finds.
-/

namespace PplMe.Engine

open PplMe.Core OrderedLists

/-- In a cell that is in order, the walk of the matching provider is a filter by age. -/
theorem Settings.findMatchingPplInCell_eq {settings : Settings}
    {parameters : PplMatchingParameters} {window : Date × Date} {cell : List Person}
    (representable : settings.Representable parameters window)
    (ordered : InOrder Person.dateOfBirth cell)
    : settings.findMatchingPplInCell parameters cell = .ok (cell.filter (InWindow window)) := by
  simp only [findMatchingPplInCell, GridSettings.ageWindow_of_representable representable, bind,
    Except.bind, pure, Except.pure]
  exact congrArg Except.ok (walkWindow_eq_filter ordered)

/-- Any additions with valid homes leave every cell with the people who live there, once for
each call, by date of birth and otherwise in the order of the calls; and in every such cell
either provider's search for a representable window is the filter by that window.
-/
theorem sortedCells {settings : Settings} {prototype : PrototypeSettings} {people : List Person}
    (homes : ∀ person ∈ people, person.locationOfHome.isValid = true)
    : (∃ grid, settings.populate people = .ok grid
        ∧ grid.Holds settings.homeIndex people
        ∧ ∀ (asked : Settings) parameters window index,
            asked.Representable parameters window
            → asked.findMatchingPplInCell parameters (grid.cells index)
              = .ok ((grid.cells index).filter (InWindow window)))
      ∧ ∃ grid, prototype.populate people = .ok grid
        ∧ grid.Holds prototype.homeIndex people
        ∧ ∀ (asked : PrototypeSettings) parameters window index,
            asked.Representable parameters window
            → asked.findMatchingPplInCell parameters (grid.cells index)
              = .ok
                ((grid.cells index).filter (asked.Matches window parameters.locationOfUser)) := by
  obtain ⟨grid, populates, populated⟩ := @Settings.populate_of_isValid settings _ homes
  obtain ⟨other, otherPopulates, otherPopulated⟩ :=
    @PrototypeSettings.populate_of_isValid prototype _ homes
  refine ⟨⟨grid, populates, populated.toHolds, ?_⟩, other, otherPopulates,
    otherPopulated.toHolds, ?_⟩
  · intro asked parameters window index representable
    exact Settings.findMatchingPplInCell_eq representable (populated.ordered index)
  · intro asked parameters window index representable
    exact PrototypeSettings.findMatchingPplInCell_eq representable
      (otherPopulated.ordered index)

/-- Two people in different cells, added twice each. -/
theorem sortedCells_islanders
    : (∃ grid, smallSettings.populate [islander, southerner, islander, southerner] = .ok grid
        ∧ grid.Holds smallSettings.homeIndex [islander, southerner, islander, southerner]
        ∧ ∀ (asked : Settings) parameters window index,
            asked.Representable parameters window
            → asked.findMatchingPplInCell parameters (grid.cells index)
              = .ok ((grid.cells index).filter (InWindow window)))
      ∧ ∃ grid, shortRange.populate [islander, southerner, islander, southerner] = .ok grid
        ∧ grid.Holds shortRange.homeIndex [islander, southerner, islander, southerner]
        ∧ ∀ (asked : PrototypeSettings) parameters window index,
            asked.Representable parameters window
            → asked.findMatchingPplInCell parameters (grid.cells index)
              = .ok
                ((grid.cells index).filter
                  (asked.Matches window parameters.locationOfUser)) := by
  refine sortedCells (fun person member => ?_)
  simp only [List.mem_cons, List.not_mem_nil, or_false] at member
  rcases member with rfl | rfl | rfl | rfl
  · exact nullIsland_isValid
  · exact southerner_isValid
  · exact nullIsland_isValid
  · exact southerner_isValid

end PplMe.Engine
