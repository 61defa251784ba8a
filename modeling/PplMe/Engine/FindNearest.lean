import PplMe.Engine.FindExactness
import PplMe.Foundation.Overtaking

/-! How near the people that a find returns are.
Cells are offered nearest first, but they complete in any order. With so many cells pending at a
time, no more than these can be passed by in favour of a farther one.
-/

namespace PplMe.Engine

open PplMe.Core Stepping

section Reached

variable {ι ω : Type*} [DecidableEq ι] [DecidableEq ω] [Fintype ω] {finds : Finds ι}

/-- In every reachable state each call's cells are settled in order, but for the pending ones. -/
theorem bounded_of_reached {state : FindState ι ω} (reached : Reached (finds.machine ω) state)
    (call : ι)
    : Gathering.Bounded (finds.job call) (finds.gather state call) := by
  let settles (gathers : ι → Gathering.Gather CellLocator Person) : Prop :=
    ∀ call, Gathering.Bounded (finds.job call) (gathers call)
  refine ((simulates.strengthen settles).invariant ?_ ?_ reached).2 call
  · constructor <;> intro call <;> rw [gather_start]
    · exact Gathering.valid_start _
    · exact Gathering.bounded_start _
  · intro before after holds stepped
    exact ⟨stepped.invariant (fun _ _ _ => Gathering.Valid.step) holds.1,
      stepped.invariant (fun _ _ _ => Gathering.Bounded.step) holds.2⟩

end Reached

section Cells

variable {ι : Type*} {settings : Settings} {people : List Person} {grid : PplGrid}
  {requests : ι → PplMatchingParameters} {windows : ι → Date × Date} {call : ι}

/-- Who is found in a cell of the walk lives there. -/
theorem home_of_found (populated : settings.Populated people grid)
    (homes : ∀ person ∈ people, person.locationOfHome.isValid = true)
    (users : ∀ call, (requests call).locationOfUser.isValid = true)
    (representable : ∀ call, settings.Representable (requests call) (windows call))
    {cell : CellLocator} {person : Person}
    (member : cell ∈ (Finds.mk settings grid requests).walk call)
    (found : person ∈ (Finds.mk settings grid requests).found call cell)
    : settings.toCellLocator person.locationOfHome = .ok cell := by
  obtain ⟨_, _, _, _, asked, _⟩ := walk_of_isValid ⟨settings, grid, requests⟩ (users call)
  rw [found_of_mem_walk populated asked (representable call) member, Settings.matchingPpl] at found
  have stored := (populated.contents _).subset (List.mem_of_mem_filter found)
  obtain ⟨known, indexed⟩ := List.mem_filter.mp stored
  obtain ⟨latitude, row, longitude, column, located, home⟩ :=
    settings.homeIndex_of_isValid (homes person known)
  have same := Option.some.inj (home.symm.trans (of_decide_eq_true indexed))
  have onGrid := (walk_nodup_onGrid ⟨settings, grid, requests⟩ (users call)).2 cell member
  rw [located, settings.getPplIndex_injective (settings.onGrid_of_degrees row column) onGrid same]

/-- The cells of a walk that are offered before others are no farther. -/
theorem cellDistance_of_walk (users : ∀ call, (requests call).locationOfUser.isValid = true)
    {offered later : List CellLocator}
    (split : (Finds.mk settings grid requests).walk call = offered ++ later)
    : ∃ origin, settings.toCellLocator (requests call).locationOfUser = .ok origin
        ∧ ∀ earlier ∈ offered, ∀ cell ∈ later,
            cellDistance settings.resolution origin earlier
            ≤ cellDistance settings.resolution origin cell := by
  obtain ⟨latitude, row, longitude, _, located, walked⟩ :=
    walk_of_isValid ⟨settings, grid, requests⟩ (users call)
  refine ⟨_, located, ?_⟩
  have inside : latitude * settings.resolution ≤ 181 * settings.resolution :=
    Nat.mul_le_mul_right _ (row.trans (by omega))
  have nearer := @sqiralCells_pairwise settings.resolution
    ⟨latitude * settings.resolution, longitude * settings.resolution⟩
    settings.resolutionPositive inside
  rw [← walked, split] at nearer
  exact (List.pairwise_append.mp nearer).2.2

end Cells

/-- Whatever the schedule, a call that returns has passed by no more cells than may be pending at a
time: whoever matches, but is not returned as often as stored, lives in one of these or at least
as far away as everybody who is returned, counted in cells.
-/
theorem findMatchingPpl_nearest {ι ω : Type*} [DecidableEq ι] [DecidableEq ω] [Fintype ω]
    {settings : Settings} {people : List Person} {requests : ι → PplMatchingParameters}
    {windows : ι → Date × Date}
    (homes : ∀ person ∈ people, person.locationOfHome.isValid = true)
    (users : ∀ call, (requests call).locationOfUser.isValid = true)
    (representable : ∀ call, settings.Representable (requests call) (windows call))
    : ∃ grid, settings.populate people = .ok grid
        ∧ ∀ state, Reached ((Finds.mk settings grid requests).machine ω) state
          → ∀ call ppl, state.callers call = .returned ppl
            → ∃ origin, settings.toCellLocator (requests call).locationOfUser = .ok origin
              ∧ ∃ overtaken : Multiset CellLocator,
                overtaken.card ≤ settings.perFindConcurrency
                ∧ ∀ person,
                  ppl.count person < (people.filter (InWindow (windows call))).count person
                  → ∃ cell, settings.toCellLocator person.locationOfHome = .ok cell
                    ∧ (cell ∈ overtaken
                      ∨ ∀ other ∈ ppl,
                        ∃ otherCell,
                          settings.toCellLocator other.locationOfHome = .ok otherCell
                          ∧ cellDistance settings.resolution origin otherCell
                            ≤ cellDistance settings.resolution origin cell) := by
  obtain ⟨grid, populates, populated⟩ := Settings.populate_of_isValid homes
  refine ⟨grid, populates, fun state reached call ppl returned => ?_⟩
  obtain ⟨offered, later, overtaken, returns⟩ :=
    (bounded_of_reached reached call).returns (result_of_returned returned)
  have split : (Finds.mk settings grid requests).walk call = offered ++ later := returns.keys
  have livesIn {cell : CellLocator} {person : Person} (onWalk : cell ∈ offered ++ later)
      (found : person ∈ (Finds.mk settings grid requests).found call cell)
      : settings.toCellLocator person.locationOfHome = .ok cell :=
    home_of_found populated homes users representable (split ▸ onWalk) found
  obtain ⟨origin, located, nearer⟩ := cellDistance_of_walk users split
  refine ⟨origin, located, overtaken, returns.few, fun person missing => ?_⟩
  rw [← (walk_found_perm populated users representable homes call).count_eq] at missing
  obtain ⟨cell, among, found⟩ := returns.missing missing
  rcases among with passed | farther
  · have onWalk : cell ∈ offered ++ later :=
      List.mem_append_left later (Multiset.mem_of_le returns.among passed)
    exact ⟨cell, livesIn onWalk found, .inl passed⟩
  · refine ⟨cell, livesIn (List.mem_append_right offered farther) found,
      .inr fun other member => ?_⟩
    obtain ⟨otherCell, early, otherFound⟩ := returns.returned other member
    exact ⟨otherCell, livesIn (List.mem_append_left later early) otherFound,
      nearer otherCell early cell farther⟩

/-- Two calls on two workers that look for one islander. -/
theorem findMatchingPpl_nearest_islander
    : ∃ grid, smallSettings.populate [islander] = .ok grid
        ∧ ∀ state, Reached ((Finds.mk smallSettings grid
              (fun _ : Fin 2 => islandRequest)).machine (Fin 2)) state
          → ∀ call ppl, state.callers call = .returned ppl
            → ∃ origin, smallSettings.toCellLocator islandRequest.locationOfUser = .ok origin
              ∧ ∃ overtaken : Multiset CellLocator,
                overtaken.card ≤ smallSettings.perFindConcurrency
                ∧ ∀ person,
                  ppl.count person < ([islander].filter (InWindow islandWindow)).count person
                  → ∃ cell, smallSettings.toCellLocator person.locationOfHome = .ok cell
                    ∧ (cell ∈ overtaken
                      ∨ ∀ other ∈ ppl,
                        ∃ otherCell,
                          smallSettings.toCellLocator other.locationOfHome = .ok otherCell
                          ∧ cellDistance smallSettings.resolution origin otherCell
                            ≤ cellDistance smallSettings.resolution origin cell) :=
  findMatchingPpl_nearest
    (fun _ member => List.mem_singleton.mp member ▸ nullIsland_isValid)
    (fun _ => nullIsland_isValid) (fun _ => islandRequest_representable)

end PplMe.Engine
