import PplMe.Engine.FindAnswerability

/-! What concurrent finds return, whatever the schedule.
The gathers of the calls collect exactly the people born in the calls' windows, or enough of
them; with one pending cell at a time they collect them in the order of the walk.
-/

namespace PplMe.Engine

open PplMe.Core Stepping

/-- A returned list is the result of the call's gather. -/
theorem result_of_returned {ι ω : Type*} [DecidableEq ι] [Fintype ω] {finds : Finds ι}
    {state : FindState ι ω} {call : ι} {ppl : List Person}
    (returned : state.callers call = .returned ppl)
    : (finds.gather state call).result = some ppl := by
  simp [Finds.gather, returned]

section Returned

variable {ι ω : Type*} [DecidableEq ι] [DecidableEq ω] [Fintype ω] {settings : Settings}
  {people : List Person} {grid : PplGrid} {requests : ι → PplMatchingParameters}
  {windows : ι → Date × Date} {state : FindState ι ω} {call : ι} {ppl : List Person}

/-- A call that has returned has found some of the people in its window, as many as it may.
Witness: its gather has completed all cells of the walk, or stopped with enough people.
-/
theorem matching_of_returned (populated : settings.Populated people grid)
    (homes : ∀ person ∈ people, person.locationOfHome.isValid = true)
    (users : ∀ call, (requests call).locationOfUser.isValid = true)
    (representable : ∀ call, settings.Representable (requests call) (windows call))
    (reached : Reached ((Finds.mk settings grid requests).machine ω) state)
    (returned : state.callers call = .returned ppl)
    : (ppl : Multiset Person) ≤ (people.filter (InWindow (windows call)) : List Person)
      ∧ ppl.length = min settings.maxPpl (people.filter (InWindow (windows call))).length := by
  obtain ⟨among, length⟩ :=
    (valid_of_reached reached call).result (result_of_returned returned)
  have everybody := walk_found_perm populated users representable homes call
  exact ⟨among.trans (Multiset.coe_le.mpr everybody.subperm), everybody.length_eq ▸ length⟩

/-- Where it may find them all, it has. -/
theorem perm_of_matching {matching : List Person}
    (among : (ppl : Multiset Person) ≤ (matching : Multiset Person))
    (length : ppl.length = min settings.maxPpl matching.length)
    (few : matching.length ≤ settings.maxPpl)
    : ppl.Perm matching :=
  Multiset.coe_eq_coe.mp (Multiset.eq_of_le_of_card_le among (by simp [length, few]))

end Returned

/-- Whatever the schedule, a call that returns has found as many of the people in its window
as it may return, each no more often than they were added.
-/
theorem findMatchingPpl_exact {ι ω : Type*} [DecidableEq ι] [DecidableEq ω] [Fintype ω]
    {settings : Settings} {people : List Person} {requests : ι → PplMatchingParameters}
    {windows : ι → Date × Date}
    (homes : ∀ person ∈ people, person.locationOfHome.isValid = true)
    (users : ∀ call, (requests call).locationOfUser.isValid = true)
    (representable : ∀ call, settings.Representable (requests call) (windows call))
    : ∃ grid, settings.populate people = .ok grid
        ∧ ∀ state, Reached ((Finds.mk settings grid requests).machine ω) state
          → ∀ call ppl, state.callers call = .returned ppl
            → (ppl : Multiset Person) ≤ (people.filter (InWindow (windows call)) : List Person)
              ∧ ppl.length
                = min settings.maxPpl (people.filter (InWindow (windows call))).length
              ∧ ((people.filter (InWindow (windows call))).length ≤ settings.maxPpl
                → ppl.Perm (people.filter (InWindow (windows call)))) := by
  obtain ⟨grid, populates, populated⟩ := Settings.populate_of_isValid homes
  refine ⟨grid, populates, fun state reached call ppl returned => ?_⟩
  obtain ⟨among, length⟩
    := matching_of_returned populated homes users representable reached returned
  exact ⟨among, length, perm_of_matching among length⟩

/-- Two calls on two workers that look for one islander can return. -/
theorem islanders_return {grid : PplGrid} (populates : smallSettings.populate [islander] = .ok grid)
    : ∃ state,
        Reached
          ((Finds.mk smallSettings grid (fun _ : Fin 2 => islandRequest)).machine (Fin 2)) state
        ∧ ∀ call, ∃ ppl, state.callers call = .returned ppl :=
  returned_of_reached
    (answerable_of_populated (Settings.populated_of_populate populates)
      (fun _ => nullIsland_isValid) fun _ => islandRequest_representable) .start

/-- And then both have found him. -/
theorem findMatchingPpl_exact_islander
    : ∃ grid state,
        smallSettings.populate [islander] = .ok grid
        ∧ Reached
          ((Finds.mk smallSettings grid (fun _ : Fin 2 => islandRequest)).machine (Fin 2)) state
        ∧ ∀ call, state.callers call = .returned [islander] := by
  obtain ⟨grid, populates, exact⟩ :=
    @findMatchingPpl_exact (Fin 2) (Fin 2) _ _ _ smallSettings [islander]
      (fun _ => islandRequest) (fun _ => islandWindow)
      (fun _ member => List.mem_singleton.mp member ▸ nullIsland_isValid)
      (fun _ => nullIsland_isValid) (fun _ => islandRequest_representable)
  obtain ⟨state, reached, returns⟩ := islanders_return populates
  refine ⟨grid, state, populates, reached, fun call => ?_⟩
  obtain ⟨ppl, returned⟩ := returns call
  have matching : [islander].filter (InWindow islandWindow) = [islander] := by decide
  have same := (exact state reached call ppl returned).2.2 (by rw [matching]; decide)
  rw [matching] at same
  rw [returned, List.perm_singleton.mp same]

/-- With one pending cell at a time, whatever the schedule, a call that returns has what a
plain walk returns: the first people of the cells' matching people, in the order of the walk.
So the people of any first part of the walk are all there before anybody of a later cell is.
-/
theorem findMatchingPpl_sequential {ι ω : Type*} [DecidableEq ι] [DecidableEq ω] [Fintype ω]
    {settings : Settings} {people : List Person} {requests : ι → PplMatchingParameters}
    {windows : ι → Date × Date}
    (homes : ∀ person ∈ people, person.locationOfHome.isValid = true)
    (users : ∀ call, (requests call).locationOfUser.isValid = true)
    (representable : ∀ call, settings.Representable (requests call) (windows call))
    (narrow : settings.perFindConcurrency = 1)
    : ∃ grid, settings.populate people = .ok grid
        ∧ ∀ state, Reached ((Finds.mk settings grid requests).machine ω) state
          → ∀ call ppl, state.callers call = .returned ppl
            → ∃ origin, settings.toCellLocator (requests call).locationOfUser = .ok origin
              ∧ ppl
                = ((sqiralCells settings.resolution origin).flatMap
                    (settings.matchingPpl grid (windows call))).take settings.maxPpl
              ∧ ∀ earlier later, sqiralCells settings.resolution origin = earlier ++ later
                → ppl <+: earlier.flatMap (settings.matchingPpl grid (windows call))
                  ∨ earlier.flatMap (settings.matchingPpl grid (windows call)) <+: ppl := by
  obtain ⟨grid, populates, populated⟩ := Settings.populate_of_isValid homes
  refine ⟨grid, populates, fun state reached call ppl returned => ?_⟩
  have ordered := sequential_of_reached narrow reached call
  obtain ⟨_, _, _, _, located, walked⟩ := walk_of_isValid ⟨settings, grid, requests⟩ (users call)
  have taken : ppl = (((Finds.mk settings grid requests).walk call).flatMap
      (settings.matchingPpl grid (windows call))).take settings.maxPpl :=
    walk_found_eq populated users representable call
      ▸ ordered.result (result_of_returned returned)
  rw [walked] at taken
  refine ⟨_, located, taken, fun earlier later split => ?_⟩
  have prefixed := taken ▸ List.take_prefix settings.maxPpl _
  rw [split, List.flatMap_append] at prefixed
  exact List.prefix_or_prefix_of_prefix prefixed (List.prefix_append _ _)

/-- Where both calls have returned, each has the first people of its walk. -/
theorem findMatchingPpl_sequential_islander
    : ∃ grid state,
        smallSettings.populate [islander] = .ok grid
        ∧ Reached
          ((Finds.mk smallSettings grid (fun _ : Fin 2 => islandRequest)).machine (Fin 2)) state
        ∧ ∀ call,
            ∃ origin,
              smallSettings.toCellLocator islandRequest.locationOfUser = .ok origin
              ∧ state.callers call
                = .returned
                    (((sqiralCells smallSettings.resolution origin).flatMap
                      (smallSettings.matchingPpl grid islandWindow)).take
                        smallSettings.maxPpl) := by
  obtain ⟨grid, populates, sequential⟩ :=
    @findMatchingPpl_sequential (Fin 2) (Fin 2) _ _ _ smallSettings [islander]
      (fun _ => islandRequest) (fun _ => islandWindow)
      (fun _ member => List.mem_singleton.mp member ▸ nullIsland_isValid)
      (fun _ => nullIsland_isValid) (fun _ => islandRequest_representable) rfl
  obtain ⟨state, reached, returns⟩ := islanders_return populates
  refine ⟨grid, state, populates, reached, fun call => ?_⟩
  obtain ⟨ppl, returned⟩ := returns call
  obtain ⟨origin, located, first, _⟩ := sequential state reached call ppl returned
  exact ⟨origin, located, first ▸ returned⟩

end PplMe.Engine
