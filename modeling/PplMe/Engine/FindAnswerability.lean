import PplMe.Engine.FindTermination
import PplMe.Engine.FindsOnGrid
import PplMe.Engine.FindProgress
import PplMe.Foundation.Failures

/-! Which calls can be answered, whoever is stored.
A call from a valid position is answered if its window is representable; otherwise the first
cell that a worker searches for it ends the process.
-/

namespace PplMe.Engine

open PplMe.Core Stepping Failures

-----------------------------------------------------------------------------------------
-- Windows
-----------------------------------------------------------------------------------------

namespace GridSettings

variable {settings : GridSettings} {parameters : PplMatchingParameters}

/-- Going back by the greatest and by the least admitted age stays within the calendar. -/
def AgeInCalendar (settings : GridSettings) (age : Int) : Prop :=
  (1400 : Int) ≤ settings.today.year - (age + settings.maxAgeDifference)
  ∧ settings.today.year - (age - settings.maxAgeDifference) ≤ (10000 : Int)

instance (age : Int) : Decidable (settings.AgeInCalendar age) :=
  inferInstanceAs (Decidable (_ ∧ _))

/-- Both dates of such a window exist. -/
theorem representable_of_ageInCalendar (inCalendar : settings.AgeInCalendar parameters.ageOfUser)
    : ∃ window, settings.Representable parameters window := by
  obtain ⟨low, high⟩ := inCalendar
  have nonneg := settings.maxAgeDifferenceNonneg
  have earliest := Date.minusYears_isSome_iff.mpr ⟨low, by omega⟩
  have latest := Date.minusYears_isSome_iff.mpr ⟨by omega, high⟩
  obtain ⟨earliest, earliestEq⟩ := Option.isSome_iff_exists.mp earliest
  obtain ⟨latest, latestEq⟩ := Option.isSome_iff_exists.mp latest
  exact ⟨(earliest, latest), earliestEq, latestEq⟩

/-- And no other window does: an int operation overflows or the date library throws. -/
theorem ageWindow_error (outside : ¬ settings.AgeInCalendar parameters.ageOfUser)
    : ∃ fault, settings.ageWindow parameters = .error fault := by
  cases outcome : settings.ageWindow parameters with
  | error fault => exact ⟨fault, rfl⟩
  | ok window =>
      obtain ⟨earliest, latest⟩ := ageWindow_eq_ok_iff.mp outcome
      have low := (Date.minusYears_isSome_iff.mp (Option.isSome_of_eq_some earliest)).1
      have high := (Date.minusYears_isSome_iff.mp (Option.isSome_of_eq_some latest)).2
      exact absurd ⟨low, high⟩ outside

end GridSettings

-----------------------------------------------------------------------------------------
-- Answers
-----------------------------------------------------------------------------------------

section Answers

variable {ι : Type*} {finds : Finds ι}

/-- The first cell of a valid call whose window is not representable cannot be searched. -/
theorem searchCell_error {call : ι}
    (sized : finds.grid.size = calculateSizeForPplGrid finds.settings.resolution)
    (user : (finds.requests call).locationOfUser.isValid = true)
    (outside : ¬ finds.settings.AgeInCalendar (finds.requests call).ageOfUser)
    : ∃ origin cell rest fault,
        finds.settings.toCellLocator (finds.requests call).locationOfUser = .ok origin
        ∧ sqiralCells finds.settings.resolution origin = cell :: rest
        ∧ finds.settings.searchCell finds.grid (finds.requests call) cell = .error fault := by
  obtain ⟨latitude, row, longitude, column, located, walked⟩ := walk_of_isValid finds user
  obtain ⟨fault, failed⟩ := GridSettings.ageWindow_error outside
  have own := degrees_mem_sqiralCells finds.settings.resolutionPositive row column row column
  rw [← walked] at own
  obtain ⟨cell, rest, cells⟩ := List.exists_cons_of_ne_nil (List.ne_nil_of_mem own)
  refine ⟨_, cell, rest, fault, located, walked ▸ cells, ?_⟩
  have inside := finds.settings.getPplIndex_lt
    ((walk_nodup_onGrid finds user).2 cell (by simp [cells]))
  have accessed : finds.grid.at (finds.settings.getPplIndex cell) = .ok _ :=
    if_pos (sized ▸ inside)
  rw [Settings.searchCell, accessed]
  simp only [Settings.findMatchingPplInCell, failed, bind, Except.bind]

/-- From a reached state, moving threads for as long as some call has not returned makes all of
them return, by induction on the weight.
-/
theorem returned_of_reached {ω : Type*} [Fintype ι] [Fintype ω] [Nonempty ω] [DecidableEq ι]
    [DecidableEq ω] (answerable : finds.Answerable) {state : FindState ι ω}
    (reached : Reached (finds.machine ω) state)
    : ∃ after,
        Reached (finds.machine ω) after ∧ ∀ call, ∃ ppl, after.callers call = .returned ppl := by
  induction weight : finds.weight state using Nat.strong_induction_on generalizing state with
  | _ _ ih =>
      by_cases unreturned : ∃ call, ∀ ppl, state.callers call ≠ .returned ppl
      · obtain ⟨call, unreturned⟩ := unreturned
        obtain ⟨thread, after, moved⟩ := canMove_of_reached answerable reached unreturned
        have lighter := weight_run_lt answerable reached moved rfl
        exact ih _ (weight ▸ lighter) (.next _ reached trivial moved) rfl
      · simp only [not_exists, not_forall, not_not] at unreturned
        exact ⟨state, reached, unreturned⟩

end Answers

section Crashes

variable {ι ω : Type*} [DecidableEq ι] [DecidableEq ω] {finds : Finds ι} {call : ι}
  {cell : CellLocator}

/-- A call alone gets as far as queueing its first cell. -/
theorem firstQueued_reached {origin : CellLocator} {rest : List CellLocator}
    (located : finds.settings.toCellLocator (finds.requests call).locationOfUser = .ok origin)
    (cells : sqiralCells finds.settings.resolution origin = cell :: rest)
    : ∃ state,
        Reached (finds.machine ω) state
        ∧ state.crashed = none
        ∧ state.pool = ⟨none, [⟨call, cell⟩], false⟩
        ∧ state.workers = (fun _ => .enter)
        ∧ (state.contexts call).mutex = none
        ∧ (state.contexts call).weDoneHere = false := by
  have few : ¬ finds.settings.maxPpl ≤ 0 := Nat.not_le.mpr finds.settings.maxPplPositive
  have room : 0 < finds.settings.perFindConcurrency := finds.settings.perFindConcurrencyPositive
  obtain ⟨state, run, queued⟩
    : ∃ state,
        (finds.machine ω).follow (List.replicate 7 (.run (.caller call)))
            (finds.machine ω).start
          = some state
        ∧ state.crashed = none
        ∧ state.pool = ⟨none, [⟨call, cell⟩], false⟩
        ∧ state.workers = (fun _ => .enter)
        ∧ (state.contexts call).mutex = none
        ∧ (state.contexts call).weDoneHere = false := by
    simp [Machine.follow, List.replicate, Finds.machine, Finds.step, FindState.start,
      Finds.findMatchingPplStep, located, cells, CallerPc.nextCell, FindContext.lock,
      FindContext.fresh, Finds.ready, room, Finds.proceed, few, NoddyWorkerPool.lock]
    exact ⟨rfl, rfl⟩
  exact ⟨state, Reached.follow .start run, queued⟩

/-- From there a worker takes the cell and cannot search it. -/
theorem crash_of_unanswered {origin : CellLocator} {rest : List CellLocator} {fault : Fault}
    (worker : ω)
    (located : finds.settings.toCellLocator (finds.requests call).locationOfUser = .ok origin)
    (cells : sqiralCells finds.settings.resolution origin = cell :: rest)
    (failed : finds.settings.searchCell finds.grid (finds.requests call) cell = .error fault)
    : ∃ state, Reached (finds.machine ω) state ∧ state.crashed = some fault := by
  obtain ⟨state, reached, running, pool, workers, unlocked, continuing⟩
    := @firstQueued_reached ι ω _ _ finds call cell origin rest located cells
  obtain ⟨after, run, crashed⟩
    : ∃ after,
        (finds.machine ω).follow (List.replicate 7 (.run (.worker worker))) state = some after
        ∧ after.crashed = some fault := by
    simp [Machine.follow, List.replicate, Finds.machine, Finds.step, running, Finds.workerStep,
      workers, pool, NoddyWorkerPool.startWorkingStep, NoddyWorkerPool.lock,
      NoddyWorkerPool.takeWork, Finds.tryFindPplAsyncStep, FindContext.lock, unlocked,
      continuing, failed]
  exact ⟨after, reached.follow run, crashed⟩

end Crashes

end PplMe.Engine
