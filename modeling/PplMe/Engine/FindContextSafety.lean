import PplMe.Engine.FindLocks
import PplMe.Engine.FindsOnGrid

/-! A call's context is touched only while the call is in `FindMatchingPpl`.
The pending cells are the cells of the worklettes that still have their last critical section
ahead; a worklette past it still holds the context's mutex, which the call takes before it
returns.
-/

namespace PplMe.Engine

open PplMe.Core Stepping DistributedSums

section Touching

variable {ι ω : Type*}

/-- A worker that has a worklette of the call. -/
def touches (call : ι) : FindWorkerPc ι → Prop
  | .leave (some worklette) => worklette.call = call
  | .running progress => progress.worklette.call = call
  | _ => False

@[simp] theorem touches_notify (call : ι) (pc : FindWorkerPc ι)
    : touches call pc.notify ↔ touches call pc := by
  cases pc <;> rfl

/-- No worklette of the call is queued or run. -/
structure FindState.Quiet (state : FindState ι ω) (call : ι) : Prop where
  queue : ∀ worklette ∈ state.pool.work, worklette.call ≠ call
  workers : ∀ worker, ¬ touches call (state.workers worker)

variable [DecidableEq ι]

/-- A worker with a worklette of the call has a share of it or is inside the context. -/
theorem share_or_holds_of_touches {call : ι} {pc : FindWorkerPc ι} (touched : touches call pc)
    : (∃ cell, cell ∈ freshShare call pc ∨ cell ∈ searchingShare call pc)
      ∨ workerHoldsContext call pc := by
  cases pc with
  | leave worklette =>
      cases worklette with
      | none => exact touched.elim
      | some worklette =>
          have own : worklette.call = call := touched
          subst own
          exact Or.inl ⟨worklette.cell, Or.inl (by simp [freshShare, cellOf_call])⟩
  | running progress =>
      obtain ⟨worklette, stage⟩ := progress
      have own : worklette.call = call := touched
      subst own
      cases stage with
      | enterCheck | check =>
          exact Or.inl ⟨worklette.cell, Or.inl (by simp [freshShare, cellOf_call])⟩
      | search | enterAppend _ | append _ =>
          exact Or.inl ⟨worklette.cell, Or.inr (by simp [searchingShare, cellOf_call])⟩
      | leaveCheck done =>
          cases done
          · exact Or.inl ⟨worklette.cell, Or.inr (by simp [searchingShare, cellOf_call])⟩
          · exact Or.inr ⟨rfl, trivial⟩
      | leaveAppend => exact Or.inr ⟨rfl, trivial⟩
  | _ => exact touched.elim

/-- With no pending cell and the mutex in the call's own hands, nothing of the call is left. -/
theorem quiet_of_drained [Fintype ω] {finds : Finds ι} {state : FindState ι ω} {call : ι}
    (valid : Gathering.Valid (finds.job call) (finds.gather state call))
    (locked : state.Locked) (holds : (state.callers call).holdsContext)
    (drained : (state.contexts call).pendingCells = ∅)
    : state.Quiet call := by
  obtain ⟨_, _, accounts⟩ := valid
  have none : (finds.gather state call).fresh + (finds.gather state call).searching = 0 := by
    rw [accounts.inFlight]
    simp [Finds.gather, drained]
  have absent (cell : CellLocator)
      : cell ∉ queuedCells call state.pool.work
        ∧ ∀ worker,
            cell ∉ freshShare call (state.workers worker)
            ∧ cell ∉ searchingShare call (state.workers worker) := by
    have nowhere := Multiset.notMem_zero cell
    rw [← none] at nowhere
    simp only [Finds.gather, Multiset.mem_add, Multiset.mem_sum, Finset.mem_univ, true_and,
      not_or, not_exists] at nowhere
    exact ⟨nowhere.1.1.1, fun worker => ⟨nowhere.1.2 worker, nowhere.2 worker⟩⟩
  constructor
  · intro worklette member own
    subst own
    exact (absent worklette.cell).1 (mem_queuedCells member)
  · intro worker touched
    rcases share_or_holds_of_touches touched with ⟨cell, fresh | searching⟩ | inside
    · exact ((absent cell).2 worker).1 fresh
    · exact ((absent cell).2 worker).2 searching
    · have caller : state.HoldsContext call (.caller call) := ⟨rfl, holds⟩
      have worker : state.HoldsContext call (.worker worker) := inside
      cases (locked.context call).unique caller worker

end Touching

section Quiet

variable {ι ω : Type*} [DecidableEq ι] {finds : Finds ι} {state after : FindState ι ω}

omit [DecidableEq ι] in
/-- A bystander touches what it touched. -/
theorem touches_of_bystander {call : ι} {worker : ω}
    (bystander : state.Bystander after (.worker worker))
    : touches call (after.workers worker) ↔ touches call (state.workers worker) := by
  rcases bystander with same | same <;> simp [same]

/-- A call that has its result either had it already or has just found its last wait over. -/
theorem CallerMove.result {call : ι} (moved : CallerMove finds call state after)
    (result : (after.callers call).result ≠ none)
    : (state.callers call).result ≠ none
      ∨ (state.callers call).holdsContext ∧ (state.contexts call).pendingCells = ∅ := by
  cases moved with
  | finish at_pc drained => exact Or.inr ⟨by simp [at_pc, CallerPc.holdsContext], drained⟩
  | finalLeave at_pc => exact Or.inl (by simp [at_pc])
  | @start origin at_pc located =>
      cases cells : sqiralCells finds.settings.resolution origin <;>
        simp [cells, CallerPc.nextCell] at result
  | @tryLeave rest at_pc =>
      cases done : (state.contexts call).weDoneHere <;> cases rest <;>
        simp [done, CallerPc.nextCell] at result
  | _ => simp at result

/-- A call queues nothing of other calls, and nothing once it has its result. -/
theorem CallerMove.queue {call other : ι} {worklette : Worklette ι}
    (moved : CallerMove finds call state after)
    (ended : other = call → (after.callers call).result ≠ none)
    (member : worklette ∈ after.pool.work) (theirs : worklette.call = other)
    : worklette ∈ state.pool.work := by
  cases moved with
  | @queuePush cell rest at_pc =>
      simp only [FindState.setCaller_pool, FindState.notifyWorkers_pool,
        NoddyWorkerPool.push_work, List.mem_append, List.mem_singleton] at member
      rcases member with queued | rfl
      · exact queued
      · exact absurd (by simp) (ended theirs.symm)
  | _ => exact member

variable [DecidableEq ω]

/-- A worker takes worklettes from the queue only, and queues none. -/
theorem WorkerMove.quiet {worker : ω} {call : ι} (moved : WorkerMove finds worker state after)
    (quiet : state.Quiet call)
    : (∀ worklette ∈ after.pool.work, worklette.call ≠ call)
      ∧ ¬ touches call (after.workers worker) := by
  have own := quiet.workers worker
  cases moved with
  | loop looped =>
      simp only [FindState.setWorker_pool, FindState.setWorker_workers, Function.update_self]
      generalize state.workers worker = pc at looped own
      cases looped with
      | @take pc worklette rest at_test alive work =>
          have queue := quiet.queue
          rw [work] at queue
          exact ⟨fun other member => queue other (List.mem_cons_of_mem _ member),
            queue worklette List.mem_cons_self⟩
      | leaveBusy => exact ⟨quiet.queue, own⟩
      | _ => exact ⟨quiet.queue, id⟩
  | unlockEnd at_pc ending => exact ⟨quiet.queue, by simp [touches]⟩
  | search at_pc _ | unlockSearch at_pc | goOn at_pc _ | lock at_pc _ _ | drop at_pc _ _
  | append at_pc _ =>
      rw [show state.workers worker = _ from at_pc] at own
      exact ⟨quiet.queue, by simpa [touches] using own⟩

/-- Nothing of a call is left once it has its result, in every reachable state. -/
theorem quiet_of_reached [Fintype ω] (reached : Reached (finds.machine ω) state) (call : ι)
    (result : (state.callers call).result ≠ none)
    : state.Quiet call := by
  refine reached.invariant
    (fun state => ∀ call, (state.callers call).result ≠ none → state.Quiet call) ?_ ?_ call result
  · intro call result
    exact absurd rfl result
  · intro label before after earlier quiet _ moved call result
    have kept (bystander : before.Bystander after (.caller call))
        : (before.callers call).result ≠ none := by
      rcases bystander with same | same
      · exact same ▸ result
      · simpa only [same, result_notify] using result
    cases (move_of_step moved).2 with
    | @caller mover _ moved =>
        have before_quiet : before.Quiet call := by
          by_cases own : call = mover
          · subst own
            rcases moved.result result with had | ⟨holds, drained⟩
            · exact quiet call had
            · exact quiet_of_drained (valid_of_reached earlier call)
                (locked_of_reached earlier) holds drained
          · exact quiet call (kept (moved.bystander (by simpa using own)))
        refine ⟨fun worklette member theirs => ?_, fun worker => ?_⟩
        · refine before_quiet.queue worklette (moved.queue ?_ member theirs) theirs
          rintro rfl
          exact result
        · rw [touches_of_bystander (moved.bystander (by simp))]
          exact before_quiet.workers worker
    | @worker mover _ moved =>
        have before_quiet := quiet call (kept (moved.bystander (by simp)))
        obtain ⟨queue, own⟩ := moved.quiet before_quiet
        refine ⟨queue, fun worker => ?_⟩
        by_cases same : worker = mover
        · exact same ▸ own
        · rw [touches_of_bystander (moved.bystander (by simpa using same))]
          exact before_quiet.workers worker
    | callerCrash ended | workerCrash ended =>
        have before_quiet := quiet call result
        exact ⟨before_quiet.queue, before_quiet.workers⟩
    | @wakeCaller woken _ asleep =>
        have before_quiet := quiet call (kept (bystander_wakeCaller before woken _))
        exact ⟨before_quiet.queue, before_quiet.workers⟩
    | @wakeWorker woken asleep =>
        have before_quiet := quiet call result
        refine ⟨before_quiet.queue, fun worker => ?_⟩
        rw [touches_of_bystander (bystander_wakeWorker before woken _)]
        exact before_quiet.workers worker

end Quiet

/-- In every reachable state no check has failed, the pending cells of a call are the cells of
its worklettes that are queued, about to be queued by the call inside its critical section, or
at a worker with their last critical section ahead, each once; they are at most as many as
may be searched at once; and once the call has returned no worklette of it is queued or run.
-/
theorem findContext_safe {ι ω : Type*} [DecidableEq ι] [DecidableEq ω] [Fintype ω]
    {settings : Settings} {people : List Person} {grid : PplGrid}
    {requests : ι → PplMatchingParameters} {windows : ι → Date × Date}
    (populates : settings.populate people = .ok grid)
    (users : ∀ call, (requests call).locationOfUser.isValid = true)
    (representable : ∀ call, settings.Representable (requests call) (windows call))
    : ∀ state, Reached ((Finds.mk settings grid requests).machine ω) state
      → state.crashed = none
        ∧ ∀ call,
            queuedCells call state.pool.work
                + (state.callers call).queueing
                + ∑ worker,
                    (freshShare call (state.workers worker)
                      + searchingShare call (state.workers worker))
              = (state.contexts call).pendingCells.val
            ∧ ((state.contexts call).mutex ≠ some (.caller call)
              → (state.callers call).queueing = 0)
            ∧ (state.contexts call).pendingCells.card ≤ settings.perFindConcurrency
            ∧ ((state.callers call).result ≠ none → state.Quiet call) := by
  have answerable :=
    answerable_of_populated (Settings.populated_of_populate populates) users representable
  refine fun state reached => ⟨crashed_of_reached answerable reached, fun call => ?_⟩
  obtain ⟨_, _, accounts⟩ := valid_of_reached reached call
  refine ⟨?_, fun unowned => ?_, accounts.width, quiet_of_reached reached call⟩
  · rw [Finset.sum_add_distrib, ← add_assoc]
    exact accounts.inFlight
  · by_contra queueing
    refine unowned (((locked_of_reached reached).context call (.caller call)).mpr ⟨rfl, ?_⟩)
    cases pc : state.callers call <;> rw [pc] at queueing <;>
      first
      | exact absurd rfl queueing
      | exact trivial

/-- Two calls on two workers keep their contexts safe. -/
theorem findContext_safe_islander
    : ∃ grid, smallSettings.populate [islander] = .ok grid
        ∧ ∀ state, Reached ((Finds.mk smallSettings grid
              (fun _ : Fin 2 => islandRequest)).machine (Fin 2)) state
          → state.crashed = none
            ∧ ∀ call,
                queuedCells call state.pool.work
                    + (state.callers call).queueing
                    + ∑ worker,
                        (freshShare call (state.workers worker)
                          + searchingShare call (state.workers worker))
                  = (state.contexts call).pendingCells.val
                ∧ ((state.contexts call).mutex ≠ some (.caller call)
                  → (state.callers call).queueing = 0)
                ∧ (state.contexts call).pendingCells.card ≤ smallSettings.perFindConcurrency
                ∧ ((state.callers call).result ≠ none → state.Quiet call) := by
  obtain ⟨grid, populates⟩ := islander_populates
  exact ⟨grid, populates,
    findContext_safe populates (fun _ => nullIsland_isValid) (fun _ => islandRequest_representable)⟩

end PplMe.Engine
