import PplMe.Engine.FindGathers

/-! The process carries out interleaved, independent gathers, one for each call.
The gathers' accounts are what keeps the checks of the code from failing, so the simulation
assumes them of the state it leaves. A process that has ended looks as it did before.
-/

namespace PplMe.Engine

open PplMe.Core Stepping DistributedSums

section Simulation

variable {ι ω : Type*} [DecidableEq ι] [DecidableEq ω] {finds : Finds ι}

/-- A worker carries what its search found, or what it already carried. -/
theorem carries_of_workerMove {state after : FindState ι ω} {worker : ω}
    {worklette : Worklette ι} {myPpl : List Person} (carries : finds.Carries state)
    (moved : WorkerMove finds worker state after)
    (at_pc
      : after.AtStage worker worklette (.enterAppend myPpl)
        ∨ after.AtStage worker worklette (.append myPpl))
    : myPpl = finds.found worklette.call worklette.cell := by
  unfold FindState.AtStage at at_pc
  cases moved with
  | loop looped =>
      rw [FindState.setWorker_workers, Function.update_self] at at_pc
      generalize state.workers worker = earlier at looped
      cases looped <;> simp at at_pc
  | @lock earlier stage next before entering free =>
      rw [FindState.setWorker_workers, Function.update_self] at at_pc
      rcases entering with ⟨rfl, rfl⟩ | ⟨theirPpl, rfl, rfl⟩
      · simp at at_pc
      · simp only [WorkerPc.running.injEq, AsyncFind.mk.injEq, AsyncStage.append.injEq,
          reduceCtorEq, and_false, false_or] at at_pc
        obtain ⟨rfl, rfl⟩ := at_pc
        exact carries worker earlier theirPpl (Or.inl before)
  | search before found =>
      rw [FindState.setWorker_workers, Function.update_self] at at_pc
      simp only [WorkerPc.running.injEq, AsyncFind.mk.injEq, AsyncStage.enterAppend.injEq,
        reduceCtorEq, and_false, or_false] at at_pc
      obtain ⟨rfl, rfl⟩ := at_pc
      rw [Finds.found, found]
  | _ => simp at at_pc

/-- A worklette carries what its cell holds, in every reachable state; witness: only a search
sets what is carried.
-/
theorem carries_of_reached {state : FindState ι ω} (reached : Reached (finds.machine ω) state)
    : finds.Carries state := by
  refine reached.invariant finds.Carries ?_ ?_
  · rintro worker worklette myPpl (running | running) <;> cases running
  · intro label before after _ carries _ moved worker worklette myPpl at_pc
    -- Who was at this stage already carried it.
    have kept (bystander : before.Bystander after (.worker worker))
        : myPpl = finds.found worklette.call worklette.cell :=
      carries worker worklette myPpl
        (at_pc.imp (running_of_bystander bystander) (running_of_bystander bystander))
    cases (move_of_step moved).2 with
    | caller moved => exact kept (moved.bystander (by simp))
    | @worker mover _ moved =>
        by_cases own : worker = mover
        · subst own
          exact carries_of_workerMove carries moved at_pc
        · exact kept (moved.bystander (by simpa using own))
    | callerCrash ended | workerCrash ended => exact kept (Or.inl rfl)
    | wakeCaller asleep => exact kept (bystander_wakeCaller before _ _)
    | wakeWorker asleep => exact kept (bystander_wakeWorker before _ _)

section Safety

omit [DecidableEq ω]
variable [Fintype ω] {state : FindState ι ω}

/-- The walk never offers a pending cell. -/
theorem not_callerCrash {call : ι} {fault : Fault} (answerable : finds.Answerable)
    (valid : Gathering.Valid (finds.job call) (finds.gather state call))
    : ¬ CallerCrash finds call state fault := by
  intro ended
  cases ended with
  | unlocated at_pc failed =>
      obtain ⟨origin, located⟩ := (answerable call).located
      cases located.symm.trans failed
  | @inserted cell rest at_pc old =>
      have next : (finds.gather state call).remaining = cell :: rest := by
        simp [Finds.gather, at_pc]
      exact valid.next_notMem (answerable call).distinct next old

/-- A worklette that has its last critical section ahead keeps its cell pending. -/
theorem mem_pending_of_share (worker : ω) {worklette : Worklette ι}
    (valid
      : Gathering.Valid (finds.job worklette.call) (finds.gather state worklette.call))
    (held
      : freshShare worklette.call (state.workers worker) = {worklette.cell}
        ∨ searchingShare worklette.call (state.workers worker) = {worklette.cell})
    : worklette.cell ∈ (state.contexts worklette.call).pendingCells := by
  refine valid.mem_pending (Multiset.mem_add.mpr ?_)
  exact held.imp (fun held => Multiset.mem_add.mpr (Or.inr (mem_sum held))) mem_sum

/-- Worklettes erase pending cells only, and search cells of the walk only. -/
theorem not_workerCrash {worker : ω} {fault : Fault} (answerable : finds.Answerable)
    (valid : ∀ call, Gathering.Valid (finds.job call) (finds.gather state call))
    : ¬ WorkerCrash finds worker state fault := by
  intro ended
  cases ended with
  | @erased worklette stage at_pc erasing absent =>
      refine absent (mem_pending_of_share worker (valid worklette.call) ?_)
      rw [at_pc]
      rcases erasing with rfl | ⟨myPpl, rfl⟩
      · exact Or.inl (cellOf_call worklette)
      · exact Or.inr (cellOf_call worklette)
  | @failed worklette _ at_pc failed =>
      have pending : worklette.cell ∈ (state.contexts worklette.call).pendingCells := by
        refine mem_pending_of_share worker (valid worklette.call) (Or.inr ?_)
        rw [at_pc]
        exact cellOf_call worklette
      have searched := (answerable worklette.call).searchable worklette.cell
        ((valid worklette.call).mem_keys pending)
      cases searched.symm.trans failed

end Safety

section Runs

variable [Fintype ω]

/-- Every step of the process is a step of one call's gather, or shows in none. -/
theorem simulates
    : Simulates (finds.machine ω) finds.gather
        (Interleaved (fun call => Gathering.Step (finds.job call)))
        (fun gathers => ∀ call, Gathering.Valid (finds.job call) (gathers call)) := by
  intro label before after earlier valid moved
  cases (move_of_step moved).2 with
  | @caller call _ moved =>
      rcases moved.simulated (valid call) with same | stepped
      · refine Or.inl (funext fun other => ?_)
        by_cases own : other = call
        · exact own ▸ same
        · exact moved.frame own
      · exact Or.inr ⟨call, stepped, fun other different => moved.frame different⟩
  | worker moved => exact moved.simulated (carries_of_reached earlier)
  | callerCrash | workerCrash => exact Or.inl rfl
  | wakeCaller asleep => exact Or.inl (funext (gather_notifyCaller _))
  | @wakeWorker worker asleep =>
      exact Or.inl (funext fun call =>
        gather_setWorker (freshShare_notify call _) (searchingShare_notify call _))

/-- Before the first step nothing of any call's walk has been offered. -/
theorem gather_start (call : ι)
    : finds.gather (finds.machine ω).start call = (finds.job call).start := by
  simp [Finds.gather, Finds.machine, FindState.start, FindContext.fresh, Gathering.Job.start,
    Finds.job, freshShare, searchingShare]

/-- In every reachable state each call's cells are all accounted for. -/
theorem valid_of_reached {state : FindState ι ω} (reached : Reached (finds.machine ω) state)
    (call : ι)
    : Gathering.Valid (finds.job call) (finds.gather state call) := by
  refine simulates.invariant ?_ ?_ reached call
  · intro call
    rw [gather_start]
    exact Gathering.valid_start _
  · intro before after holds stepped
    exact stepped.invariant (fun _ _ _ => Gathering.Valid.step) holds

/-- One pending cell at a time, each call's cells complete in the order of its walk. -/
theorem sequential_of_reached {state : FindState ι ω}
    (narrow : finds.settings.perFindConcurrency = 1)
    (reached : Reached (finds.machine ω) state) (call : ι)
    : Gathering.Sequential (finds.job call) (finds.gather state call) := by
  let ordered (gathers : ι → Gathering.Gather CellLocator Person) : Prop :=
    ∀ call, Gathering.Sequential (finds.job call) (gathers call)
  refine ((simulates.strengthen ordered).invariant ?_ ?_ reached).2 call
  · constructor <;> intro call <;> rw [gather_start]
    · exact Gathering.valid_start _
    · exact Gathering.sequential_start _
  · intro before after holds stepped
    exact ⟨stepped.invariant (fun _ _ _ => Gathering.Valid.step) holds.1,
      stepped.invariant (fun _ _ _ => Gathering.Sequential.step narrow) holds.2⟩

/-- No run ends the process: every check succeeds and every search is answered. -/
theorem crashed_of_reached {state : FindState ι ω} (answerable : finds.Answerable)
    (reached : Reached (finds.machine ω) state)
    : state.crashed = none := by
  refine reached.invariant (fun state => state.crashed = none) rfl ?_
  intro label before after earlier running _ moved
  have valid := valid_of_reached earlier
  cases (move_of_step moved).2 with
  | caller moved => exact moved.crashed.trans running
  | worker moved => exact moved.crashed.trans running
  | callerCrash ended => exact absurd ended (not_callerCrash answerable (valid _))
  | workerCrash ended => exact absurd ended (not_workerCrash answerable valid)
  | wakeCaller asleep => exact running
  | wakeWorker asleep => exact running

end Runs

end Simulation

end PplMe.Engine
