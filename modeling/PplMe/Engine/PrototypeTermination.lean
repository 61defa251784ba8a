import PplMe.Engine.FindTermination
import PplMe.Engine.PrototypeProgress

/-! Every find on a prototype provider comes to its end.
The end of a second costs nothing: a call that stops waiting is as close to its return as one
that waits.
-/

namespace PplMe.Engine

open PplMe.Core Stepping DistributedSums

section Weights

variable (workers : Nat)

/-- What a call still costs that has not begun with the given cells. -/
def cellsWeight (cells : List CellLocator) : Nat :=
  5 + cells.length * (18 + wakeWeight * workers)

def PrototypePc.weight (walk : List CellLocator) : PrototypePc → Nat
  | .idle => cellsWeight workers walk + 1
  | .enterCount _ rest => cellsWeight workers rest + 18 + wakeWeight * workers
  | .count _ rest => cellsWeight workers rest + 17 + wakeWeight * workers
  | .leaveCount _ rest => cellsWeight workers rest + 16 + wakeWeight * workers
  | .queueEnter _ rest => cellsWeight workers rest + 15 + wakeWeight * workers
  | .queuePush _ rest => cellsWeight workers rest + 14 + wakeWeight * workers
  | .queueLeave rest => cellsWeight workers rest + 1
  | .enterWait | .waiting .notified => 5
  | .wait => 4
  | .waiting .asleep | .waiting .expired => 3
  | .clear => 2
  | .leaveWait => 1
  | .returned _ => 0

/-- Waking a call raises its weight by two at most. -/
theorem prototype_weight_notify_le (walk : List CellLocator) (pc : PrototypePc)
    : pc.notify.weight workers walk ≤ pc.weight workers walk + 2 := by
  cases pc with
  | waiting wait => cases wait <;> simp [PrototypePc.notify, PrototypePc.weight]
  | _ => simp [PrototypePc.notify]

/-- Beginning with the cells costs no more than not having begun with them. -/
theorem weight_firstCell_le (walk cells : List CellLocator) (ppl : List Person)
    : (PrototypePc.firstCell ppl cells).weight workers walk ≤ cellsWeight workers cells := by
  cases cells with
  | nil => simp [PrototypePc.firstCell, PrototypePc.weight]
  | cons cell rest =>
      simp only [PrototypePc.firstCell, PrototypePc.weight, cellsWeight, List.length_cons,
        Nat.succ_mul]
      omega

theorem prototype_weight_nextCell_le (walk rest : List CellLocator)
    : (PrototypePc.nextCell rest).weight workers walk ≤ cellsWeight workers rest := by
  cases rest with
  | nil => simp [PrototypePc.nextCell, PrototypePc.weight, cellsWeight]
  | cons cell rest =>
      simp only [PrototypePc.nextCell, PrototypePc.weight, cellsWeight, List.length_cons,
        Nat.succ_mul]
      omega

end Weights

section Steps

variable {ι ω : Type*} [Fintype ι] [Fintype ω]

/-- All that is left to do, as a number. -/
def PrototypeFinds.weight (finds : PrototypeFinds ι) (state : PrototypeState ι ω) : Nat :=
  state.pool.work.length * queuedWeight
  + ∑ call, (state.calls call).pc.weight (Fintype.card ω) (finds.begun call).2
  + ∑ worker, workerWeight (state.workers worker)

variable [DecidableEq ι] {finds : PrototypeFinds ι} {state after : PrototypeState ι ω}

omit [Fintype ι] [DecidableEq ι] in
/-- Notifying all workers raises their weights by at most what waking them all costs. -/
theorem sum_prototypeWorkers_notify_le (state : PrototypeState ι ω)
    : ∑ worker, workerWeight (state.workers worker).notify
      ≤ ∑ worker, workerWeight (state.workers worker) + wakeWeight * Fintype.card ω := by
  calc
    ∑ worker, workerWeight (state.workers worker).notify
        ≤ ∑ worker, (workerWeight (state.workers worker) + wakeWeight) :=
      Finset.sum_le_sum (fun worker _ => workerWeight_notify_le _)
    _ = ∑ worker, workerWeight (state.workers worker) + wakeWeight * Fintype.card ω := by
      rw [Finset.sum_add_distrib, Finset.sum_const, Finset.card_univ, nsmul_eq_mul, Nat.cast_id,
        Nat.mul_comm]

omit [Fintype ι] in
/-- A call's move lowers its own weight by more than it raises the queue's and the workers'. -/
theorem PrototypeCallMove.pays {call : ι} (moved : PrototypeCallMove finds call state after)
    : after.pool.work.length * queuedWeight
        + (after.calls call).pc.weight (Fintype.card ω) (finds.begun call).2
        + ∑ worker, workerWeight (after.workers worker)
      < state.pool.work.length * queuedWeight
        + (state.calls call).pc.weight (Fintype.card ω) (finds.begun call).2
        + ∑ worker, workerWeight (state.workers worker) := by
  cases moved with
  | @start ppl cells at_pc begun =>
      have known : (finds.begun call).2 = cells := by rw [PrototypeFinds.begun, begun]
      have next := weight_firstCell_le (Fintype.card ω) cells cells ppl
      have idle : PrototypePc.weight (Fintype.card ω) cells .idle
          = cellsWeight (Fintype.card ω) cells + 1 := rfl
      simp only [PrototypeState.setCall_pool, PrototypeState.setCall_calls,
        PrototypeState.setCall_workers, Function.update_self, at_pc, known]
      omega
  | @lock pc locked entering free =>
      generalize at_pc : (state.calls call).pc = earlier at entering
      cases entering <;> simp [PrototypeCall.goTo, PrototypePc.weight]
  | queuePush at_pc =>
      have woken := sum_prototypeWorkers_notify_le state
      simp only [at_pc, PrototypePc.weight, queuedWeight, PrototypeState.setCall_pool,
        PrototypeState.notifyWorkers_pool, NoddyWorkerPool.push_work, List.length_append,
        List.length_singleton, PrototypeState.setCall_calls, PrototypeState.setCall_workers,
        PrototypeState.notifyWorkers_workers, Function.update_self, Nat.succ_mul,
        PrototypeCall.goTo]
      omega
  | @queueLeave rest at_pc =>
      have next := prototype_weight_nextCell_le (Fintype.card ω) (finds.begun call).2 rest
      have past : PrototypePc.weight (Fintype.card ω) (finds.begun call).2 (.queueLeave rest)
          = cellsWeight (Fintype.card ω) rest + 1 := rfl
      simp only [at_pc, PrototypeState.setCall_pool, PrototypeState.setCall_calls,
        PrototypeState.setCall_workers, Function.update_self, PrototypeCall.goTo,
        NoddyWorkerPool.unlock_work]
      omega
  | _ at_pc => simp [at_pc, PrototypeCall.goTo, PrototypePc.weight]

theorem PrototypeCallMove.weight_lt {call : ι} (moved : PrototypeCallMove finds call state after)
    : finds.weight after < finds.weight state := by
  have pays := moved.pays
  have others (other : ι) (different : other ≠ call)
      : (after.calls other).pc.weight (Fintype.card ω) (finds.begun other).2
        = (state.calls other).pc.weight (Fintype.card ω) (finds.begun other).2 := by
    rw [moved.others different]
  have traded := sum_change call others
  unfold PrototypeFinds.weight
  omega

/-- What a change of a call's program point costs the process. -/
theorem weight_setCall_le {call : ι} {next : PrototypeCall ι ω} (cost : Nat)
    (dearer
      : next.pc.weight (Fintype.card ω) (finds.begun call).2
        ≤ (state.calls call).pc.weight (Fintype.card ω) (finds.begun call).2 + cost)
    : finds.weight (state.setCall call next) ≤ finds.weight state + cost := by
  have others (other : ι) (different : other ≠ call)
      : (Function.update state.calls call next other).pc.weight (Fintype.card ω)
          (finds.begun other).2
        = (state.calls other).pc.weight (Fintype.card ω) (finds.begun other).2 := by
    rw [Function.update_of_ne different]
  have traded := sum_change call others
  rw [Function.update_self] at traded
  simp only [PrototypeFinds.weight, PrototypeState.setCall_pool, PrototypeState.setCall_calls,
    PrototypeState.setCall_workers]
  omega

variable [DecidableEq ω]

omit [DecidableEq ι] in
/-- What a worker's way to a lighter point pays for. -/
theorem weight_prototypeWorker_lt {worker : ω} {pc : FindWorkerPc ι} (paid : Nat)
    (lighter : workerWeight pc + paid < workerWeight (state.workers worker))
    : finds.weight (state.setWorker worker pc) + paid < finds.weight state := by
  have traded := sum_update state.workers worker pc workerWeight
  simp only [PrototypeFinds.weight, PrototypeState.setWorker_pool,
    PrototypeState.setWorker_workers, PrototypeState.setWorker_calls]
  omega

/-- A worker's move on a call costs at most a notification of the call, which it pays. -/
theorem weight_onCall_lt {worker : ω} {call : ι} {next : PrototypeCall ι ω}
    {pc : FindWorkerPc ι}
    (notified
      : next.pc = (state.calls call).pc ∨ next.pc = (state.calls call).pc.notify)
    (lighter : workerWeight pc + 2 < workerWeight (state.workers worker)
      ∨ next.pc = (state.calls call).pc
        ∧ workerWeight pc < workerWeight (state.workers worker))
    : finds.weight ((state.setCall call next).setWorker worker pc) < finds.weight state := by
  have same (unmoved : next.pc = (state.calls call).pc)
      : finds.weight (state.setCall call next) ≤ finds.weight state :=
    weight_setCall_le 0 (by rw [unmoved, Nat.add_zero])
  rcases lighter with lighter | ⟨unmoved, lighter⟩
  · have woken : finds.weight (state.setCall call next) ≤ finds.weight state + 2 := by
      refine weight_setCall_le 2 ?_
      rcases notified with unmoved | notified
      · rw [unmoved]
        exact Nat.le_add_right _ 2
      · rw [notified]
        exact prototype_weight_notify_le _ _ _
    have paid := @weight_prototypeWorker_lt _ _ _ _ finds (state.setCall call next) _ worker pc 2
      lighter
    omega
  · have paid := @weight_prototypeWorker_lt _ _ _ _ finds (state.setCall call next) _ worker pc 0
      lighter
    have unchanged := same unmoved
    omega

/-- A worker's move lowers its own weight by more than it raises the queue's and the calls'. -/
theorem PrototypeWorkerMove.weight_lt {worker : ω}
    (moved : PrototypeWorkerMove finds worker state after)
    : finds.weight after < finds.weight state := by
  cases moved with
  | @loop pool pc looped =>
      have pays := looped.pays
      have traded := sum_update state.workers worker pc workerWeight
      simp only [PrototypeFinds.weight, PrototypeState.setWorker_pool,
        PrototypeState.setWorker_workers, PrototypeState.setWorker_calls]
      omega
  | lock at_pc entering free =>
      obtain ⟨_, rfl⟩ := PrototypeCall.lock_eq_some_iff.mp free
      refine weight_onCall_lt (Or.inl rfl) (Or.inr ⟨rfl, ?_⟩)
      rw [at_pc]
      rcases entering with ⟨rfl, rfl⟩ | ⟨resultslette, rfl, rfl⟩ <;>
        simp [workerWeight, AsyncStage.weight]
  | goOn at_pc _ | search at_pc _ =>
      refine Nat.lt_of_le_of_lt (Nat.le_add_right _ 0) (weight_prototypeWorker_lt 0 ?_)
      rw [at_pc]
      simp [workerWeight, AsyncStage.weight]
  | giveUp at_pc deaf =>
      refine weight_onCall_lt (Or.inr rfl) (Or.inl ?_)
      rw [at_pc]
      simp [workerWeight, AsyncStage.weight]
  | append at_pc =>
      refine weight_onCall_lt (Or.inr ?_) (Or.inl ?_)
      · unfold PrototypeCall.doneOne PrototypeCall.append
        split <;> rfl
      · rw [at_pc]
        simp [workerWeight, AsyncStage.weight]
  | unlockSearch at_pc =>
      refine weight_onCall_lt (Or.inl rfl) (Or.inr ⟨rfl, ?_⟩)
      rw [at_pc]
      simp [workerWeight, AsyncStage.weight]
  | unlockEnd at_pc ending =>
      refine weight_onCall_lt (Or.inl rfl) (Or.inr ⟨rfl, ?_⟩)
      rw [at_pc]
      rcases ending with rfl | rfl <;> simp [workerWeight, AsyncStage.weight]

end Steps

-----------------------------------------------------------------------------------------
-- Runs
-----------------------------------------------------------------------------------------

section Runs

/-- A thread's own step. -/
def PrototypeLabel.isRun {ι ω : Type*} : PrototypeLabel ι ω → Bool
  | .run _ => true
  | _ => false

def PrototypeLabel.isSpurious {ι ω : Type*} : PrototypeLabel ι ω → Bool
  | .spurious _ => true
  | _ => false

variable {ι ω : Type*} [Fintype ι] [Fintype ω] [DecidableEq ι] [DecidableEq ω]
  {finds : PrototypeFinds ι} {state after : PrototypeState ι ω}

/-- Each step of a thread lowers the weight, a spurious wakeup raises it by at most what waking
costs, and the end of a second does not raise it.
-/
theorem prototype_step_paid (answerable : finds.Answerable) {label : PrototypeLabel ι ω}
    (reached : Reached (finds.machine ω) state)
    (moved : (finds.machine ω).step label state = some after)
    : finds.weight after + label.isRun.toNat
      ≤ finds.weight state + wakeWeight * label.isSpurious.toNat := by
  have running : after.crashed = none :=
    prototype_crashed_of_reached answerable (.next label reached trivial moved)
  cases prototype_move_of_step moved with
  | call moved => exact moved.weight_lt
  | worker moved => exact moved.weight_lt
  | crash => cases running
  | @wakeCall call asleep =>
      have woken : finds.weight
          (state.setCall call ((state.calls call).goTo (.waiting .notified)))
          ≤ finds.weight state + wakeWeight := by
        refine weight_setCall_le wakeWeight ?_
        rw [asleep]
        simp [PrototypeCall.goTo, PrototypePc.weight, wakeWeight]
      simpa only [PrototypeLabel.isRun, PrototypeLabel.isSpurious, Bool.toNat_true,
        Bool.toNat_false, Nat.add_zero, Nat.mul_one] using woken
  | @wakeWorker worker asleep =>
      have woken := workerWeight_notify_le (state.workers worker)
      have traded := sum_update state.workers worker (state.workers worker).notify workerWeight
      simp only [PrototypeFinds.weight, PrototypeState.setWorker_pool,
        PrototypeState.setWorker_workers, PrototypeState.setWorker_calls,
        PrototypeLabel.isRun, PrototypeLabel.isSpurious, Bool.toNat_true, Bool.toNat_false]
      omega
  | @expire call wait at_pc =>
      have expired : finds.weight (state.setCall call ((state.calls call).goTo (.waiting .expired)))
          ≤ finds.weight state + 0 := by
        refine weight_setCall_le 0 ?_
        rw [at_pc]
        cases wait <;> simp [PrototypeCall.goTo, PrototypePc.weight]
      simpa only [PrototypeLabel.isRun, PrototypeLabel.isSpurious, Bool.toNat_false,
        Nat.add_zero, Nat.mul_zero] using expired

/-- What the process weighs before its first step. -/
theorem prototype_weight_start (finds : PrototypeFinds ι)
    : finds.weight (finds.machine ω).start
      = ∑ call, (6 + (finds.begun call).2.length * (18 + 6 * Fintype.card ω))
        + 3 * Fintype.card ω := by
  simp only [PrototypeFinds.weight, PrototypeFinds.machine, PrototypeState.start,
    PrototypePc.weight, cellsWeight, workerWeight, wakeWeight, List.length_nil, Nat.zero_mul,
    Nat.zero_add, Finset.sum_const, Finset.card_univ, smul_eq_mul]
  rw [Nat.mul_comm (Fintype.card ω) 3]
  congr 1
  exact Finset.sum_congr rfl (fun call _ => by omega)

/-- However the threads are scheduled, and whenever the seconds of the calls are over, the
threads take at most as many steps as the process weighs, and six for each spurious wakeup.
-/
theorem prototype_runs_le (answerable : finds.Answerable)
    {schedule : List (PrototypeLabel ι ω)}
    (run : (finds.machine ω).follow schedule (finds.machine ω).start = some state)
    : schedule.countP PrototypeLabel.isRun
      ≤ finds.weight (finds.machine ω).start
        + wakeWeight * schedule.countP PrototypeLabel.isSpurious := by
  have initial : Reached (finds.machine ω) (finds.machine ω).start := .start
  refine Machine.countP_follow_le_granted finds.weight _ _ _ ?_ ?_ initial run
  · intro label before after reached moved
    exact .next label reached trivial moved
  · intro label before after reached moved
    exact prototype_step_paid answerable reached moved

end Runs

section Done

variable {ι ω : Type*}

/-- Every call has returned, and every worker waits for work that is not there. -/
structure PrototypeState.Done (state : PrototypeState ι ω) : Prop where
  returned : ∀ call, ∃ ppl, (state.calls call).pc = .returned ppl
  drained : state.pool.work = []
  asleep : ∀ worker, state.workers worker = .asleep false

variable [DecidableEq ι] [DecidableEq ω] {finds : PrototypeFinds ι} {state : PrototypeState ι ω}

/-- Then nobody can move. -/
theorem PrototypeState.Done.quiet (done : state.Done) : ¬ finds.CanMove state := by
  rintro ⟨thread, after, moved⟩
  simp only [PrototypeFinds.machine, PrototypeFinds.step] at moved
  split at moved
  · cases moved
  · cases thread with
    | caller call =>
        obtain ⟨ppl, returned⟩ := done.returned call
        simp [PrototypeFinds.findMatchingPplStep, returned] at moved
    | worker worker =>
        simp [PrototypeFinds.workerStep, done.asleep worker,
          NoddyWorkerPool.startWorkingStep] at moved

variable [Fintype ω]

/-- A state in which nobody can move is one in which everything is done. -/
theorem done_of_quiet [Nonempty ω] (answerable : finds.Answerable)
    (reached : Reached (finds.machine ω) state) (quiet : ¬ finds.CanMove state)
    : state.Done := by
  have asleep (worker : ω) : state.workers worker = .asleep false := by
    by_contra awake
    exact quiet (canMove_of_awakeWorker answerable worker
      (prototype_crashed_of_reached answerable reached) (locked_of_prototype_reached reached)
      awake ((prototype_alive_of_reached reached).going worker).2)
  refine ⟨fun call => ?_, ?_, asleep⟩
  · by_contra unreturned
    exact quiet (prototype_canMove_of_reached answerable reached (not_exists.mp unreturned))
  · exact (prototype_sleepsSoundly_of_reached reached).workers (Classical.arbitrary ω) (asleep _)

/-- Where everything is done, no op is pending for any call. -/
theorem PrototypeState.Done.pendingOps (done : state.Done)
    (reached : Reached (finds.machine ω) state) (call : ι)
    : (state.calls call).orchestration.pendingOps = 0 := by
  obtain ⟨ppl, returned⟩ := done.returned call
  obtain ⟨_, _, accounts⟩ := valid_of_prototype_reached reached call
  have held : ∑ worker, heldShare call (state.workers worker) = 0 :=
    Finset.sum_eq_zero (fun worker _ => by
      simp [done.asleep worker, heldShare, freshShare, searchingShare])
  have counted := accounts.pending
  simpa [PrototypeFinds.gather, PrototypeFinds.view, returned, PrototypeState.out, done.drained,
    held] using counted

end Done

-----------------------------------------------------------------------------------------
-- Every find ends
-----------------------------------------------------------------------------------------

/-- Any number of finds, with at least one worker, come to their end under every schedule of the
threads, and whether or not the calls stop waiting after their second: no step ends the process,
the threads take a bounded number of steps, and they stop only where every call has returned,
every worklette has been run, and no op is pending.
-/
theorem prototype_finds_end {ι ω : Type*} [Fintype ι] [DecidableEq ι] [Fintype ω]
    [DecidableEq ω] [Nonempty ω] {settings : PrototypeSettings} {people : List Person}
    {requests : ι → PplMatchingParameters} {windows : ι → Date × Date}
    (homes : ∀ person ∈ people, person.locationOfHome.isValid = true)
    (users : ∀ call, (requests call).locationOfUser.isValid = true)
    (representable : ∀ call, settings.Representable (requests call) (windows call))
    : ∃ grid, settings.populate people = .ok grid
        ∧ ∀ (schedule : List (PrototypeLabel ι ω)) (state : PrototypeState ι ω),
          ((PrototypeFinds.mk settings grid requests).machine ω).follow schedule .start
            = some state
          → state.crashed = none
            ∧ schedule.countP PrototypeLabel.isRun
              ≤ ∑ call,
                  (6
                    + ((PrototypeFinds.mk settings grid requests).begun call).2.length
                      * (18 + 6 * Fintype.card ω))
                + 3 * Fintype.card ω
                + 6 * schedule.countP PrototypeLabel.isSpurious
            ∧ ((∀ thread,
                  ¬ ((PrototypeFinds.mk settings grid requests).machine ω).Enabled
                    (.run thread) state)
                ↔ state.Done)
            ∧ (state.Done → ∀ call, (state.calls call).orchestration.pendingOps = 0) := by
  obtain ⟨grid, populates, populated⟩ := PrototypeSettings.populate_of_isValid homes
  let finds : PrototypeFinds ι := ⟨settings, grid, requests⟩
  have stored : finds.settings.Populated people finds.grid := populated
  have answerable : finds.Answerable := prototype_answerable stored users representable
  refine ⟨grid, populates, fun schedule state run => ?_⟩
  have reached : Reached (finds.machine ω) state := Reached.follow .start run
  refine ⟨prototype_crashed_of_reached answerable reached, ?_, ?_, fun done =>
    done.pendingOps reached⟩
  · have bound := prototype_runs_le answerable run
    rwa [prototype_weight_start] at bound
  · exact ⟨fun quiet => done_of_quiet answerable reached (not_exists.mpr quiet),
      fun done thread moved => done.quiet ⟨thread, moved⟩⟩

/-- Two finds on two workers, one person stored. -/
theorem prototype_finds_end_southerner
    : ∃ grid, shortRange.populate [southerner] = .ok grid
        ∧ ∀ (schedule : List (PrototypeLabel (Fin 2) (Fin 2)))
            (state : PrototypeState (Fin 2) (Fin 2)),
          ((PrototypeFinds.mk shortRange grid (fun _ : Fin 2 => northernRequest)).machine
              (Fin 2)).follow schedule .start
            = some state
          → state.crashed = none
            ∧ schedule.countP PrototypeLabel.isRun
              ≤ ∑ call,
                  (6
                    + ((PrototypeFinds.mk shortRange grid
                        (fun _ : Fin 2 => northernRequest)).begun call).2.length
                      * (18 + 6 * Fintype.card (Fin 2)))
                + 3 * Fintype.card (Fin 2)
                + 6 * schedule.countP PrototypeLabel.isSpurious
            ∧ ((∀ thread,
                  ¬ ((PrototypeFinds.mk shortRange grid
                      (fun _ : Fin 2 => northernRequest)).machine (Fin 2)).Enabled
                    (.run thread) state)
                ↔ state.Done)
            ∧ (state.Done → ∀ call, (state.calls call).orchestration.pendingOps = 0) :=
  @prototype_finds_end (Fin 2) (Fin 2) _ _ _ _ _ shortRange [southerner]
    (fun _ => northernRequest) (fun _ => northernWindow)
    (fun _ member => List.mem_singleton.mp member ▸ southerner_isValid)
    (fun _ => northernRequest_isValid) (fun _ => ⟨rfl, rfl⟩)

end PplMe.Engine
