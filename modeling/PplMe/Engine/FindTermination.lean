import PplMe.Engine.FindProgress

/-! Every find comes to its end.
A weight is given to the program points of all threads and to the queue, so that every step of
a thread lowers the sum: whoever notifies has the weight to raise those who wake. Only
spurious wakeups raise it, and they by a constant.
-/

namespace PplMe.Engine

open PplMe.Core Stepping DistributedSums

section Weights

variable {ι : Type*}

/-- What waking a worker costs. -/
def wakeWeight : Nat := 6

def AsyncStage.weight : AsyncStage → Nat
  | .enterCheck => 12
  | .check => 11
  | .leaveCheck false => 10
  | .search => 9
  | .enterAppend _ => 8
  | .append _ => 7
  | .leaveCheck true | .leaveAppend => 4

def workerWeight : FindWorkerPc ι → Nat
  | .stopped => 0
  | .leaveDead => 1
  | .inspect => 2
  | .enter => 3
  | .leave none => 4
  | .woken => 5
  | .asleep notified => if notified then 6 else 0
  | .leave (some _) => 13
  | .running progress => progress.stage.weight

/-- What a queued worklette costs. -/
def queuedWeight : Nat := 12

variable (workers : Nat)

/-- What a call past `TryFindPpl` still costs, with the remaining cells of its walk. -/
def tryWeight (rest : List CellLocator) : Nat := 4 + rest.length * (18 + wakeWeight * workers)

def WaitSite.weight : WaitSite → Nat
  | .room _ rest => tryWeight workers rest + 15 + wakeWeight * workers
  | .stop => tryWeight workers []
  | .final => 1

def CallerPc.weight (walk : List CellLocator) : CallerPc → Nat
  | .idle => tryWeight workers walk
  | .enter site => site.weight workers + 2
  | .wait site => site.weight workers + 1
  | .asleep notified site => site.weight workers + if notified then 2 else 0
  | .queueEnter _ rest => tryWeight workers rest + 15 + wakeWeight * workers
  | .queuePush _ rest => tryWeight workers rest + 14 + wakeWeight * workers
  | .queueLeave rest => tryWeight workers rest + 1
  | .tryLeave rest => tryWeight workers rest
  | .finalLeave _ => 1
  | .returned _ => 0

/-- Waking a call raises its weight by two at most. -/
theorem weight_notify_le (walk : List CellLocator) (pc : CallerPc)
    : pc.notify.weight workers walk ≤ pc.weight workers walk + 2 := by
  cases pc with
  | asleep notified site => cases notified <;> simp [CallerPc.notify, CallerPc.weight]
  | _ => simp [CallerPc.notify]

theorem workerWeight_notify_le (pc : FindWorkerPc ι)
    : workerWeight pc.notify ≤ workerWeight pc + wakeWeight := by
  cases pc with
  | asleep notified => cases notified <;> simp [WorkerPc.notify, workerWeight, wakeWeight]
  | _ => simp [WorkerPc.notify]

/-- Going on with the next cell costs less than being past `TryFindPpl`. -/
theorem weight_nextCell_lt (walk rest : List CellLocator)
    : (CallerPc.nextCell rest).weight workers walk < tryWeight workers rest := by
  cases rest with
  | nil => simp [CallerPc.nextCell, CallerPc.weight, WaitSite.weight, tryWeight]
  | cons cell rest =>
      simp only [CallerPc.nextCell, CallerPc.weight, WaitSite.weight, tryWeight,
        List.length_cons, Nat.succ_mul]
      omega

end Weights

section Steps

/-- A worker's loop lowers its own weight by more than it raises the queue's. -/
theorem StartWorking.pays {ι ω : Type*} {self : Thread ι ω} {pool next pc later}
    (looped
      : StartWorking (fun worklette => (⟨worklette, .enterCheck⟩ : AsyncFind ι)) self pool pc
          next later)
    : next.work.length * queuedWeight + workerWeight later
      < pool.work.length * queuedWeight + workerWeight pc := by
  cases looped with
  | die at_test dead => rcases at_test with rfl | rfl <;> simp [workerWeight]
  | take at_test alive work =>
      rw [work, List.length_cons, Nat.succ_mul]
      rcases at_test with rfl | rfl <;> simp only [workerWeight, queuedWeight] <;> omega
  | _ => simp [workerWeight, AsyncStage.weight]

variable {ι ω : Type*} [Fintype ι] [Fintype ω]

/-- All that is left to do, as a number. -/
def Finds.weight (finds : Finds ι) (state : FindState ι ω) : Nat :=
  state.pool.work.length * queuedWeight
  + ∑ call, (state.callers call).weight (Fintype.card ω) (finds.walk call)
  + ∑ worker, workerWeight (state.workers worker)

variable [DecidableEq ι] {finds : Finds ι} {state after : FindState ι ω}

omit [Fintype ι] [DecidableEq ι] in
/-- Notifying all workers raises their weights by at most what waking them all costs. -/
theorem sum_workerWeight_notify_le (state : FindState ι ω)
    : ∑ worker, workerWeight (state.workers worker).notify
      ≤ ∑ worker, workerWeight (state.workers worker) + wakeWeight * Fintype.card ω := by
  calc
    ∑ worker, workerWeight (state.workers worker).notify
        ≤ ∑ worker, (workerWeight (state.workers worker) + wakeWeight) :=
      Finset.sum_le_sum (fun worker _ => workerWeight_notify_le _)
    _ = ∑ worker, workerWeight (state.workers worker) + wakeWeight * Fintype.card ω := by
      rw [Finset.sum_add_distrib, Finset.sum_const, Finset.card_univ, nsmul_eq_mul, Nat.cast_id,
        Nat.mul_comm]

omit [Fintype ι] in
/-- A call's move lowers its own weight by more than it raises the queue's and the workers'. -/
theorem CallerMove.pays {call : ι} (moved : CallerMove finds call state after)
    : after.pool.work.length * queuedWeight
        + (after.callers call).weight (Fintype.card ω) (finds.walk call)
        + ∑ worker, workerWeight (after.workers worker)
      < state.pool.work.length * queuedWeight
        + (state.callers call).weight (Fintype.card ω) (finds.walk call)
        + ∑ worker, workerWeight (state.workers worker) := by
  cases moved with
  | @start origin at_pc located =>
      have walked : finds.walk call = sqiralCells finds.settings.resolution origin := by
        rw [Finds.walk, located]
      have next := weight_nextCell_lt (Fintype.card ω) (finds.walk call) (finds.walk call)
      have idle : CallerPc.weight (Fintype.card ω) (finds.walk call) .idle
          = tryWeight (Fintype.card ω) (finds.walk call) := rfl
      simp only [FindState.setCaller_pool, FindState.setCaller_callers,
        FindState.setCaller_workers, Function.update_self, at_pc, ← walked]
      omega
  | lock at_pc free =>
      rcases at_pc with at_pc | at_pc <;> simp [at_pc, CallerPc.weight]
  | stop at_pc full | skip at_pc done =>
      simp only [at_pc, CallerPc.weight, WaitSite.weight, tryWeight, FindState.setCaller_pool,
        FindState.setContext_pool, FindState.setCaller_callers, FindState.setCaller_workers,
        FindState.setContext_workers, Function.update_self, List.length_nil]
      omega
  | queuePush at_pc =>
      have woken := sum_workerWeight_notify_le state
      simp only [at_pc, CallerPc.weight, queuedWeight, FindState.setCaller_pool,
        FindState.notifyWorkers_pool, NoddyWorkerPool.push_work, List.length_append,
        List.length_singleton, FindState.setCaller_callers, FindState.setCaller_workers,
        FindState.notifyWorkers_workers, Function.update_self, Nat.succ_mul]
      omega
  | @tryLeave rest at_pc =>
      have next := weight_nextCell_lt (Fintype.card ω) (finds.walk call) rest
      have past : CallerPc.weight (Fintype.card ω) (finds.walk call) (.tryLeave rest)
          = tryWeight (Fintype.card ω) rest := rfl
      have final : CallerPc.weight (Fintype.card ω) (finds.walk call) (.enter .final)
          < tryWeight (Fintype.card ω) rest := by
        simp only [CallerPc.weight, WaitSite.weight, tryWeight]
        omega
      simp only [at_pc, FindState.setCaller_pool, FindState.setContext_pool,
        FindState.setCaller_callers, FindState.setCaller_workers,
        FindState.setContext_workers, Function.update_self]
      split <;> omega
  | _ at_pc => simp [at_pc, CallerPc.weight, WaitSite.weight, tryWeight]

/-- Notifying a call raises the weights of the calls by at most what waking it costs. -/
theorem sum_callerWeight_notify_le (finds : Finds ι) (state : FindState ι ω) (call : ι)
    : ∑ other,
        (Function.update state.callers call (state.callers call).notify other).weight
          (Fintype.card ω) (finds.walk other)
      ≤ ∑ other, (state.callers other).weight (Fintype.card ω) (finds.walk other) + 2 := by
  have others (other : ι) (different : other ≠ call)
      : (Function.update state.callers call (state.callers call).notify other).weight
          (Fintype.card ω) (finds.walk other)
        = (state.callers other).weight (Fintype.card ω) (finds.walk other) := by
    rw [Function.update_of_ne different]
  have traded := sum_change call others
  have woken := weight_notify_le (Fintype.card ω) (finds.walk call) (state.callers call)
  rw [Function.update_self] at traded
  omega

theorem CallerMove.weight_lt {call : ι} (moved : CallerMove finds call state after)
    : finds.weight after < finds.weight state := by
  have pays := moved.pays
  have others (other : ι) (different : other ≠ call)
      : (after.callers other).weight (Fintype.card ω) (finds.walk other)
        = (state.callers other).weight (Fintype.card ω) (finds.walk other) := by
    rw [moved.others different]
  have traded := sum_change call others
  unfold Finds.weight
  omega

variable [DecidableEq ω]

omit [DecidableEq ω] in
/-- What is in a context weighs nothing. -/
theorem weight_setContext (finds : Finds ι) (state : FindState ι ω) (call : ι)
    (context : FindContext ι ω)
    : finds.weight (state.setContext call context) = finds.weight state := rfl

omit [DecidableEq ι] in
/-- A worker that goes on to a lighter point lightens the process, notifications paid. -/
theorem weight_setWorker_add_lt {worker : ω} {pc : FindWorkerPc ι} (paid : Nat)
    (lighter : workerWeight pc + paid < workerWeight (state.workers worker))
    : finds.weight (state.setWorker worker pc) + paid < finds.weight state := by
  have traded := sum_update state.workers worker pc workerWeight
  simp only [Finds.weight, FindState.setWorker_pool, FindState.setWorker_workers,
    FindState.setWorker_callers]
  omega

omit [DecidableEq ι] in
theorem weight_setWorker_lt {worker : ω} {pc : FindWorkerPc ι}
    (lighter : workerWeight pc < workerWeight (state.workers worker))
    : finds.weight (state.setWorker worker pc) < finds.weight state := by
  rw [← Nat.add_zero (workerWeight pc)] at lighter
  rw [← Nat.add_zero (finds.weight (state.setWorker worker pc))]
  exact weight_setWorker_add_lt 0 lighter

omit [DecidableEq ω] in
theorem weight_notifyCaller_le (call : ι)
    : finds.weight (state.notifyCaller call) ≤ finds.weight state + 2 := by
  have woken := sum_callerWeight_notify_le finds state call
  simp only [Finds.weight, FindState.notifyCaller_pool, FindState.notifyCaller_workers,
    FindState.notifyCaller_callers]
  omega

/-- A worker's move lowers its own weight by more than it raises the queue's and the calls'. -/
theorem WorkerMove.weight_lt {worker : ω} (moved : WorkerMove finds worker state after)
    : finds.weight after < finds.weight state := by
  cases moved with
  | @loop pool pc looped =>
      have pays := looped.pays
      have traded := sum_update state.workers worker pc workerWeight
      simp only [Finds.weight, FindState.setWorker_pool, FindState.setWorker_workers,
        FindState.setWorker_callers]
      omega
  | @drop worklette at_pc done pending =>
      refine Nat.lt_of_add_lt_add_right (lt_of_lt_of_le (weight_setWorker_add_lt 2 ?_) ?_)
      · rw [FindState.notifyCaller_workers, FindState.setContext_workers, at_pc]
        simp [workerWeight, AsyncStage.weight]
      · exact (weight_notifyCaller_le _).trans_eq (by rw [weight_setContext])
  | @append worklette myPpl at_pc pending =>
      refine Nat.lt_of_add_lt_add_right (lt_of_lt_of_le (weight_setWorker_add_lt 2 ?_) ?_)
      · rw [FindState.notifyCaller_workers, FindState.setContext_workers, at_pc]
        simp [workerWeight, AsyncStage.weight]
      · exact (weight_notifyCaller_le _).trans_eq (by rw [weight_setContext])
  | lock at_pc entering free =>
      refine (weight_setWorker_lt ?_).trans_eq (weight_setContext _ _ _ _)
      rw [FindState.setContext_workers, at_pc]
      rcases entering with ⟨rfl, rfl⟩ | ⟨myPpl, rfl, rfl⟩ <;>
        simp [workerWeight, AsyncStage.weight]
  | unlockEnd at_pc ending =>
      refine (weight_setWorker_lt ?_).trans_eq (weight_setContext _ _ _ _)
      rw [FindState.setContext_workers, at_pc]
      rcases ending with rfl | rfl <;> simp [workerWeight, AsyncStage.weight]
  | goOn at_pc _ | search at_pc _ =>
      refine weight_setWorker_lt ?_
      rw [at_pc]
      simp [workerWeight, AsyncStage.weight]
  | unlockSearch at_pc =>
      refine (weight_setWorker_lt ?_).trans_eq (weight_setContext _ _ _ _)
      rw [FindState.setContext_workers, at_pc]
      simp [workerWeight, AsyncStage.weight]

end Steps

section Runs

/-- A thread's own step. -/
def FindLabel.isRun {ι ω : Type*} : FindLabel ι ω → Bool
  | .run _ => true
  | .spurious _ => false

variable {ι ω : Type*} [Fintype ι] [Fintype ω] [DecidableEq ι] [DecidableEq ω]
  {finds : Finds ι} {state after : FindState ι ω}

/-- A thread's own step lowers the weight. -/
theorem weight_run_lt (answerable : finds.Answerable) {label : FindLabel ι ω}
    (reached : Reached (finds.machine ω) state)
    (moved : (finds.machine ω).step label state = some after) (own : label.isRun = true)
    : finds.weight after < finds.weight state := by
  have valid := valid_of_reached reached
  cases (move_of_step moved).2 with
  | caller moved => exact moved.weight_lt
  | worker moved => exact moved.weight_lt
  | callerCrash ended => exact absurd ended (not_callerCrash answerable (valid _))
  | workerCrash ended => exact absurd ended (not_workerCrash answerable valid)
  | wakeCaller _ | wakeWorker _ => cases own

/-- A spurious wakeup raises it by at most what waking costs. -/
theorem weight_spurious_le {label : FindLabel ι ω}
    (moved : (finds.machine ω).step label state = some after) (spurious : label.isRun = false)
    : finds.weight after ≤ finds.weight state + wakeWeight := by
  cases (move_of_step moved).2 with
  | @wakeCaller call site asleep =>
      have woken : finds.weight (state.notifyCaller call) ≤ finds.weight state + 2 :=
        weight_notifyCaller_le call
      exact woken.trans (Nat.add_le_add_left (by decide) _)
  | @wakeWorker worker asleep =>
      have woken := workerWeight_notify_le (state.workers worker)
      have traded := sum_update state.workers worker (state.workers worker).notify workerWeight
      simp only [Finds.weight, FindState.setWorker_pool, FindState.setWorker_workers,
        FindState.setWorker_callers]
      omega
  | _ => cases spurious

/-- However the threads are scheduled, they take at most as many steps as the process weighs
at its start, and a fixed number more for each spurious wakeup.
-/
theorem runs_le_weight (answerable : finds.Answerable) {schedule : List (FindLabel ι ω)}
    (run : (finds.machine ω).follow schedule (finds.machine ω).start = some state)
    : schedule.countP FindLabel.isRun
      ≤ finds.weight (finds.machine ω).start
        + wakeWeight * schedule.countP (fun label => !label.isRun) := by
  have initial : Reached (finds.machine ω) (finds.machine ω).start := .start
  refine Machine.countP_follow_le finds.weight _ _ ?_ ?_ ?_ initial run
  · intro label before after reached moved
    exact .next label reached trivial moved
  · intro label before after reached moved own
    exact weight_run_lt answerable reached moved own
  · intro label before after _ moved spurious
    exact weight_spurious_le moved spurious

end Runs

end PplMe.Engine
