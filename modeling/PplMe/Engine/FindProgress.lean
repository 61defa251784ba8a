import PplMe.Engine.FindLocks
import PplMe.Engine.FindsOnGrid

/-! Nobody sleeps through what they wait for, and nobody waits for a mutex in vain.
From these two and the accounts of each call it follows that a process with calls that have
not returned always has a thread that can move.
-/

namespace PplMe.Engine

open PplMe.Core Stepping Ownership

section Sleepers

variable {ι ω : Type*}

/-- Workers sleep only while nothing is queued, and calls only while what they wait for is
not so.
-/
structure FindState.SleepsSoundly (finds : Finds ι) (state : FindState ι ω) : Prop where
  workers : ∀ worker, state.workers worker = .asleep false → state.pool.work = []
  callers
    : ∀ call site,
        state.callers call = .asleep false site
        → finds.ready (state.contexts call) site = false

variable {finds : Finds ι} {state after : FindState ι ω}

/-- What a call waits for does not depend on who holds the mutex. -/
theorem ready_congr {left right : FindContext ι ω} (same : left.unlock = right.unlock)
    (site : WaitSite)
    : finds.ready left site = finds.ready right site := by
  have ppl := congrArg FindContext.ppl same
  have pending := congrArg FindContext.pendingCells same
  have done := congrArg FindContext.weDoneHere same
  simp only [FindContext.unlock_ppl, FindContext.unlock_pendingCells,
    FindContext.unlock_weDoneHere] at ppl pending done
  cases site <;> simp only [Finds.ready, ppl, pending, done]

/-- A bystander that sleeps was not notified and slept before. -/
theorem worker_asleep_of_bystander {worker : ω}
    (bystander : state.Bystander after (.worker worker))
    (asleep : after.workers worker = .asleep false)
    : after.workers worker = state.workers worker := by
  rcases bystander with same | notified
  · exact same
  · rw [notified] at asleep
    cases pc : state.workers worker <;> rw [pc] at asleep <;> cases asleep

theorem caller_asleep_of_bystander {call : ι} {site : WaitSite}
    (bystander : state.Bystander after (.caller call))
    (asleep : after.callers call = .asleep false site)
    : after.callers call = state.callers call := by
  rcases bystander with same | notified
  · exact same
  · rw [notified] at asleep
    cases pc : state.callers call <;> rw [pc] at asleep <;> cases asleep

variable [DecidableEq ι]

/-- A call queues a worklette only together with a notification of all workers. -/
theorem CallerMove.work {call : ι} (moved : CallerMove finds call state after)
    : after.pool.work = state.pool.work
      ∨ ∀ worker, after.workers worker = (state.workers worker).notify := by
  cases moved with
  | queuePush at_pc => exact Or.inr (fun _ => rfl)
  | _ => exact Or.inl rfl

/-- A call goes to sleep only when what it waits for is not so. -/
theorem CallerMove.asleep {call : ι} {site : WaitSite}
    (moved : CallerMove finds call state after)
    (asleep : after.callers call = .asleep false site)
    : finds.ready (after.contexts call) site = false := by
  cases moved with
  | sleep at_pc unready =>
      simp only [FindState.setCaller_callers, Function.update_self, CallerPc.asleep.injEq,
        true_and] at asleep
      subst asleep
      rw [FindState.setCaller_contexts, FindState.setContext_contexts, Function.update_self]
      exact (ready_congr rfl _).trans unready
  | @start origin at_pc located =>
      cases cells : sqiralCells finds.settings.resolution origin <;>
        simp [cells, CallerPc.nextCell] at asleep
  | @tryLeave rest at_pc =>
      cases done : (state.contexts call).weDoneHere <;> cases rest <;>
        simp [done, CallerPc.nextCell] at asleep
  | _ => simp at asleep

variable [DecidableEq ω]

/-- A worker changes what a call waits for only together with a notification of the call. -/
theorem WorkerMove.contexts {worker : ω} (moved : WorkerMove finds worker state after)
    (call : ι)
    : (after.contexts call).unlock = (state.contexts call).unlock
      ∨ after.callers call = (state.callers call).notify := by
  cases moved with
  | @lock worklette _ _ _ _ _ | @unlockSearch worklette _ | @unlockEnd worklette _ _ _ =>
      by_cases own : call = worklette.call
      · subst own
        exact Or.inl (by simp [FindContext.unlock])
      · exact Or.inl (by simp [own])
  | @drop worklette _ _ _ | @append worklette _ _ _ =>
      by_cases own : call = worklette.call
      · subst own
        exact Or.inr (by simp)
      · exact Or.inl (by simp [own])
  | _ => exact Or.inl rfl

/-- The queue stays empty while workers move. -/
theorem WorkerMove.work {worker : ω} (moved : WorkerMove finds worker state after)
    (empty : state.pool.work = [])
    : after.pool.work = [] := by
  cases moved with
  | loop looped =>
      generalize state.workers worker = earlier at looped
      cases looped with
      | take at_test alive work => cases empty.symm.trans work
      | _ => exact empty
  | _ => exact empty

/-- A worker goes to sleep only when nothing is queued. -/
theorem WorkerMove.asleep {worker : ω} (moved : WorkerMove finds worker state after)
    (asleep : after.workers worker = .asleep false)
    : after.pool.work = [] := by
  cases moved with
  | loop looped =>
      rw [FindState.setWorker_workers, Function.update_self] at asleep
      subst asleep
      generalize state.workers worker = pc at looped
      cases looped with
      | sleep alive empty => exact empty
  | _ => simp at asleep

/-- In every reachable state the sleepers sleep soundly. -/
theorem sleepsSoundly_of_reached (reached : Reached (finds.machine ω) state)
    : state.SleepsSoundly finds := by
  refine reached.invariant (FindState.SleepsSoundly finds) ?_ ?_
  · constructor
    · intro worker asleep
      cases asleep
    · intro call site asleep
      cases asleep
  · intro label before after _ sound _ moved
    have slept {worker} (bystander : before.Bystander after (.worker worker))
        (asleep : after.workers worker = .asleep false)
        : before.pool.work = [] :=
      sound.workers worker (worker_asleep_of_bystander bystander asleep ▸ asleep)
    have waited {call site} (bystander : before.Bystander after (.caller call))
        (asleep : after.callers call = .asleep false site)
        : finds.ready (before.contexts call) site = false :=
      sound.callers call site (caller_asleep_of_bystander bystander asleep ▸ asleep)
    cases (move_of_step moved).2 with
    | @caller mover _ moved =>
        refine ⟨fun worker asleep => ?_, fun call site asleep => ?_⟩
        · rcases moved.work with same | notified
          · exact same ▸ slept (moved.bystander (by simp)) asleep
          · rw [notified] at asleep
            cases pc : before.workers worker <;> rw [pc] at asleep <;> cases asleep
        · by_cases own : call = mover
          · subst own
            exact moved.asleep asleep
          · rw [moved.otherContexts own]
            exact waited (moved.bystander (by simpa using own)) asleep
    | @worker mover _ moved =>
        refine ⟨fun worker asleep => ?_, fun call site asleep => ?_⟩
        · by_cases own : worker = mover
          · subst own
            exact moved.asleep asleep
          · exact moved.work (slept (moved.bystander (by simpa using own)) asleep)
        · rcases moved.contexts call with same | notified
          · exact (ready_congr same site).trans (waited (moved.bystander (by simp)) asleep)
          · rw [notified] at asleep
            cases pc : before.callers call <;> rw [pc] at asleep <;> cases asleep
    | callerCrash ended | workerCrash ended => exact ⟨sound.workers, sound.callers⟩
    | @wakeCaller woken site asleep =>
        exact ⟨fun worker => slept (bystander_wakeCaller before woken _),
          fun call site asleep =>
            (ready_congr rfl site).trans (waited (bystander_wakeCaller before woken _) asleep)⟩
    | @wakeWorker woken asleep =>
        exact ⟨fun worker => slept (bystander_wakeWorker before woken _),
          fun call site => waited (bystander_wakeWorker before woken _)⟩

/-- The pool is not being destroyed, and no worker ends. -/
structure FindState.Alive (state : FindState ι ω) : Prop where
  die : state.pool.die = false
  going : ∀ worker, state.workers worker ≠ .leaveDead ∧ state.workers worker ≠ .stopped

/-- A worker of a pool that is not being destroyed does not end. -/
theorem WorkerMove.going {worker : ω} (moved : WorkerMove finds worker state after)
    (alive : state.Alive)
    : after.workers worker ≠ .leaveDead ∧ after.workers worker ≠ .stopped := by
  have before := alive.going worker
  cases moved with
  | loop looped =>
      rw [FindState.setWorker_workers, Function.update_self]
      generalize state.workers worker = pc at looped before
      cases looped with
      | die at_test dead => cases alive.die.symm.trans dead
      | leaveDead => exact absurd rfl before.1
      | _ => simp
  | _ => simp

omit [DecidableEq ι] [DecidableEq ω] in
theorem going_of_bystander {worker : ω} (bystander : state.Bystander after (.worker worker))
    (going : state.workers worker ≠ .leaveDead ∧ state.workers worker ≠ .stopped)
    : after.workers worker ≠ .leaveDead ∧ after.workers worker ≠ .stopped := by
  rcases bystander with same | notified
  · exact same ▸ going
  · rw [notified]
    cases pc : state.workers worker <;> simp_all [WorkerPc.notify]

theorem alive_of_reached (reached : Reached (finds.machine ω) state) : state.Alive := by
  refine reached.invariant FindState.Alive ⟨rfl, fun _ => ⟨nofun, nofun⟩⟩ ?_
  intro label before after _ alive _ moved
  cases (move_of_step moved).2 with
  | caller moved =>
      exact ⟨moved.die.trans alive.die,
        fun worker => going_of_bystander (moved.bystander (by simp)) (alive.going worker)⟩
  | @worker mover _ moved =>
      refine ⟨moved.die.trans alive.die, fun worker => ?_⟩
      by_cases own : worker = mover
      · exact own ▸ moved.going alive
      · exact going_of_bystander (moved.bystander (by simpa using own)) (alive.going worker)
  | callerCrash ended | workerCrash ended => exact ⟨alive.die, alive.going⟩
  | wakeCaller asleep =>
      exact ⟨alive.die,
        fun worker => going_of_bystander (bystander_wakeCaller before _ _) (alive.going worker)⟩
  | wakeWorker asleep =>
      exact ⟨alive.die,
        fun worker => going_of_bystander (bystander_wakeWorker before _ _) (alive.going worker)⟩

end Sleepers

section Enabled

variable {ι ω : Type*} [DecidableEq ι] [DecidableEq ω] {finds : Finds ι} {state : FindState ι ω}

/-- Some thread can take a step of its own, without being woken for no reason. -/
def Finds.CanMove (finds : Finds ι) (state : FindState ι ω) : Prop :=
  ∃ thread, (finds.machine ω).Enabled (.run thread) state

theorem canMove_of_caller (call : ι) (running : state.crashed = none)
    (enabled : (finds.findMatchingPplStep call state).isSome)
    : finds.CanMove state := by
  obtain ⟨after, moved⟩ := Option.isSome_iff_exists.mp enabled
  exact ⟨.caller call, after, by simp [Finds.machine, Finds.step, running, moved]⟩

theorem canMove_of_worker (worker : ω) (running : state.crashed = none)
    (enabled : (finds.workerStep worker state).isSome)
    : finds.CanMove state := by
  obtain ⟨after, moved⟩ := Option.isSome_iff_exists.mp enabled
  exact ⟨.worker worker, after, by simp [Finds.machine, Finds.step, running, moved]⟩

omit [DecidableEq ω] in
/-- A call is stopped only by a mutex, by sleep, or by its return. -/
theorem findMatchingPplStep_isSome {call : ι}
    (freeContext
      : ∀ site,
          state.callers call = .enter site ∨ state.callers call = .asleep true site
          → (state.contexts call).mutex = none)
    (freeWork
      : ∀ cell rest, state.callers call = .queueEnter cell rest → state.pool.workMutex = none)
    (awake : ∀ site, state.callers call ≠ .asleep false site)
    (unreturned : ∀ ppl, state.callers call ≠ .returned ppl)
    : (finds.findMatchingPplStep call state).isSome := by
  unfold Finds.findMatchingPplStep
  cases pc : state.callers call with
  | idle =>
      simp only
      split <;> rfl
  | enter site => simp [FindContext.lock, freeContext site (Or.inl pc)]
  | wait site =>
      simp only
      split <;> rfl
  | asleep notified site =>
      cases notified with
      | false => exact absurd pc (awake site)
      | true => simp [FindContext.lock, freeContext site (Or.inr pc)]
  | queueEnter cell rest => simp [NoddyWorkerPool.lock, freeWork cell rest pc]
  | returned ppl => exact absurd pc (unreturned ppl)
  | _ => rfl

/-- A worklette is stopped only by its context's mutex. -/
theorem tryFindPplAsyncStep_isSome {worker : ω} {progress : AsyncFind ι}
    (free
      : ¬ progress.stage.holdsContext → progress.stage ≠ .search
        → (state.contexts progress.worklette.call).mutex = none)
    : (finds.tryFindPplAsyncStep worker progress state).isSome := by
  obtain ⟨worklette, stage⟩ := progress
  cases stage with
  | enterCheck =>
      simp [Finds.tryFindPplAsyncStep, FindContext.lock, free id (by simp)]
  | enterAppend myPpl =>
      simp [Finds.tryFindPplAsyncStep, FindContext.lock, free id (by simp)]
  | check =>
      simp only [Finds.tryFindPplAsyncStep]
      split
      · split <;> rfl
      · rfl
  | leaveCheck done => cases done <;> rfl
  | search =>
      simp only [Finds.tryFindPplAsyncStep]
      split <;> rfl
  | append myPpl =>
      simp only [Finds.tryFindPplAsyncStep]
      split <;> rfl
  | leaveAppend => rfl

/-- A worker is stopped only by a mutex, by sleep, or by its end. -/
theorem workerStep_isSome {worker : ω}
    (freeWork
      : state.workers worker = .enter ∨ state.workers worker = .asleep true
        → state.pool.workMutex = none)
    (awake : state.workers worker ≠ .asleep false) (going : state.workers worker ≠ .stopped)
    (free
      : ∀ progress,
          state.workers worker = .running progress
          → ¬ progress.stage.holdsContext
          → progress.stage ≠ .search
          → (state.contexts progress.worklette.call).mutex = none)
    : (finds.workerStep worker state).isSome := by
  unfold Finds.workerStep
  split
  · rename_i progress pc
    exact tryFindPplAsyncStep_isSome (free progress pc)
  · rename_i looping
    rw [Option.isSome_map]
    exact startWorkingStep_isSome freeWork awake looping going

end Enabled

section Waiting

variable {ι ω : Type*} [DecidableEq ι] [DecidableEq ω] {finds : Finds ι} {state : FindState ι ω}

/-- A thread inside the pool's mutex waits for nothing. -/
theorem canMove_of_holdsWork {thread : Thread ι ω} (running : state.crashed = none)
    (holds : state.HoldsWork thread)
    : finds.CanMove state := by
  cases thread with
  | caller call =>
      have inside : (state.callers call).holdsWork := holds
      refine canMove_of_caller call running (findMatchingPplStep_isSome ?_ ?_ ?_ ?_)
      · rintro site (pc | pc) <;> simp [pc, CallerPc.holdsWork] at inside
      · intro cell rest pc
        simp [pc, CallerPc.holdsWork] at inside
      · intro site pc
        simp [pc, CallerPc.holdsWork] at inside
      · intro ppl pc
        simp [pc, CallerPc.holdsWork] at inside
  | worker worker =>
      have inside : workerHoldsWork (state.workers worker) := holds
      refine canMove_of_worker worker running (workerStep_isSome ?_ ?_ ?_ ?_)
      · rintro (pc | pc) <;> simp [pc, workerHoldsWork] at inside
      · intro pc
        simp [pc, workerHoldsWork] at inside
      · intro pc
        simp [pc, workerHoldsWork] at inside
      · intro progress pc
        simp [pc, workerHoldsWork] at inside

/-- Whoever waits for the pool's mutex, somebody can move. -/
theorem canMove_of_wantsWork (running : state.crashed = none) (locked : state.Locked)
    (next : state.pool.workMutex = none → finds.CanMove state)
    : finds.CanMove state := by
  cases held : state.pool.workMutex with
  | none => exact next held
  | some thread => exact canMove_of_holdsWork running ((locked.work thread).mp held)

/-- A thread inside a context's mutex waits for nothing but the pool's mutex. -/
theorem canMove_of_holdsContext {thread : Thread ι ω} {owner : ι}
    (running : state.crashed = none) (locked : state.Locked)
    (holds : state.HoldsContext owner thread)
    : finds.CanMove state := by
  refine canMove_of_wantsWork running locked (fun free => ?_)
  cases thread with
  | caller call =>
      have inside : (state.callers call).holdsContext := holds.2
      refine canMove_of_caller call running
        (findMatchingPplStep_isSome ?_ (fun _ _ _ => free) ?_ ?_)
      · rintro site (pc | pc) <;> simp [pc, CallerPc.holdsContext] at inside
      · intro site pc
        simp [pc, CallerPc.holdsContext] at inside
      · intro ppl pc
        simp [pc, CallerPc.holdsContext] at inside
  | worker worker =>
      have inside : workerHoldsContext owner (state.workers worker) := holds
      refine canMove_of_worker worker running (workerStep_isSome (fun _ => free) ?_ ?_ ?_)
      · intro pc
        simp [pc, workerHoldsContext] at inside
      · intro pc
        simp [pc, workerHoldsContext] at inside
      · intro progress pc outside
        rw [pc] at inside
        exact absurd inside.2 outside

/-- Whoever waits for a context's mutex, somebody can move. -/
theorem canMove_of_wantsContext (owner : ι) (running : state.crashed = none)
    (locked : state.Locked)
    (next : (state.contexts owner).mutex = none → finds.CanMove state)
    : finds.CanMove state := by
  cases held : (state.contexts owner).mutex with
  | none => exact next held
  | some thread =>
      exact canMove_of_holdsContext running locked ((locked.context owner thread).mp held)

/-- A worker that does not sleep is a reason why somebody can move. -/
theorem canMove_of_awake (worker : ω) (running : state.crashed = none) (locked : state.Locked)
    (awake : state.workers worker ≠ .asleep false) (going : state.workers worker ≠ .stopped)
    : finds.CanMove state := by
  refine canMove_of_wantsWork running locked (fun freeWork => ?_)
  cases pc : state.workers worker with
  | running progress =>
      refine canMove_of_wantsContext progress.worklette.call running locked (fun free => ?_)
      refine canMove_of_worker worker running
        (workerStep_isSome (fun _ => freeWork) awake going ?_)
      intro other also _ _
      cases pc.symm.trans also
      exact free
  | _ =>
      refine canMove_of_worker worker running
        (workerStep_isSome (fun _ => freeWork) awake going ?_)
      intro progress also
      cases pc.symm.trans also

/-- A call that is not asleep is a reason why somebody can move, until it returns. -/
theorem canMove_of_unreturned (call : ι) (running : state.crashed = none)
    (locked : state.Locked) (awake : ∀ site, state.callers call ≠ .asleep false site)
    (unreturned : ∀ ppl, state.callers call ≠ .returned ppl)
    : finds.CanMove state := by
  refine canMove_of_wantsWork running locked (fun freeWork => ?_)
  refine canMove_of_wantsContext call running locked (fun free => ?_)
  exact canMove_of_caller call running
    (findMatchingPplStep_isSome (fun _ _ => free) (fun _ _ _ => freeWork) awake unreturned)

omit [DecidableEq ι] [DecidableEq ω] in
/-- A call that waits has a cell in flight. -/
theorem exists_pending_of_unready {context : FindContext ι ω} {site : WaitSite}
    (unready : finds.ready context site = false)
    : ∃ cell, cell ∈ context.pendingCells := by
  have some : context.pendingCells.Nonempty := by
    rw [Finset.nonempty_iff_ne_empty]
    intro none
    have positive := finds.settings.perFindConcurrencyPositive
    cases site <;> simp [Finds.ready, none] at unready
    omega
  exact some

/-- A worker with a share of a call is awake and has not ended. -/
theorem awake_of_share {call : ι} {pc : FindWorkerPc ι} {cell : CellLocator}
    (held : cell ∈ freshShare call pc ∨ cell ∈ searchingShare call pc)
    : pc ≠ .asleep false ∧ pc ≠ .stopped := by
  constructor <;> rintro rfl <;> simp [freshShare, searchingShare] at held

variable [Fintype ω]

/-- A call that sleeps is a reason why somebody can move: a cell is in flight, so a worklette
is queued, and then no worker sleeps, or a worker has it.
-/
theorem canMove_of_asleep [Nonempty ω] {call : ι} {site : WaitSite}
    (valid : Gathering.Valid (finds.job call) (finds.gather state call))
    (running : state.crashed = none) (locked : state.Locked)
    (sound : state.SleepsSoundly finds) (alive : state.Alive)
    (asleep : state.callers call = .asleep false site)
    : finds.CanMove state := by
  obtain ⟨cell, pending⟩ := exists_pending_of_unready (sound.callers call site asleep)
  obtain ⟨_, _, accounts⟩ := valid
  have member : cell ∈ (finds.gather state call).fresh + (finds.gather state call).searching := by
    rw [accounts.inFlight]
    exact pending
  have held (worker : ω)
      (share
        : cell ∈ freshShare call (state.workers worker)
          ∨ cell ∈ searchingShare call (state.workers worker))
      : finds.CanMove state := by
    obtain ⟨awake, going⟩ := awake_of_share share
    exact canMove_of_awake worker running locked awake going
  simp only [Finds.gather, asleep, CallerPc.queueing, add_zero, Multiset.mem_add,
    Multiset.mem_sum, Finset.mem_univ, true_and] at member
  rcases member with (queued | ⟨worker, fresh⟩) | ⟨worker, searching⟩
  · have busy : state.pool.work ≠ [] := by
      intro empty
      simp [empty] at queued
    let worker := Classical.arbitrary ω
    exact canMove_of_awake worker running locked
      (fun asleep => busy (sound.workers worker asleep)) (alive.going worker).2
  · exact held worker (Or.inl fresh)
  · exact held worker (Or.inr searching)

/-- In every reachable state with a call that has not returned, some thread can move. -/
theorem canMove_of_reached [Nonempty ω] (answerable : finds.Answerable)
    (reached : Reached (finds.machine ω) state) {call : ι}
    (unreturned : ∀ ppl, state.callers call ≠ .returned ppl)
    : finds.CanMove state := by
  have running := crashed_of_reached answerable reached
  have locked := locked_of_reached reached
  by_cases asleep : ∃ site, state.callers call = .asleep false site
  · obtain ⟨site, asleep⟩ := asleep
    exact canMove_of_asleep (valid_of_reached reached call) running locked
      (sleepsSoundly_of_reached reached) (alive_of_reached reached) asleep
  · exact canMove_of_unreturned call running locked (not_exists.mp asleep) unreturned

end Waiting

-----------------------------------------------------------------------------------------
-- Deadlock freedom
-----------------------------------------------------------------------------------------

/-- With at least one worker, finds never deadlock: while a call has not returned, some thread
can move without a spurious wakeup. No worker sleeps while something is queued, and no call
sleeps while what it waits for is so.
-/
theorem find_deadlockFree {ι ω : Type*} [DecidableEq ι] [DecidableEq ω] [Fintype ω]
    [Nonempty ω] {settings : Settings} {people : List Person} {grid : PplGrid}
    {requests : ι → PplMatchingParameters} {windows : ι → Date × Date}
    (populates : settings.populate people = .ok grid)
    (users : ∀ call, (requests call).locationOfUser.isValid = true)
    (representable : ∀ call, settings.Representable (requests call) (windows call))
    : ∀ state, Reached ((Finds.mk settings grid requests).machine ω) state
      → ((∃ call, ∀ ppl, state.callers call ≠ .returned ppl)
          → ∃ thread,
              ((Finds.mk settings grid requests).machine ω).Enabled (.run thread) state)
        ∧ (state.pool.work ≠ [] → ∀ worker, state.workers worker ≠ .asleep false)
        ∧ ∀ call site,
            (Finds.mk settings grid requests).ready (state.contexts call) site = true
            → state.callers call ≠ .asleep false site := by
  have answerable :=
    answerable_of_populated (Settings.populated_of_populate populates) users representable
  refine fun state reached => ⟨?_, ?_, ?_⟩
  · rintro ⟨call, unreturned⟩
    exact canMove_of_reached answerable reached unreturned
  · intro busy worker asleep
    exact busy ((sleepsSoundly_of_reached reached).workers worker asleep)
  · intro call site ready asleep
    have unready := (sleepsSoundly_of_reached reached).callers call site asleep
    cases ready.symm.trans unready

/-- Two calls on two workers, which never deadlock. -/
theorem find_deadlockFree_islander
    : ∃ grid, smallSettings.populate [islander] = .ok grid
        ∧ ∀ state, Reached ((Finds.mk smallSettings grid
              (fun _ : Fin 2 => islandRequest)).machine (Fin 2)) state
          → ((∃ call, ∀ ppl, state.callers call ≠ .returned ppl)
              → ∃ thread,
                  ((Finds.mk smallSettings grid (fun _ : Fin 2 => islandRequest)).machine
                    (Fin 2)).Enabled (.run thread) state)
            ∧ (state.pool.work ≠ [] → ∀ worker, state.workers worker ≠ .asleep false)
            ∧ ∀ call site,
                (Finds.mk smallSettings grid (fun _ : Fin 2 => islandRequest)).ready
                    (state.contexts call) site
                  = true
                → state.callers call ≠ .asleep false site := by
  obtain ⟨grid, populates⟩ := islander_populates
  exact ⟨grid, populates,
    find_deadlockFree populates (fun _ => nullIsland_isValid)
      (fun _ => islandRequest_representable)⟩

end PplMe.Engine
