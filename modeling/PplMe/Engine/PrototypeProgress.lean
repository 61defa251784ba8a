import PplMe.Engine.FindProgress
import PplMe.Engine.PrototypeExactness
import PplMe.Engine.PrototypeLocks

/-! Nobody around a prototype provider sleeps through what they wait for.
The wait of a call has a time limit of a second. It is not what keeps calls from waiting
forever: with the limit or without it, while a call has not returned some thread can move.
-/

namespace PplMe.Engine

open PplMe.Core Stepping Ownership

section Sleepers

variable {ι ω : Type*}

/-- Workers sleep only while nothing is queued, and calls only while an op is pending. -/
structure PrototypeState.SleepsSoundly (state : PrototypeState ι ω) : Prop where
  workers : ∀ worker, state.workers worker = .asleep false → state.pool.work = []
  calls
    : ∀ call,
        (state.calls call).pc = .waiting .asleep
        → (state.calls call).orchestration.pendingOps ≠ 0

/-- The pool is not being destroyed, and no worker ends. -/
structure PrototypeState.Alive (state : PrototypeState ι ω) : Prop where
  die : state.pool.die = false
  going : ∀ worker, state.workers worker ≠ .leaveDead ∧ state.workers worker ≠ .stopped

theorem prototype_notify_ne_asleep (pc : PrototypePc) : pc.notify ≠ .waiting .asleep := by
  cases pc with
  | waiting wait => cases wait <;> simp [PrototypePc.notify]
  | _ => simp [PrototypePc.notify]

variable {finds : PrototypeFinds ι} {state after : PrototypeState ι ω}

/-- A bystander that sleeps was not notified and slept before. -/
theorem PrototypeState.Bystander.workerAsleep {worker : ω}
    (bystander : state.Bystander after (.worker worker))
    (asleep : after.workers worker = .asleep false)
    : state.workers worker = .asleep false := by
  rcases bystander with same | notified
  · exact same.symm.trans asleep
  · exact absurd (notified.symm.trans asleep) (notify_ne_asleep _)

/-- A bystander that is going stays going. -/
theorem PrototypeState.Bystander.going {worker : ω}
    (bystander : state.Bystander after (.worker worker))
    (going : state.workers worker ≠ .leaveDead ∧ state.workers worker ≠ .stopped)
    : after.workers worker ≠ .leaveDead ∧ after.workers worker ≠ .stopped := by
  rcases bystander with same | notified
  · exact same ▸ going
  · rw [notified]
    cases pc : state.workers worker <;> simp_all [WorkerPc.notify]

variable [DecidableEq ι]

/-- A call queues a worklette only together with a notification of all workers. -/
theorem PrototypeCallMove.work {call : ι} (moved : PrototypeCallMove finds call state after)
    : after.pool.work = state.pool.work
      ∨ ∀ worker, after.workers worker = (state.workers worker).notify := by
  cases moved with
  | queuePush at_pc => exact Or.inr (fun _ => rfl)
  | _ => exact Or.inl rfl

theorem PrototypeCallMove.die {call : ι} (moved : PrototypeCallMove finds call state after)
    : after.pool.die = state.pool.die := by
  cases moved <;> rfl

/-- A call goes to sleep only from its check of the pending ops. -/
theorem PrototypeCallMove.asleep {call : ι} (moved : PrototypeCallMove finds call state after)
    (asleep : (after.calls call).pc = .waiting .asleep)
    : (state.calls call).pc = .wait
      ∧ (after.calls call).orchestration.pendingOps
        = (state.calls call).orchestration.pendingOps := by
  cases moved with
  | sleep at_pc => exact ⟨at_pc, by simp [PrototypeCall.goTo, PrototypeCall.unlock]⟩
  | @start ppl cells at_pc begun => cases cells <;> simp [PrototypePc.firstCell] at asleep
  | @lock pc locked entering free =>
      generalize (state.calls call).pc = earlier at entering
      cases entering <;> simp [PrototypeCall.goTo] at asleep
  | @queueLeave rest at_pc =>
      cases rest <;> simp [PrototypeCall.goTo, PrototypePc.nextCell] at asleep
  | _ => simp [PrototypeCall.goTo] at asleep

variable [DecidableEq ω]

/-- And from there it goes to sleep only while an op is pending. -/
theorem pendingOps_ne_zero_of_sleep {call : ι} (at_pc : (state.calls call).pc = .wait)
    (moved : finds.step (.run (.caller call)) state = some after)
    (asleep : (after.calls call).pc = .waiting .asleep)
    : (state.calls call).orchestration.pendingOps ≠ 0 := by
  intro drained
  unfold PrototypeFinds.step at moved
  split at moved
  · cases moved
  · simp only [PrototypeFinds.findMatchingPplStep, at_pc, drained, if_true,
      Option.some.injEq] at moved
    subst moved
    simp [PrototypeCall.goTo] at asleep

/-- A worker changes the pending ops only together with a notification of the call. -/
theorem PrototypeWorkerMove.asleep {worker : ω} {call : ι}
    (moved : PrototypeWorkerMove finds worker state after)
    (asleep : (after.calls call).pc = .waiting .asleep)
    : (state.calls call).pc = .waiting .asleep
      ∧ (after.calls call).orchestration.pendingOps
        = (state.calls call).orchestration.pendingOps := by
  have slept : (state.calls call).pc = .waiting .asleep := by
    rcases (moved.calls call).2 with same | notified
    · exact same.symm.trans asleep
    · exact absurd (notified.symm.trans asleep) (prototype_notify_ne_asleep _)
  refine ⟨slept, ?_⟩
  -- The call whose worklette is done is notified.
  have awake {owner : ι} {next : PrototypeCall ι ω} (notified : next.pc = next.pc.notify)
      (still : (Function.update state.calls owner next call).pc = .waiting .asleep)
      : (Function.update state.calls owner next call).orchestration.pendingOps
        = (state.calls call).orchestration.pendingOps := by
    by_cases own : call = owner
    · subst own
      rw [Function.update_self] at still
      exact absurd (notified.symm.trans still) (prototype_notify_ne_asleep _)
    · rw [Function.update_of_ne own]
  have kept {owner : ι} {next : PrototypeCall ι ω}
      (same : next.orchestration.pendingOps = (state.calls owner).orchestration.pendingOps)
      : (Function.update state.calls owner next call).orchestration.pendingOps
        = (state.calls call).orchestration.pendingOps := by
    by_cases own : call = owner
    · subst own
      rw [Function.update_self, same]
    · rw [Function.update_of_ne own]
  have again (pc : PrototypePc) : pc.notify = pc.notify.notify := by
    cases pc with
    | waiting wait => cases wait <;> rfl
    | _ => rfl
  cases moved with
  | lock at_pc entering free =>
      obtain ⟨_, rfl⟩ := PrototypeCall.lock_eq_some_iff.mp free
      exact kept rfl
  | giveUp at_pc deaf => exact awake (again _) asleep
  | append at_pc => exact awake (again _) asleep
  | unlockSearch at_pc | unlockEnd at_pc ending => exact kept rfl
  | _ => rfl

/-- The queue stays empty while workers move. -/
theorem PrototypeWorkerMove.work {worker : ω}
    (moved : PrototypeWorkerMove finds worker state after) (empty : state.pool.work = [])
    : after.pool.work = [] := by
  cases moved with
  | loop looped =>
      generalize state.workers worker = earlier at looped
      cases looped with
      | take at_test alive work => cases empty.symm.trans work
      | _ => exact empty
  | _ => exact empty

theorem PrototypeWorkerMove.die {worker : ω}
    (moved : PrototypeWorkerMove finds worker state after)
    : after.pool.die = state.pool.die := by
  cases moved with
  | loop looped => exact looped.keepsDie
  | _ => rfl

/-- A worker goes to sleep only when nothing is queued. -/
theorem PrototypeWorkerMove.workerAsleep {worker : ω}
    (moved : PrototypeWorkerMove finds worker state after)
    (asleep : after.workers worker = .asleep false)
    : after.pool.work = [] := by
  cases moved with
  | loop looped =>
      rw [PrototypeState.setWorker_workers, Function.update_self] at asleep
      subst asleep
      generalize state.workers worker = pc at looped
      cases looped with
      | sleep alive empty => exact empty
  | _ => simp at asleep

/-- A worker of a pool that is not being destroyed does not end. -/
theorem PrototypeWorkerMove.going {worker : ω}
    (moved : PrototypeWorkerMove finds worker state after) (alive : state.Alive)
    : after.workers worker ≠ .leaveDead ∧ after.workers worker ≠ .stopped := by
  have before := alive.going worker
  cases moved with
  | loop looped =>
      rw [PrototypeState.setWorker_workers, Function.update_self]
      generalize state.workers worker = pc at looped before
      cases looped with
      | die at_test dead => cases alive.die.symm.trans dead
      | leaveDead => exact absurd rfl before.1
      | _ => simp
  | _ => simp

omit [DecidableEq ω] in
/-- Waking a call, or the end of its second, puts no one to sleep. -/
theorem PrototypeState.SleepsSoundly.waiting {call : ι} (sound : state.SleepsSoundly)
    {wait : TimedWait} (awake : wait ≠ .asleep)
    : (state.setCall call ((state.calls call).goTo (.waiting wait))).SleepsSoundly := by
  refine ⟨sound.workers, fun other asleep => ?_⟩
  by_cases own : other = call
  · subst own
    simp [PrototypeCall.goTo, awake] at asleep
  · rw [PrototypeState.setCall_calls, Function.update_of_ne own] at asleep ⊢
    exact sound.calls other asleep

/-- In every reachable state the sleepers sleep soundly. -/
theorem prototype_sleepsSoundly_of_reached (reached : Reached (finds.machine ω) state)
    : state.SleepsSoundly := by
  refine reached.invariant PrototypeState.SleepsSoundly ?_ ?_
  · constructor
    · intro worker asleep
      cases asleep
    · intro call asleep
      cases asleep
  · intro label before after _ sound _ moved
    have slept {worker} (bystander : before.Bystander after (.worker worker))
        (asleep : after.workers worker = .asleep false)
        : before.pool.work = [] :=
      sound.workers worker (bystander.workerAsleep asleep)
    cases prototype_move_of_step moved with
    | @call mover _ stepped =>
        refine ⟨fun worker asleep => ?_, fun call asleep => ?_⟩
        · rcases stepped.work with same | notified
          · exact same ▸ slept (stepped.bystander (by simp)) asleep
          · exact absurd ((notified worker).symm.trans asleep) (notify_ne_asleep _)
        · by_cases own : call = mover
          · subst own
            obtain ⟨at_pc, same⟩ := stepped.asleep asleep
            exact same ▸ pendingOps_ne_zero_of_sleep at_pc moved asleep
          · rw [stepped.others own] at asleep ⊢
            exact sound.calls call asleep
    | @worker mover _ stepped =>
        refine ⟨fun worker asleep => ?_, fun call asleep => ?_⟩
        · by_cases own : worker = mover
          · subst own
            exact stepped.workerAsleep asleep
          · exact stepped.work (slept (stepped.bystander (by simpa using own)) asleep)
        · obtain ⟨asleepBefore, same⟩ := stepped.asleep asleep
          exact same ▸ sound.calls call asleepBefore
    | crash => exact ⟨sound.workers, sound.calls⟩
    | wakeCall at_pc => exact sound.waiting (by simp)
    | @wakeWorker woken asleep =>
        refine ⟨fun worker still => ?_, sound.calls⟩
        by_cases own : worker = woken
        · subst own
          simp [notify_ne_asleep] at still
        · exact sound.workers worker (by simpa [own] using still)
    | expire at_pc => exact sound.waiting (by simp)

/-- Nobody destroys the pool of a provider that is being asked. -/
theorem prototype_alive_of_reached (reached : Reached (finds.machine ω) state)
    : state.Alive := by
  refine reached.invariant PrototypeState.Alive ⟨rfl, fun _ => by simp [PrototypeFinds.machine,
    PrototypeState.start]⟩ ?_
  intro label before after _ alive _ moved
  cases prototype_move_of_step moved with
  | call stepped =>
      exact ⟨stepped.die.trans alive.die,
        fun worker => (stepped.bystander (by simp)).going (alive.going worker)⟩
  | @worker mover _ stepped =>
      refine ⟨stepped.die.trans alive.die, fun worker => ?_⟩
      by_cases own : worker = mover
      · exact own ▸ stepped.going alive
      · exact (stepped.bystander (by simpa using own)).going (alive.going worker)
  | @wakeWorker woken asleep =>
      refine ⟨alive.die, fun worker => ?_⟩
      by_cases own : worker = woken
      · subst own
        simp [asleep, WorkerPc.notify]
      · simpa [own] using alive.going worker
  | crash | wakeCall at_pc | expire at_pc => exact ⟨alive.die, alive.going⟩

end Sleepers

-----------------------------------------------------------------------------------------
-- Answers
-----------------------------------------------------------------------------------------

section Answers

variable {ι ω : Type*} {finds : PrototypeFinds ι}

/-- Each find begins, and each of its nearby cells can be searched. -/
structure PrototypeFinds.Answerable (finds : PrototypeFinds ι) : Prop where
  begins : ∀ call, ∃ begun, finds.beginFind call = .ok (some begun)
  searchable
    : ∀ call, ∀ cell ∈ (finds.begun call).2, ∃ found,
        finds.settings.searchCell finds.grid (finds.requests call) cell = .ok found

/-- With valid positions and age windows, every find on a populated grid can be answered. -/
theorem prototype_answerable {people : List Person} {windows : ι → Date × Date}
    (populated : finds.settings.Populated people finds.grid)
    (users : ∀ call, (finds.requests call).locationOfUser.isValid = true)
    (representable : ∀ call, finds.settings.Representable (finds.requests call) (windows call))
    : finds.Answerable := by
  have located (call : ι) := @PrototypeSettings.locate_of_isValid finds.settings _ (users call)
  constructor
  · intro call
    obtain ⟨origin, located, onMap⟩ := located call
    exact ⟨_, beginFind_of_populated populated located onMap (representable call)⟩
  · intro call cell nearby
    obtain ⟨origin, located, onMap⟩ := located call
    rw [PrototypeFinds.begun,
      beginFind_of_populated populated located onMap (representable call)] at nearby
    exact ⟨_, searchCell_of_nearby populated onMap (representable call) nearby⟩

variable [DecidableEq ι] [Fintype ω]

/-- What is out for a call are nearby cells of it. -/
theorem mem_keys_of_out {call : ι} {state : PrototypeState ι ω} {cell : CellLocator}
    (valid : Rendezvous.Valid (finds.job call) (finds.gather state call))
    (out : cell ∈ state.out call)
    : cell ∈ (finds.begun call).2 := by
  obtain ⟨delivered, missed, accounts⟩ := valid
  have outstanding : cell ∈ (finds.gather state call).outstanding :=
    Multiset.mem_add.mpr (Or.inl out)
  have key : cell ∈ ((finds.job call).keys : Multiset CellLocator) := by
    rw [← accounts.keys]
    exact Multiset.mem_add.mpr (Or.inl (Multiset.mem_add.mpr (Or.inr outstanding)))
  exact Multiset.mem_coe.mp key

variable [DecidableEq ω] {state after : PrototypeState ι ω}

/-- The cells that workers search for a call are nearby cells of it. -/
theorem mem_keys_of_search {worker : ω} {worklette : Worklette ι}
    (reached : Reached (finds.machine ω) state)
    (at_pc : state.AtStage worker worklette .search)
    : worklette.cell ∈ (finds.begun worklette.call).2 := by
  have held : heldShare worklette.call (state.workers worker) = {worklette.cell} := by
    rw [at_pc, heldShare_running]
    exact cellOf_call worklette
  exact mem_keys_of_out (valid_of_prototype_reached reached worklette.call)
    (Multiset.mem_add.mpr (Or.inr (DistributedSums.mem_sum held)))

omit [Fintype ω] [DecidableEq ω] in
/-- A find that can begin does not end the process. -/
theorem findMatchingPplStep_crashed {call : ι} (answerable : finds.Answerable)
    (moved : finds.findMatchingPplStep call state = some after)
    : after.crashed = state.crashed := by
  obtain ⟨begun, begins⟩ := answerable.begins call
  simp only [PrototypeFinds.findMatchingPplStep, begins] at moved
  cases at_pc : (state.calls call).pc with
  | enterCount cell rest | queueEnter cell rest | enterWait =>
      rw [at_pc] at moved
      obtain ⟨_, _, rfl⟩ := Option.map_eq_some_iff.mp moved
      rfl
  | waiting wait =>
      rw [at_pc] at moved
      cases wait with
      | asleep => cases moved
      | notified | expired =>
          obtain ⟨_, _, rfl⟩ := Option.map_eq_some_iff.mp moved
          rfl
  | wait =>
      simp only [at_pc] at moved
      split at moved <;> cases moved <;> rfl
  | returned ppl =>
      rw [at_pc] at moved
      cases moved
  | _ =>
      rw [at_pc] at moved
      cases moved
      rfl

omit [Fintype ω] in
/-- Nor does a worklette whose cell can be searched. -/
theorem findpplWorkletteStep_crashed {worker : ω} {progress : AsyncFind ι}
    (searchable
      : progress.stage = .search
        → ∃ found,
            finds.settings.searchCell finds.grid (finds.requests progress.worklette.call)
              progress.worklette.cell
            = .ok found)
    (moved : finds.findpplWorkletteStep worker progress state = some after)
    : after.crashed = state.crashed := by
  obtain ⟨worklette, stage⟩ := progress
  cases stage with
  | enterCheck | enterAppend resultslette =>
      obtain ⟨_, _, rfl⟩ := Option.map_eq_some_iff.mp moved
      rfl
  | check =>
      simp only [PrototypeFinds.findpplWorkletteStep] at moved
      split at moved <;> cases moved <;> rfl
  | leaveCheck done => cases done <;> cases moved <;> rfl
  | search =>
      obtain ⟨found, searched⟩ := searchable rfl
      simp only [PrototypeFinds.findpplWorkletteStep, searched] at moved
      cases moved
      rfl
  | append resultslette | leaveAppend =>
      cases moved
      rfl

/-- Where every find can be answered, the process does not end. -/
theorem prototype_crashed_of_reached (answerable : finds.Answerable)
    (reached : Reached (finds.machine ω) state)
    : state.crashed = none := by
  refine reached.invariant (fun state => state.crashed = none) rfl ?_
  intro label before after earlier running _ moved
  simp only [PrototypeFinds.machine, PrototypeFinds.step, running] at moved
  split at moved
  · exact (findMatchingPplStep_crashed answerable moved).trans running
  · unfold PrototypeFinds.workerStep at moved
    split at moved
    · rename_i progress at_pc
      refine (findpplWorkletteStep_crashed (fun searching => ?_) moved).trans running
      obtain ⟨worklette, stage⟩ := progress
      subst searching
      exact answerable.searchable _ _ (mem_keys_of_search earlier at_pc)
    · obtain ⟨⟨pool, pc⟩, _, rfl⟩ := Option.map_eq_some_iff.mp moved
      exact running
  · unfold wakePrototype at moved
    split at moved <;> split at moved <;> cases moved <;> exact running
  · unfold expirePrototype at moved
    split at moved <;> cases moved
    exact running

end Answers

-----------------------------------------------------------------------------------------
-- Who can move
-----------------------------------------------------------------------------------------

section Enabled

variable {ι ω : Type*} [DecidableEq ι] [DecidableEq ω] {finds : PrototypeFinds ι}
  {state : PrototypeState ι ω}

/-- Some thread can take a step of its own: nobody has to be woken for no reason, and no second
has to be over.
-/
def PrototypeFinds.CanMove (finds : PrototypeFinds ι) (state : PrototypeState ι ω) : Prop :=
  ∃ thread, (finds.machine ω).Enabled (.run thread) state

theorem canMove_of_prototypeCall (call : ι) (running : state.crashed = none)
    (enabled : (finds.findMatchingPplStep call state).isSome)
    : finds.CanMove state := by
  obtain ⟨after, moved⟩ := Option.isSome_iff_exists.mp enabled
  exact ⟨.caller call, after, by
    simp [PrototypeFinds.machine, PrototypeFinds.step, running, moved]⟩

theorem canMove_of_prototypeWorker (worker : ω) (running : state.crashed = none)
    (enabled : (finds.workerStep worker state).isSome)
    : finds.CanMove state := by
  obtain ⟨after, moved⟩ := Option.isSome_iff_exists.mp enabled
  exact ⟨.worker worker, after, by
    simp [PrototypeFinds.machine, PrototypeFinds.step, running, moved]⟩

omit [DecidableEq ω] in
/-- A call that can begin is stopped only by a mutex, by sleep, or by its return. -/
theorem prototypeStep_isSome {call : ι} (answerable : finds.Answerable)
    (freeMutex
      : ∀ pc, (state.calls call).pc.Enters pc → (state.calls call).orchestration.mutex = none)
    (freeWork
      : ∀ cell rest,
          (state.calls call).pc = .queueEnter cell rest → state.pool.workMutex = none)
    (awake : (state.calls call).pc ≠ .waiting .asleep)
    (unreturned : ∀ ppl, (state.calls call).pc ≠ .returned ppl)
    : (finds.findMatchingPplStep call state).isSome := by
  obtain ⟨begun, begins⟩ := answerable.begins call
  have locks {earlier pc : PrototypePc} (at_pc : (state.calls call).pc = earlier)
      (entering : earlier.Enters pc)
      : ((state.calls call).lock (.caller call)).isSome := by
    simp [PrototypeCall.lock, freeMutex pc (at_pc ▸ entering)]
  simp only [PrototypeFinds.findMatchingPplStep, begins]
  cases pc : (state.calls call).pc with
  | enterCount cell rest => simpa using locks pc .count
  | queueEnter cell rest => simp [NoddyWorkerPool.lock, freeWork cell rest pc]
  | enterWait => simpa using locks pc .wait
  | wait =>
      simp only
      split <;> rfl
  | waiting wait =>
      cases wait with
      | asleep => exact absurd pc awake
      | notified => simpa using locks pc .woken
      | expired => simpa using locks pc .expired
  | returned ppl => exact absurd pc (unreturned ppl)
  | _ => rfl

/-- A worklette is stopped only by its call's mutex. -/
theorem findpplWorkletteStep_isSome {worker : ω} {progress : AsyncFind ι}
    (free
      : ¬ progress.stage.holdsContext → progress.stage ≠ .search
        → (state.calls progress.worklette.call).orchestration.mutex = none)
    : (finds.findpplWorkletteStep worker progress state).isSome := by
  obtain ⟨worklette, stage⟩ := progress
  cases stage with
  | enterCheck =>
      simp [PrototypeFinds.findpplWorkletteStep, PrototypeCall.lock, free id (by simp)]
  | enterAppend resultslette =>
      simp [PrototypeFinds.findpplWorkletteStep, PrototypeCall.lock, free id (by simp)]
  | check =>
      simp only [PrototypeFinds.findpplWorkletteStep]
      split <;> rfl
  | leaveCheck done => cases done <;> rfl
  | search =>
      simp only [PrototypeFinds.findpplWorkletteStep]
      split <;> rfl
  | append resultslette | leaveAppend => rfl

/-- A worker is stopped only by a mutex, by sleep, or by its end. -/
theorem prototypeWorkerStep_isSome {worker : ω}
    (freeWork
      : state.workers worker = .enter ∨ state.workers worker = .asleep true
        → state.pool.workMutex = none)
    (awake : state.workers worker ≠ .asleep false) (going : state.workers worker ≠ .stopped)
    (free
      : ∀ progress,
          state.workers worker = .running progress
          → ¬ progress.stage.holdsContext
          → progress.stage ≠ .search
          → (state.calls progress.worklette.call).orchestration.mutex = none)
    : (finds.workerStep worker state).isSome := by
  unfold PrototypeFinds.workerStep
  split
  · rename_i progress pc
    exact findpplWorkletteStep_isSome (free progress pc)
  · rename_i looping
    rw [Option.isSome_map]
    exact startWorkingStep_isSome freeWork awake looping going

end Enabled

section Waiting

variable {ι ω : Type*} [DecidableEq ι] [DecidableEq ω] {finds : PrototypeFinds ι}
  {state : PrototypeState ι ω}

/-- Whoever waits for the pool's mutex, somebody can move: its owner waits for nothing. -/
theorem canMove_of_wantsPrototypeWork (answerable : finds.Answerable)
    (running : state.crashed = none) (locked : state.Locked)
    (next : state.pool.workMutex = none → finds.CanMove state)
    : finds.CanMove state := by
  cases held : state.pool.workMutex with
  | none => exact next held
  | some thread =>
      have holds := (locked.work thread).mp held
      cases thread with
      | caller call =>
          have inside : (state.calls call).pc.holdsWork := holds
          refine canMove_of_prototypeCall call running
            (prototypeStep_isSome answerable ?_ ?_ ?_ ?_)
          · intro pc entering
            generalize (state.calls call).pc = earlier at entering inside
            cases entering <;> cases inside
          · intro cell rest pc
            simp [pc, PrototypePc.holdsWork] at inside
          · intro pc
            simp [pc, PrototypePc.holdsWork] at inside
          · intro ppl pc
            simp [pc, PrototypePc.holdsWork] at inside
      | worker worker =>
          have inside : workerHoldsWork (state.workers worker) := holds
          refine canMove_of_prototypeWorker worker running
            (prototypeWorkerStep_isSome ?_ ?_ ?_ ?_)
          · rintro (pc | pc) <;> simp [pc, workerHoldsWork] at inside
          · intro pc
            simp [pc, workerHoldsWork] at inside
          · intro pc
            simp [pc, workerHoldsWork] at inside
          · intro progress pc
            simp [pc, workerHoldsWork] at inside

/-- Whoever waits for a call's mutex, somebody can move: its owner waits for nothing either. -/
theorem canMove_of_wantsMutex (answerable : finds.Answerable) (owner : ι)
    (running : state.crashed = none) (locked : state.Locked)
    (next : (state.calls owner).orchestration.mutex = none → finds.CanMove state)
    : finds.CanMove state := by
  cases held : (state.calls owner).orchestration.mutex with
  | none => exact next held
  | some thread =>
      have holds := (locked.orchestration owner thread).mp held
      cases thread with
      | caller call =>
          have inside : (state.calls call).pc.holdsMutex := holds.2
          refine canMove_of_prototypeCall call running
            (prototypeStep_isSome answerable ?_ ?_ ?_ ?_)
          · intro pc entering
            generalize (state.calls call).pc = earlier at entering inside
            cases entering <;> cases inside
          · intro cell rest pc
            simp [pc, PrototypePc.holdsMutex] at inside
          · intro pc
            simp [pc, PrototypePc.holdsMutex] at inside
          · intro ppl pc
            simp [pc, PrototypePc.holdsMutex] at inside
      | worker worker =>
          have inside : workerHoldsContext owner (state.workers worker) := holds
          refine canMove_of_prototypeWorker worker running
            (prototypeWorkerStep_isSome ?_ ?_ ?_ ?_)
          · rintro (pc | pc) <;> simp [pc, workerHoldsContext] at inside
          · intro pc
            simp [pc, workerHoldsContext] at inside
          · intro pc
            simp [pc, workerHoldsContext] at inside
          · intro progress pc outside
            rw [pc] at inside
            exact absurd inside.2 outside

/-- A worker that does not sleep is a reason why somebody can move. -/
theorem canMove_of_awakeWorker (answerable : finds.Answerable) (worker : ω)
    (running : state.crashed = none) (locked : state.Locked)
    (awake : state.workers worker ≠ .asleep false) (going : state.workers worker ≠ .stopped)
    : finds.CanMove state := by
  refine canMove_of_wantsPrototypeWork answerable running locked (fun freeWork => ?_)
  cases pc : state.workers worker with
  | running progress =>
      refine canMove_of_wantsMutex answerable progress.worklette.call running locked
        (fun free => ?_)
      refine canMove_of_prototypeWorker worker running
        (prototypeWorkerStep_isSome (fun _ => freeWork) awake going ?_)
      intro other also _ _
      cases pc.symm.trans also
      exact free
  | _ =>
      refine canMove_of_prototypeWorker worker running
        (prototypeWorkerStep_isSome (fun _ => freeWork) awake going ?_)
      intro progress also
      cases pc.symm.trans also

/-- A call that is not asleep is a reason why somebody can move, until it returns. -/
theorem canMove_of_awakeCall (answerable : finds.Answerable) (call : ι)
    (running : state.crashed = none) (locked : state.Locked)
    (awake : (state.calls call).pc ≠ .waiting .asleep)
    (unreturned : ∀ ppl, (state.calls call).pc ≠ .returned ppl)
    : finds.CanMove state := by
  refine canMove_of_wantsPrototypeWork answerable running locked (fun freeWork => ?_)
  refine canMove_of_wantsMutex answerable call running locked (fun free => ?_)
  exact canMove_of_prototypeCall call running
    (prototypeStep_isSome answerable (fun _ _ => free) (fun _ _ _ => freeWork) awake unreturned)

variable [Fintype ω]

/-- While a cell is out for a call, somebody can move: its worklette is queued, and then no
worker sleeps, or a worker has it.
-/
theorem canMove_of_out [Nonempty ω] (answerable : finds.Answerable)
    (reached : Reached (finds.machine ω) state) {call : ι} {cell : CellLocator}
    (out : cell ∈ state.out call)
    : finds.CanMove state := by
  have running := prototype_crashed_of_reached answerable reached
  have locked := locked_of_prototype_reached reached
  have sound := prototype_sleepsSoundly_of_reached reached
  have alive := prototype_alive_of_reached reached
  rcases Multiset.mem_add.mp out with queued | held
  · have busy : state.pool.work ≠ [] := by
      intro empty
      simp [empty] at queued
    let worker := Classical.arbitrary ω
    exact canMove_of_awakeWorker answerable worker running locked
      (fun asleep => busy (sound.workers worker asleep)) (alive.going worker).2
  · obtain ⟨worker, _, held⟩ := Multiset.mem_sum.mp held
    obtain ⟨awake, going⟩ := awake_of_share (Multiset.mem_add.mp held)
    exact canMove_of_awakeWorker answerable worker running locked awake going

/-- In every reachable state with a call that has not returned, some thread can move. A call
that sleeps has an op pending, and the op's cell is out.
-/
theorem prototype_canMove_of_reached [Nonempty ω] (answerable : finds.Answerable)
    (reached : Reached (finds.machine ω) state) {call : ι}
    (unreturned : ∀ ppl, (state.calls call).pc ≠ .returned ppl)
    : finds.CanMove state := by
  by_cases asleep : (state.calls call).pc = .waiting .asleep
  · have pending := (prototype_sleepsSoundly_of_reached reached).calls call asleep
    obtain ⟨_, _, accounts⟩ := valid_of_prototype_reached reached call
    have counted : (state.calls call).orchestration.pendingOps = (state.out call).card := by
      have whole := accounts.pending
      simpa [PrototypeFinds.gather, PrototypeFinds.view, asleep] using whole
    obtain ⟨cell, out⟩ := Multiset.card_pos_iff_exists_mem.mp
      (Nat.pos_of_ne_zero fun none => pending (by rw [counted, none]; rfl))
    exact canMove_of_out answerable reached out
  · exact canMove_of_awakeCall answerable call (prototype_crashed_of_reached answerable reached)
      (locked_of_prototype_reached reached) asleep unreturned

end Waiting

end PplMe.Engine
