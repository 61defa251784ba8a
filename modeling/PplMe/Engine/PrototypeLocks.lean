import PplMe.Engine.FindLocks
import PplMe.Engine.PrototypeReturns

/-! Who holds which mutex around a prototype provider.
A call takes its orchestration's mutex to count and to wait, and the pool's to queue, never one
inside the other. A worklette takes the orchestration's mutex of its call only.
-/

namespace PplMe.Engine

open PplMe.Core Stepping Ownership

section Sections

variable {ι ω : Type*}

/-- The program points of a call inside its orchestration's mutex. -/
def PrototypePc.holdsMutex : PrototypePc → Prop
  | .count _ _ | .leaveCount _ _ | .wait | .clear | .leaveWait => True
  | _ => False

/-- The program points of a call inside the pool's mutex. -/
def PrototypePc.holdsWork : PrototypePc → Prop
  | .queuePush _ _ | .queueLeave _ => True
  | _ => False

def PrototypeState.HoldsMutex (state : PrototypeState ι ω) (call : ι) : Thread ι ω → Prop
  | .caller caller => caller = call ∧ (state.calls caller).pc.holdsMutex
  | .worker worker => workerHoldsContext call (state.workers worker)

def PrototypeState.HoldsWork (state : PrototypeState ι ω) : Thread ι ω → Prop
  | .caller caller => (state.calls caller).pc.holdsWork
  | .worker worker => workerHoldsWork (state.workers worker)

/-- Every mutex is owned by the one thread inside it. -/
structure PrototypeState.Locked (state : PrototypeState ι ω) : Prop where
  work : Owned state.pool.workMutex state.HoldsWork
  orchestration
    : ∀ call, Owned (state.calls call).orchestration.mutex (state.HoldsMutex call)

@[simp] theorem prototype_holdsMutex_notify (pc : PrototypePc)
    : pc.notify.holdsMutex ↔ pc.holdsMutex := by
  cases pc with
  | waiting wait => cases wait <;> rfl
  | _ => rfl

@[simp] theorem prototype_holdsWork_notify (pc : PrototypePc)
    : pc.notify.holdsWork ↔ pc.holdsWork := by
  cases pc with
  | waiting wait => cases wait <;> rfl
  | _ => rfl

/-- Another thread leaves a thread where it is, or notifies it. -/
def PrototypeState.Bystander (before after : PrototypeState ι ω) : Thread ι ω → Prop
  | .caller call =>
      (after.calls call).pc = (before.calls call).pc
      ∨ (after.calls call).pc = (before.calls call).pc.notify
  | .worker worker =>
      after.workers worker = before.workers worker
      ∨ after.workers worker = (before.workers worker).notify

/-- A thread that does not move holds what it held. -/
theorem PrototypeState.Bystander.holds {state after : PrototypeState ι ω} {other : Thread ι ω}
    (bystander : state.Bystander after other)
    : (after.HoldsWork other ↔ state.HoldsWork other)
      ∧ ∀ owner, after.HoldsMutex owner other ↔ state.HoldsMutex owner other := by
  cases other with
  | caller call => rcases bystander with same | same <;>
      simp [PrototypeState.HoldsWork, PrototypeState.HoldsMutex, same]
  | worker worker => rcases bystander with same | same <;>
      simp [PrototypeState.HoldsWork, PrototypeState.HoldsMutex, same]

end Sections

-----------------------------------------------------------------------------------------
-- Bystanders
-----------------------------------------------------------------------------------------

section Bystanders

variable {ι ω : Type*} [DecidableEq ι] {finds : PrototypeFinds ι}
  {state after : PrototypeState ι ω}

theorem PrototypeCallMove.workers {call : ι} (moved : PrototypeCallMove finds call state after)
    (worker : ω)
    : after.workers worker = state.workers worker
      ∨ after.workers worker = (state.workers worker).notify := by
  cases moved with
  | queuePush at_pc => exact Or.inr rfl
  | _ => exact Or.inl rfl

theorem PrototypeCallMove.bystander {call : ι} {other : Thread ι ω}
    (moved : PrototypeCallMove finds call state after) (different : other ≠ .caller call)
    : state.Bystander after other := by
  cases other with
  | caller other =>
      have others := moved.others (fun same => different (same ▸ rfl))
      exact Or.inl (congrArg PrototypeCall.pc others)
  | worker worker => exact moved.workers worker

variable [DecidableEq ω]

omit [DecidableEq ι] in
/-- A worker that another one's move shows at most a notification. -/
theorem bystander_setWorker {worker : ω} {pc : FindWorkerPc ι} {other : Thread ι ω}
    (different : other ≠ .worker worker)
    : state.Bystander (state.setWorker worker pc) other := by
  cases other with
  | caller call => exact Or.inl rfl
  | worker other =>
      have others : other ≠ worker := fun same => different (same ▸ rfl)
      exact Or.inl (by simp [others])

theorem PrototypeWorkerMove.bystander {worker : ω} {other : Thread ι ω}
    (moved : PrototypeWorkerMove finds worker state after) (different : other ≠ .worker worker)
    : state.Bystander after other := by
  cases other with
  | caller call => exact (moved.calls call).2
  | worker other =>
      have others : other ≠ worker := fun same => different (same ▸ rfl)
      cases moved <;> exact Or.inl (by simp [others])

end Bystanders

-----------------------------------------------------------------------------------------
-- Moves
-----------------------------------------------------------------------------------------

section Locks

variable {ι ω : Type*} [DecidableEq ι] {finds : PrototypeFinds ι}
  {state after : PrototypeState ι ω}

/-- A move of a call takes, keeps or releases the pool's mutex. -/
theorem PrototypeCallMove.work_step {call : ι}
    (moved : PrototypeCallMove finds call state after)
    : OwnerStep (.caller call) state.pool.workMutex (state.HoldsWork (.caller call))
        after.pool.workMutex (after.HoldsWork (.caller call)) := by
  simp only [PrototypeState.HoldsWork]
  cases moved with
  | @start ppl cells at_pc begun =>
      cases cells <;>
        exact .keep (by simp [at_pc, PrototypePc.firstCell, PrototypePc.holdsWork])
  | @lock pc locked entering free =>
      generalize (state.calls call).pc = earlier at entering
      cases entering <;> exact .keep (by simp [PrototypeCall.goTo, PrototypePc.holdsWork])
  | queueEnter at_pc free =>
      rw [free]
      exact .acquire (by simp [PrototypeCall.goTo, PrototypePc.holdsWork])
  | @queueLeave rest at_pc =>
      refine .release (by simp [at_pc, PrototypePc.holdsWork]) ?_
      cases rest <;> simp [PrototypeCall.goTo, PrototypePc.nextCell, PrototypePc.holdsWork]
  | _ at_pc => exact .keep (by simp [at_pc, PrototypeCall.goTo, PrototypePc.holdsWork])

/-- A move of a call takes, keeps or releases its orchestration's mutex. -/
theorem PrototypeCallMove.mutex_step {call : ι}
    (moved : PrototypeCallMove finds call state after)
    : OwnerStep (.caller call) (state.calls call).orchestration.mutex
        (state.HoldsMutex call (.caller call)) (after.calls call).orchestration.mutex
        (after.HoldsMutex call (.caller call)) := by
  simp only [PrototypeState.HoldsMutex, true_and]
  cases moved with
  | @start ppl cells at_pc begun =>
      cases cells <;>
        simpa [at_pc, PrototypePc.firstCell, PrototypePc.holdsMutex] using .keep Iff.rfl
  | @lock pc locked entering free =>
      obtain ⟨unowned, rfl⟩ := PrototypeCall.lock_eq_some_iff.mp free
      rw [unowned]
      generalize (state.calls call).pc = earlier at entering
      cases entering <;>
        simpa [PrototypeCall.goTo, PrototypePc.holdsMutex] using .acquire trivial
  | @queueLeave rest at_pc =>
      cases rest <;>
        simpa [at_pc, PrototypeCall.goTo, PrototypePc.nextCell, PrototypePc.holdsMutex]
          using .keep Iff.rfl
  | leaveCount at_pc | sleep at_pc | leaveWait at_pc =>
      simpa [at_pc, PrototypeCall.goTo, PrototypeCall.unlock, PrototypePc.holdsMutex]
        using .release trivial id
  | _ at_pc =>
      simpa [at_pc, PrototypeCall.goTo, PrototypeCall.countOne, PrototypeCall.stopListening,
        PrototypePc.holdsMutex] using .keep Iff.rfl

/-- A move of a call takes, keeps or releases each orchestration's mutex, and only its own. -/
theorem PrototypeCallMove.mutexes_step {call : ι}
    (moved : PrototypeCallMove finds call state after) (owner : ι)
    : OwnerStep (.caller call) (state.calls owner).orchestration.mutex
        (state.HoldsMutex owner (.caller call)) (after.calls owner).orchestration.mutex
        (after.HoldsMutex owner (.caller call)) := by
  by_cases own : owner = call
  · exact own ▸ moved.mutex_step
  · rw [moved.others own]
    exact .keep (by simp [PrototypeState.HoldsMutex, Ne.symm own])

variable [DecidableEq ω]

theorem PrototypeWorkerMove.work_step {worker : ω}
    (moved : PrototypeWorkerMove finds worker state after)
    : OwnerStep (.worker worker) state.pool.workMutex (state.HoldsWork (.worker worker))
        after.pool.workMutex (after.HoldsWork (.worker worker)) := by
  simp only [PrototypeState.HoldsWork]
  cases moved with
  | loop looped => simpa using looped.work_step
  | _ at_pc => exact .keep (by simp [show state.workers worker = _ from at_pc, workerHoldsWork])

omit [DecidableEq ω] in
/-- A worklette's step on the mutex of its own call is a step on each call's mutex. -/
theorem mutexes_step_of_own {worker : ω} {worklette : Worklette ι} {before : AsyncStage}
    {next : PrototypeCall ι ω} {pc : FindWorkerPc ι}
    (at_pc : state.AtStage worker worklette before)
    (own
      : OwnerStep (Thread.worker worker) (state.calls worklette.call).orchestration.mutex
          before.holdsContext next.orchestration.mutex (workerHoldsContext worklette.call pc))
    (nowhere : ∀ owner, owner ≠ worklette.call → ¬ workerHoldsContext owner pc) (owner : ι)
    : OwnerStep (.worker worker) (state.calls owner).orchestration.mutex
        (state.HoldsMutex owner (.worker worker))
        (Function.update state.calls worklette.call next owner).orchestration.mutex
        (workerHoldsContext owner pc) := by
  rw [PrototypeState.HoldsMutex, at_pc]
  by_cases same : owner = worklette.call
  · subst same
    simpa [workerHoldsContext] using own
  · rw [Function.update_of_ne same]
    exact .keep (iff_of_false (nowhere owner same) (fun inside => same inside.1.symm))

/-- A move of a worker takes, keeps or releases each orchestration's mutex. -/
theorem PrototypeWorkerMove.mutexes_step {worker : ω}
    (moved : PrototypeWorkerMove finds worker state after) (owner : ι)
    : OwnerStep (.worker worker) (state.calls owner).orchestration.mutex
        (state.HoldsMutex owner (.worker worker)) (after.calls owner).orchestration.mutex
        (after.HoldsMutex owner (.worker worker)) := by
  have elsewhere {worklette : Worklette ι} (stage : AsyncStage) (other : ι)
      (different : other ≠ worklette.call)
      : ¬ workerHoldsContext other (.running ⟨worklette, stage⟩) :=
    fun inside => different inside.1.symm
  cases moved with
  | loop looped =>
      obtain ⟨before, later⟩ := looped.outside owner
      exact .keep (iff_of_false (by simpa [PrototypeState.HoldsMutex] using later) before)
  | @lock worklette stage next locked at_pc entering free =>
      obtain ⟨unowned, rfl⟩ := PrototypeCall.lock_eq_some_iff.mp free
      simp only [PrototypeState.HoldsMutex, PrototypeState.setWorker_workers,
        Function.update_self]
      refine mutexes_step_of_own at_pc ?_ (elsewhere next) owner
      rw [unowned]
      rcases entering with ⟨rfl, rfl⟩ | ⟨resultslette, rfl, rfl⟩ <;>
        exact .acquire ⟨rfl, trivial⟩
  | @giveUp worklette at_pc deaf =>
      simp only [PrototypeState.HoldsMutex, PrototypeState.setWorker_workers,
        Function.update_self]
      refine mutexes_step_of_own at_pc ?_ (elsewhere _) owner
      exact .keep (by simp [workerHoldsContext, AsyncStage.holdsContext])
  | @append worklette resultslette at_pc =>
      simp only [PrototypeState.HoldsMutex, PrototypeState.setWorker_workers,
        Function.update_self]
      refine mutexes_step_of_own at_pc ?_ (elsewhere _) owner
      simpa [PrototypeCall.doneOne]
        using .keep (by simp [workerHoldsContext, AsyncStage.holdsContext])
  | goOn at_pc _ | search at_pc _ =>
      rw [PrototypeState.HoldsMutex, at_pc]
      exact .keep (by
        simp [PrototypeState.HoldsMutex, workerHoldsContext, AsyncStage.holdsContext])
  | @unlockSearch worklette at_pc =>
      simp only [PrototypeState.HoldsMutex, PrototypeState.setWorker_workers,
        Function.update_self]
      refine mutexes_step_of_own at_pc ?_ (elsewhere _) owner
      exact .release trivial (by simp [workerHoldsContext, AsyncStage.holdsContext])
  | @unlockEnd worklette stage at_pc ending =>
      simp only [PrototypeState.HoldsMutex, PrototypeState.setWorker_workers,
        Function.update_self]
      refine mutexes_step_of_own at_pc ?_ (fun _ _ => id) owner
      rcases ending with rfl | rfl <;> exact .release trivial id

omit [DecidableEq ω] in
/-- However a wait goes on, a call in it is outside all mutexes. -/
theorem PrototypeState.Locked.waiting {call : ι} {wait : TimedWait} (locked : state.Locked)
    (at_pc : (state.calls call).pc = .waiting wait) (other : TimedWait)
    : (state.setCall call ((state.calls call).goTo (.waiting other))).Locked := by
  have work (thread : Thread ι ω)
      : (state.setCall call ((state.calls call).goTo (.waiting other))).HoldsWork thread
        ↔ state.HoldsWork thread := by
    cases thread with
    | caller caller =>
        by_cases own : caller = call
        · subst own
          simp [PrototypeState.HoldsWork, PrototypeCall.goTo, at_pc, PrototypePc.holdsWork]
        · simp [PrototypeState.HoldsWork, own]
    | worker worker => rfl
  have mutexes (owner : ι) (thread : Thread ι ω)
      : (state.setCall call ((state.calls call).goTo (.waiting other))).HoldsMutex owner thread
        ↔ state.HoldsMutex owner thread := by
    cases thread with
    | caller caller =>
        by_cases own : caller = call
        · subst own
          simp [PrototypeState.HoldsMutex, PrototypeCall.goTo, at_pc, PrototypePc.holdsMutex]
        · simp [PrototypeState.HoldsMutex, own]
    | worker worker => rfl
  refine ⟨fun thread => (locked.work thread).trans (work thread).symm, fun owner thread => ?_⟩
  have kept : (Function.update state.calls call ((state.calls call).goTo (.waiting other))
      owner).orchestration = (state.calls owner).orchestration := by
    by_cases own : owner = call
    · subst own
      simp [PrototypeCall.goTo]
    · simp [own]
  rw [mutexes owner thread, PrototypeState.setCall_calls, kept]
  exact locked.orchestration owner thread

/-- In every reachable state the mutexes are owned by the threads inside them; witness: each
move takes, keeps or releases for the thread that moves.
-/
theorem locked_of_prototype_reached (reached : Reached (finds.machine ω) state)
    : state.Locked := by
  refine reached.invariant PrototypeState.Locked ?_ ?_
  · refine ⟨fun thread => ?_, fun call thread => ?_⟩ <;>
      refine iff_of_false (fun owner => by cases owner) ?_
    · cases thread <;> exact id
    · cases thread with
      | caller caller => exact And.right
      | worker worker => exact id
  · intro label before after _ locked _ moved
    -- A thread that steps on a mutex meets bystanders only.
    have step {self : Thread ι ω}
        (work
          : OwnerStep self before.pool.workMutex (before.HoldsWork self) after.pool.workMutex
              (after.HoldsWork self))
        (mutexes
          : ∀ owner,
              OwnerStep self (before.calls owner).orchestration.mutex
                (before.HoldsMutex owner self) (after.calls owner).orchestration.mutex
                (after.HoldsMutex owner self))
        (bystanders : ∀ other, other ≠ self → before.Bystander after other)
        : after.Locked :=
      ⟨locked.work.step work fun _ different => (bystanders _ different).holds.1,
        fun owner =>
          (locked.orchestration owner).step (mutexes owner)
            fun _ different => (bystanders _ different).holds.2 owner⟩
    cases prototype_move_of_step moved with
    | call moved => exact step moved.work_step moved.mutexes_step fun _ => moved.bystander
    | worker moved => exact step moved.work_step moved.mutexes_step fun _ => moved.bystander
    | crash => exact ⟨locked.work, locked.orchestration⟩
    | wakeCall at_pc => exact locked.waiting at_pc _
    | @wakeWorker worker asleep =>
        refine @step (.worker worker) (.keep ?_) (fun owner => .keep ?_)
          (fun _ => bystander_setWorker)
        · simp [PrototypeState.HoldsWork]
        · simp [PrototypeState.HoldsMutex]
    | expire at_pc => exact locked.waiting at_pc _

end Locks

end PplMe.Engine
