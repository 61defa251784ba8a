import PplMe.Engine.FindSimulation
import PplMe.Foundation.Ownership

/-! Who holds which mutex, who sleeps, and who can still touch a call's context.
-/

namespace PplMe.Engine

open PplMe.Core Stepping Ownership

section Sections

variable {ι ω : Type*}

/-- The program points of a call inside its context's mutex. -/
def CallerPc.holdsContext : CallerPc → Prop
  | .wait _ | .queueEnter _ _ | .queuePush _ _ | .queueLeave _ | .tryLeave _ | .finalLeave _ =>
      True
  | _ => False

/-- The program points of a call inside the pool's mutex. -/
def CallerPc.holdsWork : CallerPc → Prop
  | .queuePush _ _ | .queueLeave _ => True
  | _ => False

def AsyncStage.holdsContext : AsyncStage → Prop
  | .check | .leaveCheck _ | .append _ | .leaveAppend => True
  | _ => False

/-- A worker inside the mutex of a call's context. -/
def workerHoldsContext (call : ι) : FindWorkerPc ι → Prop
  | .running ⟨worklette, stage⟩ => worklette.call = call ∧ stage.holdsContext
  | _ => False

def workerHoldsWork : FindWorkerPc ι → Prop
  | .inspect | .woken | .leave _ | .leaveDead => True
  | _ => False

def FindState.HoldsContext (state : FindState ι ω) (call : ι) : Thread ι ω → Prop
  | .caller caller => caller = call ∧ (state.callers caller).holdsContext
  | .worker worker => workerHoldsContext call (state.workers worker)

def FindState.HoldsWork (state : FindState ι ω) : Thread ι ω → Prop
  | .caller caller => (state.callers caller).holdsWork
  | .worker worker => workerHoldsWork (state.workers worker)

@[simp] theorem holdsContext_notify (pc : CallerPc)
    : pc.notify.holdsContext ↔ pc.holdsContext := by
  cases pc <;> rfl

@[simp] theorem holdsWork_notify (pc : CallerPc) : pc.notify.holdsWork ↔ pc.holdsWork := by
  cases pc <;> rfl

@[simp] theorem workerHoldsContext_notify (call : ι) (pc : FindWorkerPc ι)
    : workerHoldsContext call pc.notify ↔ workerHoldsContext call pc := by
  cases pc <;> rfl

@[simp] theorem workerHoldsWork_notify (pc : FindWorkerPc ι)
    : workerHoldsWork pc.notify ↔ workerHoldsWork pc := by
  cases pc <;> rfl

theorem not_holdsContext_nextCell (rest : List CellLocator)
    : ¬ (CallerPc.nextCell rest).holdsContext := by
  cases rest <;> exact id

theorem not_holdsWork_nextCell (rest : List CellLocator)
    : ¬ (CallerPc.nextCell rest).holdsWork := by
  cases rest <;> exact id

/-- Every mutex is owned by the one thread inside it. -/
structure FindState.Locked (state : FindState ι ω) : Prop where
  work : Owned state.pool.workMutex state.HoldsWork
  context : ∀ call, Owned (state.contexts call).mutex (state.HoldsContext call)

/-- A worker's loop takes, keeps or releases the pool's mutex. -/
theorem StartWorking.work_step {self : Thread ι ω} {pool next pc after}
    (looped
      : StartWorking (fun worklette => (⟨worklette, .enterCheck⟩ : AsyncFind ι)) self pool pc
          next after)
    : OwnerStep self pool.workMutex (workerHoldsWork pc) next.workMutex
        (workerHoldsWork after) := by
  cases looped with
  | enter free | wake free =>
      rw [free]
      exact .acquire trivial
  | die at_test dead => exact .keep (by rcases at_test with rfl | rfl <;> simp [workerHoldsWork])
  | take at_test alive work =>
      exact .keep (by rcases at_test with rfl | rfl <;> simp [workerHoldsWork])
  | findNothing alive empty => exact .keep Iff.rfl
  | _ => exact .release trivial id

/-- A worker's loop is outside all contexts. -/
theorem StartWorking.outside {self : Thread ι ω} {pool next pc after}
    (looped
      : StartWorking (fun worklette => (⟨worklette, .enterCheck⟩ : AsyncFind ι)) self pool pc
          next after)
    (owner : ι)
    : ¬ workerHoldsContext owner pc ∧ ¬ workerHoldsContext owner after := by
  cases looped with
  | die at_test dead => rcases at_test with rfl | rfl <;> simp [workerHoldsContext]
  | take at_test alive work => rcases at_test with rfl | rfl <;> simp [workerHoldsContext]
  | _ => simp [workerHoldsContext, AsyncStage.holdsContext]

end Sections

section Locks

variable {ι ω : Type*} [DecidableEq ι] {finds : Finds ι} {state after : FindState ι ω}

omit [DecidableEq ι] in
/-- A thread that does not move holds what it held. -/
theorem holds_of_bystander {other : Thread ι ω} (bystander : state.Bystander after other)
    : (after.HoldsWork other ↔ state.HoldsWork other)
      ∧ ∀ owner, after.HoldsContext owner other ↔ state.HoldsContext owner other := by
  cases other with
  | caller call => rcases bystander with same | same <;>
      simp [FindState.HoldsWork, FindState.HoldsContext, same]
  | worker worker => rcases bystander with same | same <;>
      simp [FindState.HoldsWork, FindState.HoldsContext, same]

/-- A move of a call takes, keeps or releases the pool's mutex. -/
theorem CallerMove.work_step {call : ι} (moved : CallerMove finds call state after)
    : OwnerStep (.caller call) state.pool.workMutex (state.HoldsWork (.caller call))
        after.pool.workMutex (after.HoldsWork (.caller call)) := by
  simp only [FindState.HoldsWork]
  cases moved with
  | start at_pc located =>
      refine .keep (iff_of_false ?_ (by simp [at_pc, CallerPc.holdsWork]))
      simpa using not_holdsWork_nextCell _
  | lock at_pc free =>
      rcases at_pc with at_pc | at_pc <;> exact .keep (by simp [at_pc, CallerPc.holdsWork])
  | queueEnter at_pc free =>
      rw [free]
      exact .acquire (by simp [CallerPc.holdsWork])
  | queueLeave at_pc =>
      exact .release (by simp [at_pc, CallerPc.holdsWork]) (by simp [CallerPc.holdsWork])
  | tryLeave at_pc =>
      refine .keep (iff_of_false ?_ (by simp [at_pc, CallerPc.holdsWork]))
      cases (state.contexts call).weDoneHere
      · simpa using not_holdsWork_nextCell _
      · simp [CallerPc.holdsWork]
  | _ at_pc => exact .keep (by simp [at_pc, CallerPc.holdsWork])

/-- A move of a call takes, keeps or releases its context's mutex. -/
theorem CallerMove.context_step {call : ι} (moved : CallerMove finds call state after)
    : OwnerStep (.caller call) (state.contexts call).mutex
        (state.HoldsContext call (.caller call)) (after.contexts call).mutex
        (after.HoldsContext call (.caller call)) := by
  simp only [FindState.HoldsContext, true_and]
  cases moved with
  | start at_pc located =>
      refine .keep (iff_of_false ?_ (by simp [at_pc, CallerPc.holdsContext]))
      simpa using not_holdsContext_nextCell _
  | lock at_pc free =>
      rw [free]
      simpa using .acquire (by simp [CallerPc.holdsContext])
  | sleep at_pc unready =>
      simpa using .release (by simp [at_pc, CallerPc.holdsContext])
        (by simp [CallerPc.holdsContext])
  | tryLeave at_pc =>
      simpa using .release (by simp [at_pc, CallerPc.holdsContext])
        (by
          cases (state.contexts call).weDoneHere
          · simpa using not_holdsContext_nextCell _
          · simp [CallerPc.holdsContext])
  | finalLeave at_pc =>
      simpa using .release (by simp [at_pc, CallerPc.holdsContext])
        (by simp [CallerPc.holdsContext])
  | _ at_pc => simpa [at_pc, CallerPc.holdsContext] using .keep (by simp)

/-- A move of a call takes, keeps or releases each context's mutex, and only its own. -/
theorem CallerMove.contexts_step {call : ι} (moved : CallerMove finds call state after)
    (owner : ι)
    : OwnerStep (.caller call) (state.contexts owner).mutex
        (state.HoldsContext owner (.caller call)) (after.contexts owner).mutex
        (after.HoldsContext owner (.caller call)) := by
  by_cases own : owner = call
  · exact own ▸ moved.context_step
  · rw [moved.otherContexts own]
    exact .keep (by simp [FindState.HoldsContext, Ne.symm own])

variable [DecidableEq ω]

theorem WorkerMove.work_step {worker : ω} (moved : WorkerMove finds worker state after)
    : OwnerStep (.worker worker) state.pool.workMutex (state.HoldsWork (.worker worker))
        after.pool.workMutex (after.HoldsWork (.worker worker)) := by
  simp only [FindState.HoldsWork]
  cases moved with
  | loop looped => simpa using looped.work_step
  | _ at_pc => exact .keep (by simp [show state.workers worker = _ from at_pc, workerHoldsWork])

/-- A move of a worker takes, keeps or releases each context's mutex. -/
theorem WorkerMove.contexts_step {worker : ω} (moved : WorkerMove finds worker state after)
    (owner : ι)
    : OwnerStep (.worker worker) (state.contexts owner).mutex
        (state.HoldsContext owner (.worker worker)) (after.contexts owner).mutex
        (after.HoldsContext owner (.worker worker)) := by
  simp only [FindState.HoldsContext]
  cases moved with
  | loop looped =>
      obtain ⟨before, later⟩ := looped.outside owner
      exact .keep (iff_of_false (by simpa using later) before)
  | @lock worklette stage next at_pc entering free =>
      rw [show state.workers worker = _ from at_pc]
      by_cases own : owner = worklette.call
      · subst own
        rw [free]
        rcases entering with ⟨rfl, rfl⟩ | ⟨myPpl, rfl, rfl⟩ <;>
          simpa using .acquire (by simp [workerHoldsContext, AsyncStage.holdsContext])
      · simpa [own] using .keep (by simp [workerHoldsContext, Ne.symm own])
  | @drop worklette at_pc done pending =>
      rw [show state.workers worker = _ from at_pc]
      by_cases own : owner = worklette.call
      · subst own
        simpa using .keep (by simp [workerHoldsContext, AsyncStage.holdsContext])
      · simpa [own] using .keep (by simp [workerHoldsContext, Ne.symm own])
  | @append worklette myPpl at_pc pending =>
      rw [show state.workers worker = _ from at_pc]
      by_cases own : owner = worklette.call
      · subst own
        simpa using .keep (by simp [workerHoldsContext, AsyncStage.holdsContext])
      · simpa [own] using .keep (by simp [workerHoldsContext, Ne.symm own])
  | goOn at_pc _ | search at_pc _ =>
      rw [show state.workers worker = _ from at_pc]
      exact .keep (by simp [workerHoldsContext, AsyncStage.holdsContext])
  | @unlockSearch worklette at_pc =>
      rw [show state.workers worker = _ from at_pc]
      by_cases own : owner = worklette.call
      · subst own
        simpa using .release (by simp [workerHoldsContext, AsyncStage.holdsContext])
          (by simp [workerHoldsContext, AsyncStage.holdsContext])
      · simpa [own] using .keep (by simp [workerHoldsContext, Ne.symm own])
  | @unlockEnd worklette stage at_pc ending =>
      rw [show state.workers worker = _ from at_pc]
      by_cases own : owner = worklette.call
      · subst own
        rcases ending with rfl | rfl <;>
          simpa using .release (by simp [workerHoldsContext, AsyncStage.holdsContext])
            (by simp [workerHoldsContext])
      · simpa [own] using .keep (by simp [workerHoldsContext, Ne.symm own])

/-- In every reachable state the mutexes are owned by the threads inside them; witness: each
move takes, keeps or releases for the thread that moves.
-/
theorem locked_of_reached (reached : Reached (finds.machine ω) state) : state.Locked := by
  refine reached.invariant FindState.Locked ?_ ?_
  · refine ⟨fun thread => ?_, fun call thread => ?_⟩ <;>
      refine iff_of_false (fun owner => by cases owner) ?_
    · cases thread <;> exact id
    · cases thread with
      | caller caller => exact And.right
      | worker worker => exact id
  · intro label before after _ locked _ moved
    -- A thread that steps on a mutex meets bystanders only.
    have step {self : Thread ι ω}
        (work
          : OwnerStep self before.pool.workMutex (before.HoldsWork self) after.pool.workMutex
              (after.HoldsWork self))
        (contexts
          : ∀ owner,
              OwnerStep self (before.contexts owner).mutex (before.HoldsContext owner self)
                (after.contexts owner).mutex (after.HoldsContext owner self))
        (bystanders : ∀ other, other ≠ self → before.Bystander after other)
        : after.Locked :=
      ⟨locked.work.step work fun _ different => (holds_of_bystander (bystanders _ different)).1,
        fun owner =>
          (locked.context owner).step (contexts owner)
            fun _ different => (holds_of_bystander (bystanders _ different)).2 owner⟩
    cases (move_of_step moved).2 with
    | caller moved =>
        exact step moved.work_step moved.contexts_step fun _ => moved.bystander
    | worker moved =>
        exact step moved.work_step moved.contexts_step fun _ => moved.bystander
    | callerCrash ended | workerCrash ended =>
        exact ⟨locked.work, locked.context⟩
    | @wakeCaller call site asleep =>
        have holds := holds_of_bystander (bystander_wakeCaller before call (.caller call))
        exact step (.keep holds.1) (fun owner => .keep (holds.2 owner))
          fun other _ => bystander_wakeCaller before call other
    | @wakeWorker worker asleep =>
        have holds := holds_of_bystander (bystander_wakeWorker before worker (.worker worker))
        exact step (.keep holds.1) (fun owner => .keep (holds.2 owner))
          fun other _ => bystander_wakeWorker before worker other

end Locks

end PplMe.Engine
