import Mathlib.Logic.Function.Basic

/-! The worker pool: one mutex, one condition variable, a queue of worklettes, and workers.
A critical section is three steps: take the mutex, do the body, release the mutex. Waiting
on the condition variable releases the mutex and goes on only after a notification.
-/

namespace PplMe.Engine

/-- The pool's members. `θ` names threads, and `τ` is what is queued. -/
structure NoddyWorkerPool (θ τ : Type*) where
  /-- The thread that holds `work_mutex_`. -/
  workMutex : Option θ
  work : List τ
  die : Bool

/-- Where a worker is in its loop. `π` is the progress of a worklette being run. -/
inductive WorkerPc (τ π : Type*) where
  /-- About to take the mutex at the top of the loop. -/
  | enter
  /-- Holds the mutex and is about to test for death and for work. -/
  | inspect
  /-- In `work_or_die_.wait`, without the mutex. -/
  | asleep (notified : Bool)
  /-- Back from the wait with the mutex, about to test for death again. -/
  | woken
  /-- About to release the mutex with the worklette it found, if any. -/
  | leave (worklette : Option τ)
  /-- About to release the mutex and end. -/
  | leaveDead
  | running (progress : π)
  | stopped

/-- A notification reaches every worker in the wait. -/
def WorkerPc.notify {τ π : Type*} : WorkerPc τ π → WorkerPc τ π
  | .asleep _ => .asleep true
  | pc => pc

theorem notify_ne_asleep {τ π : Type*} (pc : WorkerPc τ π) : pc.notify ≠ .asleep false := by
  cases pc <;> simp [WorkerPc.notify]

namespace NoddyWorkerPool

variable {θ τ π : Type*}

/-- Take the mutex if nobody holds it. -/
def lock (pool : NoddyWorkerPool θ τ) (self : θ) : Option (NoddyWorkerPool θ τ) :=
  match pool.workMutex with
  | none => some { pool with workMutex := some self }
  | some _ => none

def unlock (pool : NoddyWorkerPool θ τ) : NoddyWorkerPool θ τ :=
  { pool with workMutex := none }

/-- The body of `QueueWorklette`; the caller also notifies all workers. -/
def push (pool : NoddyWorkerPool θ τ) (worklette : τ) : NoddyWorkerPool θ τ :=
  { pool with work := pool.work ++ [worklette] }

/-- The end of the worker's critical section: take the front of the queue, if there is one. -/
def takeWork (pool : NoddyWorkerPool θ τ) : NoddyWorkerPool θ τ × WorkerPc τ π :=
  match pool.work with
  | [] => (pool, .leave none)
  | worklette :: rest => ({ pool with work := rest }, .leave (some worklette))

/-- One step of a worker's loop outside worklettes; none where it is blocked or ended. -/
def startWorkingStep (begin : τ → π) (self : θ) (pool : NoddyWorkerPool θ τ)
    : WorkerPc τ π → Option (NoddyWorkerPool θ τ × WorkerPc τ π)
  | .enter => (pool.lock self).map (fun pool => (pool, .inspect))
  | .inspect =>
      if pool.die then
        some (pool, .leaveDead)
      else if pool.work.isEmpty then
        some (pool.unlock, .asleep false)
      else
        some pool.takeWork
  | .asleep true => (pool.lock self).map (fun pool => (pool, .woken))
  | .asleep false => none
  | .woken => if pool.die then some (pool, .leaveDead) else some pool.takeWork
  | .leave none => some (pool.unlock, .enter)
  | .leave (some worklette) => some (pool.unlock, .running (begin worklette))
  | .leaveDead => some (pool.unlock, .stopped)
  | .running _ => none
  | .stopped => none

@[simp] theorem unlock_workMutex (pool : NoddyWorkerPool θ τ) : pool.unlock.workMutex = none := rfl
@[simp] theorem unlock_work (pool : NoddyWorkerPool θ τ) : pool.unlock.work = pool.work := rfl
@[simp] theorem unlock_die (pool : NoddyWorkerPool θ τ) : pool.unlock.die = pool.die := rfl

@[simp] theorem push_workMutex (pool : NoddyWorkerPool θ τ) (worklette : τ)
    : (pool.push worklette).workMutex = pool.workMutex := rfl
@[simp] theorem push_work (pool : NoddyWorkerPool θ τ) (worklette : τ)
    : (pool.push worklette).work = pool.work ++ [worklette] := rfl
@[simp] theorem push_die (pool : NoddyWorkerPool θ τ) (worklette : τ)
    : (pool.push worklette).die = pool.die := rfl

/-- The mutex is taken only when free, and nothing else changes. -/
theorem lock_eq_some_iff {pool next : NoddyWorkerPool θ τ} {self : θ}
    : pool.lock self = some next
      ↔ pool.workMutex = none ∧ next = { pool with workMutex := some self } := by
  unfold lock
  split <;> simp_all [eq_comm]

end NoddyWorkerPool

/-- Everything a worker can do in one step of its loop, with the state it leaves. -/
inductive StartWorking {θ τ π : Type*} (begin : τ → π) (self : θ)
    : NoddyWorkerPool θ τ → WorkerPc τ π → NoddyWorkerPool θ τ → WorkerPc τ π → Prop
  | enter {pool} (free : pool.workMutex = none)
    : StartWorking begin self pool .enter { pool with workMutex := some self } .inspect
  | die {pool pc} (at_test : pc = .inspect ∨ pc = .woken) (dead : pool.die = true)
    : StartWorking begin self pool pc pool .leaveDead
  | sleep {pool} (alive : pool.die = false) (empty : pool.work = [])
    : StartWorking begin self pool .inspect pool.unlock (.asleep false)
  | wake {pool} (free : pool.workMutex = none)
    : StartWorking begin self pool (.asleep true) { pool with workMutex := some self } .woken
  | take {pool pc worklette rest} (at_test : pc = .inspect ∨ pc = .woken)
    (alive : pool.die = false) (work : pool.work = worklette :: rest)
    : StartWorking begin self pool pc { pool with work := rest } (.leave (some worklette))
  | findNothing {pool} (alive : pool.die = false) (empty : pool.work = [])
    : StartWorking begin self pool .woken pool (.leave none)
  | leaveIdle {pool} : StartWorking begin self pool (.leave none) pool.unlock .enter
  | leaveBusy {pool worklette}
    : StartWorking begin self pool (.leave (some worklette)) pool.unlock
        (.running (begin worklette))
  | leaveDead {pool} : StartWorking begin self pool .leaveDead pool.unlock .stopped

/-- Workers do not decide whether to die. -/
theorem StartWorking.keepsDie {θ τ π : Type*} {begin : τ → π} {self : θ}
    {pool next : NoddyWorkerPool θ τ} {pc after : WorkerPc τ π}
    (looped : StartWorking begin self pool pc next after)
    : next.die = pool.die := by
  cases looped <;> rfl

/-- Every step of the loop is one of the listed ones. -/
theorem startWorking_of_step {θ τ π : Type*} {begin : τ → π} {self : θ}
    {pool next : NoddyWorkerPool θ τ} {pc after : WorkerPc τ π}
    (h : pool.startWorkingStep begin self pc = some (next, after))
    : StartWorking begin self pool pc next after := by
  have taken {pc} (at_test : pc = .inspect ∨ pc = .woken) (alive : pool.die = false)
      (nonempty : pc = .inspect → pool.work ≠ []) (h : pool.takeWork = (next, after))
      : StartWorking begin self pool pc next after := by
    unfold NoddyWorkerPool.takeWork at h
    split at h <;> cases h
    · rename_i empty
      rcases at_test with rfl | rfl
      · exact absurd empty (nonempty rfl)
      · exact .findNothing alive empty
    · rename_i work
      exact .take at_test alive work
  unfold NoddyWorkerPool.startWorkingStep at h
  split at h
  · obtain ⟨_, locked, same⟩ := Option.map_eq_some_iff.mp h
    obtain ⟨free, rfl⟩ := NoddyWorkerPool.lock_eq_some_iff.mp locked
    cases same
    exact .enter free
  · split at h
    · rename_i dead
      cases h
      exact .die (Or.inl rfl) dead
    · rename_i alive
      split at h
      · rename_i empty
        cases h
        exact .sleep (by simpa using alive) (List.isEmpty_iff.mp empty)
      · rename_i work
        exact taken (Or.inl rfl) (by simpa using alive) (fun _ => by simpa using work)
          (Option.some.inj h)
  · obtain ⟨_, locked, same⟩ := Option.map_eq_some_iff.mp h
    obtain ⟨free, rfl⟩ := NoddyWorkerPool.lock_eq_some_iff.mp locked
    cases same
    exact .wake free
  · cases h
  · split at h
    · rename_i dead
      cases h
      exact .die (Or.inr rfl) dead
    · rename_i alive
      exact taken (Or.inr rfl) (by simpa using alive) (by simp) (Option.some.inj h)
  · cases h
    exact .leaveIdle
  · cases h
    exact .leaveBusy
  · cases h
    exact .leaveDead
  · cases h
  · cases h

/-- In its loop a worker is stopped only by a mutex, by sleep, or by its end. -/
theorem startWorkingStep_isSome {θ τ π : Type*} {begin : τ → π} {self : θ}
    {pool : NoddyWorkerPool θ τ} {pc : WorkerPc τ π}
    (free : pc = .enter ∨ pc = .asleep true → pool.workMutex = none)
    (awake : pc ≠ .asleep false) (looping : ∀ progress, pc ≠ .running progress)
    (alive : pc ≠ .stopped)
    : (pool.startWorkingStep begin self pc).isSome := by
  cases pc with
  | enter => simp [NoddyWorkerPool.startWorkingStep, NoddyWorkerPool.lock, free]
  | inspect =>
      simp only [NoddyWorkerPool.startWorkingStep]
      split
      · rfl
      · split <;> rfl
  | asleep notified =>
      cases notified with
      | false => exact absurd rfl awake
      | true => simp [NoddyWorkerPool.startWorkingStep, NoddyWorkerPool.lock, free]
  | woken =>
      simp only [NoddyWorkerPool.startWorkingStep]
      split <;> rfl
  | leave worklette => cases worklette <;> rfl
  | leaveDead => rfl
  | running progress => exact absurd rfl (looping progress)
  | stopped => exact absurd rfl alive

end PplMe.Engine
