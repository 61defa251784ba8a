import PplMe.Engine.NoddyWorkerPool
import PplMe.Foundation.Runs
import PplMe.Foundation.Handouts
import Mathlib.Data.List.FinRange

/-! The worker pool from its constructor to the end of its destructor: any workers, any threads
that queue worklettes, and one thread that destroys the pool.
A `std::function<void()>` is empty or can be called.
-/

namespace PplMe.Engine

open Stepping Handouts

-----------------------------------------------------------------------------------------
-- The pool and its threads
-----------------------------------------------------------------------------------------

inductive PoolThread (n : ℕ) (ι : Type*) where
  | worker (index : Fin n)
  | caller (thread : ι)
  | destructor

/-- Where a worker is with the worklette that its critical section left it. -/
inductive CallPc (φ : Type*) where
  /-- About to test whether there is one. -/
  | test (worklette : Option φ)
  /-- In its call. -/
  | inside

/-- Where a thread is in `QueueWorklette`. -/
inductive QueuePc (φ : Type*) where
  | outside
  | enter (worklette : Option φ)
  | push (worklette : Option φ)
  | leave

/-- Where the destructor is. -/
inductive DestructorPc (n : ℕ) where
  | notCalled
  | die
  | leave
  /-- Waits for the first of the workers that it has not joined. -/
  | joining (workers : List (Fin n))
  | done

structure PoolState (n : ℕ) (ι φ : Type*) where
  pool : NoddyWorkerPool (PoolThread n ι) (Option φ)
  workers : Fin n → WorkerPc (Option φ) (CallPc φ)
  callers : ι → QueuePc φ
  destructor : DestructorPc n
  /-- What was queued, what was taken off the queue, and what was called, each in that order. -/
  queued : List (Option φ)
  taken : List (Fin n × Option φ)
  started : List (Fin n × Option φ)

/-- The worklette that a worker leaves its critical section with. -/
def WorkerPc.found {τ π : Type*} : WorkerPc τ π → Option τ
  | .leave worklette => worklette
  | _ => none

section Steps

variable {n : ℕ} {ι φ : Type*} [DecidableEq ι]

namespace PoolState

def setWorker (state : PoolState n ι φ) (worker : Fin n) (pc : WorkerPc (Option φ) (CallPc φ))
    : PoolState n ι φ :=
  { state with workers := Function.update state.workers worker pc }

def setCaller (state : PoolState n ι φ) (caller : ι) (pc : QueuePc φ) : PoolState n ι φ :=
  { state with callers := Function.update state.callers caller pc }

/-- `work_or_die_.notify_all`. -/
def notifyAll (state : PoolState n ι φ) : PoolState n ι φ :=
  { state with workers := fun worker => (state.workers worker).notify }

/-- A worker goes on in its loop. What it finds there it has taken off the queue. -/
def goOn (state : PoolState n ι φ) (worker : Fin n)
    (pool : NoddyWorkerPool (PoolThread n ι) (Option φ)) (next : WorkerPc (Option φ) (CallPc φ))
    : PoolState n ι φ :=
  { state.setWorker worker next with
    pool
    taken := state.taken ++ next.found.toList.map (worker, ·) }

/-- A step of a worker: in its loop, or with a worklette. -/
def startWorking (state : PoolState n ι φ) (worker : Fin n) : Option (PoolState n ι φ) :=
  match state.workers worker with
  | .running (.test (some function)) =>
      some
        { state.setWorker worker (.running .inside) with
          started := state.started ++ [(worker, some function)] }
  | .running (.test none) => some (state.setWorker worker .enter)
  | .running .inside => some (state.setWorker worker .enter)
  | pc =>
      (state.pool.startWorkingStep .test (.worker worker) pc).map fun (pool, next) =>
        state.goOn worker pool next

/-- A step of a thread in `QueueWorklette`. -/
def queueWorklette (state : PoolState n ι φ) (caller : ι) : Option (PoolState n ι φ) :=
  match state.callers caller with
  | .outside => none
  | .enter worklette =>
      (state.pool.lock (.caller caller)).map fun pool =>
        { state with pool }.setCaller caller (.push worklette)
  | .push worklette =>
      some
        ({ state with
            pool := state.pool.push worklette
            queued := state.queued ++ [worklette] }.notifyAll.setCaller caller .leave)
  | .leave => some ({ state with pool := state.pool.unlock }.setCaller caller .outside)

/-- A step of the destructor. -/
def destroy (state : PoolState n ι φ) : Option (PoolState n ι φ) :=
  match state.destructor with
  | .notCalled =>
      (state.pool.lock .destructor).map fun pool => { state with pool, destructor := .die }
  | .die =>
      some { state with pool := { state.pool with die := true }, destructor := .leave }.notifyAll
  | .leave =>
      some
        { state with pool := state.pool.unlock, destructor := .joining (List.finRange n) }
  | .joining [] => some { state with destructor := .done }
  | .joining (worker :: rest) =>
      match state.workers worker with
      | .stopped => some { state with destructor := .joining rest }
      | _ => none
  | .done => none

/-- After the constructor; a worker may start its loop at any time. -/
def constructed : PoolState n ι φ where
  pool := ⟨none, [], false⟩
  workers := fun _ => .enter
  callers := fun _ => .outside
  destructor := .notCalled
  queued := []
  taken := []
  started := []

end PoolState

inductive PoolLabel (n : ℕ) (ι φ : Type*) where
  | call (caller : ι) (worklette : Option φ)
  | run (thread : PoolThread n ι)
  /-- A worker's wait ends without a notification. -/
  | spurious (worker : Fin n)

/-- The pool: any calls of `QueueWorklette`, and any order of steps. -/
def poolMachine (n : ℕ) (ι φ : Type*) [DecidableEq ι]
    : Machine (PoolState n ι φ) (PoolLabel n ι φ) where
  start := .constructed
  step label state :=
    match label with
    | .call caller worklette =>
        match state.callers caller with
        | .outside => some (state.setCaller caller (.enter worklette))
        | _ => none
    | .run (.worker worker) => state.startWorking worker
    | .run (.caller caller) => state.queueWorklette caller
    | .run .destructor => state.destroy
    | .spurious worker =>
        match state.workers worker with
        | .asleep false => some (state.setWorker worker (.asleep true))
        | _ => none

end Steps

-----------------------------------------------------------------------------------------
-- What a step does
-----------------------------------------------------------------------------------------

section Moves

variable {n : ℕ} {ι φ : Type*} [DecidableEq ι]

/-- The steps of the pool, with what lets them happen. -/
inductive PoolMove (state : PoolState n ι φ) : PoolLabel n ι φ → PoolState n ι φ → Prop
  | call {caller worklette} (outside : state.callers caller = .outside)
    : PoolMove state (.call caller worklette) (state.setCaller caller (.enter worklette))
  | lockQueue {caller worklette} (at_pc : state.callers caller = .enter worklette)
    (free : state.pool.workMutex = none)
    : PoolMove state (.run (.caller caller))
        ({ state with
            pool := { state.pool with workMutex := some (.caller caller) } }.setCaller caller
          (.push worklette))
  | push {caller worklette} (at_pc : state.callers caller = .push worklette)
    : PoolMove state (.run (.caller caller))
        ({ state with
            pool := state.pool.push worklette
            queued := state.queued ++ [worklette] }.notifyAll.setCaller caller .leave)
  | unlockQueue {caller} (at_pc : state.callers caller = .leave)
    : PoolMove state (.run (.caller caller))
        ({ state with pool := state.pool.unlock }.setCaller caller .outside)
  | loop {worker pc pool next} (at_pc : state.workers worker = pc)
    (looped : StartWorking .test (.worker worker) state.pool pc pool next)
    : PoolMove state (.run (.worker worker)) (state.goOn worker pool next)
  | start {worker function} (at_pc : state.workers worker = .running (.test (some function)))
    : PoolMove state (.run (.worker worker))
        { state.setWorker worker (.running .inside) with
          started := state.started ++ [(worker, some function)] }
  | skip {worker} (at_pc : state.workers worker = .running (.test none))
    : PoolMove state (.run (.worker worker)) (state.setWorker worker .enter)
  | finish {worker} (at_pc : state.workers worker = .running .inside)
    : PoolMove state (.run (.worker worker)) (state.setWorker worker .enter)
  | spurious {worker} (at_pc : state.workers worker = .asleep false)
    : PoolMove state (.spurious worker) (state.setWorker worker (.asleep true))
  | lockDestroy (at_pc : state.destructor = .notCalled) (free : state.pool.workMutex = none)
    : PoolMove state (.run .destructor)
        { state with
          pool := { state.pool with workMutex := some .destructor }
          destructor := .die }
  | die (at_pc : state.destructor = .die)
    : PoolMove state (.run .destructor)
        { state with pool := { state.pool with die := true }, destructor := .leave }.notifyAll
  | unlockDestroy (at_pc : state.destructor = .leave)
    : PoolMove state (.run .destructor)
        { state with pool := state.pool.unlock, destructor := .joining (List.finRange n) }
  | join {worker rest} (at_pc : state.destructor = .joining (worker :: rest))
    (stopped : state.workers worker = .stopped)
    : PoolMove state (.run .destructor) { state with destructor := .joining rest }
  | done (at_pc : state.destructor = .joining [])
    : PoolMove state (.run .destructor) { state with destructor := .done }

variable {state after : PoolState n ι φ} {label : PoolLabel n ι φ}

theorem poolMove_of_startWorking {worker : Fin n}
    (moved : state.startWorking worker = some after)
    : PoolMove state (.run (.worker worker)) after := by
  unfold PoolState.startWorking at moved
  split at moved
  · rename_i at_pc
    cases moved
    exact .start at_pc
  · rename_i at_pc
    cases moved
    exact .skip at_pc
  · rename_i at_pc
    cases moved
    exact .finish at_pc
  · obtain ⟨⟨pool, next⟩, stepped, rfl⟩ := Option.map_eq_some_iff.mp moved
    exact .loop rfl (startWorking_of_step stepped)

theorem poolMove_of_queueWorklette {caller : ι} (moved : state.queueWorklette caller = some after)
    : PoolMove state (.run (.caller caller)) after := by
  unfold PoolState.queueWorklette at moved
  split at moved
  · cases moved
  · rename_i at_pc
    obtain ⟨_, locked, rfl⟩ := Option.map_eq_some_iff.mp moved
    obtain ⟨free, rfl⟩ := NoddyWorkerPool.lock_eq_some_iff.mp locked
    exact .lockQueue at_pc free
  · rename_i at_pc
    cases moved
    exact .push at_pc
  · rename_i at_pc
    cases moved
    exact .unlockQueue at_pc

theorem poolMove_of_destroy (moved : state.destroy = some after)
    : PoolMove state (.run .destructor) after := by
  unfold PoolState.destroy at moved
  split at moved
  · rename_i at_pc
    obtain ⟨_, locked, rfl⟩ := Option.map_eq_some_iff.mp moved
    obtain ⟨free, rfl⟩ := NoddyWorkerPool.lock_eq_some_iff.mp locked
    exact .lockDestroy at_pc free
  · rename_i at_pc
    cases moved
    exact .die at_pc
  · rename_i at_pc
    cases moved
    exact .unlockDestroy at_pc
  · rename_i at_pc
    cases moved
    exact .done at_pc
  · rename_i at_pc
    split at moved
    · rename_i stopped
      cases moved
      exact .join at_pc stopped
    · cases moved
  · cases moved

/-- Every step of the pool is one of the moves. -/
theorem poolMove_of_step (moved : (poolMachine n ι φ).step label state = some after)
    : PoolMove state label after := by
  simp only [poolMachine] at moved
  split at moved
  · split at moved
    · rename_i outside
      cases moved
      exact .call outside
    · cases moved
  · exact poolMove_of_startWorking moved
  · exact poolMove_of_queueWorklette moved
  · exact poolMove_of_destroy moved
  · split at moved
    · rename_i at_pc
      cases moved
      exact .spurious at_pc
    · cases moved

end Moves

-----------------------------------------------------------------------------------------
-- The worklettes as items that are handed out
-----------------------------------------------------------------------------------------

section Ledger

variable {n : ℕ} {ι φ : Type*} [DecidableEq ι] {state after : PoolState n ι φ}
  {label : PoolLabel n ι φ}

/-- The worklette that a worker has taken and not come to call. -/
def WorkerPc.held : WorkerPc (Option φ) (CallPc φ) → Option (Option φ)
  | .leave worklette => worklette
  | .running (.test worklette) => some worklette
  | _ => none

@[simp] theorem held_notify (pc : WorkerPc (Option φ) (CallPc φ)) : pc.notify.held = pc.held := by
  cases pc <;> rfl

def PoolState.ledger (state : PoolState n ι φ) : Ledger (Fin n) (Option φ) where
  queued := state.queued
  waiting := state.pool.work
  taken := state.taken
  started := state.started
  held := fun worker => (state.workers worker).held

omit [DecidableEq ι] in
/-- Where one worker goes on, the others have what they had. -/
theorem held_update (worker : Fin n) (pc : WorkerPc (Option φ) (CallPc φ))
    (worklette : Option (Option φ)) (has : pc.held = worklette)
    : (fun other => (Function.update state.workers worker pc other).held)
      = Function.update state.ledger.held worker worklette := by
  rw [← has]
  exact Function.comp_update WorkerPc.held state.workers worker pc

omit [DecidableEq ι] in
theorem held_update_same {worker : Fin n} {pc : WorkerPc (Option φ) (CallPc φ)}
    (same : pc.held = (state.workers worker).held)
    : (fun other => (Function.update state.workers worker pc other).held) = state.ledger.held := by
  rw [held_update worker pc _ same]
  exact Function.update_eq_self worker state.ledger.held

omit [DecidableEq ι] in
/-- A step of a worker's loop takes the front of the queue, or changes nothing here. -/
theorem ledger_goOn {worker : Fin n} {pc next : WorkerPc (Option φ) (CallPc φ)}
    {pool : NoddyWorkerPool (PoolThread n ι) (Option φ)} (at_pc : state.workers worker = pc)
    (looped : StartWorking .test (.worker worker) state.pool pc pool next)
    : (state.goOn worker pool next).ledger = state.ledger
      ∨ Handouts.Step Option.isSome state.ledger (state.goOn worker pool next).ledger := by
  have idle (work : pool.work = state.pool.work) (found : next.found = none)
      (same : next.held = pc.held)
      : (state.goOn worker pool next).ledger = state.ledger := by
    have held := held_update_same (at_pc ▸ same)
    simp only [PoolState.ledger, PoolState.goOn, PoolState.setWorker, work, found,
      Option.toList_none, List.map_nil, List.append_nil] at held ⊢
    rw [held]
  cases looped with
  | @take _ worklette rest at_test alive work =>
      have free : state.ledger.held worker = none := by
        rcases at_test with rfl | rfl <;> simp [PoolState.ledger, at_pc, WorkerPc.held]
      have step := @Handouts.Step.take _ _ _ Option.isSome state.ledger worker worklette rest work
        free
      rw [← held_update worker (.leave (some worklette)) (some worklette) rfl] at step
      exact .inr step
  | @die _ at_test dead =>
      refine .inl (idle rfl rfl ?_)
      rcases at_test with rfl | rfl <;> rfl
  | _ => exact .inl (idle rfl rfl rfl)

/-- Seen as items that are handed out, every move is a step, or none. -/
theorem PoolMove.ledger (moved : PoolMove state label after)
    : after.ledger = state.ledger ∨ Handouts.Step Option.isSome state.ledger after.ledger := by
  cases moved with
  | @push caller worklette _ =>
      have step := @Handouts.Step.queue _ _ _ Option.isSome state.ledger worklette
      refine .inr ?_
      simpa only [PoolState.ledger, PoolState.setCaller, PoolState.notifyAll, held_notify,
        NoddyWorkerPool.push_work] using step
  | loop at_pc looped => exact ledger_goOn at_pc looped
  | @start worker function at_pc =>
      have has : state.ledger.held worker = some (some function) := by
        simp [PoolState.ledger, at_pc, WorkerPc.held]
      have step := @Handouts.Step.start _ _ _ Option.isSome state.ledger worker _ has rfl
      rw [← held_update worker (.running .inside) none rfl] at step
      exact .inr step
  | @skip worker at_pc =>
      have has : state.ledger.held worker = some none := by
        simp [PoolState.ledger, at_pc, WorkerPc.held]
      have step := @Handouts.Step.letGo _ _ _ Option.isSome state.ledger worker _ has rfl
      rw [← held_update worker .enter none rfl] at step
      exact .inr step
  | @finish worker at_pc | @spurious worker at_pc =>
      refine .inl ?_
      simp only [PoolState.ledger, PoolState.setWorker]
      rw [held_update_same (by rw [at_pc]; rfl)]
      rfl
  | die _ => exact .inl (by simp only [PoolState.ledger, PoolState.notifyAll, held_notify])
  | _ => exact .inl rfl

/-- The pool hands its worklettes out. -/
theorem accounts_of_reached (reached : Reached (poolMachine n ι φ) state)
    : Accounts Option.isSome state.ledger := by
  have simulates : Simulates (poolMachine n ι φ) PoolState.ledger
      (Handouts.Step Option.isSome) (Accounts Option.isSome) :=
    fun _ _ _ _ _ moved => (poolMove_of_step moved).ledger
  exact simulates.invariant (accounts_empty Option.isSome)
    (fun _ _ accounts stepped => accounts.step stepped) reached

end Ledger

-----------------------------------------------------------------------------------------
-- Waits, and the end of the pool
-----------------------------------------------------------------------------------------

section Ends

variable {n : ℕ} {ι φ : Type*} [DecidableEq ι] {state after : PoolState n ι φ}
  {label : PoolLabel n ι φ}

/-- The workers that the destructor has not joined. -/
def DestructorPc.unjoined : DestructorPc n → List (Fin n)
  | .joining workers => workers
  | .done => []
  | _ => List.finRange n

/-- No worker waits for what is there already, and joined workers have stopped. -/
structure PoolState.Settled (state : PoolState n ι φ) : Prop where
  attentive
    : state.pool.work ≠ [] ∨ state.pool.die = true
      → ∀ worker, state.workers worker ≠ .asleep false
  joined : ∀ worker, worker ∉ state.destructor.unjoined → state.workers worker = .stopped

omit [DecidableEq ι] in
/-- What holds of every worker still holds where one has come to a point that it holds of. -/
theorem forall_setWorker {worker : Fin n} {pc : WorkerPc (Option φ) (CallPc φ)}
    (property : Fin n → WorkerPc (Option φ) (CallPc φ) → Prop) (own : property worker pc)
    (others : ∀ other, property other (state.workers other)) (other : Fin n)
    : property other ((state.setWorker worker pc).workers other) :=
  (Function.forall_update_iff state.workers property).mpr ⟨own, fun other _ => others other⟩ other

/-- A worker goes to sleep only where it finds no work and is not to die, and a notification
reaches whoever sleeps when that changes.
-/
theorem PoolMove.attentive (moved : PoolMove state label after) (settled : state.Settled)
    : after.pool.work ≠ [] ∨ after.pool.die = true
      → ∀ worker, after.workers worker ≠ .asleep false := by
  have attentive := settled.attentive
  cases moved with
  | push _ | die _ => exact fun _ worker => notify_ne_asleep (state.workers worker)
  | @loop worker pc pool next at_pc looped =>
      intro wanted
      -- Work that is left was there before.
      have before : state.pool.work ≠ [] ∨ state.pool.die = true := by
        refine wanted.imp (fun left => ?_) fun dead => looped.keepsDie ▸ dead
        cases looped with
        | take _ _ work => simp [work]
        | _ => exact left
      refine @forall_setWorker _ _ _ state worker next (fun _ pc => pc ≠ .asleep false) ?_
        (attentive before)
      cases looped with
      | sleep alive empty => simp [alive, empty] at before
      | _ => simp
  | start _ | skip _ | finish _ | spurious _ =>
      exact fun wanted => forall_setWorker (fun _ pc => pc ≠ .asleep false) nofun (attentive wanted)
  | _ => exact attentive

/-- A stopped worker has no step. -/
theorem PoolMove.stopped (moved : PoolMove state label after) {worker : Fin n}
    (stopped : state.workers worker = .stopped)
    : after.workers worker = .stopped := by
  -- Whoever moves is not the stopped worker.
  have other {mover : Fin n} {pc : WorkerPc (Option φ) (CallPc φ)}
      (moves : state.workers mover ≠ .stopped)
      : (state.setWorker mover pc).workers worker = .stopped := by
    have different : worker ≠ mover := fun same => moves (same ▸ stopped)
    simp only [PoolState.setWorker, Function.update_of_ne different, stopped]
  cases moved with
  | push _ | die _ =>
      change (state.workers worker).notify = _
      rw [stopped]
      rfl
  | @loop mover pc _ _ at_pc looped =>
      refine other ?_
      rw [at_pc]
      cases looped with
      | die at_test _ | take at_test _ _ => rcases at_test with rfl | rfl <;> simp
      | _ => simp
  | start at_pc | skip at_pc | finish at_pc | spurious at_pc =>
      refine other ?_
      rw [at_pc]
      simp
  | _ => exact stopped

/-- The destructor goes on from a worker once that has stopped. -/
theorem PoolMove.unjoined (moved : PoolMove state label after) {worker : Fin n}
    (joined : worker ∉ after.destructor.unjoined)
    : worker ∉ state.destructor.unjoined ∨ state.workers worker = .stopped := by
  cases moved with
  | lockDestroy at_pc _ | die at_pc | unlockDestroy at_pc | done at_pc =>
      rw [at_pc]
      exact .inl joined
  | @join next rest at_pc stopped =>
      rw [at_pc]
      by_cases same : worker = next
      · exact .inr (same ▸ stopped)
      · exact .inl fun member => (List.mem_cons.mp member).elim same joined
  | _ => exact .inl joined

/-- Every move keeps the pool settled. -/
theorem PoolMove.settled (moved : PoolMove state label after) (settled : state.Settled)
    : after.Settled where
  attentive := moved.attentive settled
  joined worker joined :=
    moved.stopped ((moved.unjoined joined).elim (settled.joined worker) id)

theorem poolSettled_of_reached (reached : Reached (poolMachine n ι φ) state) : state.Settled := by
  refine reached.invariant PoolState.Settled ⟨?_, ?_⟩ fun _ _ _ _ settled _ moved =>
    (poolMove_of_step moved).settled settled
  · simp [poolMachine, PoolState.constructed]
  · exact fun worker unjoined => absurd (List.mem_finRange worker) unjoined

/-- Where every worker has stopped, no worklette is taken or started any more. -/
theorem quiet_of_stopped (stopped : ∀ worker, state.workers worker = .stopped)
    {schedule : List (PoolLabel n ι φ)} {final : PoolState n ι φ}
    (run : (poolMachine n ι φ).follow schedule state = some final)
    : final.taken = state.taken ∧ final.started = state.started := by
  have kept : (∀ worker, final.workers worker = .stopped)
      ∧ final.taken = state.taken ∧ final.started = state.started := by
    refine Machine.follow_invariant
      (fun later =>
        (∀ worker, later.workers worker = .stopped)
        ∧ later.taken = state.taken ∧ later.started = state.started)
      (fun label before after holds moved => ?_) ⟨stopped, rfl, rfl⟩ run
    have move := poolMove_of_step moved
    refine ⟨fun worker => move.stopped (holds.1 worker), ?_⟩
    cases move with
    | @loop worker pc _ _ at_pc looped =>
        rw [holds.1 worker] at at_pc
        subst at_pc
        cases looped with
        | die at_test _ | take at_test _ _ => exact at_test.elim nofun nofun
    | start at_pc => cases (holds.1 _).symm.trans at_pc
    | _ => exact holds.2
  exact kept.2

/-- A worker that has taken a worklette waits for nothing before it comes to call it. -/
theorem enabled_of_held {worker : Fin n} {worklette : Option φ}
    (has : (state.workers worker).held = some worklette)
    : (poolMachine n ι φ).Enabled (.run (.worker worker)) state := by
  unfold Machine.Enabled
  simp only [poolMachine, PoolState.startWorking]
  cases at_pc : state.workers worker with
  | leave found =>
      rw [at_pc] at has
      cases has
      exact ⟨_, rfl⟩
  | running progress =>
      rw [at_pc] at has
      cases progress with
      | test found => cases found <;> exact ⟨_, rfl⟩
      | inside => cases has
  | _ =>
      rw [at_pc] at has
      cases has

/-- The worklettes are taken off the queue in the order of queueing, each once and by one worker.
Each worker calls those that it has taken and that are not empty, in that order and each once,
but for one that it has taken last and comes to call without waiting for anything. No worker
waits in vain, and once the destructor has joined them all they have stopped and call nothing.
-/
structure PoolState.Orderly (state : PoolState n ι φ) : Prop where
  taken : state.taken.map Prod.snd ++ state.pool.work = state.queued
  started
    : ∀ worker,
        (ofTaker state.taken worker).filter Option.isSome
        = ofTaker state.started worker
          ++ ((state.workers worker).held.toList.filter Option.isSome)
  prompt
    : ∀ worker worklette,
        (state.workers worker).held = some worklette
        → (poolMachine n ι φ).Enabled (.run (.worker worker)) state
  callable : ∀ call ∈ state.started, call.2.isSome
  attentive : state.pool.work ≠ [] → ∀ worker, state.workers worker ≠ .asleep false
  joined : state.destructor = .done → ∀ worker, state.workers worker = .stopped
  quiet
    : state.destructor = .done
      → ∀ schedule final,
          (poolMachine n ι φ).follow schedule state = some final
          → final.taken = state.taken ∧ final.started = state.started

end Ends

/-- In every run of the pool, with any number of workers and any threads that queue worklettes,
every state is orderly.
-/
theorem poolMachine_orderly {n : ℕ} {ι φ : Type*} [DecidableEq ι] {state : PoolState n ι φ}
    (reached : Reached (poolMachine n ι φ) state)
    : state.Orderly := by
  have accounts := accounts_of_reached reached
  have settled := poolSettled_of_reached reached
  have joined (done : state.destructor = .done) (worker : Fin n)
      : state.workers worker = .stopped := by
    refine settled.joined worker ?_
    rw [done]
    exact List.not_mem_nil
  exact
    { taken := accounts.taken
      started := accounts.started
      prompt := fun _ _ has => enabled_of_held has
      callable := fun _ member => accounts.able member
      attentive := fun work => settled.attentive (.inl work)
      joined
      quiet := fun done _ _ run => quiet_of_stopped (joined done) run }

/-- Two workers and a thread that queues worklettes, after some steps. -/
def smallPool (schedule : List (PoolLabel 2 Unit ℕ)) : PoolState 2 Unit ℕ :=
  ((poolMachine 2 Unit ℕ).follow schedule .constructed).getD .constructed

def queueing (worklette : Option ℕ) : List (PoolLabel 2 Unit ℕ) :=
  [.call () worklette, .run (.caller ()), .run (.caller ()), .run (.caller ())]

/-- The first worker takes a worklette, and the second takes the next and calls it. -/
def overtaking : List (PoolLabel 2 Unit ℕ) :=
  queueing (some 0) ++ queueing (some 1)
  ++ List.replicate 3 (.run (.worker 0)) ++ List.replicate 4 (.run (.worker 1))

theorem poolMachine_orderly_overtaking : (smallPool overtaking).Orderly :=
  poolMachine_orderly (.getD_follow rfl)

/-- Workers call outside the lock, so one may come to its call before another that has taken an
earlier worklette: what has been started so far is not always what was queued first.
-/
theorem poolMachine_overtakes
    : Reached (poolMachine 2 Unit ℕ) (smallPool overtaking)
      ∧ (smallPool overtaking).queued = [some 0, some 1]
      ∧ (smallPool overtaking).started = [(1, some 1)]
      ∧ ¬ ∀ state, Reached (poolMachine 2 Unit ℕ) state
          → state.started.map Prod.snd <+: state.queued :=
  have reached : Reached (poolMachine 2 Unit ℕ) (smallPool overtaking) := .getD_follow rfl
  ⟨reached, rfl, rfl, fun always => absurd (always _ reached) (by decide +kernel)⟩

end PplMe.Engine
