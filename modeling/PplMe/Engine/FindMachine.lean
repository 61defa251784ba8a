import PplMe.Engine.PplmeCells
import PplMe.Engine.Sqiral
import PplMe.Engine.Worklettes
import PplMe.Foundation.Runs
import Mathlib.Data.Finset.Card

/-! Concurrent finds on one provider, step by step.
Each call of `FindMatchingPpl` runs on its own thread and shares a context with the pool's
workers; `ι` names the calls and `ω` the workers. Taking a mutex, the body of a critical
section and releasing the mutex are separate steps of the thread that makes them.
-/

namespace PplMe.Engine

open PplMe.Core Stepping

structure FindContext (ι ω : Type*) where
  ppl : List Person
  pendingCells : Finset CellLocator
  /-- The thread that holds `mutex`. -/
  mutex : Option (Thread ι ω)
  weDoneHere : Bool

namespace FindContext

variable {ι ω : Type*}

def fresh : FindContext ι ω := ⟨[], ∅, none, false⟩

def lock (context : FindContext ι ω) (self : Thread ι ω) : Option (FindContext ι ω) :=
  match context.mutex with
  | none => some { context with mutex := some self }
  | some _ => none

def unlock (context : FindContext ι ω) : FindContext ι ω := { context with mutex := none }

@[simp] theorem unlock_ppl (context : FindContext ι ω) : context.unlock.ppl = context.ppl := rfl
@[simp] theorem unlock_pendingCells (context : FindContext ι ω)
    : context.unlock.pendingCells = context.pendingCells := rfl
@[simp] theorem unlock_mutex (context : FindContext ι ω) : context.unlock.mutex = none := rfl
@[simp] theorem unlock_weDoneHere (context : FindContext ι ω)
    : context.unlock.weDoneHere = context.weDoneHere := rfl

/-- The mutex is taken only when free, and nothing else changes. -/
theorem lock_eq_some_iff {context next : FindContext ι ω} {self : Thread ι ω}
    : context.lock self = some next
      ↔ context.mutex = none ∧ next = { context with mutex := some self } := by
  unfold lock
  split <;> simp_all [eq_comm]

end FindContext

-----------------------------------------------------------------------------------------
-- Program points
-----------------------------------------------------------------------------------------

/-- The waits on a context's condition variable: for room to search a cell, for pending
cells to finish once there are enough people, and for them to finish at the end.
-/
inductive WaitSite where
  | room (cell : CellLocator) (rest : List CellLocator)
  | stop
  | final

/-- Where a call is. The cells still to come of the walk are part of its program point. -/
inductive CallerPc where
  | idle
  /-- About to take the context's mutex, then wait at the site. -/
  | enter (site : WaitSite)
  /-- Holds the mutex and evaluates the site's predicate. -/
  | wait (site : WaitSite)
  /-- In `condvar.wait`, without the mutex. -/
  | asleep (notified : Bool) (site : WaitSite)
  /-- In `QueueWorklette`, holding the context's mutex all along. -/
  | queueEnter (cell : CellLocator) (rest : List CellLocator)
  | queuePush (cell : CellLocator) (rest : List CellLocator)
  | queueLeave (rest : List CellLocator)
  /-- About to return from `TryFindPpl`, releasing the mutex. -/
  | tryLeave (rest : List CellLocator)
  /-- About to return from `FindMatchingPpl`, releasing the mutex. -/
  | finalLeave (ppl : List Person)
  | returned (ppl : List Person)

/-- A notification reaches a caller that is in the wait. -/
def CallerPc.notify : CallerPc → CallerPc
  | .asleep _ site => .asleep true site
  | pc => pc

/-- The walk goes on with the next cell, or is over. -/
def CallerPc.nextCell : List CellLocator → CallerPc
  | [] => .enter .final
  | cell :: rest => .enter (.room cell rest)

structure FindState (ι ω : Type*) where
  pool : NoddyWorkerPool (Thread ι ω) (Worklette ι)
  workers : ω → FindWorkerPc ι
  contexts : ι → FindContext ι ω
  callers : ι → CallerPc
  /-- Set when the process has ended. -/
  crashed : Option Fault

/-- A provider with its grid, and what each call asks it. -/
structure Finds (ι : Type*) where
  settings : Settings
  grid : PplGrid
  requests : ι → PplMatchingParameters

-----------------------------------------------------------------------------------------
-- Updates
-----------------------------------------------------------------------------------------

namespace FindState

variable {ι ω : Type*} [DecidableEq ι] [DecidableEq ω]

def setCaller (state : FindState ι ω) (call : ι) (pc : CallerPc) : FindState ι ω :=
  { state with callers := Function.update state.callers call pc }

def setContext (state : FindState ι ω) (call : ι) (context : FindContext ι ω)
    : FindState ι ω :=
  { state with contexts := Function.update state.contexts call context }

def setWorker (state : FindState ι ω) (worker : ω) (pc : FindWorkerPc ι) : FindState ι ω :=
  { state with workers := Function.update state.workers worker pc }

def crash (state : FindState ι ω) (fault : Fault) : FindState ι ω :=
  { state with crashed := some fault }

/-- `condvar.notify_all` on a context: only its own caller ever waits there. -/
def notifyCaller (state : FindState ι ω) (call : ι) : FindState ι ω :=
  state.setCaller call (state.callers call).notify

/-- `work_or_die_.notify_all`. -/
def notifyWorkers (state : FindState ι ω) : FindState ι ω :=
  { state with workers := fun worker => (state.workers worker).notify }

end FindState

section Steps

variable {ι ω : Type*} [DecidableEq ι] [DecidableEq ω] (finds : Finds ι)

/-- The predicate a caller waits for. -/
def Finds.ready (finds : Finds ι) (context : FindContext ι ω) : WaitSite → Bool
  | .room _ _ =>
      context.weDoneHere
      || decide (finds.settings.maxPpl ≤ context.ppl.length)
      || decide (context.pendingCells.card < finds.settings.perFindConcurrency)
  | .stop => decide (context.pendingCells = ∅)
  | .final => decide (context.pendingCells = ∅)

/-- What a caller does with the mutex once its wait is over. -/
def Finds.proceed (finds : Finds ι) (call : ι) (state : FindState ι ω)
    : WaitSite → FindState ι ω
  | .room cell rest =>
      let context := state.contexts call
      if finds.settings.maxPpl ≤ context.ppl.length then
        (state.setContext call { context with weDoneHere := true }).setCaller call (.wait .stop)
      else if context.weDoneHere = false then
        if cell ∈ context.pendingCells then
          state.crash .pendingInsertCheck
        else
          (state.setContext call
              { context with pendingCells := insert cell context.pendingCells }).setCaller call
            (.queueEnter cell rest)
      else
        state.setCaller call (.tryLeave rest)
  | .stop => state.setCaller call (.tryLeave [])
  | .final =>
      let ppl := (state.contexts call).ppl
      let truncated :=
        if finds.settings.maxPpl < ppl.length then ppl.take finds.settings.maxPpl else ppl
      (state.setContext call { state.contexts call with ppl := truncated }).setCaller call
        (.finalLeave truncated)

/-- A step of a call: `FindMatchingPpl` with the `TryFindPpl` of each cell of its walk. -/
def Finds.findMatchingPplStep (finds : Finds ι) (call : ι) (state : FindState ι ω)
    : Option (FindState ι ω) :=
  let context := state.contexts call
  match state.callers call with
  | .idle =>
      match finds.settings.toCellLocator (finds.requests call).locationOfUser with
      | .error fault => some (state.crash fault)
      | .ok origin =>
          some (state.setCaller call (.nextCell (sqiralCells finds.settings.resolution origin)))
  | .enter site =>
      (context.lock (.caller call)).map
        (fun context => (state.setContext call context).setCaller call (.wait site))
  | .asleep true site =>
      (context.lock (.caller call)).map
        (fun context => (state.setContext call context).setCaller call (.wait site))
  | .asleep false _ => none
  | .wait site =>
      if finds.ready context site then
        some (finds.proceed call state site)
      else
        some ((state.setContext call context.unlock).setCaller call (.asleep false site))
  | .queueEnter cell rest =>
      (state.pool.lock (.caller call)).map
        (fun pool => { state with pool }.setCaller call (.queuePush cell rest))
  | .queuePush cell rest =>
      some
        ({ state with pool := state.pool.push ⟨call, cell⟩ }.notifyWorkers.setCaller call
          (.queueLeave rest))
  | .queueLeave rest =>
      some ({ state with pool := state.pool.unlock }.setCaller call (.tryLeave rest))
  | .tryLeave rest =>
      -- `TryFindPpl` returned `weDoneHere`: true ends the walk, whatever is left of it
      some
        ((state.setContext call context.unlock).setCaller call
          (if context.weDoneHere then .enter .final else .nextCell rest))
  | .finalLeave ppl =>
      some ((state.setContext call context.unlock).setCaller call (.returned ppl))
  | .returned _ => none

/-- A step of a worklette on a worker. -/
def Finds.tryFindPplAsyncStep (finds : Finds ι) (worker : ω) (progress : AsyncFind ι)
    (state : FindState ι ω)
    : Option (FindState ι ω) :=
  let call := progress.worklette.call
  let cell := progress.worklette.cell
  let context := state.contexts call
  let goTo (state : FindState ι ω) (stage : AsyncStage) : FindState ι ω :=
    state.setWorker worker (.running ⟨progress.worklette, stage⟩)
  let erased : FindContext ι ω :=
    { context with pendingCells := context.pendingCells.erase cell }
  match progress.stage with
  | .enterCheck =>
      (context.lock (.worker worker)).map
        (fun context => goTo (state.setContext call context) .check)
  | .check =>
      if context.weDoneHere then
        if cell ∈ context.pendingCells then
          some (goTo ((state.setContext call erased).notifyCaller call) (.leaveCheck true))
        else
          some (state.crash .pendingEraseCheck)
      else
        some (goTo state (.leaveCheck false))
  | .leaveCheck true => some ((state.setContext call context.unlock).setWorker worker .enter)
  | .leaveCheck false => some (goTo (state.setContext call context.unlock) .search)
  | .search =>
      match finds.settings.searchCell finds.grid (finds.requests call) cell with
      | .error fault => some (state.crash fault)
      | .ok myPpl => some (goTo state (.enterAppend myPpl))
  | .enterAppend myPpl =>
      (context.lock (.worker worker)).map
        (fun context => goTo (state.setContext call context) (.append myPpl))
  | .append myPpl =>
      if cell ∈ context.pendingCells then
        some
          (goTo
            ((state.setContext call { erased with ppl := context.ppl ++ myPpl }).notifyCaller call)
            .leaveAppend)
      else
        some (state.crash .pendingEraseCheck)
  | .leaveAppend => some ((state.setContext call context.unlock).setWorker worker .enter)

/-- A step of a worker: in a worklette, or in the loop that takes worklettes. -/
def Finds.workerStep (finds : Finds ι) (worker : ω) (state : FindState ι ω)
    : Option (FindState ι ω) :=
  match state.workers worker with
  | .running progress => finds.tryFindPplAsyncStep worker progress state
  | pc =>
      (state.pool.startWorkingStep (fun worklette => ⟨worklette, .enterCheck⟩) (.worker worker)
          pc).map
        (fun (pool, pc) => { state with pool }.setWorker worker pc)

/-- Who moves, or whom the operating system wakes for no reason. -/
inductive FindLabel (ι ω : Type*) where
  | run (thread : Thread ι ω)
  | spurious (thread : Thread ι ω)

/-- A wait may end without a notification. -/
def wakeSpuriously (state : FindState ι ω) : Thread ι ω → Option (FindState ι ω)
  | .caller call =>
      match state.callers call with
      | .asleep false site => some (state.setCaller call (.asleep true site))
      | _ => none
  | .worker worker =>
      match state.workers worker with
      | .asleep false => some (state.setWorker worker (.asleep true))
      | _ => none

/-- One step of the process; there is none after a crash. -/
def Finds.step (finds : Finds ι) (label : FindLabel ι ω) (state : FindState ι ω)
    : Option (FindState ι ω) :=
  match state.crashed with
  | some _ => none
  | none =>
      match label with
      | .run (.caller call) => finds.findMatchingPplStep call state
      | .run (.worker worker) => finds.workerStep worker state
      | .spurious thread => wakeSpuriously state thread

/-- No call has begun, and every worker is at the top of its loop. -/
def FindState.start : FindState ι ω where
  pool := ⟨none, [], false⟩
  workers := fun _ => .enter
  contexts := fun _ => .fresh
  callers := fun _ => .idle
  crashed := none

/-- The process: any calls, any workers, any order of steps. -/
def Finds.machine (finds : Finds ι) (ω : Type*) [DecidableEq ω]
    : Machine (FindState ι ω) (FindLabel ι ω) where
  start := .start
  step := finds.step

end Steps

end PplMe.Engine
