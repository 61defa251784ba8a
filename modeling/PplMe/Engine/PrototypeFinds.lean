import PplMe.Engine.PrototypeGrid
import PplMe.Engine.Worklettes
import PplMe.Foundation.Runs

/-! Concurrent finds on one prototype provider, step by step.
Each call of `FindMatchingPpl` searches the user's cell itself, queues a worklette for each
nearby cell, and waits for them for a second at most. The worklettes outlive a call that has
stopped waiting. `ι` names the calls and `ω` the workers.
-/

namespace PplMe.Engine

open PplMe.Core Stepping

/-- What a call shares with its worklettes. -/
structure FindPplOrchestration (ι ω : Type*) where
  /-- The thread that holds `mutex`. -/
  mutex : Option (Thread ι ω)
  /-- Whether `ppl` points to the people of the call. -/
  ppl : Bool
  pendingOps : Int

/-- How a thread fares in `condvar.wait_for`. -/
inductive TimedWait where
  | asleep
  | notified
  /-- The second is over. -/
  | expired
  deriving DecidableEq

/-- Where a call is. The nearby cells still to come are part of its program point. -/
inductive PrototypePc where
  | idle
  /-- About to take the orchestration's mutex, to count one more pending op. -/
  | enterCount (cell : CellLocator) (rest : List CellLocator)
  | count (cell : CellLocator) (rest : List CellLocator)
  | leaveCount (cell : CellLocator) (rest : List CellLocator)
  | queueEnter (cell : CellLocator) (rest : List CellLocator)
  | queuePush (cell : CellLocator) (rest : List CellLocator)
  | queueLeave (rest : List CellLocator)
  /-- About to take the orchestration's mutex for good. -/
  | enterWait
  /-- Holds the mutex and is about to look at the pending ops. -/
  | wait
  /-- In `wait_for`, without the mutex. -/
  | waiting (wait : TimedWait)
  /-- Holds the mutex and is about to clear the pointer. -/
  | clear
  | leaveWait
  | returned (ppl : List Person)

structure PrototypeCall (ι ω : Type*) where
  pc : PrototypePc
  /-- The call's own vector of people, to which the orchestration points. -/
  ppl : List Person
  orchestration : FindPplOrchestration ι ω

structure PrototypeState (ι ω : Type*) where
  pool : NoddyWorkerPool (Thread ι ω) (Worklette ι)
  workers : ω → FindWorkerPc ι
  calls : ι → PrototypeCall ι ω
  /-- Set when the process has ended. -/
  crashed : Option Fault

/-- A prototype provider with its grid, and what each call asks it. -/
structure PrototypeFinds (ι : Type*) where
  settings : PrototypeSettings
  grid : PplGrid
  requests : ι → PplMatchingParameters

namespace PrototypePc

/-- The walk over the nearby cells, if there are any; without them there is nothing to wait
for.
-/
def firstCell (ppl : List Person) : List CellLocator → PrototypePc
  | [] => .returned ppl
  | cell :: rest => .enterCount cell rest

def nextCell : List CellLocator → PrototypePc
  | [] => .enterWait
  | cell :: rest => .enterCount cell rest

/-- `condvar.notify_all`, on the call that may be waiting. -/
def notify : PrototypePc → PrototypePc
  | .waiting .asleep => .waiting .notified
  | pc => pc

end PrototypePc

namespace PrototypeCall

variable {ι ω : Type*} (call : PrototypeCall ι ω)

def goTo (pc : PrototypePc) : PrototypeCall ι ω := { call with pc }

/-- Take the orchestration's mutex if nobody holds it. -/
def lock (self : Thread ι ω) : Option (PrototypeCall ι ω) :=
  match call.orchestration.mutex with
  | none => some { call with orchestration := { call.orchestration with mutex := some self } }
  | some _ => none

def unlock : PrototypeCall ι ω :=
  { call with orchestration := { call.orchestration with mutex := none } }

/-- `++pending_ops`. -/
def countOne : PrototypeCall ι ω :=
  { call with
    orchestration := { call.orchestration with pendingOps := call.orchestration.pendingOps + 1 } }

/-- `--pending_ops`, and `notify_all`. -/
def doneOne : PrototypeCall ι ω :=
  { call with
    pc := call.pc.notify
    orchestration := { call.orchestration with pendingOps := call.orchestration.pendingOps - 1 } }

/-- `ppl = nullptr`. -/
def stopListening : PrototypeCall ι ω :=
  { call with orchestration := { call.orchestration with ppl := false } }

/-- Push people back if the pointer is still there. -/
def append (resultslette : List Person) : PrototypeCall ι ω :=
  if call.orchestration.ppl then { call with ppl := call.ppl ++ resultslette } else call

@[simp] theorem append_orchestration (resultslette : List Person)
    : (call.append resultslette).orchestration = call.orchestration := by
  unfold append
  split <;> rfl

/-- The mutex is taken only when free, and nothing else changes. -/
theorem lock_eq_some_iff {call next : PrototypeCall ι ω} {self : Thread ι ω}
    : call.lock self = some next
      ↔ call.orchestration.mutex = none
        ∧ next
          = { call with orchestration := { call.orchestration with mutex := some self } } := by
  unfold lock
  split <;> simp_all [eq_comm]

end PrototypeCall

namespace PrototypeState

variable {ι ω : Type*} [DecidableEq ι] [DecidableEq ω]

def setCall (state : PrototypeState ι ω) (call : ι) (next : PrototypeCall ι ω)
    : PrototypeState ι ω :=
  { state with calls := Function.update state.calls call next }

def setWorker (state : PrototypeState ι ω) (worker : ω) (pc : FindWorkerPc ι)
    : PrototypeState ι ω :=
  { state with workers := Function.update state.workers worker pc }

def crash (state : PrototypeState ι ω) (fault : Fault) : PrototypeState ι ω :=
  { state with crashed := some fault }

/-- `work_or_die_.notify_all`. -/
def notifyWorkers (state : PrototypeState ι ω) : PrototypeState ι ω :=
  { state with workers := fun worker => (state.workers worker).notify }

end PrototypeState

section Steps

variable {ι ω : Type*} [DecidableEq ι] [DecidableEq ω]

/-- What a call does by itself: it searches the user's cell and lists the nearby cells, for
which there is no result if their walks do not end.
-/
def PrototypeFinds.beginFind (finds : PrototypeFinds ι) (call : ι)
    : Except Fault (Option (List Person × List CellLocator)) := do
  let parameters := finds.requests call
  let origin ← finds.settings.locate parameters.locationOfUser
  let ppl ← finds.settings.searchCell finds.grid parameters origin.cell
  pure ((finds.settings.getNearbyCells origin).map (fun cells => (ppl, cells)))

/-- A step of a call. -/
def PrototypeFinds.findMatchingPplStep (finds : PrototypeFinds ι) (call : ι)
    (state : PrototypeState ι ω)
    : Option (PrototypeState ι ω) :=
  let current := state.calls call
  match current.pc with
  | .idle =>
      match finds.beginFind call with
      | .error fault => some (state.crash fault)
      | .ok none => none
      | .ok (some (ppl, cells)) =>
          some (state.setCall call { current with ppl, pc := .firstCell ppl cells })
  | .enterCount cell rest =>
      (current.lock (.caller call)).map
        (fun current => state.setCall call (current.goTo (.count cell rest)))
  | .count cell rest => some (state.setCall call (current.countOne.goTo (.leaveCount cell rest)))
  | .leaveCount cell rest =>
      some (state.setCall call (current.unlock.goTo (.queueEnter cell rest)))
  | .queueEnter cell rest =>
      (state.pool.lock (.caller call)).map
        (fun pool => { state with pool }.setCall call (current.goTo (.queuePush cell rest)))
  | .queuePush cell rest =>
      some
        ({ state with pool := state.pool.push ⟨call, cell⟩ }.notifyWorkers.setCall call
          (current.goTo (.queueLeave rest)))
  | .queueLeave rest =>
      some
        ({ state with pool := state.pool.unlock }.setCall call (current.goTo (.nextCell rest)))
  | .enterWait | .waiting .notified =>
      (current.lock (.caller call)).map (fun current => state.setCall call (current.goTo .wait))
  | .waiting .expired =>
      (current.lock (.caller call)).map (fun current => state.setCall call (current.goTo .clear))
  | .waiting .asleep => none
  | .wait =>
      if current.orchestration.pendingOps = 0 then
        some (state.setCall call (current.goTo .clear))
      else
        some (state.setCall call (current.unlock.goTo (.waiting .asleep)))
  | .clear => some (state.setCall call (current.stopListening.goTo .leaveWait))
  | .leaveWait => some (state.setCall call (current.unlock.goTo (.returned current.ppl)))
  | .returned _ => none

/-- A step of a worklette on a worker. -/
def PrototypeFinds.findpplWorkletteStep (finds : PrototypeFinds ι) (worker : ω)
    (progress : AsyncFind ι) (state : PrototypeState ι ω)
    : Option (PrototypeState ι ω) :=
  let call := progress.worklette.call
  let current := state.calls call
  let goTo (state : PrototypeState ι ω) (stage : AsyncStage) : PrototypeState ι ω :=
    state.setWorker worker (.running ⟨progress.worklette, stage⟩)
  match progress.stage with
  | .enterCheck =>
      (current.lock (.worker worker)).map (fun current => goTo (state.setCall call current) .check)
  | .check =>
      if current.orchestration.ppl then
        some (goTo state (.leaveCheck false))
      else
        some (goTo (state.setCall call current.doneOne) (.leaveCheck true))
  | .leaveCheck true => some ((state.setCall call current.unlock).setWorker worker .enter)
  | .leaveCheck false => some (goTo (state.setCall call current.unlock) .search)
  | .search =>
      match finds.settings.searchCell finds.grid (finds.requests call) progress.worklette.cell with
      | .error fault => some (state.crash fault)
      | .ok resultslette => some (goTo state (.enterAppend resultslette))
  | .enterAppend resultslette =>
      (current.lock (.worker worker)).map
        (fun current => goTo (state.setCall call current) (.append resultslette))
  | .append resultslette =>
      some (goTo (state.setCall call (current.append resultslette).doneOne) .leaveAppend)
  | .leaveAppend => some ((state.setCall call current.unlock).setWorker worker .enter)

/-- A step of a worker: in a worklette, or in the loop that takes worklettes. -/
def PrototypeFinds.workerStep (finds : PrototypeFinds ι) (worker : ω)
    (state : PrototypeState ι ω)
    : Option (PrototypeState ι ω) :=
  match state.workers worker with
  | .running progress => finds.findpplWorkletteStep worker progress state
  | pc =>
      (state.pool.startWorkingStep (fun worklette => ⟨worklette, .enterCheck⟩) (.worker worker)
          pc).map
        (fun (pool, pc) => { state with pool }.setWorker worker pc)

/-- Who moves, whom the operating system wakes for no reason, or whose second is over. -/
inductive PrototypeLabel (ι ω : Type*) where
  | run (thread : Thread ι ω)
  | spurious (thread : Thread ι ω)
  | expire (call : ι)

/-- A wait may end without a notification. -/
def wakePrototype (state : PrototypeState ι ω) : Thread ι ω → Option (PrototypeState ι ω)
  | .caller call =>
      match (state.calls call).pc with
      | .waiting .asleep =>
          some (state.setCall call ((state.calls call).goTo (.waiting .notified)))
      | _ => none
  | .worker worker =>
      match state.workers worker with
      | .asleep false => some (state.setWorker worker (.asleep true))
      | _ => none

/-- A call's second may be over whenever it is in the wait. -/
def expirePrototype (state : PrototypeState ι ω) (call : ι) : Option (PrototypeState ι ω) :=
  match (state.calls call).pc with
  | .waiting _ => some (state.setCall call ((state.calls call).goTo (.waiting .expired)))
  | _ => none

/-- One step of the process; there is none after a crash. -/
def PrototypeFinds.step (finds : PrototypeFinds ι) (label : PrototypeLabel ι ω)
    (state : PrototypeState ι ω)
    : Option (PrototypeState ι ω) :=
  match state.crashed with
  | some _ => none
  | none =>
      match label with
      | .run (.caller call) => finds.findMatchingPplStep call state
      | .run (.worker worker) => finds.workerStep worker state
      | .spurious thread => wakePrototype state thread
      | .expire call => expirePrototype state call

/-- No call has begun, and every worker is at the top of its loop. -/
def PrototypeState.start : PrototypeState ι ω where
  pool := ⟨none, [], false⟩
  workers := fun _ => .enter
  calls := fun _ => ⟨.idle, [], ⟨none, true, 0⟩⟩
  crashed := none

/-- The process: any calls, any workers, any order of steps. -/
def PrototypeFinds.machine (finds : PrototypeFinds ι) (ω : Type*) [DecidableEq ω]
    : Machine (PrototypeState ι ω) (PrototypeLabel ι ω) where
  start := .start
  step := finds.step

end Steps

end PplMe.Engine
