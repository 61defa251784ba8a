import PplMe.Engine.PrototypeFinds

/-! Everything the process around a prototype provider can do in one step, said once. -/

namespace PplMe.Engine

open PplMe.Core Stepping

section Updates

namespace PrototypeState

variable {ι ω : Type*} (state : PrototypeState ι ω)

section Calls

variable [DecidableEq ι]

@[simp] theorem setCall_pool (call : ι) (next : PrototypeCall ι ω)
    : (state.setCall call next).pool = state.pool := rfl
@[simp] theorem setCall_workers (call : ι) (next : PrototypeCall ι ω)
    : (state.setCall call next).workers = state.workers := rfl
@[simp] theorem setCall_calls (call : ι) (next : PrototypeCall ι ω)
    : (state.setCall call next).calls = Function.update state.calls call next := rfl

end Calls

section Workers

variable [DecidableEq ω]

@[simp] theorem setWorker_pool (worker : ω) (pc : FindWorkerPc ι)
    : (state.setWorker worker pc).pool = state.pool := rfl
@[simp] theorem setWorker_workers (worker : ω) (pc : FindWorkerPc ι)
    : (state.setWorker worker pc).workers = Function.update state.workers worker pc := rfl
@[simp] theorem setWorker_calls (worker : ω) (pc : FindWorkerPc ι)
    : (state.setWorker worker pc).calls = state.calls := rfl

end Workers

@[simp] theorem notifyWorkers_pool : state.notifyWorkers.pool = state.pool := rfl
@[simp] theorem notifyWorkers_workers (worker : ω)
    : state.notifyWorkers.workers worker = (state.workers worker).notify := rfl
@[simp] theorem notifyWorkers_calls : state.notifyWorkers.calls = state.calls := rfl

/-- A worklette at a stage, seen from the worker that runs it. -/
def AtStage (worker : ω) (worklette : Worklette ι) (stage : AsyncStage) : Prop :=
  state.workers worker = .running ⟨worklette, stage⟩

end PrototypeState

end Updates

section Moves

variable {ι ω : Type*} [DecidableEq ι]

/-- Where taking the orchestration's mutex leads a call. -/
inductive PrototypePc.Enters : PrototypePc → PrototypePc → Prop
  | count {cell rest} : Enters (.enterCount cell rest) (.count cell rest)
  | wait : Enters .enterWait .wait
  | woken : Enters (.waiting .notified) .wait
  | expired : Enters (.waiting .expired) .clear

/-- The moves of a call that do not end the process. -/
inductive PrototypeCallMove (finds : PrototypeFinds ι) (call : ι) (state : PrototypeState ι ω)
    : PrototypeState ι ω → Prop
  | start {ppl cells} (at_pc : (state.calls call).pc = .idle)
    (begun : finds.beginFind call = .ok (some (ppl, cells)))
    : PrototypeCallMove finds call state
        (state.setCall call { state.calls call with ppl, pc := .firstCell ppl cells })
  | lock {pc locked} (entering : (state.calls call).pc.Enters pc)
    (free : (state.calls call).lock (.caller call) = some locked)
    : PrototypeCallMove finds call state (state.setCall call (locked.goTo pc))
  | count {cell rest} (at_pc : (state.calls call).pc = .count cell rest)
    : PrototypeCallMove finds call state
        (state.setCall call ((state.calls call).countOne.goTo (.leaveCount cell rest)))
  | leaveCount {cell rest} (at_pc : (state.calls call).pc = .leaveCount cell rest)
    : PrototypeCallMove finds call state
        (state.setCall call ((state.calls call).unlock.goTo (.queueEnter cell rest)))
  | queueEnter {cell rest} (at_pc : (state.calls call).pc = .queueEnter cell rest)
    (free : state.pool.workMutex = none)
    : PrototypeCallMove finds call state
        ({ state with pool := { state.pool with workMutex := some (.caller call) } }.setCall call
          ((state.calls call).goTo (.queuePush cell rest)))
  | queuePush {cell rest} (at_pc : (state.calls call).pc = .queuePush cell rest)
    : PrototypeCallMove finds call state
        ({ state with pool := state.pool.push ⟨call, cell⟩ }.notifyWorkers.setCall call
          ((state.calls call).goTo (.queueLeave rest)))
  | queueLeave {rest} (at_pc : (state.calls call).pc = .queueLeave rest)
    : PrototypeCallMove finds call state
        ({ state with pool := state.pool.unlock }.setCall call
          ((state.calls call).goTo (.nextCell rest)))
  | drained (at_pc : (state.calls call).pc = .wait)
    (none : (state.calls call).orchestration.pendingOps = 0)
    : PrototypeCallMove finds call state (state.setCall call ((state.calls call).goTo .clear))
  | sleep (at_pc : (state.calls call).pc = .wait)
    : PrototypeCallMove finds call state
        (state.setCall call ((state.calls call).unlock.goTo (.waiting .asleep)))
  | clear (at_pc : (state.calls call).pc = .clear)
    : PrototypeCallMove finds call state
        (state.setCall call ((state.calls call).stopListening.goTo .leaveWait))
  | leaveWait (at_pc : (state.calls call).pc = .leaveWait)
    : PrototypeCallMove finds call state
        (state.setCall call
          ((state.calls call).unlock.goTo (.returned (state.calls call).ppl)))

variable [DecidableEq ω]

/-- The moves of a worker that do not end the process. -/
inductive PrototypeWorkerMove (finds : PrototypeFinds ι) (worker : ω)
    (state : PrototypeState ι ω)
    : PrototypeState ι ω → Prop
  | loop {pool pc}
    (looped
      : StartWorking (fun worklette => (⟨worklette, .enterCheck⟩ : AsyncFind ι))
          (Thread.worker worker) state.pool (state.workers worker) pool pc)
    : PrototypeWorkerMove finds worker state ({ state with pool }.setWorker worker pc)
  | lock {worklette stage next locked} (at_pc : state.AtStage worker worklette stage)
    (entering
      : stage = .enterCheck ∧ next = .check
        ∨ ∃ resultslette, stage = .enterAppend resultslette ∧ next = .append resultslette)
    (free : (state.calls worklette.call).lock (.worker worker) = some locked)
    : PrototypeWorkerMove finds worker state
        ((state.setCall worklette.call locked).setWorker worker (.running ⟨worklette, next⟩))
  | goOn {worklette} (at_pc : state.AtStage worker worklette .check)
    (listening : (state.calls worklette.call).orchestration.ppl = true)
    : PrototypeWorkerMove finds worker state
        (state.setWorker worker (.running ⟨worklette, .leaveCheck false⟩))
  | giveUp {worklette} (at_pc : state.AtStage worker worklette .check)
    (deaf : (state.calls worklette.call).orchestration.ppl = false)
    : PrototypeWorkerMove finds worker state
        ((state.setCall worklette.call (state.calls worklette.call).doneOne).setWorker worker
          (.running ⟨worklette, .leaveCheck true⟩))
  | unlockSearch {worklette} (at_pc : state.AtStage worker worklette (.leaveCheck false))
    : PrototypeWorkerMove finds worker state
        ((state.setCall worklette.call (state.calls worklette.call).unlock).setWorker worker
          (.running ⟨worklette, .search⟩))
  | search {worklette resultslette} (at_pc : state.AtStage worker worklette .search)
    (found
      : finds.settings.searchCell finds.grid (finds.requests worklette.call) worklette.cell
        = .ok resultslette)
    : PrototypeWorkerMove finds worker state
        (state.setWorker worker (.running ⟨worklette, .enterAppend resultslette⟩))
  | append {worklette resultslette} (at_pc : state.AtStage worker worklette (.append resultslette))
    : PrototypeWorkerMove finds worker state
        ((state.setCall worklette.call
            ((state.calls worklette.call).append resultslette).doneOne).setWorker worker
          (.running ⟨worklette, .leaveAppend⟩))
  | unlockEnd {worklette stage} (at_pc : state.AtStage worker worklette stage)
    (ending : stage = .leaveCheck true ∨ stage = .leaveAppend)
    : PrototypeWorkerMove finds worker state
        ((state.setCall worklette.call (state.calls worklette.call).unlock).setWorker worker
          .enter)

/-- Everything the process can do in one step, by who does it. -/
inductive PrototypeMove (finds : PrototypeFinds ι) (state : PrototypeState ι ω)
    : PrototypeLabel ι ω → PrototypeState ι ω → Prop
  | call {call after} (moved : PrototypeCallMove finds call state after)
    : PrototypeMove finds state (.run (.caller call)) after
  | worker {worker after} (moved : PrototypeWorkerMove finds worker state after)
    : PrototypeMove finds state (.run (.worker worker)) after
  | crash {thread fault} : PrototypeMove finds state (.run thread) (state.crash fault)
  | wakeCall {call} (at_pc : (state.calls call).pc = .waiting .asleep)
    : PrototypeMove finds state (.spurious (.caller call))
        (state.setCall call ((state.calls call).goTo (.waiting .notified)))
  | wakeWorker {worker} (at_pc : state.workers worker = .asleep false)
    : PrototypeMove finds state (.spurious (.worker worker))
        (state.setWorker worker (state.workers worker).notify)
  | expire {call wait} (at_pc : (state.calls call).pc = .waiting wait)
    : PrototypeMove finds state (.expire call)
        (state.setCall call ((state.calls call).goTo (.waiting .expired)))

variable {finds : PrototypeFinds ι} {state after : PrototypeState ι ω}

omit [DecidableEq ω] in
theorem prototypeCall_move_of_step {call : ι}
    (h : finds.findMatchingPplStep call state = some after)
    : PrototypeCallMove finds call state after ∨ ∃ fault, after = state.crash fault := by
  unfold PrototypeFinds.findMatchingPplStep at h
  dsimp only at h
  split at h
  · rename_i at_pc
    split at h <;> cases h
    · exact Or.inr ⟨_, rfl⟩
    · exact Or.inl (.start at_pc ‹_›)
  · rename_i at_pc
    obtain ⟨_, locked, rfl⟩ := Option.map_eq_some_iff.mp h
    exact Or.inl (.lock (at_pc ▸ .count) locked)
  · cases h
    exact Or.inl (.count ‹_›)
  · cases h
    exact Or.inl (.leaveCount ‹_›)
  · rename_i at_pc
    obtain ⟨_, locked, rfl⟩ := Option.map_eq_some_iff.mp h
    obtain ⟨free, rfl⟩ := NoddyWorkerPool.lock_eq_some_iff.mp locked
    exact Or.inl (.queueEnter at_pc free)
  · cases h
    exact Or.inl (.queuePush ‹_›)
  · cases h
    exact Or.inl (.queueLeave ‹_›)
  · rename_i at_pc
    obtain ⟨_, locked, rfl⟩ := Option.map_eq_some_iff.mp h
    exact Or.inl (.lock (at_pc ▸ .wait) locked)
  · rename_i at_pc
    obtain ⟨_, locked, rfl⟩ := Option.map_eq_some_iff.mp h
    exact Or.inl (.lock (at_pc ▸ .woken) locked)
  · rename_i at_pc
    obtain ⟨_, locked, rfl⟩ := Option.map_eq_some_iff.mp h
    exact Or.inl (.lock (at_pc ▸ .expired) locked)
  · cases h
  · rename_i at_pc
    split at h <;> cases h
    · exact Or.inl (.drained at_pc ‹_›)
    · exact Or.inl (.sleep at_pc)
  · cases h
    exact Or.inl (.clear ‹_›)
  · cases h
    exact Or.inl (.leaveWait ‹_›)
  · cases h

theorem findpplWorklette_move_of_step {worker : ω} {progress : AsyncFind ι}
    (at_pc : state.workers worker = .running progress)
    (h : finds.findpplWorkletteStep worker progress state = some after)
    : PrototypeWorkerMove finds worker state after ∨ ∃ fault, after = state.crash fault := by
  obtain ⟨worklette, stage⟩ := progress
  have here : state.AtStage worker worklette stage := at_pc
  cases stage with
  | enterCheck =>
      obtain ⟨_, locked, rfl⟩ := Option.map_eq_some_iff.mp h
      exact Or.inl (.lock here (Or.inl ⟨rfl, rfl⟩) locked)
  | check =>
      simp only [PrototypeFinds.findpplWorkletteStep] at h
      split at h <;> cases h
      · exact Or.inl (.goOn here ‹_›)
      · rename_i deaf
        exact Or.inl (.giveUp here (by simpa using deaf))
  | leaveCheck done =>
      cases done <;> cases h
      · exact Or.inl (.unlockSearch here)
      · exact Or.inl (.unlockEnd here (Or.inl rfl))
  | search =>
      simp only [PrototypeFinds.findpplWorkletteStep] at h
      split at h <;> cases h
      · exact Or.inr ⟨_, rfl⟩
      · exact Or.inl (.search here ‹_›)
  | enterAppend resultslette =>
      obtain ⟨_, locked, rfl⟩ := Option.map_eq_some_iff.mp h
      exact Or.inl (.lock here (Or.inr ⟨resultslette, rfl, rfl⟩) locked)
  | append resultslette =>
      cases h
      exact Or.inl (.append here)
  | leaveAppend =>
      cases h
      exact Or.inl (.unlockEnd here (Or.inr rfl))

/-- A step is a move. -/
theorem prototype_move_of_step {label : PrototypeLabel ι ω}
    (h : finds.step label state = some after)
    : PrototypeMove finds state label after := by
  unfold PrototypeFinds.step at h
  split at h
  · cases h
  · split at h
    · rcases prototypeCall_move_of_step h with moved | ⟨_, rfl⟩
      · exact .call moved
      · exact .crash
    · unfold PrototypeFinds.workerStep at h
      split at h
      · rcases findpplWorklette_move_of_step ‹_› h with moved | ⟨_, rfl⟩
        · exact .worker moved
        · exact .crash
      · obtain ⟨⟨pool, pc⟩, looped, rfl⟩ := Option.map_eq_some_iff.mp h
        exact .worker (.loop (startWorking_of_step looped))
    · unfold wakePrototype at h
      split at h
      · split at h <;> cases h
        exact .wakeCall ‹_›
      · split at h <;> cases h
        rename_i asleep
        have woken : PrototypeMove finds state _ _ := .wakeWorker asleep
        rwa [asleep] at woken
    · unfold expirePrototype at h
      split at h <;> cases h
      exact .expire ‹_›

end Moves

end PplMe.Engine
