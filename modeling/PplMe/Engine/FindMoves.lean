import PplMe.Engine.FindMachine

/-! Everything the process can do in one step, said once.
The step function is inverted into named moves that carry their guards, so that no invariant
unfolds it again.
-/

namespace PplMe.Engine

open PplMe.Core Stepping

section Updates

namespace FindState

variable {ι ω : Type*} (state : FindState ι ω)

section Calls

variable [DecidableEq ι]

@[simp] theorem setCaller_pool (call : ι) (pc : CallerPc)
    : (state.setCaller call pc).pool = state.pool := rfl
@[simp] theorem setCaller_workers (call : ι) (pc : CallerPc)
    : (state.setCaller call pc).workers = state.workers := rfl
@[simp] theorem setCaller_contexts (call : ι) (pc : CallerPc)
    : (state.setCaller call pc).contexts = state.contexts := rfl
@[simp] theorem setCaller_callers (call : ι) (pc : CallerPc)
    : (state.setCaller call pc).callers = Function.update state.callers call pc := rfl
@[simp] theorem setCaller_crashed (call : ι) (pc : CallerPc)
    : (state.setCaller call pc).crashed = state.crashed := rfl

@[simp] theorem setContext_pool (call : ι) (context : FindContext ι ω)
    : (state.setContext call context).pool = state.pool := rfl
@[simp] theorem setContext_workers (call : ι) (context : FindContext ι ω)
    : (state.setContext call context).workers = state.workers := rfl
@[simp] theorem setContext_contexts (call : ι) (context : FindContext ι ω)
    : (state.setContext call context).contexts = Function.update state.contexts call context :=
  rfl
@[simp] theorem setContext_callers (call : ι) (context : FindContext ι ω)
    : (state.setContext call context).callers = state.callers := rfl
@[simp] theorem setContext_crashed (call : ι) (context : FindContext ι ω)
    : (state.setContext call context).crashed = state.crashed := rfl

@[simp] theorem notifyCaller_pool (call : ι) : (state.notifyCaller call).pool = state.pool := rfl
@[simp] theorem notifyCaller_workers (call : ι)
    : (state.notifyCaller call).workers = state.workers := rfl
@[simp] theorem notifyCaller_contexts (call : ι)
    : (state.notifyCaller call).contexts = state.contexts := rfl
@[simp] theorem notifyCaller_callers (call : ι)
    : (state.notifyCaller call).callers
      = Function.update state.callers call (state.callers call).notify := rfl
@[simp] theorem notifyCaller_crashed (call : ι)
    : (state.notifyCaller call).crashed = state.crashed := rfl

end Calls

section Workers

variable [DecidableEq ω]

@[simp] theorem setWorker_pool (worker : ω) (pc : FindWorkerPc ι)
    : (state.setWorker worker pc).pool = state.pool := rfl
@[simp] theorem setWorker_workers (worker : ω) (pc : FindWorkerPc ι)
    : (state.setWorker worker pc).workers = Function.update state.workers worker pc := rfl
@[simp] theorem setWorker_contexts (worker : ω) (pc : FindWorkerPc ι)
    : (state.setWorker worker pc).contexts = state.contexts := rfl
@[simp] theorem setWorker_callers (worker : ω) (pc : FindWorkerPc ι)
    : (state.setWorker worker pc).callers = state.callers := rfl
@[simp] theorem setWorker_crashed (worker : ω) (pc : FindWorkerPc ι)
    : (state.setWorker worker pc).crashed = state.crashed := rfl

end Workers

@[simp] theorem notifyWorkers_pool : state.notifyWorkers.pool = state.pool := rfl
@[simp] theorem notifyWorkers_workers (worker : ω)
    : state.notifyWorkers.workers worker = (state.workers worker).notify := rfl
@[simp] theorem notifyWorkers_contexts : state.notifyWorkers.contexts = state.contexts := rfl
@[simp] theorem notifyWorkers_callers : state.notifyWorkers.callers = state.callers := rfl
@[simp] theorem notifyWorkers_crashed : state.notifyWorkers.crashed = state.crashed := rfl

@[simp] theorem crash_pool (fault : Fault) : (state.crash fault).pool = state.pool := rfl
@[simp] theorem crash_workers (fault : Fault) : (state.crash fault).workers = state.workers := rfl
@[simp] theorem crash_contexts (fault : Fault)
    : (state.crash fault).contexts = state.contexts := rfl
@[simp] theorem crash_callers (fault : Fault) : (state.crash fault).callers = state.callers := rfl
@[simp] theorem crash_crashed (fault : Fault)
    : (state.crash fault).crashed = some fault := rfl

end FindState

end Updates

section Moves

variable {ι ω : Type*}

/-- What a call keeps of the people it found. -/
def Finds.truncate (finds : Finds ι) (ppl : List Person) : List Person :=
  if finds.settings.maxPpl < ppl.length then ppl.take finds.settings.maxPpl else ppl

/-- Truncating is taking at most the maximum. -/
theorem Finds.truncate_eq (finds : Finds ι) (ppl : List Person)
    : finds.truncate ppl = ppl.take finds.settings.maxPpl := by
  unfold truncate
  split
  · rfl
  · rw [List.take_of_length_le (by omega)]

variable [DecidableEq ι]

/-- The moves of a call that do not end the process. -/
inductive CallerMove (finds : Finds ι) (call : ι) (state : FindState ι ω)
    : FindState ι ω → Prop
  | start {origin} (at_pc : state.callers call = .idle)
    (located : finds.settings.toCellLocator (finds.requests call).locationOfUser = .ok origin)
    : CallerMove finds call state
        (state.setCaller call (.nextCell (sqiralCells finds.settings.resolution origin)))
  | lock {site} (at_pc : state.callers call = .enter site ∨ state.callers call = .asleep true site)
    (free : (state.contexts call).mutex = none)
    : CallerMove finds call state
        ((state.setContext call { state.contexts call with mutex := some (.caller call) }).setCaller
          call (.wait site))
  | sleep {site} (at_pc : state.callers call = .wait site)
    (unready : finds.ready (state.contexts call) site = false)
    : CallerMove finds call state
        ((state.setContext call (state.contexts call).unlock).setCaller call (.asleep false site))
  | stop {cell rest} (at_pc : state.callers call = .wait (.room cell rest))
    (full : finds.settings.maxPpl ≤ (state.contexts call).ppl.length)
    : CallerMove finds call state
        ((state.setContext call { state.contexts call with weDoneHere := true }).setCaller call
          (.wait .stop))
  | insert {cell rest} (at_pc : state.callers call = .wait (.room cell rest))
    (notFull : (state.contexts call).ppl.length < finds.settings.maxPpl)
    (going : (state.contexts call).weDoneHere = false)
    (room : (state.contexts call).pendingCells.card < finds.settings.perFindConcurrency)
    (new : cell ∉ (state.contexts call).pendingCells)
    : CallerMove finds call state
        ((state.setContext call
            { state.contexts call with
              pendingCells := insert cell (state.contexts call).pendingCells }).setCaller call
          (.queueEnter cell rest))
  | skip {cell rest} (at_pc : state.callers call = .wait (.room cell rest))
    (done : (state.contexts call).weDoneHere = true)
    : CallerMove finds call state (state.setCaller call (.tryLeave rest))
  | stopped (at_pc : state.callers call = .wait .stop)
    (drained : (state.contexts call).pendingCells = ∅)
    : CallerMove finds call state (state.setCaller call (.tryLeave []))
  | finish (at_pc : state.callers call = .wait .final)
    (drained : (state.contexts call).pendingCells = ∅)
    : CallerMove finds call state
        ((state.setContext call
            { state.contexts call with
              ppl := finds.truncate (state.contexts call).ppl }).setCaller call
          (.finalLeave (finds.truncate (state.contexts call).ppl)))
  | queueEnter {cell rest} (at_pc : state.callers call = .queueEnter cell rest)
    (free : state.pool.workMutex = none)
    : CallerMove finds call state
        ({ state with pool := { state.pool with workMutex := some (.caller call) } }.setCaller
          call (.queuePush cell rest))
  | queuePush {cell rest} (at_pc : state.callers call = .queuePush cell rest)
    : CallerMove finds call state
        ({ state with pool := state.pool.push ⟨call, cell⟩ }.notifyWorkers.setCaller call
          (.queueLeave rest))
  | queueLeave {rest} (at_pc : state.callers call = .queueLeave rest)
    : CallerMove finds call state
        ({ state with pool := state.pool.unlock }.setCaller call (.tryLeave rest))
  | tryLeave {rest} (at_pc : state.callers call = .tryLeave rest)
    : CallerMove finds call state
        ((state.setContext call (state.contexts call).unlock).setCaller call
          (if (state.contexts call).weDoneHere then .enter .final else .nextCell rest))
  | finalLeave {ppl} (at_pc : state.callers call = .finalLeave ppl)
    : CallerMove finds call state
        ((state.setContext call (state.contexts call).unlock).setCaller call (.returned ppl))

/-- The ways a call ends the process. -/
inductive CallerCrash (finds : Finds ι) (call : ι) (state : FindState ι ω) : Fault → Prop
  | unlocated {fault} (at_pc : state.callers call = .idle)
    (failed : finds.settings.toCellLocator (finds.requests call).locationOfUser = .error fault)
    : CallerCrash finds call state fault
  | inserted {cell rest} (at_pc : state.callers call = .wait (.room cell rest))
    (old : cell ∈ (state.contexts call).pendingCells)
    : CallerCrash finds call state .pendingInsertCheck

-----------------------------------------------------------------------------------------
-- A call makes only these moves
-----------------------------------------------------------------------------------------

variable {finds : Finds ι} {state after : FindState ι ω}

/-- At most, a call notifies the workers. -/
theorem CallerMove.workers {call : ι} (moved : CallerMove finds call state after) (worker : ω)
    : after.workers worker = state.workers worker
      ∨ after.workers worker = (state.workers worker).notify := by
  cases moved with
  | queuePush at_pc => exact Or.inr rfl
  | _ => exact Or.inl rfl

/-- A call moves no other call. -/
theorem CallerMove.others {call other : ι} (moved : CallerMove finds call state after)
    (different : other ≠ call)
    : after.callers other = state.callers other := by
  cases moved <;> simp [different]

theorem CallerMove.otherContexts {call other : ι} (moved : CallerMove finds call state after)
    (different : other ≠ call)
    : after.contexts other = state.contexts other := by
  cases moved <;> simp [different]

theorem CallerMove.die {call : ι} (moved : CallerMove finds call state after)
    : after.pool.die = state.pool.die := by
  cases moved <;> rfl

/-- A move does not end the process. -/
theorem CallerMove.crashed {call : ι} (moved : CallerMove finds call state after)
    : after.crashed = state.crashed := by
  cases moved <;> rfl

/-- A caller past its wait makes one of the moves of its site; witness: the branches of
`proceed`, with readiness giving the room where the other two reasons to go on fail.
-/
theorem caller_move_of_proceed {call : ι} {site : WaitSite}
    (at_pc : state.callers call = .wait site)
    (ready : finds.ready (state.contexts call) site = true)
    : CallerMove finds call state (finds.proceed call state site)
      ∨ ∃ fault,
          CallerCrash finds call state fault
          ∧ finds.proceed call state site = state.crash fault := by
  cases site with
  | room cell rest =>
      simp only [Finds.proceed]
      split
      · exact Or.inl (.stop at_pc ‹_›)
      · rename_i notFull
        split
        · rename_i going
          split
          · exact Or.inr ⟨_, .inserted at_pc ‹_›, rfl⟩
          · have room : (state.contexts call).pendingCells.card
                < finds.settings.perFindConcurrency := by
              simpa [Finds.ready, going, notFull] using ready
            exact Or.inl (.insert at_pc (by omega) going room ‹_›)
        · rename_i notGoing
          exact Or.inl (.skip at_pc (by simpa using notGoing))
  | stop => exact Or.inl (.stopped at_pc (by simpa [Finds.ready] using ready))
  | final => exact Or.inl (.finish at_pc (by simpa [Finds.ready] using ready))

theorem caller_move_of_step {call : ι}
    (h : finds.findMatchingPplStep call state = some after)
    : CallerMove finds call state after
      ∨ ∃ fault, CallerCrash finds call state fault ∧ after = state.crash fault := by
  unfold Finds.findMatchingPplStep at h
  dsimp only at h
  split at h
  · rename_i at_pc
    split at h <;> cases h
    · exact Or.inr ⟨_, .unlocated at_pc ‹_›, rfl⟩
    · exact Or.inl (.start at_pc ‹_›)
  · rename_i at_pc
    obtain ⟨_, locked, rfl⟩ := Option.map_eq_some_iff.mp h
    obtain ⟨free, rfl⟩ := FindContext.lock_eq_some_iff.mp locked
    exact Or.inl (.lock (Or.inl at_pc) free)
  · rename_i at_pc
    obtain ⟨_, locked, rfl⟩ := Option.map_eq_some_iff.mp h
    obtain ⟨free, rfl⟩ := FindContext.lock_eq_some_iff.mp locked
    exact Or.inl (.lock (Or.inr at_pc) free)
  · cases h
  · rename_i at_pc
    split at h <;> cases h
    · exact caller_move_of_proceed at_pc ‹_›
    · rename_i unready
      exact Or.inl (.sleep at_pc (by simpa using unready))
  · rename_i at_pc
    obtain ⟨_, locked, rfl⟩ := Option.map_eq_some_iff.mp h
    obtain ⟨free, rfl⟩ := NoddyWorkerPool.lock_eq_some_iff.mp locked
    exact Or.inl (.queueEnter at_pc free)
  · cases h
    exact Or.inl (.queuePush ‹_›)
  · cases h
    exact Or.inl (.queueLeave ‹_›)
  · cases h
    exact Or.inl (.tryLeave ‹_›)
  · cases h
    exact Or.inl (.finalLeave ‹_›)
  · cases h

-----------------------------------------------------------------------------------------
-- Threads that do not move
-----------------------------------------------------------------------------------------

/-- A thread's program point stays as it is but for a notification. -/
def FindState.Bystander (before after : FindState ι ω) : Thread ι ω → Prop
  | .caller call =>
      after.callers call = before.callers call
      ∨ after.callers call = (before.callers call).notify
  | .worker worker =>
      after.workers worker = before.workers worker
      ∨ after.workers worker = (before.workers worker).notify

omit [DecidableEq ι] in
/-- No worklette begins or goes on in a bystander. -/
theorem running_of_bystander {worker : ω} {progress : AsyncFind ι}
    (bystander : state.Bystander after (.worker worker))
    (running : after.workers worker = .running progress)
    : state.workers worker = .running progress := by
  rcases bystander with same | notified
  · exact same ▸ running
  · rw [notified] at running
    cases pc : state.workers worker <;> rw [pc] at running <;> cases running
    rfl

theorem CallerMove.bystander {call : ι} {other : Thread ι ω}
    (moved : CallerMove finds call state after) (different : other ≠ .caller call)
    : state.Bystander after other := by
  cases other with
  | caller other => exact Or.inl (moved.others (fun same => different (same ▸ rfl)))
  | worker worker => exact moved.workers worker

theorem bystander_wakeCaller (state : FindState ι ω) (call : ι) (other : Thread ι ω)
    : state.Bystander (state.notifyCaller call) other := by
  cases other with
  | caller other =>
      by_cases own : other = call
      · subst own
        exact Or.inr (by simp)
      · exact Or.inl (by simp [own])
  | worker worker => exact Or.inl rfl

-----------------------------------------------------------------------------------------
-- The moves of a worker, and of the process
-----------------------------------------------------------------------------------------

variable [DecidableEq ω]

/-- A worklette at a stage, seen from the worker that runs it. -/
def FindState.AtStage (state : FindState ι ω) (worker : ω) (worklette : Worklette ι)
    (stage : AsyncStage)
    : Prop :=
  state.workers worker = .running ⟨worklette, stage⟩

/-- The moves of a worker that do not end the process. -/
inductive WorkerMove (finds : Finds ι) (worker : ω) (state : FindState ι ω)
    : FindState ι ω → Prop
  | loop {pool pc}
    (looped
      : StartWorking (fun worklette => (⟨worklette, .enterCheck⟩ : AsyncFind ι))
          (Thread.worker worker) state.pool (state.workers worker) pool pc)
    : WorkerMove finds worker state ({ state with pool }.setWorker worker pc)
  | lock {worklette stage next} (at_pc : state.AtStage worker worklette stage)
    (entering
      : stage = .enterCheck ∧ next = .check
        ∨ ∃ myPpl, stage = .enterAppend myPpl ∧ next = .append myPpl)
    (free : (state.contexts worklette.call).mutex = none)
    : WorkerMove finds worker state
        ((state.setContext worklette.call
            { state.contexts worklette.call with mutex := some (.worker worker) }).setWorker
          worker (.running ⟨worklette, next⟩))
  | drop {worklette} (at_pc : state.AtStage worker worklette .check)
    (done : (state.contexts worklette.call).weDoneHere = true)
    (pending : worklette.cell ∈ (state.contexts worklette.call).pendingCells)
    : WorkerMove finds worker state
        (((state.setContext worklette.call
              { state.contexts worklette.call with
                pendingCells :=
                  (state.contexts worklette.call).pendingCells.erase
                    worklette.cell }).notifyCaller worklette.call).setWorker
          worker (.running ⟨worklette, .leaveCheck true⟩))
  | goOn {worklette} (at_pc : state.AtStage worker worklette .check)
    (going : (state.contexts worklette.call).weDoneHere = false)
    : WorkerMove finds worker state
        (state.setWorker worker (.running ⟨worklette, .leaveCheck false⟩))
  | unlockSearch {worklette} (at_pc : state.AtStage worker worklette (.leaveCheck false))
    : WorkerMove finds worker state
        ((state.setContext worklette.call (state.contexts worklette.call).unlock).setWorker
          worker (.running ⟨worklette, .search⟩))
  | search {worklette myPpl} (at_pc : state.AtStage worker worklette .search)
    (found
      : finds.settings.searchCell finds.grid (finds.requests worklette.call) worklette.cell
        = .ok myPpl)
    : WorkerMove finds worker state
        (state.setWorker worker (.running ⟨worklette, .enterAppend myPpl⟩))
  | append {worklette myPpl} (at_pc : state.AtStage worker worklette (.append myPpl))
    (pending : worklette.cell ∈ (state.contexts worklette.call).pendingCells)
    : WorkerMove finds worker state
        (((state.setContext worklette.call
              { state.contexts worklette.call with
                ppl := (state.contexts worklette.call).ppl ++ myPpl
                pendingCells :=
                  (state.contexts worklette.call).pendingCells.erase
                    worklette.cell }).notifyCaller worklette.call).setWorker
          worker (.running ⟨worklette, .leaveAppend⟩))
  | unlockEnd {worklette stage} (at_pc : state.AtStage worker worklette stage)
    (ending : stage = .leaveCheck true ∨ stage = .leaveAppend)
    : WorkerMove finds worker state
        ((state.setContext worklette.call (state.contexts worklette.call).unlock).setWorker
          worker .enter)

/-- The ways a worker ends the process. -/
inductive WorkerCrash (finds : Finds ι) (worker : ω) (state : FindState ι ω) : Fault → Prop
  | erased {worklette stage} (at_pc : state.AtStage worker worklette stage)
    (erasing : stage = .check ∨ ∃ myPpl, stage = .append myPpl)
    (absent : worklette.cell ∉ (state.contexts worklette.call).pendingCells)
    : WorkerCrash finds worker state .pendingEraseCheck
  | failed {worklette fault} (at_pc : state.AtStage worker worklette .search)
    (failed
      : finds.settings.searchCell finds.grid (finds.requests worklette.call) worklette.cell
        = .error fault)
    : WorkerCrash finds worker state fault

/-- Everything the process can do in one step, by who does it. -/
inductive FindMove (finds : Finds ι) (state : FindState ι ω)
    : FindLabel ι ω → FindState ι ω → Prop
  | caller {call after} (moved : CallerMove finds call state after)
    : FindMove finds state (.run (.caller call)) after
  | worker {worker after} (moved : WorkerMove finds worker state after)
    : FindMove finds state (.run (.worker worker)) after
  | callerCrash {call fault} (ended : CallerCrash finds call state fault)
    : FindMove finds state (.run (.caller call)) (state.crash fault)
  | workerCrash {worker fault} (ended : WorkerCrash finds worker state fault)
    : FindMove finds state (.run (.worker worker)) (state.crash fault)
  | wakeCaller {call site} (at_pc : state.callers call = .asleep false site)
    : FindMove finds state (.spurious (.caller call)) (state.notifyCaller call)
  | wakeWorker {worker} (at_pc : state.workers worker = .asleep false)
    : FindMove finds state (.spurious (.worker worker))
        (state.setWorker worker (state.workers worker).notify)

/-- A worker moves itself only. -/
theorem WorkerMove.others {worker other : ω} (moved : WorkerMove finds worker state after)
    (different : other ≠ worker)
    : after.workers other = state.workers other := by
  cases moved <;> simp [different]

omit [DecidableEq ι] in
theorem bystander_wakeWorker (state : FindState ι ω) (worker : ω) (other : Thread ι ω)
    : state.Bystander (state.setWorker worker (state.workers worker).notify) other := by
  cases other with
  | caller call => exact Or.inl rfl
  | worker other =>
      by_cases own : other = worker
      · subst own
        exact Or.inr (by simp)
      · exact Or.inl (by simp [own])

/-- At most, a worker notifies the call whose worklette it runs. -/
theorem WorkerMove.callers {worker : ω} (moved : WorkerMove finds worker state after) (call : ι)
    : after.callers call = state.callers call
      ∨ after.callers call = (state.callers call).notify := by
  cases moved with
  | @drop worklette _ _ _ =>
      by_cases own : call = worklette.call
      · subst own
        exact Or.inr (by simp)
      · exact Or.inl (by simp [own])
  | @append worklette _ _ _ =>
      by_cases own : call = worklette.call
      · subst own
        exact Or.inr (by simp)
      · exact Or.inl (by simp [own])
  | _ => exact Or.inl rfl

theorem WorkerMove.bystander {worker : ω} {other : Thread ι ω}
    (moved : WorkerMove finds worker state after) (different : other ≠ .worker worker)
    : state.Bystander after other := by
  cases other with
  | caller call => exact moved.callers call
  | worker other => exact Or.inl (moved.others (fun same => different (same ▸ rfl)))

theorem WorkerMove.die {worker : ω} (moved : WorkerMove finds worker state after)
    : after.pool.die = state.pool.die := by
  cases moved with
  | loop looped => exact looped.keepsDie
  | _ => rfl

theorem WorkerMove.crashed {worker : ω} (moved : WorkerMove finds worker state after)
    : after.crashed = state.crashed := by
  cases moved <;> rfl

theorem async_move_of_step {worker : ω} {progress : AsyncFind ι}
    (at_pc : state.workers worker = .running progress)
    (h : finds.tryFindPplAsyncStep worker progress state = some after)
    : WorkerMove finds worker state after
      ∨ ∃ fault, WorkerCrash finds worker state fault ∧ after = state.crash fault := by
  obtain ⟨worklette, stage⟩ := progress
  have here : state.AtStage worker worklette stage := at_pc
  cases stage with
  | enterCheck =>
      obtain ⟨_, locked, rfl⟩ := Option.map_eq_some_iff.mp h
      obtain ⟨free, rfl⟩ := FindContext.lock_eq_some_iff.mp locked
      exact Or.inl (.lock here (Or.inl ⟨rfl, rfl⟩) free)
  | check =>
      simp only [Finds.tryFindPplAsyncStep] at h
      split at h
      · split at h <;> cases h
        · exact Or.inl (.drop here ‹_› ‹_›)
        · exact Or.inr ⟨_, .erased here (Or.inl rfl) ‹_›, rfl⟩
      · rename_i going
        cases h
        exact Or.inl (.goOn here (by simpa using going))
  | leaveCheck done =>
      cases done <;> cases h
      · exact Or.inl (.unlockSearch here)
      · exact Or.inl (.unlockEnd here (Or.inl rfl))
  | search =>
      simp only [Finds.tryFindPplAsyncStep] at h
      split at h <;> cases h
      · exact Or.inr ⟨_, .failed here ‹_›, rfl⟩
      · exact Or.inl (.search here ‹_›)
  | enterAppend myPpl =>
      obtain ⟨_, locked, rfl⟩ := Option.map_eq_some_iff.mp h
      obtain ⟨free, rfl⟩ := FindContext.lock_eq_some_iff.mp locked
      exact Or.inl (.lock here (Or.inr ⟨myPpl, rfl, rfl⟩) free)
  | append myPpl =>
      simp only [Finds.tryFindPplAsyncStep] at h
      split at h <;> cases h
      · exact Or.inl (.append here ‹_›)
      · exact Or.inr ⟨_, .erased here (Or.inr ⟨myPpl, rfl⟩) ‹_›, rfl⟩
  | leaveAppend =>
      cases h
      exact Or.inl (.unlockEnd here (Or.inr rfl))

theorem worker_move_of_step {worker : ω} (h : finds.workerStep worker state = some after)
    : WorkerMove finds worker state after
      ∨ ∃ fault, WorkerCrash finds worker state fault ∧ after = state.crash fault := by
  unfold Finds.workerStep at h
  split at h
  · exact async_move_of_step ‹_› h
  · obtain ⟨⟨pool, pc⟩, looped, rfl⟩ := Option.map_eq_some_iff.mp h
    exact Or.inl (.loop (startWorking_of_step looped))

/-- A step is a move from a process that has not ended. -/
theorem move_of_step {label : FindLabel ι ω} (h : finds.step label state = some after)
    : state.crashed = none ∧ FindMove finds state label after := by
  unfold Finds.step at h
  split at h
  · cases h
  · rename_i running
    refine ⟨running, ?_⟩
    split at h
    · rcases caller_move_of_step h with moved | ⟨_, ended, rfl⟩
      · exact .caller moved
      · exact .callerCrash ended
    · rcases worker_move_of_step h with moved | ⟨_, ended, rfl⟩
      · exact .worker moved
      · exact .workerCrash ended
    · unfold wakeSpuriously at h
      split at h
      · split at h <;> cases h
        rename_i asleep
        have woken : FindMove finds state _ _ := .wakeCaller asleep
        rwa [FindState.notifyCaller, asleep] at woken
      · split at h <;> cases h
        rename_i asleep
        have woken : FindMove finds state _ _ := .wakeWorker asleep
        rwa [asleep] at woken

end Moves

end PplMe.Engine
