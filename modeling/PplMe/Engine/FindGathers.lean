import PplMe.Engine.FindMoves
import PplMe.Foundation.DistributedSums
import PplMe.Foundation.Gathering

/-! What the process with its mutexes, its queue and its workers looks like to one call: a
gather of people from the cells of the call's walk. Every move of a thread shows as a step of
at most one gather.
-/

namespace PplMe.Engine

open PplMe.Core Stepping DistributedSums

section Shares

variable {ι : Type*}

/-- Cells of the walk that a call has not offered yet. -/
@[simp] def WaitSite.remaining : WaitSite → List CellLocator
  | .room cell rest => cell :: rest
  | .stop | .final => []

@[simp] def CallerPc.remaining (walk : List CellLocator) : CallerPc → List CellLocator
  | .idle => walk
  | .enter site | .wait site | .asleep _ site => site.remaining
  | .queueEnter _ rest | .queuePush _ rest | .queueLeave rest | .tryLeave rest => rest
  | .finalLeave _ | .returned _ => []

/-- A cell that is pending but not queued yet. -/
@[simp] def CallerPc.queueing : CallerPc → Multiset CellLocator
  | .queueEnter cell _ | .queuePush cell _ => {cell}
  | _ => 0

@[simp] def CallerPc.result : CallerPc → Option (List Person)
  | .finalLeave ppl | .returned ppl => some ppl
  | _ => none

@[simp] theorem remaining_notify (walk : List CellLocator) (pc : CallerPc)
    : pc.notify.remaining walk = pc.remaining walk := by
  cases pc <;> rfl

@[simp] theorem queueing_notify (pc : CallerPc) : pc.notify.queueing = pc.queueing := by
  cases pc <;> rfl

@[simp] theorem result_notify (pc : CallerPc) : pc.notify.result = pc.result := by
  cases pc <;> rfl

end Shares

section View

variable {ι ω : Type*}

/-- The cells of a call's walk, in order. -/
def Finds.walk (finds : Finds ι) (call : ι) : List CellLocator :=
  match finds.settings.toCellLocator (finds.requests call).locationOfUser with
  | .ok origin => sqiralCells finds.settings.resolution origin
  | .error _ => []

/-- The people a call finds in a cell. -/
def Finds.found (finds : Finds ι) (call : ι) (cell : CellLocator) : List Person :=
  match finds.settings.searchCell finds.grid (finds.requests call) cell with
  | .ok ppl => ppl
  | .error _ => []

/-- What a call is to gather. -/
def Finds.job (finds : Finds ι) (call : ι) : Gathering.Job CellLocator Person where
  keys := finds.walk call
  limit := finds.settings.maxPpl
  width := finds.settings.perFindConcurrency
  found := finds.found call

variable [DecidableEq ι] [Fintype ω]

/-- The state of the process as far as a call is concerned, without threads and locks. -/
def Finds.gather (finds : Finds ι) (state : FindState ι ω) (call : ι)
    : Gathering.Gather CellLocator Person where
  remaining := (state.callers call).remaining (finds.walk call)
  fresh :=
    queuedCells call state.pool.work
    + (state.callers call).queueing
    + ∑ worker, freshShare call (state.workers worker)
  searching := ∑ worker, searchingShare call (state.workers worker)
  pending := (state.contexts call).pendingCells
  items := (state.contexts call).ppl
  stopped := (state.contexts call).weDoneHere
  result := (state.callers call).result

/-- A call can be located and every cell of its walk, which are distinct, searched. -/
structure Finds.AnswersCall (finds : Finds ι) (call : ι) : Prop where
  located
    : ∃ origin,
        finds.settings.toCellLocator (finds.requests call).locationOfUser = .ok origin
  distinct : (finds.walk call).Nodup
  searchable
    : ∀ cell ∈ finds.walk call,
        finds.settings.searchCell finds.grid (finds.requests call) cell
        = .ok (finds.found call cell)

def Finds.Answerable (finds : Finds ι) : Prop := ∀ call, finds.AnswersCall call

end View

section Steps

variable {ι ω : Type*} [DecidableEq ι] [Fintype ω] {finds : Finds ι} {state after : FindState ι ω}

/-- A call leaves the gathers of all others alone. -/
theorem CallerMove.frame {call other : ι} (moved : CallerMove finds call state after)
    (different : other ≠ call)
    : finds.gather after other = finds.gather state other := by
  cases moved <;>
    simp [Finds.gather, Function.update_of_ne different, different.symm, Worklette.cellOf]

/-- Each move of a call is one of the steps of its gather, or shows in none. -/
theorem CallerMove.simulated {call : ι}
    (valid : Gathering.Valid (finds.job call) (finds.gather state call))
    (moved : CallerMove finds call state after)
    : finds.gather after call = finds.gather state call
      ∨ Gathering.Step (finds.job call) (finds.gather state call)
          (finds.gather after call) := by
  cases moved with
  | @start origin at_pc located =>
      have walked : finds.walk call = sqiralCells finds.settings.resolution origin := by
        rw [Finds.walk, located]
      left
      cases cells : sqiralCells finds.settings.resolution origin <;>
        simp [Finds.gather, at_pc, walked, cells, CallerPc.nextCell]
  | lock at_pc free =>
      left
      rcases at_pc with at_pc | at_pc <;> simp [Finds.gather, at_pc]
  | sleep at_pc unready =>
      left
      simp [Finds.gather, at_pc]
  | @stop cell rest at_pc full =>
      have unfinished : (finds.gather state call).result = none := by simp [Finds.gather, at_pc]
      have stepped : Gathering.Step (finds.job call) (finds.gather state call) _ :=
        .stop unfinished full
      right
      convert stepped using 1
      simp [Finds.gather, at_pc]
  | @insert cell rest at_pc notFull going room new =>
      have next : (finds.gather state call).remaining = cell :: rest := by
        simp [Finds.gather, at_pc]
      have unfinished : (finds.gather state call).result = none := by simp [Finds.gather, at_pc]
      have stepped : Gathering.Step (finds.job call) (finds.gather state call) _ :=
        .offer unfinished going next notFull room new
      right
      convert stepped using 1
      simp [Finds.gather, at_pc, ← Multiset.singleton_add, add_assoc, add_left_comm]
  | @skip cell rest at_pc done =>
      have next : (finds.gather state call).remaining = cell :: rest := by
        simp [Finds.gather, at_pc]
      cases done.symm.trans (valid.going_of_remaining next)
  | stopped at_pc drained =>
      left
      simp [Finds.gather, at_pc]
  | finish at_pc drained =>
      have unfinished : (finds.gather state call).result = none := by simp [Finds.gather, at_pc]
      have exhausted : (finds.gather state call).remaining = [] := by simp [Finds.gather, at_pc]
      have stepped : Gathering.Step (finds.job call) (finds.gather state call) _ :=
        .conclude unfinished exhausted drained
      right
      convert stepped using 1
      simp [Finds.gather, at_pc, finds.truncate_eq, Finds.job]
  | queueEnter at_pc free =>
      left
      simp [Finds.gather, at_pc]
  | queuePush at_pc =>
      left
      simp [Finds.gather, at_pc]
  | queueLeave at_pc =>
      left
      simp [Finds.gather, at_pc]
  | @tryLeave rest at_pc =>
      have next : (finds.gather state call).remaining = rest := by simp [Finds.gather, at_pc]
      left
      cases done : (state.contexts call).weDoneHere with
      | false => cases rest <;> simp [Finds.gather, at_pc, done, CallerPc.nextCell]
      | true =>
          have exhausted : rest = [] := next ▸ valid.remaining_of_stopped done
          simp [Finds.gather, at_pc, done, exhausted]
  | finalLeave at_pc =>
      left
      simp [Finds.gather, at_pc]

variable [DecidableEq ω]

/-- A worker in its loop changes no gather. -/
theorem gather_loop {worker : ω} {pool pc}
    (looped
      : StartWorking (fun worklette => (⟨worklette, .enterCheck⟩ : AsyncFind ι))
          (Thread.worker worker) state.pool (state.workers worker) pool pc)
    (call : ι)
    : finds.gather ({ state with pool }.setWorker worker pc) call = finds.gather state call := by
  obtain ⟨fresh, searching⟩ := looped.shares call
  have traded := sum_update state.workers worker pc (freshShare call)
  have kept : queuedCells call pool.work
        + ∑ other, freshShare call (Function.update state.workers worker pc other)
      = queuedCells call state.pool.work + ∑ other, freshShare call (state.workers other) := by
    refine add_right_cancel (b := freshShare call (state.workers worker)) ?_
    rw [add_assoc, traded, add_left_comm, fresh]
    ac_rfl
  simp only [Finds.gather, FindState.setWorker_pool, FindState.setWorker_workers,
    FindState.setWorker_contexts, FindState.setWorker_callers, sum_update_same searching]
  rw [add_right_comm, kept, add_right_comm]

/-- A worker that keeps its shares keeps the gather. -/
theorem gather_setWorker {worker : ω} {pc : FindWorkerPc ι} {call : ι}
    (fresh : freshShare call pc = freshShare call (state.workers worker))
    (searching : searchingShare call pc = searchingShare call (state.workers worker))
    : finds.gather (state.setWorker worker pc) call = finds.gather state call := by
  simp only [Finds.gather, FindState.setWorker_pool, FindState.setWorker_workers,
    FindState.setWorker_contexts, FindState.setWorker_callers, sum_update_same fresh,
    sum_update_same searching]

/-- A worker that lets go of a fresh cell takes it from the fresh ones. -/
theorem gather_loseFresh {worker : ω} {pc : FindWorkerPc ι} {call : ι} {cell : CellLocator}
    (held : freshShare call (state.workers worker) = {cell})
    (fresh : freshShare call pc = 0)
    (searching : searchingShare call pc = searchingShare call (state.workers worker))
    : finds.gather (state.setWorker worker pc) call
      = { finds.gather state call with fresh := (finds.gather state call).fresh.erase cell } := by
  simp only [Finds.gather, FindState.setWorker_pool, FindState.setWorker_workers,
    FindState.setWorker_contexts, FindState.setWorker_callers, sum_update_lose held fresh,
    sum_update_same searching, Multiset.erase_add_right_pos _ (mem_sum held)]

/-- A worker that begins to search a cell picks it from the fresh ones. -/
theorem gather_pick {worker : ω} {pc : FindWorkerPc ι} {call : ι} {cell : CellLocator}
    (held : freshShare call (state.workers worker) = {cell})
    (fresh : freshShare call pc = 0)
    (idle : searchingShare call (state.workers worker) = 0)
    (searching : searchingShare call pc = {cell})
    : finds.gather (state.setWorker worker pc) call
      = { finds.gather state call with
          fresh := (finds.gather state call).fresh.erase cell
          searching := cell ::ₘ (finds.gather state call).searching } := by
  simp only [Finds.gather, FindState.setWorker_pool, FindState.setWorker_workers,
    FindState.setWorker_contexts, FindState.setWorker_callers, sum_update_lose held fresh,
    sum_update_gain idle searching, Multiset.erase_add_right_pos _ (mem_sum held)]

/-- A worker that lets go of a searched cell takes it from the searched ones. -/
theorem gather_loseSearching {worker : ω} {pc : FindWorkerPc ι} {call : ι} {cell : CellLocator}
    (fresh : freshShare call pc = freshShare call (state.workers worker))
    (held : searchingShare call (state.workers worker) = {cell})
    (searching : searchingShare call pc = 0)
    : finds.gather (state.setWorker worker pc) call
      = { finds.gather state call with
          searching := (finds.gather state call).searching.erase cell } := by
  simp only [Finds.gather, FindState.setWorker_pool, FindState.setWorker_workers,
    FindState.setWorker_contexts, FindState.setWorker_callers, sum_update_same fresh,
    sum_update_lose held searching]

omit [DecidableEq ω] in
/-- Mutexes do not show in gathers. -/
theorem gather_setContext_mutex {owner call : ι} {context : FindContext ι ω}
    (same : context.unlock = (state.contexts owner).unlock)
    : finds.gather (state.setContext owner context) call = finds.gather state call := by
  by_cases own : call = owner
  · subst own
    have ppl := congrArg FindContext.ppl same
    have pending := congrArg FindContext.pendingCells same
    have done := congrArg FindContext.weDoneHere same
    simp only [FindContext.unlock_ppl, FindContext.unlock_pendingCells,
      FindContext.unlock_weDoneHere] at ppl pending done
    simp [Finds.gather, ppl, pending, done]
  · simp [Finds.gather, own]

omit [DecidableEq ω] in
theorem gather_setContext_other {owner call : ι} (context : FindContext ι ω)
    (other : call ≠ owner)
    : finds.gather (state.setContext owner context) call = finds.gather state call := by
  simp [Finds.gather, other]

omit [DecidableEq ω] in
theorem gather_setContext_self (call : ι) (context : FindContext ι ω)
    : finds.gather (state.setContext call context) call
      = { finds.gather state call with
          pending := context.pendingCells
          items := context.ppl
          stopped := context.weDoneHere } := by
  simp [Finds.gather]

omit [DecidableEq ω] in
theorem gather_notifyCaller (owner call : ι)
    : finds.gather (state.notifyCaller owner) call = finds.gather state call := by
  by_cases own : call = owner
  · subst own
    simp only [Finds.gather, FindState.notifyCaller_pool, FindState.notifyCaller_workers,
      FindState.notifyCaller_contexts, FindState.notifyCaller_callers, Function.update_self,
      remaining_notify, queueing_notify, result_notify]
  · simp [Finds.gather, own]

/-- What a worklette is about to append is what its cell holds for its call. -/
def Finds.Carries (finds : Finds ι) (state : FindState ι ω) : Prop :=
  ∀ worker worklette myPpl,
    state.AtStage worker worklette (.enterAppend myPpl)
      ∨ state.AtStage worker worklette (.append myPpl)
    → myPpl = finds.found worklette.call worklette.cell

omit [DecidableEq ω] in
/-- The cell of a worklette that is about to check is fresh. -/
theorem fresh_of_check {worker : ω} {worklette : Worklette ι}
    (at_pc : state.AtStage worker worklette .check)
    : freshShare worklette.call (state.workers worker) = {worklette.cell}
      ∧ worklette.cell ∈ (finds.gather state worklette.call).fresh := by
  have held : freshShare worklette.call (state.workers worker) = {worklette.cell} := by
    rw [at_pc]
    exact cellOf_call worklette
  exact ⟨held, Multiset.mem_add.mpr (Or.inr (mem_sum held))⟩

/-- What a worklette does to the context of its own call shows in no other gather. -/
theorem gather_other {worker : ω} {worklette : Worklette ι} {stage : AsyncStage}
    (at_pc : state.AtStage worker worklette stage) (context : FindContext ι ω)
    (next : AsyncStage) {other : ι} (different : other ≠ worklette.call)
    : finds.gather
        (((state.setContext worklette.call context).notifyCaller worklette.call).setWorker worker
          (.running ⟨worklette, next⟩))
        other
      = finds.gather state other := by
  refine (gather_setWorker ?_ ?_).trans
    ((gather_notifyCaller _ _).trans (gather_setContext_other _ different))
  all_goals
    rw [FindState.notifyCaller_workers, FindState.setContext_workers, at_pc]
    simp only [freshShare_other _ different, searchingShare_other _ different]

/-- Each move of a worker is one step of one gather, or shows in none. Witness: the check
drops or picks the worklette's cell, the last critical section finishes it, and the rest is
locking.
-/
theorem WorkerMove.simulated {worker : ω} (carries : finds.Carries state)
    (moved : WorkerMove finds worker state after)
    : finds.gather after = finds.gather state
      ∨ Stepping.Interleaved (fun call => Gathering.Step (finds.job call)) (finds.gather state)
          (finds.gather after) := by
  cases moved with
  | loop looped => exact Or.inl (funext (gather_loop looped))
  | @lock worklette stage next at_pc entering free =>
      refine Or.inl (funext fun call =>
        (gather_setWorker ?_ ?_).trans (gather_setContext_mutex rfl))
      all_goals
        rw [FindState.setContext_workers, at_pc]
        rcases entering with ⟨rfl, rfl⟩ | ⟨myPpl, rfl, rfl⟩ <;> rfl
  | @drop worklette at_pc done pending =>
      obtain ⟨held, unsearched⟩ := fresh_of_check at_pc
      refine Or.inr ⟨worklette.call, ?_, fun other different => ?_⟩
      · rw [gather_loseFresh, gather_notifyCaller, gather_setContext_self]
        · exact .drop done unsearched pending
        · exact held
        · rfl
        · exact (congrArg (searchingShare worklette.call) at_pc).symm
      · exact gather_other at_pc _ _ different
  | @goOn worklette at_pc going =>
      obtain ⟨held, unsearched⟩ := fresh_of_check at_pc
      refine Or.inr ⟨worklette.call, ?_, fun other different => ?_⟩
      · rw [gather_pick held]
        · exact .pick unsearched
        · rfl
        · exact congrArg (searchingShare worklette.call) at_pc
        · exact cellOf_call worklette
      · refine gather_setWorker ?_ ?_
        all_goals
          rw [at_pc]
          simp only [freshShare_other _ different, searchingShare_other _ different]
  | unlockSearch at_pc =>
      refine Or.inl (funext fun call =>
        (gather_setWorker ?_ ?_).trans (gather_setContext_mutex rfl))
      all_goals
        rw [FindState.setContext_workers, at_pc]
        rfl
  | search at_pc found =>
      refine Or.inl (funext fun call => gather_setWorker ?_ ?_)
      all_goals
        rw [at_pc]
        rfl
  | @append worklette myPpl at_pc pending =>
      have same := carries worker worklette myPpl (Or.inr at_pc)
      have held : searchingShare worklette.call (state.workers worker) = {worklette.cell} := by
        rw [at_pc]
        exact cellOf_call worklette
      have searched : worklette.cell ∈ (finds.gather state worklette.call).searching :=
        mem_sum held
      refine Or.inr ⟨worklette.call, ?_, fun other different => ?_⟩
      · rw [gather_loseSearching, gather_notifyCaller, gather_setContext_self, same]
        · exact .finish searched pending
        · exact (congrArg (freshShare worklette.call) at_pc).symm
        · exact held
        · rfl
      · exact gather_other at_pc _ _ different
  | unlockEnd at_pc ending =>
      refine Or.inl (funext fun call =>
        (gather_setWorker ?_ ?_).trans (gather_setContext_mutex rfl))
      all_goals
        rw [FindState.setContext_workers, at_pc]
        rcases ending with rfl | rfl <;> rfl

end Steps

end PplMe.Engine
