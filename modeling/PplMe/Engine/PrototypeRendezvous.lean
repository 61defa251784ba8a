import PplMe.Engine.PrototypeMoves
import PplMe.Foundation.DistributedSums
import PplMe.Foundation.Rendezvous

/-! What the process around a prototype provider looks like to one call: a rendezvous with the
worklettes of the call's nearby cells. Every step shows as a step of each call's rendezvous, or
not at all.
-/

namespace PplMe.Engine

open PplMe.Core Stepping DistributedSums

section View

variable {ι ω : Type*}

/-- Nearby cells for which no pending op has been counted yet. -/
@[simp] def PrototypePc.remaining (cells : List CellLocator) : PrototypePc → List CellLocator
  | .idle => cells
  | .enterCount cell rest | .count cell rest => cell :: rest
  | .leaveCount _ rest | .queueEnter _ rest | .queuePush _ rest | .queueLeave rest => rest
  | .enterWait | .wait | .waiting _ | .clear | .leaveWait | .returned _ => []

/-- A cell that is counted but not queued yet. -/
@[simp] def PrototypePc.queueing : PrototypePc → Multiset CellLocator
  | .leaveCount cell _ | .queueEnter cell _ | .queuePush cell _ => {cell}
  | _ => 0

/-- The people a call has, or will have when it begins. -/
@[simp] def PrototypePc.items (first ppl : List Person) : PrototypePc → List Person
  | .idle => first
  | _ => ppl

/-- The people of the user's cell and the nearby cells, if the call can begin. -/
def PrototypeFinds.begun (finds : PrototypeFinds ι) (call : ι)
    : List Person × List CellLocator :=
  match finds.beginFind call with
  | .ok (some begun) => begun
  | _ => ([], [])

/-- The people a call finds in a cell. -/
def PrototypeFinds.found (finds : PrototypeFinds ι) (call : ι) (cell : CellLocator)
    : List Person :=
  match finds.settings.searchCell finds.grid (finds.requests call) cell with
  | .ok ppl => ppl
  | .error _ => []

def PrototypeFinds.job (finds : PrototypeFinds ι) (call : ι)
    : Rendezvous.Job CellLocator Person where
  keys := (finds.begun call).2
  first := (finds.begun call).1
  found := finds.found call

variable [DecidableEq ι]

/-- A cell of the call whose worklette a worker has and has not accounted for. -/
def heldShare (call : ι) (pc : FindWorkerPc ι) : Multiset CellLocator :=
  freshShare call pc + searchingShare call pc

/-- The cells of a call whose worklettes are queued or held by a worker. -/
def PrototypeState.out [Fintype ω] (state : PrototypeState ι ω) (call : ι)
    : Multiset CellLocator :=
  queuedCells call state.pool.work + ∑ worker, heldShare call (state.workers worker)

/-- The rendezvous as a call's record and the cells out for it show it. -/
def PrototypeFinds.view (finds : PrototypeFinds ι) (call : ι) (out : Multiset CellLocator)
    (current : PrototypeCall ι ω)
    : Rendezvous.Gather CellLocator Person where
  remaining := current.pc.remaining (finds.job call).keys
  outstanding := out + current.pc.queueing
  pending := current.orchestration.pendingOps
  items := current.pc.items (finds.job call).first current.ppl
  listening := current.orchestration.ppl

def PrototypeFinds.gather [Fintype ω] (finds : PrototypeFinds ι) (state : PrototypeState ι ω)
    (call : ι)
    : Rendezvous.Gather CellLocator Person :=
  finds.view call (state.out call) (state.calls call)

end View

section Out

variable {ι ω : Type*} [DecidableEq ι]

@[simp] theorem heldShare_notify (call : ι) (pc : FindWorkerPc ι)
    : heldShare call pc.notify = heldShare call pc := by
  rw [heldShare, freshShare_notify, searchingShare_notify, heldShare]

theorem heldShare_other {call : ι} {worklette : Worklette ι} (stage : AsyncStage)
    (other : call ≠ worklette.call)
    : heldShare call (.running ⟨worklette, stage⟩) = 0 := by
  rw [heldShare, freshShare_other stage other, searchingShare_other stage other, add_zero]

/-- A worker keeps a worklette while it checks, searches, and carries what it found. -/
theorem heldShare_running (call : ι) (worklette : Worklette ι) (stage : AsyncStage)
    : heldShare call (.running ⟨worklette, stage⟩)
      = match stage with
        | .leaveCheck true | .leaveAppend => 0
        | _ => worklette.cellOf call := by
  cases stage with
  | leaveCheck done => cases done <;> simp [heldShare, freshShare, searchingShare]
  | _ => simp [heldShare, freshShare, searchingShare]

variable [Fintype ω] {state : PrototypeState ι ω}

@[simp] theorem out_setCall (call : ι) (next : PrototypeCall ι ω)
    : (state.setCall call next).out = state.out := rfl

@[simp] theorem out_notifyWorkers : state.notifyWorkers.out = state.out := by
  funext call
  simp [PrototypeState.out]

theorem out_push (call : ι) (worklette : Worklette ι)
    : { state with pool := state.pool.push worklette }.out call
      = state.out call + worklette.cellOf call := by
  simp only [PrototypeState.out, NoddyWorkerPool.push_work, queuedCells_append,
    queuedCells_cons, queuedCells_nil, add_zero]
  ac_rfl

variable [DecidableEq ω]

/-- A worker in its loop moves worklettes from the queue to itself and loses none. -/
theorem out_loop {worker : ω} {pool pc}
    (looped
      : StartWorking (fun worklette => (⟨worklette, .enterCheck⟩ : AsyncFind ι))
          (Thread.worker worker) state.pool (state.workers worker) pool pc)
    (call : ι)
    : ({ state with pool }.setWorker worker pc).out call = state.out call := by
  obtain ⟨fresh, searching⟩ := looped.shares call
  have traded := sum_update state.workers worker pc (heldShare call)
  have kept : queuedCells call pool.work + heldShare call pc
      = queuedCells call state.pool.work + heldShare call (state.workers worker) := by
    rw [heldShare, heldShare, searching, ← add_assoc, fresh, add_assoc]
  refine add_right_cancel (b := heldShare call (state.workers worker)) ?_
  calc queuedCells call pool.work
        + ∑ other, heldShare call (Function.update state.workers worker pc other)
        + heldShare call (state.workers worker)
      = queuedCells call pool.work + heldShare call pc
        + ∑ other, heldShare call (state.workers other) := by
          rw [add_assoc, traded]
          ac_rfl
    _ = state.out call + heldShare call (state.workers worker) := by
          rw [kept, PrototypeState.out]
          ac_rfl

/-- A worker that keeps its share keeps what is out. -/
theorem out_setWorker {worker : ω} {pc : FindWorkerPc ι} {call : ι}
    (same : heldShare call pc = heldShare call (state.workers worker))
    : (state.setWorker worker pc).out call = state.out call := by
  simp only [PrototypeState.out, PrototypeState.setWorker_pool, PrototypeState.setWorker_workers,
    sum_update_same same]

/-- A worker that accounts for its worklette's cell takes it from what is out. -/
theorem out_account {worker : ω} {pc : FindWorkerPc ι} {call : ι} {cell : CellLocator}
    (held : heldShare call (state.workers worker) = {cell}) (empty : heldShare call pc = 0)
    : (state.setWorker worker pc).out call = (state.out call).erase cell
      ∧ cell ∈ state.out call := by
  refine ⟨?_, Multiset.mem_add.mpr (Or.inr (mem_sum held))⟩
  simp only [PrototypeState.out, PrototypeState.setWorker_pool, PrototypeState.setWorker_workers,
    sum_update_lose held empty, Multiset.erase_add_right_pos _ (mem_sum held)]

end Out

section Carries

variable {ι ω : Type*} [DecidableEq ι] [DecidableEq ω] {finds : PrototypeFinds ι}

/-- What a worklette is about to append is what its cell holds for its call. -/
def PrototypeFinds.Carries (finds : PrototypeFinds ι) (pc : FindWorkerPc ι) : Prop :=
  ∀ worklette resultslette,
    pc = .running ⟨worklette, .enterAppend resultslette⟩
      ∨ pc = .running ⟨worklette, .append resultslette⟩
    → resultslette = finds.found worklette.call worklette.cell

omit [DecidableEq ι] in
theorem carries_notify {pc : FindWorkerPc ι} (carries : finds.Carries pc)
    : finds.Carries pc.notify := by
  cases pc with
  | asleep notified =>
      rintro worklette resultslette (carried | carried) <;> cases carried
  | _ => exact carries

/-- A worker carries what its search found, or what it already carried. -/
theorem carries_of_prototypeWorkerMove {state after : PrototypeState ι ω} {worker : ω}
    (carries : ∀ worker, finds.Carries (state.workers worker))
    (moved : PrototypeWorkerMove finds worker state after) (other : ω)
    : finds.Carries (after.workers other) := by
  have updated {pc : FindWorkerPc ι} (own : finds.Carries pc)
      : finds.Carries (Function.update state.workers worker pc other) := by
    by_cases same : other = worker
    · subst same
      rwa [Function.update_self]
    · rw [Function.update_of_ne same]
      exact carries other
  cases moved with
  | @loop pool pc looped =>
      refine updated ?_
      generalize state.workers worker = earlier at looped
      rintro worklette resultslette (rfl | rfl) <;> cases looped
  | @lock worklette stage next locked at_pc entering free =>
      refine updated ?_
      rcases entering with ⟨rfl, rfl⟩ | ⟨resultslette, rfl, rfl⟩
      · rintro _ _ (carried | carried) <;> cases carried
      · rintro _ _ (carried | carried) <;> cases carried
        exact carries worker worklette resultslette (Or.inl at_pc)
  | search at_pc found =>
      refine updated ?_
      rintro _ _ (carried | carried) <;> cases carried
      rw [PrototypeFinds.found, found]
  | _ =>
      refine updated ?_
      rintro _ _ (carried | carried) <;> cases carried

/-- Worklettes carry what their cells hold, in every reachable state; witness: only a search
sets what is carried.
-/
theorem carries_of_prototype_reached {state : PrototypeState ι ω}
    (reached : Reached (finds.machine ω) state) (worker : ω)
    : finds.Carries (state.workers worker) := by
  refine reached.invariant (fun state => ∀ worker, finds.Carries (state.workers worker)) ?_ ?_
    worker
  · rintro worker worklette resultslette (carried | carried) <;> cases carried
  · intro label before after _ carries _ moved other
    cases prototype_move_of_step moved with
    | @call call _ moved =>
        cases moved with
        | queuePush at_pc => exact carries_notify (carries other)
        | _ => exact carries other
    | worker moved => exact carries_of_prototypeWorkerMove carries moved other
    | @wakeWorker worker asleep =>
        by_cases same : other = worker
        · subst same
          rw [PrototypeState.setWorker_workers, Function.update_self]
          exact carries_notify (carries other)
        · rw [PrototypeState.setWorker_workers, Function.update_of_ne same]
          exact carries other
    | _ => exact carries other

end Carries

section Steps

variable {ι ω : Type*} [DecidableEq ι] [Fintype ω] {finds : PrototypeFinds ι}
  {state after : PrototypeState ι ω}

/-- A call leaves the rendezvous of all others alone. -/
theorem PrototypeCallMove.frame {call other : ι}
    (moved : PrototypeCallMove finds call state after) (different : other ≠ call)
    : finds.gather after other = finds.gather state other := by
  have sameCall : after.calls other = state.calls other := by
    cases moved <;> simp [different]
  have sameOut : after.out other = state.out other := by
    cases moved with
    | queuePush at_pc =>
        rw [out_setCall, out_notifyWorkers, out_push, cellOf_other different, add_zero]
    | _ => rfl
  rw [PrototypeFinds.gather, PrototypeFinds.gather, sameCall, sameOut]

/-- A call that keeps what its record shows keeps its rendezvous. -/
theorem gather_setCall {call : ι} {next : PrototypeCall ι ω}
    (same : ∀ out, finds.view call out next = finds.view call out (state.calls call))
    : finds.gather (state.setCall call next) call = finds.gather state call := by
  rw [PrototypeFinds.gather, out_setCall, PrototypeState.setCall_calls, Function.update_self]
  exact same _

omit [DecidableEq ι] [Fintype ω] in
/-- Taking the mutex does not show. -/
theorem view_lock {call : ι} {self : Thread ι ω} {current locked : PrototypeCall ι ω}
    (free : current.lock self = some locked) (out : Multiset CellLocator)
    : finds.view call out locked = finds.view call out current := by
  obtain ⟨_, rfl⟩ := PrototypeCall.lock_eq_some_iff.mp free
  rfl

omit [DecidableEq ι] [Fintype ω] in
/-- Nor does releasing it. -/
theorem view_unlock {call : ι} (current : PrototypeCall ι ω) (out : Multiset CellLocator)
    : finds.view call out current.unlock = finds.view call out current := rfl

/-- Each move of a call is one of the steps of its rendezvous, or shows in none. -/
theorem PrototypeCallMove.gathered {call : ι} (moved : PrototypeCallMove finds call state after)
    : finds.gather after call = finds.gather state call
      ∨ Rendezvous.Step (finds.job call) (finds.gather state call)
          (finds.gather after call) := by
  cases moved with
  | @start ppl cells at_pc begun =>
      have known : finds.begun call = (ppl, cells) := by rw [PrototypeFinds.begun, begun]
      refine Or.inl (gather_setCall fun out => ?_)
      cases cells <;>
        simp [PrototypeFinds.view, PrototypePc.firstCell, at_pc, PrototypeFinds.job, known]
  | @lock pc locked entering free =>
      obtain ⟨_, rfl⟩ := PrototypeCall.lock_eq_some_iff.mp free
      refine Or.inl (gather_setCall fun out => ?_)
      generalize at_pc : (state.calls call).pc = earlier at entering
      cases entering <;> simp [PrototypeFinds.view, PrototypeCall.goTo, at_pc]
  | @count cell rest at_pc =>
      have next : (finds.gather state call).remaining = cell :: rest := by
        simp [PrototypeFinds.gather, PrototypeFinds.view, at_pc]
      have stepped : Rendezvous.Step (finds.job call) (finds.gather state call) _ := .post next
      right
      convert stepped using 1
      simp [PrototypeFinds.gather, PrototypeFinds.view, at_pc, PrototypeCall.goTo,
        PrototypeCall.countOne, ← Multiset.singleton_add, add_comm]
  | queuePush at_pc =>
      left
      simp [PrototypeFinds.gather, PrototypeFinds.view, at_pc, PrototypeCall.goTo, out_push]
  | @queueLeave rest at_pc =>
      refine Or.inl (gather_setCall fun out => ?_)
      cases rest <;>
        simp [PrototypeFinds.view, PrototypeCall.goTo, PrototypePc.nextCell, at_pc]
  | clear at_pc =>
      have exhausted : (finds.gather state call).remaining = [] := by
        simp [PrototypeFinds.gather, PrototypeFinds.view, at_pc]
      have stepped : Rendezvous.Step (finds.job call) (finds.gather state call) _ :=
        .close exhausted
      right
      convert stepped using 1
      simp [PrototypeFinds.gather, PrototypeFinds.view, at_pc, PrototypeCall.goTo,
        PrototypeCall.stopListening]
  | leaveCount at_pc | queueEnter at_pc _ | drained at_pc _ | sleep at_pc | leaveWait at_pc =>
      refine Or.inl (gather_setCall fun out => ?_)
      simp [PrototypeFinds.view, PrototypeCall.goTo, PrototypeCall.unlock, at_pc]

variable [DecidableEq ω]

/-- A worker that neither shows in a call's record nor in what is out keeps all rendezvous. -/
theorem gather_quiet {worker : ω} {owner : ι} {next : PrototypeCall ι ω} {pc : FindWorkerPc ι}
    (same : ∀ out, finds.view owner out next = finds.view owner out (state.calls owner))
    (held : ∀ call, heldShare call pc = heldShare call (state.workers worker)) (call : ι)
    : finds.gather ((state.setCall owner next).setWorker worker pc) call
      = finds.gather state call := by
  have out : ((state.setCall owner next).setWorker worker pc).out call = state.out call :=
    out_setWorker (held call)
  rw [PrototypeFinds.gather, PrototypeFinds.gather, out, PrototypeState.setWorker_calls,
    PrototypeState.setCall_calls]
  by_cases own : call = owner
  · subst own
    rw [Function.update_self]
    exact same _
  · rw [Function.update_of_ne own]

/-- A worklette that is accounted for leaves the rendezvous of other calls alone. -/
theorem gather_account_other {worker : ω} {worklette : Worklette ι} {before stage : AsyncStage}
    {next : PrototypeCall ι ω} {call : ι} (at_pc : state.AtStage worker worklette before)
    (other : call ≠ worklette.call)
    : finds.gather
        ((state.setCall worklette.call next).setWorker worker (.running ⟨worklette, stage⟩)) call
      = finds.gather state call := by
  have out : ((state.setCall worklette.call next).setWorker worker
      (.running ⟨worklette, stage⟩)).out call = state.out call := by
    refine out_setWorker ?_
    rw [PrototypeState.setCall_workers, at_pc, heldShare_other _ other, heldShare_other _ other]
  rw [PrototypeFinds.gather, PrototypeFinds.gather, out, PrototypeState.setWorker_calls,
    PrototypeState.setCall_calls, Function.update_of_ne other]

omit [DecidableEq ι] [Fintype ω] [DecidableEq ω] in
/-- An op that is done is one less pending; the notification does not show. -/
theorem view_doneOne (call : ι) (out : Multiset CellLocator) (current : PrototypeCall ι ω)
    : finds.view call out current.doneOne
      = { finds.view call out current with pending := current.orchestration.pendingOps - 1 } := by
  obtain ⟨pc, ppl, orchestration⟩ := current
  cases pc with
  | waiting wait => cases wait <;> rfl
  | _ => rfl

omit [DecidableEq ι] [Fintype ω] [DecidableEq ω] in
/-- A cell taken from what is out is taken from what is outstanding. -/
theorem view_erase {call : ι} {out : Multiset CellLocator} {cell : CellLocator}
    (member : cell ∈ out) (current : PrototypeCall ι ω)
    : finds.view call (out.erase cell) current
      = { finds.view call out current with
          outstanding := (finds.view call out current).outstanding.erase cell } := by
  simp only [PrototypeFinds.view, Multiset.erase_add_left_pos _ member]

omit [DecidableEq ι] [Fintype ω] [DecidableEq ω] in
/-- A call that has begun shows what is appended while the pointer is there. -/
theorem view_append {call : ι} {out : Multiset CellLocator} {current : PrototypeCall ι ω}
    (begun : current.pc ≠ .idle) (listening : current.orchestration.ppl = true)
    (resultslette : List Person)
    : finds.view call out (current.append resultslette)
      = { finds.view call out current with
          items := (finds.view call out current).items ++ resultslette } := by
  obtain ⟨pc, ppl, orchestration⟩ := current
  rw [PrototypeCall.append, if_pos listening]
  cases pc with
  | idle => exact absurd rfl begun
  | _ => rfl

/-- A worklette that is accounted for takes its cell from what is outstanding. -/
theorem gather_account {worker : ω} {worklette : Worklette ι} {before stage : AsyncStage}
    {next : PrototypeCall ι ω} (at_pc : state.AtStage worker worklette before)
    (accounting : before = .check ∨ ∃ resultslette, before = .append resultslette)
    (accounted : stage = .leaveCheck true ∨ stage = .leaveAppend)
    : finds.gather
        ((state.setCall worklette.call next).setWorker worker (.running ⟨worklette, stage⟩))
        worklette.call
      = finds.view worklette.call ((state.out worklette.call).erase worklette.cell) next
      ∧ worklette.cell ∈ state.out worklette.call := by
  have held : heldShare worklette.call ((state.setCall worklette.call next).workers worker)
      = {worklette.cell} := by
    rw [PrototypeState.setCall_workers, at_pc, heldShare_running]
    rcases accounting with rfl | ⟨resultslette, rfl⟩ <;> exact cellOf_call worklette
  have empty : heldShare worklette.call (.running ⟨worklette, stage⟩) = 0 := by
    rw [heldShare_running]
    rcases accounted with rfl | rfl <;> rfl
  obtain ⟨erased, member⟩ := out_account held empty
  rw [out_setCall] at erased member
  refine ⟨?_, member⟩
  rw [PrototypeFinds.gather, erased, PrototypeState.setWorker_calls,
    PrototypeState.setCall_calls, Function.update_self]

omit [DecidableEq ω] in
/-- A call that has handed out a cell has begun. -/
theorem begun_of_outstanding {call : ι} {cell : CellLocator}
    (valid : Rendezvous.Valid (finds.job call) (finds.gather state call))
    (out : cell ∈ (finds.gather state call).outstanding)
    : (state.calls call).pc ≠ .idle := by
  intro idle
  have untouched : (finds.gather state call).remaining = (finds.job call).keys := by
    simp [PrototypeFinds.gather, PrototypeFinds.view, idle]
  rw [valid.outstanding_eq_zero untouched] at out
  exact absurd out (Multiset.notMem_zero _)

/-- Each move of a worker is a step of a rendezvous, or shows in none. Witness: a worklette is
accounted for where it gives up and where it appends, and the rest is locking and searching.
-/
theorem PrototypeWorkerMove.gathered {worker : ω}
    (carries : ∀ worker, finds.Carries (state.workers worker))
    (valid : ∀ call, Rendezvous.Valid (finds.job call) (finds.gather state call))
    (moved : PrototypeWorkerMove finds worker state after) (call : ι)
    : finds.gather after call = finds.gather state call
      ∨ Rendezvous.Step (finds.job call) (finds.gather state call)
          (finds.gather after call) := by
  cases moved with
  | loop looped =>
      left
      rw [PrototypeFinds.gather, out_loop looped]
      rfl
  | @lock worklette stage next locked at_pc entering free =>
      refine Or.inl (gather_quiet (view_lock free) (fun call => ?_) call)
      rw [at_pc, heldShare_running, heldShare_running]
      rcases entering with ⟨rfl, rfl⟩ | ⟨resultslette, rfl, rfl⟩ <;> rfl
  | goOn at_pc listening =>
      left
      rw [PrototypeFinds.gather, out_setWorker]
      · rfl
      · rw [at_pc, heldShare_running, heldShare_running]
  | search at_pc found =>
      left
      rw [PrototypeFinds.gather, out_setWorker]
      · rfl
      · rw [at_pc, heldShare_running, heldShare_running]
  | unlockSearch at_pc =>
      refine Or.inl (gather_quiet (view_unlock _) (fun call => ?_) call)
      rw [at_pc, heldShare_running, heldShare_running]
  | @unlockEnd worklette stage at_pc ending =>
      refine Or.inl (gather_quiet (view_unlock _) (fun call => ?_) call)
      rw [at_pc, heldShare_running]
      rcases ending with rfl | rfl <;> rfl
  | @giveUp worklette at_pc deaf =>
      by_cases own : call = worklette.call
      · subst own
        obtain ⟨shown, member⟩ := @gather_account _ _ _ _ finds _ _ _ _ _ _ _ at_pc
          (Or.inl rfl) (Or.inl rfl)
        have out : worklette.cell ∈ (finds.gather state worklette.call).outstanding :=
          Multiset.mem_add.mpr (Or.inl member)
        right
        rw [shown, view_doneOne, view_erase member]
        exact .miss out deaf
      · exact Or.inl (gather_account_other at_pc own)
  | @append worklette resultslette at_pc =>
      by_cases own : call = worklette.call
      · subst own
        obtain ⟨shown, member⟩ := gather_account at_pc (Or.inr ⟨_, rfl⟩) (Or.inr rfl)
        have out : worklette.cell ∈ (finds.gather state worklette.call).outstanding :=
          Multiset.mem_add.mpr (Or.inl member)
        right
        rw [shown, view_doneOne, PrototypeCall.append_orchestration]
        cases listens : (state.calls worklette.call).orchestration.ppl with
        | false =>
            have kept : (state.calls worklette.call).append resultslette
                = state.calls worklette.call :=
              if_neg (by simp [listens])
            rw [kept, view_erase member]
            exact .miss out listens
        | true =>
            rw [view_append (begun_of_outstanding (valid _) out) listens, view_erase member,
              carries worker worklette resultslette (Or.inr at_pc)]
            exact .deliver out listens
      · exact Or.inl (gather_account_other at_pc own)

/-- Every step of the process is, for each call, a step of its rendezvous, or shows in none. -/
theorem gathered_of_step {label : PrototypeLabel ι ω}
    (reached : Reached (finds.machine ω) state)
    (valid : ∀ call, Rendezvous.Valid (finds.job call) (finds.gather state call))
    (moved : finds.step label state = some after) (call : ι)
    : finds.gather after call = finds.gather state call
      ∨ Rendezvous.Step (finds.job call) (finds.gather state call)
          (finds.gather after call) := by
  cases prototype_move_of_step moved with
  | @call mover _ moved =>
      by_cases own : call = mover
      · exact own ▸ moved.gathered
      · exact Or.inl (moved.frame own)
  | worker moved => exact moved.gathered (carries_of_prototype_reached reached) valid call
  | crash => exact Or.inl rfl
  | @wakeCall mover asleep =>
      left
      by_cases own : call = mover
      · subst own
        refine gather_setCall fun out => ?_
        simp [PrototypeFinds.view, PrototypeCall.goTo, asleep]
      · rw [PrototypeFinds.gather, out_setCall, PrototypeState.setCall_calls,
          Function.update_of_ne own]
        rfl
  | wakeWorker asleep =>
      left
      rw [PrototypeFinds.gather, out_setWorker (heldShare_notify call _)]
      rfl
  | @expire mover wait at_pc =>
      left
      by_cases own : call = mover
      · subst own
        refine gather_setCall fun out => ?_
        simp [PrototypeFinds.view, PrototypeCall.goTo, at_pc]
      · rw [PrototypeFinds.gather, out_setCall, PrototypeState.setCall_calls,
          Function.update_of_ne own]
        rfl

/-- Before the first step nothing has been handed out. -/
theorem gather_prototype_start (call : ι)
    : finds.gather (finds.machine ω).start call = (finds.job call).start := by
  simp [PrototypeFinds.gather, PrototypeFinds.view, PrototypeFinds.machine,
    PrototypeState.start, PrototypeState.out, Rendezvous.Job.start, heldShare, freshShare,
    searchingShare]

/-- In every reachable state each call's nearby cells are all accounted for. -/
theorem valid_of_prototype_reached (reached : Reached (finds.machine ω) state) (call : ι)
    : Rendezvous.Valid (finds.job call) (finds.gather state call) := by
  refine reached.invariant
    (fun state => ∀ call, Rendezvous.Valid (finds.job call) (finds.gather state call)) ?_ ?_ call
  · intro call
    rw [gather_prototype_start]
    exact Rendezvous.valid_start _
  · intro label before after earlier valid _ moved call
    rcases gathered_of_step earlier valid moved call with same | stepped
    · exact same ▸ valid call
    · exact (valid call).step stepped

end Steps

end PplMe.Engine
