import PplMe.Engine.FindsOnGrid
import PplMe.Foundation.Settling

/-! What a find can return.
The cells of a call wait in the pool's queue, which is the line of its gather, and the workers take
them from there. So the people returned are those of its cells in one of the orders in which so
many workers can complete them.
-/

namespace PplMe.Engine

open PplMe.Core Stepping DistributedSums Gathering

-----------------------------------------------------------------------------------------
-- The line of a call
-----------------------------------------------------------------------------------------

section Lines

variable {ι : Type*} [DecidableEq ι]

/-- The queued cells of a call, from the front of the queue on. -/
def lineOf (call : ι) (work : List (Worklette ι)) : List CellLocator :=
  (work.filter fun worklette => worklette.call = call).map Worklette.cell

/-- A cell that is to be queued next. -/
@[simp] def CallerPc.queueingLine : CallerPc → List CellLocator
  | .queueEnter cell _ | .queuePush cell _ => [cell]
  | _ => []

@[simp] theorem queueingLine_notify (pc : CallerPc) : pc.notify.queueingLine = pc.queueingLine := by
  cases pc <;> rfl

/-- As many as are queueing. -/
theorem coe_queueingLine (pc : CallerPc)
    : (pc.queueingLine : Multiset CellLocator) = pc.queueing := by
  cases pc <;> rfl

theorem lineOf_append (call : ι) (work more : List (Worklette ι))
    : lineOf call (work ++ more) = lineOf call work ++ lineOf call more := by
  simp [lineOf]

theorem lineOf_singleton_self (call : ι) (cell : CellLocator)
    : lineOf call [⟨call, cell⟩] = [cell] := by
  simp [lineOf]

theorem lineOf_cons_self {call : ι} {worklette : Worklette ι} (own : worklette.call = call)
    (rest : List (Worklette ι))
    : lineOf call (worklette :: rest) = worklette.cell :: lineOf call rest := by
  simp [lineOf, own]

theorem lineOf_cons_other {call : ι} {worklette : Worklette ι} (other : worklette.call ≠ call)
    (rest : List (Worklette ι))
    : lineOf call (worklette :: rest) = lineOf call rest := by
  simp [lineOf, other]

/-- The same cells as a multiset, by induction on the queue. -/
theorem coe_lineOf (call : ι) (work : List (Worklette ι))
    : (lineOf call work : Multiset CellLocator) = queuedCells call work := by
  induction work with
  | nil => rfl
  | cons worklette rest ih =>
      by_cases own : worklette.call = call
      · rw [lineOf_cons_self own, queuedCells_cons, ← ih, Worklette.cellOf, if_pos own,
          Multiset.singleton_add, Multiset.cons_coe]
      · rw [lineOf_cons_other own, queuedCells_cons, ih, Worklette.cellOf, if_neg own, zero_add]

/-- A worker has one cell of a call at most. -/
theorem card_shares_le (call : ι) (pc : FindWorkerPc ι)
    : (freshShare call pc).card + (searchingShare call pc).card ≤ 1 := by
  have one (worklette : Worklette ι) : (worklette.cellOf call).card ≤ 1 := by
    unfold Worklette.cellOf
    split <;> simp
  cases pc with
  | leave worklette =>
      cases worklette with
      | none => exact Nat.zero_le _
      | some worklette => exact one worklette
  | running progress =>
      obtain ⟨worklette, stage⟩ := progress
      cases stage with
      | leaveCheck done =>
          cases done with
          | true => exact Nat.zero_le _
          | false => simpa [freshShare, searchingShare] using one worklette
      | leaveAppend => exact Nat.zero_le _
      | _ => simpa [freshShare, searchingShare] using one worklette
  | _ => exact Nat.zero_le _

end Lines

section Views

variable {ι ω : Type*} [DecidableEq ι] [Fintype ω] {finds : Finds ι} {state after : FindState ι ω}

/-- A call's gather with its line. -/
def Finds.lined (finds : Finds ι) (state : FindState ι ω) (call : ι)
    : Lined CellLocator Person where
  gather := finds.gather state call
  line := lineOf call state.pool.work ++ (state.callers call).queueingLine

/-- A searched cell is in no line, and whatever is not in line is with a worker. -/
theorem line_of_valid {call : ι} (valid : Valid (finds.job call) (finds.gather state call))
    : (∀ cell ∈ (finds.gather state call).searching, cell ∉ (finds.lined state call).line)
      ∧ (finds.gather state call).pending.card
        ≤ (finds.lined state call).line.length + Fintype.card ω := by
  obtain ⟨_, _, accounts⟩ := valid
  have inFlight := accounts.inFlight
  have waiting : ((finds.lined state call).line : Multiset CellLocator)
        + ∑ worker, freshShare call (state.workers worker)
      = (finds.gather state call).fresh := by
    rw [Finds.lined, ← Multiset.coe_add, coe_lineOf, coe_queueingLine]
    rfl
  constructor
  · intro cell searched waits
    have distinct := (finds.gather state call).pending.nodup
    rw [← inFlight, ← waiting] at distinct
    have apart := (Multiset.nodup_add.mp distinct).2.2
    exact Multiset.disjoint_left.mp apart
      (Multiset.mem_add.mpr (.inl (Multiset.mem_coe.mpr waits))) searched
  · have shares : ∑ worker, ((freshShare call (state.workers worker)).card
          + (searchingShare call (state.workers worker)).card)
        ≤ Fintype.card ω := by
      have bound := Finset.sum_le_card_nsmul Finset.univ
        (fun worker => (freshShare call (state.workers worker)).card
          + (searchingShare call (state.workers worker)).card) 1
        fun worker _ => card_shares_le call (state.workers worker)
      simpa only [Finset.card_univ, nsmul_eq_mul, Nat.cast_id, mul_one] using bound
    have count := congrArg Multiset.card inFlight
    rw [← waiting, Finset.card_val] at count
    simp only [Finds.gather, Multiset.card_add, Multiset.coe_card, Multiset.card_sum,
      Finset.sum_add_distrib] at count shares ⊢
    omega

/-- A step of a gather that offers nothing leaves the line as it is. -/
theorem linedStep_of_step {call : ι}
    (valid : Valid (finds.job call) (finds.gather state call))
    (stepped : Step (finds.job call) (finds.gather state call) (finds.gather after call))
    (unoffered : (after.contexts call).pendingCells ⊆ (state.contexts call).pendingCells)
    (line : (finds.lined after call).line = (finds.lined state call).line)
    : LinedStep (finds.job call) (Fintype.card ω) (finds.lined state call)
        (finds.lined after call) := by
  obtain ⟨taken, manned⟩ := line_of_valid valid
  obtain ⟨_, _, accounts⟩ := valid
  have moved : LinedStep (finds.job call) (Fintype.card ω) (finds.lined state call)
      ⟨finds.gather after call, (finds.lined state call).line⟩ :=
    .other stepped unoffered taken accounts.width manned
  rwa [← line] at moved

end Views

-----------------------------------------------------------------------------------------
-- Moves
-----------------------------------------------------------------------------------------

section Moves

variable {ι ω : Type*} [DecidableEq ι] [Fintype ω] {finds : Finds ι} {state after : FindState ι ω}

/-- Only its own call sees what a call queues. -/
theorem CallerMove.lined_frame {call other : ι} (moved : CallerMove finds call state after)
    (different : other ≠ call)
    : finds.lined after other = finds.lined state other := by
  have gather := moved.frame different
  have pc := moved.others different
  have work : lineOf other after.pool.work = lineOf other state.pool.work := by
    cases moved with
    | @queuePush cell rest at_pc =>
        refine (lineOf_append other state.pool.work [⟨call, cell⟩]).trans ?_
        rw [lineOf_cons_other different.symm]
        exact List.append_nil _
    | _ => rfl
  rw [Finds.lined, Finds.lined, gather, pc, work]

/-- A move of a call offers a cell, or leaves the line as it is. -/
theorem CallerMove.lined_simulated {call : ι}
    (valid : Valid (finds.job call) (finds.gather state call))
    (moved : CallerMove finds call state after)
    : finds.lined after call = finds.lined state call
      ∨ LinedStep (finds.job call) (Fintype.card ω) (finds.lined state call)
          (finds.lined after call) := by
  have unoffered (pending : (after.contexts call).pendingCells = (state.contexts call).pendingCells)
      (line : (finds.lined after call).line = (finds.lined state call).line)
      : finds.lined after call = finds.lined state call
        ∨ LinedStep (finds.job call) (Fintype.card ω) (finds.lined state call)
            (finds.lined after call) := by
    rcases moved.simulated valid with same | stepped
    · exact .inl (congrArg₂ Lined.mk same line)
    · exact .inr (linedStep_of_step valid stepped pending.subset line)
  cases moved with
  | @insert cell rest at_pc notFull going room new =>
      have stepped : LinedStep (finds.job call) (Fintype.card ω) (finds.lined state call) _ :=
        .offer (by simp [Finds.lined, Finds.gather, at_pc]) going
          (show (finds.gather state call).remaining = cell :: rest by simp [Finds.gather, at_pc])
          new
      right
      convert stepped using 1
      simp [Finds.lined, Finds.gather, at_pc, ← Multiset.singleton_add,
        add_assoc, add_left_comm]
  | @queuePush cell rest at_pc =>
      refine unoffered (by simp) ?_
      simp [Finds.lined, at_pc, lineOf_append, lineOf_singleton_self]
  | lock at_pc free =>
      refine unoffered (by simp) ?_
      rcases at_pc with at_pc | at_pc <;> simp [Finds.lined, at_pc]
  | @tryLeave rest at_pc =>
      refine unoffered (by simp) ?_
      cases done : (state.contexts call).weDoneHere <;> cases rest <;>
        simp [Finds.lined, at_pc, CallerPc.nextCell]
  | @start origin at_pc _ =>
      refine unoffered (by simp) ?_
      cases cells : sqiralCells finds.settings.resolution origin <;>
        simp [Finds.lined, at_pc, CallerPc.nextCell]
  | sleep at_pc _ | stop at_pc _ | skip at_pc _ | stopped at_pc _
  | finish at_pc _ | queueEnter at_pc _ | queueLeave at_pc | finalLeave at_pc =>
      exact unoffered (by simp) (by simp [Finds.lined, at_pc])

/-- A move of a worker that takes nothing from the queue leaves all lines as they are. -/
theorem lined_line_of_work (work : after.pool.work = state.pool.work)
    (callers
      : ∀ call,
          after.callers call = state.callers call
          ∨ after.callers call = (state.callers call).notify)
    (call : ι)
    : (finds.lined after call).line = (finds.lined state call).line := by
  rw [Finds.lined, Finds.lined, work]
  rcases callers call with same | same
  · rw [same]
  · rw [same, queueingLine_notify]

omit [DecidableEq ι] [Fintype ω] in
/-- A worker in its loop takes the front of the queue, or leaves it as it is. -/
theorem StartWorking.work {self : Thread ι ω} {pool next pc after}
    (looped
      : StartWorking (fun worklette => (⟨worklette, .enterCheck⟩ : AsyncFind ι)) self pool pc
          next after)
    : next.work = pool.work ∨ ∃ worklette, pool.work = worklette :: next.work := by
  cases looped with
  | take _ _ work => exact .inr ⟨_, work⟩
  | _ => exact .inl rfl

variable [DecidableEq ω]

/-- So it takes the front of the line of one call, at most. -/
theorem lined_loop {worker : ω} {pool pc}
    (looped
      : StartWorking (fun worklette => (⟨worklette, .enterCheck⟩ : AsyncFind ι))
          (Thread.worker worker) state.pool (state.workers worker) pool pc)
    : finds.lined ({ state with pool }.setWorker worker pc) = finds.lined state
      ∨ Interleaved (fun call => LinedStep (finds.job call) (Fintype.card ω)) (finds.lined state)
          (finds.lined ({ state with pool }.setWorker worker pc)) := by
  have gather (call : ι) := @gather_loop _ _ _ _ finds state _ worker pool pc looped call
  rcases looped.work with same | ⟨worklette, front⟩
  · left
    funext call
    rw [Finds.lined, Finds.lined, gather call]
    simp only [FindState.setWorker_pool, FindState.setWorker_callers, same]
  · refine .inr ⟨worklette.call, ?_, fun other different => ?_⟩
    · have taken : LinedStep (finds.job worklette.call) (Fintype.card ω)
          (finds.lined state worklette.call) _ :=
        .take (by rw [Finds.lined, front, lineOf_cons_self rfl, List.cons_append])
      convert taken using 1
      rw [Finds.lined, gather]
      rfl
    · rw [Finds.lined, Finds.lined, gather other, front, lineOf_cons_other different.symm]
      rfl

/-- All other moves of a worker show in one gather at most. -/
theorem WorkerMove.lined_simulated {worker : ω} (carries : finds.Carries state)
    (valid : ∀ call, Valid (finds.job call) (finds.gather state call))
    (moved : WorkerMove finds worker state after)
    : finds.lined after = finds.lined state
      ∨ Interleaved (fun call => LinedStep (finds.job call) (Fintype.card ω)) (finds.lined state)
          (finds.lined after) := by
  have untaken (work : after.pool.work = state.pool.work)
      (unoffered
        : ∀ call, (after.contexts call).pendingCells ⊆ (state.contexts call).pendingCells)
      : finds.lined after = finds.lined state
        ∨ Interleaved (fun call => LinedStep (finds.job call) (Fintype.card ω))
            (finds.lined state) (finds.lined after) := by
    have line := @lined_line_of_work _ _ _ _ finds state after work moved.callers
    rcases moved.simulated carries with same | ⟨call, stepped, others⟩
    · exact .inl (funext fun call => congrArg₂ Lined.mk (congrFun same call) (line call))
    · refine .inr ⟨call, linedStep_of_step (valid call) stepped (unoffered call) (line call),
        fun other different => ?_⟩
      exact congrArg₂ Lined.mk (others other different) (line other)
  have erased (worklette : Worklette ι) (context : FindContext ι ω) (call : ι)
      (pending
        : context.pendingCells
          = (state.contexts worklette.call).pendingCells.erase worklette.cell)
      : (Function.update state.contexts worklette.call context call).pendingCells
        ⊆ (state.contexts call).pendingCells := by
    by_cases own : call = worklette.call
    · subst own
      rw [Function.update_self, pending]
      exact Finset.erase_subset _ _
    · rw [Function.update_of_ne own]
  have same (owner call : ι) (context : FindContext ι ω)
      (pending : context.pendingCells = (state.contexts owner).pendingCells)
      : (Function.update state.contexts owner context call).pendingCells
        ⊆ (state.contexts call).pendingCells := by
    by_cases own : call = owner
    · subst own
      rw [Function.update_self, pending]
    · rw [Function.update_of_ne own]
  cases moved with
  | loop looped => exact lined_loop looped
  | goOn _ _ | search _ _ => exact untaken rfl fun _ => Finset.Subset.refl _
  | drop _ _ _ | append _ _ => exact untaken rfl fun call => erased _ _ call rfl
  | lock _ _ _ | unlockSearch _ | unlockEnd _ _ => exact untaken rfl fun call => same _ call _ rfl

end Moves

-----------------------------------------------------------------------------------------
-- Runs
-----------------------------------------------------------------------------------------

section Runs

variable {ι ω : Type*} [DecidableEq ι] [DecidableEq ω] [Fintype ω] {finds : Finds ι}
  {state : FindState ι ω}

/-- The process serves the calls' lines. -/
theorem simulates_lined
    : Simulates (finds.machine ω) finds.lined
        (Interleaved (fun call => LinedStep (finds.job call) (Fintype.card ω)))
        (fun _ => True) := by
  intro label before after earlier _ moved
  have valid (call : ι) := valid_of_reached earlier call
  cases (move_of_step moved).2 with
  | @caller call _ moved =>
      rcases moved.lined_simulated (valid call) with same | stepped
      · refine .inl (funext fun other => ?_)
        by_cases own : other = call
        · exact own ▸ same
        · exact moved.lined_frame own
      · exact .inr ⟨call, stepped, fun other different => moved.lined_frame different⟩
  | worker moved => exact moved.lined_simulated (carries_of_reached earlier) valid
  | callerCrash | workerCrash => exact .inl rfl
  | @wakeCaller call site asleep =>
      have line (other : ι)
          : (finds.lined (before.notifyCaller call) other).line
            = (finds.lined before other).line :=
        @lined_line_of_work _ _ _ _ _ before (before.notifyCaller call) rfl
          (fun caller => bystander_wakeCaller before call (.caller caller)) other
      exact .inl (funext fun other => congrArg₂ Lined.mk (gather_notifyCaller _ _) (line other))
  | @wakeWorker worker asleep =>
      refine .inl (funext fun other => congrArg₂ Lined.mk ?_ rfl)
      exact gather_setWorker (freshShare_notify other _) (searchingShare_notify other _)

/-- In every reached state each call's people are those of its cells in a possible order. -/
theorem orderly_of_reached [Nonempty ω] (reached : Reached (finds.machine ω) state) (call : ι)
    : Orderly (finds.job call) (Fintype.card ω) (finds.lined state call) := by
  let orderly (lined : ι → Lined CellLocator Person) : Prop :=
    ∀ call, Orderly (finds.job call) (Fintype.card ω) (lined call)
  refine (((@simulates_lined ι ω _ _ _ finds).strengthen orderly).invariant ?_ ?_ reached).2 call
  · refine ⟨trivial, fun call => ?_⟩
    have same : finds.lined (finds.machine ω).start call = ⟨(finds.job call).start, []⟩ :=
      congrArg₂ Lined.mk (gather_start call) rfl
    exact same ▸ orderly_start _ _
  · intro before after holds stepped
    refine ⟨trivial, stepped.invariant (fun call _ _ => ?_) holds.2⟩
    exact Orderly.step (lt_min finds.settings.perFindConcurrencyPositive Fintype.card_pos)

end Runs

end PplMe.Engine
