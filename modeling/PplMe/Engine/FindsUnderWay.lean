import PplMe.Engine.FindTermination

/-! Finds of which only some are under way.
Whoever calls is not bound to begin: the other calls have not begun, or have returned. Those
under way do not need them to go on.
-/

namespace PplMe.Engine

open PplMe.Core Stepping

variable {ι ω : Type*}

/-- A call is outside where it has not begun or has returned. -/
def CallerPc.Outside (pc : CallerPc) : Prop := pc = .idle ∨ ∃ ppl, pc = .returned ppl

/-- The process as if all other calls had returned. -/
def FindState.leaving (state : FindState ι ω) (underWay : ι → Bool) : FindState ι ω :=
  { state with
    callers := fun call => if underWay call then state.callers call else .returned [] }

-----------------------------------------------------------------------------------------
-- Calls outside
-----------------------------------------------------------------------------------------

section Outside

variable {state : FindState ι ω} {underWay : ι → Bool}

theorem leaving_callers_of_underWay {call : ι} (own : underWay call = true)
    : (state.leaving underWay).callers call = state.callers call := if_pos own

theorem leaving_callers_of_outside {call : ι} (other : underWay call = false)
    : (state.leaving underWay).callers call = .returned [] :=
  if_neg (Bool.eq_false_iff.mp other)

/-- Who is outside holds no mutex. -/
theorem CallerPc.Outside.holds {pc : CallerPc} (outside : pc.Outside)
    : ¬ pc.holdsContext ∧ ¬ pc.holdsWork := by
  rcases outside with rfl | ⟨ppl, rfl⟩ <;> exact ⟨id, id⟩

/-- So every call holds what it held. -/
theorem leaving_holds (outside : ∀ call, underWay call = false → (state.callers call).Outside)
    (call : ι)
    : (((state.leaving underWay).callers call).holdsContext
        ↔ (state.callers call).holdsContext)
      ∧ (((state.leaving underWay).callers call).holdsWork ↔ (state.callers call).holdsWork) := by
  cases own : underWay call with
  | true =>
      rw [leaving_callers_of_underWay own]
      exact ⟨Iff.rfl, Iff.rfl⟩
  | false =>
      have before := (outside call own).holds
      have after : ((state.leaving underWay).callers call).Outside :=
        .inr ⟨[], leaving_callers_of_outside own⟩
      exact ⟨iff_of_false after.holds.1 before.1, iff_of_false after.holds.2 before.2⟩

theorem leaving_locked (outside : ∀ call, underWay call = false → (state.callers call).Outside)
    (locked : state.Locked)
    : (state.leaving underWay).Locked where
  work thread := by
    refine (locked.work thread).trans ?_
    cases thread with
    | caller call => exact (leaving_holds outside call).2.symm
    | worker worker => exact Iff.rfl
  context call thread := by
    refine (locked.context call thread).trans ?_
    cases thread with
    | caller caller => exact and_congr_right fun _ => (leaving_holds outside caller).1.symm
    | worker worker => exact Iff.rfl

theorem leaving_sleepsSoundly {finds : Finds ι} (sound : state.SleepsSoundly finds)
    : (state.leaving underWay).SleepsSoundly finds where
  workers := sound.workers
  callers call site asleep := by
    cases own : underWay call with
    | true => exact sound.callers call site ((leaving_callers_of_underWay own).symm.trans asleep)
    | false => cases (leaving_callers_of_outside own).symm.trans asleep

end Outside

-----------------------------------------------------------------------------------------
-- Steps that do not depend on other calls
-----------------------------------------------------------------------------------------

section Steps

variable [DecidableEq ι] {finds : Finds ι} {left right : FindState ι ω}

/-- Whether a call can take its step depends on its program point, its context and the pool. -/
theorem findMatchingPplStep_isSome_congr {call : ι} (pool : left.pool = right.pool)
    (context : left.contexts call = right.contexts call)
    (at_pc : left.callers call = right.callers call)
    : (finds.findMatchingPplStep call left).isSome
      = (finds.findMatchingPplStep call right).isSome := by
  unfold Finds.findMatchingPplStep
  rw [pool, context, at_pc]
  cases right.callers call with
  | idle | wait site =>
      dsimp only
      split <;> rfl
  | asleep notified site => cases notified <;> simp only [Option.isSome_map]
  | enter site | queueEnter cell rest => simp only [Option.isSome_map]
  | _ => rfl

variable [DecidableEq ω]

/-- And a worklette's on its call's context. -/
theorem tryFindPplAsyncStep_isSome_congr {worker : ω} {progress : AsyncFind ι}
    (context
      : left.contexts progress.worklette.call = right.contexts progress.worklette.call)
    : (finds.tryFindPplAsyncStep worker progress left).isSome
      = (finds.tryFindPplAsyncStep worker progress right).isSome := by
  obtain ⟨worklette, stage⟩ := progress
  unfold Finds.tryFindPplAsyncStep
  dsimp only at context ⊢
  rw [context]
  cases stage with
  | enterCheck | enterAppend myPpl => simp only [Option.isSome_map]
  | check =>
      dsimp only
      split
      · split <;> rfl
      · rfl
  | leaveCheck done => cases done <;> rfl
  | search | append myPpl =>
      dsimp only
      split <;> rfl
  | leaveAppend => rfl

theorem workerStep_isSome_congr {worker : ω} (pool : left.pool = right.pool)
    (contexts : left.contexts = right.contexts)
    (at_pc : left.workers worker = right.workers worker)
    : (finds.workerStep worker left).isSome = (finds.workerStep worker right).isSome := by
  unfold Finds.workerStep
  rw [at_pc, pool]
  split
  · exact tryFindPplAsyncStep_isSome_congr (congrFun contexts _)
  · simp only [Option.isSome_map]

end Steps

-----------------------------------------------------------------------------------------
-- Progress of those under way
-----------------------------------------------------------------------------------------

section Progress

variable [DecidableEq ι] [DecidableEq ω] {finds : Finds ι} {state : FindState ι ω}
  {underWay : ι → Bool}

/-- A thread that can go on as if the calls outside had returned is not one of theirs, and can go
on.
-/
theorem enabled_of_leaving (running : state.crashed = none)
    (canMove : finds.CanMove (state.leaving underWay))
    : ∃ thread : Thread ι ω,
        (∀ call, thread = .caller call → underWay call = true)
        ∧ (finds.machine ω).Enabled (.run thread) state := by
  obtain ⟨thread, after, moved⟩ := canMove
  have runningStill : (state.leaving underWay).crashed = none := running
  refine ⟨thread, ?_⟩
  cases thread with
  | caller call =>
      have moved : finds.findMatchingPplStep call (state.leaving underWay) = some after := by
        simpa only [Finds.machine, Finds.step, runningStill] using moved
      have own : underWay call = true := by
        by_contra other
        rw [Finds.findMatchingPplStep,
          leaving_callers_of_outside (Bool.eq_false_iff.mpr other)] at moved
        cases moved
      have same
          : (finds.findMatchingPplStep call (state.leaving underWay)).isSome
            = (finds.findMatchingPplStep call state).isSome :=
        findMatchingPplStep_isSome_congr rfl rfl (leaving_callers_of_underWay own)
      have able := same.symm.trans (Option.isSome_of_eq_some moved)
      obtain ⟨next, stepped⟩ := Option.isSome_iff_exists.mp able
      refine ⟨fun other same => Thread.caller.inj same ▸ own, next, ?_⟩
      simp only [Finds.machine, Finds.step, running, stepped]
  | worker worker =>
      have moved : finds.workerStep worker (state.leaving underWay) = some after := by
        simpa only [Finds.machine, Finds.step, runningStill] using moved
      have same
          : (finds.workerStep worker (state.leaving underWay)).isSome
            = (finds.workerStep worker state).isSome :=
        workerStep_isSome_congr rfl rfl rfl
      have able := same.symm.trans (Option.isSome_of_eq_some moved)
      obtain ⟨next, stepped⟩ := Option.isSome_iff_exists.mp able
      refine ⟨fun call same => (by cases same), next, ?_⟩
      simp only [Finds.machine, Finds.step, running, stepped]

/-- As long as a call under way has not returned, a worker or a call under way can move. -/
theorem canMove_of_underWay [Fintype ω] [Nonempty ω] (answerable : finds.Answerable)
    (reached : Reached (finds.machine ω) state)
    (outside : ∀ call, underWay call = false → (state.callers call).Outside) {call : ι}
    (own : underWay call = true) (unreturned : ∀ ppl, state.callers call ≠ .returned ppl)
    : ∃ thread : Thread ι ω,
        (∀ call, thread = .caller call → underWay call = true)
        ∧ (finds.machine ω).Enabled (.run thread) state := by
  have running := crashed_of_reached answerable reached
  have same := @leaving_callers_of_underWay _ _ state _ _ own
  have locked := leaving_locked outside (locked_of_reached reached)
  refine enabled_of_leaving running ?_
  by_cases asleep : ∃ site, state.callers call = .asleep false site
  · obtain ⟨site, asleep⟩ := asleep
    have alive := alive_of_reached reached
    have gathers : finds.gather (state.leaving underWay) call = finds.gather state call := by
      unfold Finds.gather
      rw [same]
      rfl
    have valid := gathers.symm ▸ valid_of_reached reached call
    exact canMove_of_asleep valid running locked
      (leaving_sleepsSoundly (sleepsSoundly_of_reached reached)) ⟨alive.die, alive.going⟩
      (same.trans asleep)
  · refine canMove_of_unreturned call running locked ?_ ?_
    · exact fun site sleeping => asleep ⟨site, same.symm.trans sleeping⟩
    · exact fun ppl returned => unreturned ppl (same.symm.trans returned)

/-- Only its own steps take a call in from outside. -/
theorem outside_of_step {label : FindLabel ι ω} {after : FindState ι ω} {call : ι}
    (moved : (finds.machine ω).step label state = some after)
    (other : label ≠ .run (.caller call)) (outside : (state.callers call).Outside)
    : (after.callers call).Outside := by
  have notified : (state.callers call).notify.Outside := by
    rcases outside with idle | ⟨ppl, returned⟩
    · exact .inl (by rw [idle]; rfl)
    · exact .inr ⟨ppl, by rw [returned]; rfl⟩
  have bystander (stood : state.Bystander after (.caller call)) : (after.callers call).Outside := by
    rcases stood with same | same
    · exact same.symm ▸ outside
    · exact same.symm ▸ notified
  cases (move_of_step moved).2 with
  | @caller mover _ moved =>
      refine bystander (moved.bystander fun same => other ?_)
      exact congrArg FindLabel.run same.symm
  | worker moved => exact bystander (moved.bystander nofun)
  | callerCrash | workerCrash => exact outside
  | wakeCaller => exact bystander (bystander_wakeCaller state _ _)
  | wakeWorker => exact bystander (bystander_wakeWorker state _ _)

end Progress

end PplMe.Engine
