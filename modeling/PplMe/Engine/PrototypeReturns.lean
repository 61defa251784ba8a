import PplMe.Engine.PrototypeRendezvous

/-! What calls of a prototype provider return when their worklettes are back in time. -/

namespace PplMe.Engine

open PplMe.Core Stepping

variable {ι ω : Type*} [DecidableEq ι] [DecidableEq ω] {finds : PrototypeFinds ι}
  {state after : PrototypeState ι ω}

/-- When the call gives up waiting, no pending op is left: all its asynchronous finds have
completed within the second.
-/
def InTime (call : ι) (label : PrototypeLabel ι ω) (state : PrototypeState ι ω) : Prop :=
  label = .run (.caller call)
  → (state.calls call).pc = .clear
  → (state.calls call).orchestration.pendingOps = 0

omit [DecidableEq ω] in
/-- A call moves no other call. -/
theorem PrototypeCallMove.others {call other : ι}
    (moved : PrototypeCallMove finds call state after) (different : other ≠ call)
    : after.calls other = state.calls other := by
  cases moved <;> simp [different]

/-- A worker does not clear a call's pointer, and at most notifies the call. -/
theorem PrototypeWorkerMove.calls {worker : ω}
    (moved : PrototypeWorkerMove finds worker state after) (call : ι)
    : (after.calls call).orchestration.ppl = (state.calls call).orchestration.ppl
      ∧ ((after.calls call).pc = (state.calls call).pc
        ∨ (after.calls call).pc = (state.calls call).pc.notify) := by
  have updated {owner : ι} {next : PrototypeCall ι ω}
      (pointer : next.orchestration.ppl = (state.calls owner).orchestration.ppl)
      (pc
        : next.pc = (state.calls owner).pc ∨ next.pc = (state.calls owner).pc.notify)
      : (Function.update state.calls owner next call).orchestration.ppl
          = (state.calls call).orchestration.ppl
        ∧ ((Function.update state.calls owner next call).pc = (state.calls call).pc
          ∨ (Function.update state.calls owner next call).pc
            = (state.calls call).pc.notify) := by
    by_cases own : call = owner
    · subst own
      rw [Function.update_self]
      exact ⟨pointer, pc⟩
    · rw [Function.update_of_ne own]
      exact ⟨rfl, Or.inl rfl⟩
  cases moved with
  | lock at_pc entering free =>
      obtain ⟨_, rfl⟩ := PrototypeCall.lock_eq_some_iff.mp free
      exact updated rfl (Or.inl rfl)
  | giveUp at_pc deaf => exact updated rfl (Or.inr rfl)
  | unlockSearch at_pc => exact updated rfl (Or.inl rfl)
  | unlockEnd at_pc ending => exact updated rfl (Or.inl rfl)
  | @append worklette resultslette at_pc =>
      refine updated ?_ (Or.inr ?_)
      · simp [PrototypeCall.doneOne]
      · unfold PrototypeCall.doneOne PrototypeCall.append
        split <;> rfl
  | _ => exact ⟨rfl, Or.inl rfl⟩

/-- Only the call itself clears its pointer, and at one point. -/
theorem clears_of_step {label : PrototypeLabel ι ω} {call : ι}
    (moved : finds.step label state = some after)
    (was : (state.calls call).orchestration.ppl = true)
    (cleared : (after.calls call).orchestration.ppl = false)
    : label = .run (.caller call) ∧ (state.calls call).pc = .clear := by
  have kept (same : (after.calls call).orchestration.ppl = (state.calls call).orchestration.ppl)
      : label = .run (.caller call) ∧ (state.calls call).pc = .clear := by
    cases cleared.symm.trans (same.trans was)
  cases prototype_move_of_step moved with
  | @call mover _ moved =>
      by_cases own : call = mover
      · subst own
        cases moved with
        | clear at_pc => exact ⟨rfl, at_pc⟩
        | lock entering free =>
            obtain ⟨_, rfl⟩ := PrototypeCall.lock_eq_some_iff.mp free
            exact kept (by simp [PrototypeCall.goTo])
        | _ =>
            exact kept (by
              simp [PrototypeCall.goTo, PrototypeCall.unlock, PrototypeCall.countOne])
      · exact kept (congrArg (fun call => call.orchestration.ppl) (moved.others own))
  | worker moved => exact kept (moved.calls call).1
  | crash => exact kept rfl
  | @wakeCall mover asleep =>
      by_cases own : call = mover
      · subst own
        exact kept (by simp [PrototypeCall.goTo])
      · exact kept (by simp [own])
  | wakeWorker asleep => exact kept rfl
  | @expire mover wait at_pc =>
      by_cases own : call = mover
      · subst own
        exact kept (by simp [PrototypeCall.goTo])
      · exact kept (by simp [own])

variable [Fintype ω]

/-- A call that has given up waiting has cleared its pointer, and one that has returned has
returned its people for good.
-/
structure Settled (finds : PrototypeFinds ι) (state : PrototypeState ι ω) (call : ι) : Prop where
  leaving
    : (state.calls call).pc = .leaveWait → (finds.gather state call).listening = false
  returned
    : ∀ ppl, (state.calls call).pc = .returned ppl
        → (finds.gather state call).items = ppl
          ∧ ((finds.gather state call).listening = false ∨ (finds.job call).keys = [])

omit [DecidableEq ω] in
/-- A call settles by two of its own moves only. -/
theorem PrototypeCallMove.settled {call : ι} (settled : Settled finds state call)
    (moved : PrototypeCallMove finds call state after)
    : Settled finds after call := by
  have elsewhere {pc : PrototypePc}
      (here : (after.calls call).pc = pc)
      (passing : pc ≠ .leaveWait ∧ ∀ ppl, pc ≠ .returned ppl)
      : Settled finds after call :=
    ⟨fun at_pc => absurd (here.symm.trans at_pc) passing.1,
      fun ppl at_pc => absurd (here.symm.trans at_pc) (passing.2 ppl)⟩
  cases moved with
  | @start ppl cells at_pc begun =>
      cases cells with
      | nil =>
          have known : finds.begun call = (ppl, []) := by rw [PrototypeFinds.begun, begun]
          refine ⟨fun leaving => ?_, fun returned at_pc => ?_⟩
          · simp [PrototypePc.firstCell] at leaving
          · simp only [PrototypeState.setCall_calls, Function.update_self,
              PrototypePc.firstCell, PrototypePc.returned.injEq] at at_pc
            refine ⟨?_, Or.inr (by rw [PrototypeFinds.job, known])⟩
            simp [PrototypeFinds.gather, PrototypeFinds.view, PrototypePc.firstCell, at_pc]
      | cons cell rest =>
          apply elsewhere (congrArg PrototypeCall.pc (Function.update_self call _ state.calls))
          simp [PrototypePc.firstCell]
  | @lock pc locked entering free =>
      generalize (state.calls call).pc = earlier at entering
      apply elsewhere (congrArg PrototypeCall.pc (Function.update_self call _ state.calls))
      cases entering <;> simp [PrototypeCall.goTo]
  | @queueLeave rest at_pc =>
      apply elsewhere (congrArg PrototypeCall.pc (Function.update_self call _ state.calls))
      cases rest <;> simp [PrototypeCall.goTo, PrototypePc.nextCell]
  | clear at_pc =>
      refine ⟨fun _ => ?_, fun ppl at_pc => ?_⟩
      · simp [PrototypeFinds.gather, PrototypeFinds.view, PrototypeCall.goTo,
          PrototypeCall.stopListening]
      · simp [PrototypeCall.goTo] at at_pc
  | leaveWait at_pc =>
      refine ⟨fun leaving => ?_, fun ppl returned => ?_⟩
      · simp [PrototypeCall.goTo] at leaving
      · simp only [PrototypeState.setCall_calls, Function.update_self, PrototypeCall.goTo,
          PrototypePc.returned.injEq] at returned
        have closed := settled.leaving at_pc
        refine ⟨?_, Or.inl ?_⟩
        · simp [PrototypeFinds.gather, PrototypeFinds.view, PrototypeCall.goTo,
            PrototypeCall.unlock, returned]
        · simpa [PrototypeFinds.gather, PrototypeFinds.view, PrototypeCall.goTo,
            PrototypeCall.unlock] using closed
  | count at_pc | leaveCount at_pc | queueEnter at_pc _ | queuePush at_pc | drained at_pc _
  | sleep at_pc =>
      apply elsewhere (congrArg PrototypeCall.pc (Function.update_self call _ state.calls))
      simp [PrototypeCall.goTo]

/-- Notifications neither make a call leave nor return. -/
theorem PrototypePc.notify_eq_iff {pc other : PrototypePc}
    (notWaiting : ∀ wait, other ≠ .waiting wait)
    : pc.notify = other ↔ pc = other := by
  unfold PrototypePc.notify
  split
  · exact iff_of_false (notWaiting _).symm (notWaiting _).symm
  · rfl

omit [DecidableEq ω] in
/-- A call that only others move keeps its pointer and, once it listens no more, its people. -/
theorem Settled.keep {call : ι} (settled : Settled finds state call)
    (valid : Rendezvous.Valid (finds.job call) (finds.gather state call))
    (gathered
      : finds.gather after call = finds.gather state call
        ∨ Rendezvous.Step (finds.job call) (finds.gather state call)
            (finds.gather after call))
    (pointer : (after.calls call).orchestration.ppl = (state.calls call).orchestration.ppl)
    (notified
      : (after.calls call).pc = (state.calls call).pc
        ∨ (after.calls call).pc = (state.calls call).pc.notify)
    : Settled finds after call := by
  have back {pc : PrototypePc} (at_pc : (after.calls call).pc = pc)
      (notWaiting : ∀ wait, pc ≠ .waiting wait)
      : (state.calls call).pc = pc := by
    rcases notified with same | notified
    · exact same.symm.trans at_pc
    · exact (PrototypePc.notify_eq_iff notWaiting).mp (notified.symm.trans at_pc)
  refine ⟨fun leaving => ?_, fun ppl returned => ?_⟩
  · exact pointer.trans (settled.leaving (back leaving nofun))
  · obtain ⟨items, closed⟩ := settled.returned ppl (back returned nofun)
    refine ⟨?_, closed.imp pointer.trans id⟩
    rcases gathered with same | stepped
    · exact (congrArg Rendezvous.Gather.items same).trans items
    · exact (stepped.items_of_settled valid closed).trans items

/-- Settled calls stay settled, whoever moves. -/
theorem settled_of_reached (reached : Reached (finds.machine ω) state) (call : ι)
    : Settled finds state call := by
  refine reached.invariant (fun state => ∀ call, Settled finds state call) ?_ ?_ call
  · intro call
    refine ⟨fun leaving => ?_, fun ppl returned => ?_⟩
    · cases leaving
    · cases returned
  · intro label before after earlier settled _ moved call
    have valid := valid_of_prototype_reached earlier call
    have gathered := gathered_of_step earlier (valid_of_prototype_reached earlier) moved call
    cases prototype_move_of_step moved with
    | @call mover _ moved =>
        by_cases own : call = mover
        · exact own ▸ moved.settled (own ▸ settled call)
        · have same := moved.others own
          exact (settled call).keep valid gathered (by rw [same]) (Or.inl (by rw [same]))
    | worker moved =>
        obtain ⟨sameGather, sameCall⟩ := moved.calls call
        exact (settled call).keep valid gathered sameGather sameCall
    | crash | wakeWorker asleep => exact (settled call).keep valid gathered rfl (Or.inl rfl)
    | @wakeCall mover asleep =>
        by_cases own : call = mover
        · subst own
          refine (settled call).keep valid gathered ?_ (Or.inr ?_)
          · simp [PrototypeCall.goTo]
          · simp [PrototypeCall.goTo, PrototypePc.notify, asleep]
        · exact (settled call).keep valid gathered (by simp [own]) (Or.inl (by simp [own]))
    | @expire mover wait at_pc =>
        by_cases own : call = mover
        · subst own
          refine ⟨fun leaving => ?_, fun ppl returned => ?_⟩
          · simp [PrototypeCall.goTo] at leaving
          · simp [PrototypeCall.goTo] at returned
        · exact (settled call).keep valid gathered (by simp [own]) (Or.inl (by simp [own]))

omit [Fintype ω] in
/-- Only a call's own find can take it from its first point. -/
theorem begun_of_step {label : PrototypeLabel ι ω} {call : ι}
    (moved : finds.step label state = some after) (idle : (state.calls call).pc = .idle)
    : (after.calls call).pc = .idle ∨ ∃ begun, finds.beginFind call = .ok (some begun) := by
  cases prototype_move_of_step moved with
  | @call mover _ moved =>
      by_cases own : call = mover
      · subst own
        cases moved with
        | start at_pc begun => exact Or.inr ⟨_, begun⟩
        | lock entering free => cases idle ▸ entering
        | count at_pc | leaveCount at_pc | queueEnter at_pc _ | queuePush at_pc
        | queueLeave at_pc | drained at_pc _ | sleep at_pc | clear at_pc | leaveWait at_pc =>
            cases idle.symm.trans at_pc
      · exact Or.inl (moved.others own ▸ idle)
  | worker moved =>
      rcases (moved.calls call).2 with same | notified
      · exact Or.inl (same.trans idle)
      · exact Or.inl (notified.trans (congrArg PrototypePc.notify idle))
  | crash | wakeWorker asleep => exact Or.inl idle
  | @wakeCall mover at_pc =>
      have other : call ≠ mover := fun own => by cases idle.symm.trans (own ▸ at_pc)
      exact Or.inl (by simpa [other] using idle)
  | @expire mover wait at_pc =>
      have other : call ≠ mover := fun own => by cases idle.symm.trans (own ▸ at_pc)
      exact Or.inl (by simpa [other] using idle)

omit [Fintype ω] in
/-- A call that has left its first point has begun its find. -/
theorem begun_of_reached (reached : Reached (finds.machine ω) state) (call : ι)
    : (state.calls call).pc = .idle ∨ ∃ begun, finds.beginFind call = .ok (some begun) := by
  refine reached.invariant
    (fun state => (state.calls call).pc = .idle
      ∨ ∃ begun, finds.beginFind call = .ok (some begun)) (Or.inl rfl) ?_
  intro label before after _ begun _ moved
  exact begun.elim (begun_of_step moved) Or.inr

/-- In runs in which a call's worklettes are back in time, none is missed. -/
theorem complete_of_inTime {call : ι}
    (reached : ReachedBy (finds.machine ω) (InTime call) state)
    : Rendezvous.Complete (finds.job call) (finds.gather state call) := by
  induction reached with
  | start =>
      rw [gather_prototype_start]
      exact Rendezvous.complete_start _
  | @next before after label earlier admitted moved ih =>
      have valid := valid_of_prototype_reached earlier.reached
      rcases gathered_of_step earlier.reached valid moved call with same | stepped
      · exact same ▸ ih
      · refine ih.step stepped (fun was cleared => ?_)
        obtain ⟨own, at_pc⟩ := clears_of_step moved was cleared
        exact admitted own at_pc

/-- A call whose worklettes are back in time returns the people of the user's cell, and then
those of each nearby cell once, in the order in which the worklettes came back.
-/
theorem returned_of_inTime {call : ι} {ppl : List Person}
    (reached : ReachedBy (finds.machine ω) (InTime call) state)
    (returned : (state.calls call).pc = .returned ppl)
    : ∃ delivered : List CellLocator,
        delivered.Perm (finds.job call).keys
        ∧ ppl = (finds.job call).first ++ delivered.flatMap (finds.job call).found := by
  obtain ⟨items, closed⟩ := (settled_of_reached reached.reached call).returned ppl returned
  exact items ▸ (complete_of_inTime reached).items closed

end PplMe.Engine
