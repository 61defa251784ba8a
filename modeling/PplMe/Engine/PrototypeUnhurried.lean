import PplMe.Engine.PrototypeTermination

/-! Finds on a prototype provider whose second is never over.
Such a find has no pending op left when it stops waiting. It looks at the pending ops under its
mutex and clears its pointer before it releases it, and no worklette comes between.
-/

namespace PplMe.Engine

open PplMe.Core Stepping

section Unhurried

variable {ι ω : Type*} [DecidableEq ι] [DecidableEq ω] {finds : PrototypeFinds ι}
  {state after : PrototypeState ι ω} {call : ι}

/-- The call's second is not over. -/
def Unhurried (call : ι) (label : PrototypeLabel ι ω) (_ : PrototypeState ι ω) : Prop :=
  label ≠ .expire call

/-- A call that stops waiting has nothing left to wait for. -/
structure Patient (call : PrototypeCall ι ω) : Prop where
  unexpired : call.pc ≠ .waiting .expired
  drained : call.pc = .clear → call.orchestration.pendingOps = 0

omit [DecidableEq ω] in
/-- A call's own moves keep it patient: to its clearing it comes from its check. -/
theorem PrototypeCallMove.patient (patient : Patient (state.calls call))
    (moved : PrototypeCallMove finds call state after)
    : Patient (after.calls call) := by
  have elsewhere {pc : PrototypePc} (here : (after.calls call).pc = pc)
      (passing : pc ≠ .waiting .expired ∧ pc ≠ .clear)
      : Patient (after.calls call) :=
    ⟨here ▸ passing.1, fun clearing => absurd (here.symm.trans clearing) passing.2⟩
  have here (next : PrototypeCall ι ω)
      : (Function.update state.calls call next call).pc = next.pc :=
    congrArg PrototypeCall.pc (Function.update_self call next state.calls)
  cases moved with
  | @start ppl cells at_pc begun =>
      refine elsewhere (here _) ?_
      cases cells <;> simp [PrototypePc.firstCell]
  | @lock pc locked entering free =>
      refine elsewhere (here _) ?_
      have unexpired := patient.unexpired
      generalize (state.calls call).pc = earlier at entering unexpired
      cases entering with
      | expired => exact absurd rfl unexpired
      | _ => simp [PrototypeCall.goTo]
  | drained at_pc none =>
      refine ⟨?_, fun _ => ?_⟩
      · simp [PrototypeCall.goTo]
      · simpa [PrototypeCall.goTo] using none
  | @queueLeave rest at_pc =>
      refine elsewhere (here _) ?_
      cases rest <;> simp [PrototypeCall.goTo, PrototypePc.nextCell]
  | _ => exact elsewhere (here _) (by simp [PrototypeCall.goTo])

/-- A worklette changes the pending ops of a call only inside the call's mutex. -/
theorem PrototypeWorkerMove.pendingOps {worker : ω}
    (moved : PrototypeWorkerMove finds worker state after)
    (outside : ¬ workerHoldsContext call (state.workers worker))
    : (after.calls call).orchestration.pendingOps
      = (state.calls call).orchestration.pendingOps := by
  have kept {owner : ι} {next : PrototypeCall ι ω}
      (same
        : call = owner
          → next.orchestration.pendingOps = (state.calls owner).orchestration.pendingOps)
      : (Function.update state.calls owner next call).orchestration.pendingOps
        = (state.calls call).orchestration.pendingOps := by
    by_cases own : call = owner
    · subst own
      rw [Function.update_self, same rfl]
    · rw [Function.update_of_ne own]
  cases moved with
  | lock at_pc entering free =>
      obtain ⟨_, rfl⟩ := PrototypeCall.lock_eq_some_iff.mp free
      exact kept (fun _ => rfl)
  | giveUp at_pc _ | append at_pc =>
      refine kept (fun own => absurd ?_ outside)
      rw [at_pc]
      exact ⟨own.symm, trivial⟩
  | unlockSearch at_pc | unlockEnd at_pc ending => exact kept (fun _ => rfl)
  | _ => rfl

omit [DecidableEq ι] [DecidableEq ω] in
/-- While a call is about to clear its pointer, it holds its mutex, and no worker does. -/
theorem not_workerHolds_of_clear (locked : state.Locked) (at_pc : (state.calls call).pc = .clear)
    (worker : ω)
    : ¬ workerHoldsContext call (state.workers worker) := by
  intro inside
  have holds : state.HoldsMutex call (.caller call) := ⟨rfl, by rw [at_pc]; trivial⟩
  have also : state.HoldsMutex call (.worker worker) := inside
  cases (locked.orchestration call).unique holds also

/-- Whoever moves, a call stays patient until its second is over. -/
theorem Patient.step {label : PrototypeLabel ι ω} (patient : Patient (state.calls call))
    (reached : Reached (finds.machine ω) state) (unhurried : label ≠ .expire call)
    (moved : finds.step label state = some after)
    : Patient (after.calls call) := by
  cases prototype_move_of_step moved with
  | @call mover _ moved =>
      by_cases own : call = mover
      · subst own
        exact moved.patient patient
      · exact moved.others own ▸ patient
  | @worker worker _ moved =>
      have back {pc : PrototypePc} (at_pc : (after.calls call).pc = pc)
          (passing : pc = .waiting .expired ∨ pc = .clear)
          : (state.calls call).pc = pc := by
        rcases (moved.calls call).2 with same | notified
        · exact same.symm.trans at_pc
        · have stirred : (state.calls call).pc.notify = pc := notified.symm.trans at_pc
          cases earlier : (state.calls call).pc with
          | waiting wait =>
              rw [earlier] at stirred
              cases wait <;> rcases passing with rfl | rfl <;>
                simp_all [PrototypePc.notify]
          | _ => simpa [earlier, PrototypePc.notify] using stirred
      refine ⟨fun expired => patient.unexpired (back expired (Or.inl rfl)), fun clearing => ?_⟩
      have before := back clearing (Or.inr rfl)
      have outside := not_workerHolds_of_clear (locked_of_prototype_reached reached) before worker
      exact (moved.pendingOps outside).trans (patient.drained before)
  | crash | wakeWorker asleep => exact patient
  | @wakeCall mover asleep =>
      by_cases own : call = mover
      · subst own
        exact ⟨by simp [PrototypeCall.goTo], by simp [PrototypeCall.goTo]⟩
      · simpa [own] using patient
  | @expire mover wait at_pc =>
      have other : call ≠ mover := fun own => unhurried (own ▸ rfl)
      simpa [other] using patient

/-- A find whose second is never over has all its worklettes back in time. -/
theorem inTime_of_unhurried (reached : ReachedBy (finds.machine ω) (Unhurried call) state)
    : ReachedBy (finds.machine ω) (InTime call) state ∧ Patient (state.calls call) := by
  induction reached with
  | start => exact ⟨.start, by constructor <;> simp [PrototypeFinds.machine, PrototypeState.start]⟩
  | next label earlier unhurried moved ih =>
      obtain ⟨inTime, patient⟩ := ih
      exact ⟨.next label inTime (fun _ clearing => patient.drained clearing) moved,
        patient.step earlier.reached unhurried moved⟩

end Unhurried

-----------------------------------------------------------------------------------------
-- Unhurried finds are exact
-----------------------------------------------------------------------------------------

/-- A find whose second is never over returns: threads take only so many steps, and they only stop
where it has returned. What it returns are the matching people, each once, exactly where each of
them is found once; whatever other finds do, and whether or not their seconds are over.
-/
theorem prototype_unhurried_exact {ι ω : Type*} [Fintype ι] [DecidableEq ι] [Fintype ω]
    [DecidableEq ω] [Nonempty ω] {settings : PrototypeSettings} {people : List Person}
    {requests : ι → PplMatchingParameters} {windows : ι → Date × Date}
    (homes : ∀ person ∈ people, person.locationOfHome.isValid = true)
    (users : ∀ call, (requests call).locationOfUser.isValid = true)
    (representable : ∀ call, settings.Representable (requests call) (windows call)) (call : ι)
    : ∃ grid origin steps perWakeup,
        settings.populate people = .ok grid
        ∧ settings.locate (requests call).locationOfUser = .ok origin
        ∧ (∀ schedule state,
          ((PrototypeFinds.mk settings grid requests).machine ω).follow schedule .start
              = some state
          → schedule.countP PrototypeLabel.isRun
            ≤ steps + perWakeup * schedule.countP PrototypeLabel.isSpurious)
        ∧ ∀ state,
          ReachedBy ((PrototypeFinds.mk settings grid requests).machine ω) (Unhurried call) state
          → ((∀ thread,
                ¬ ((PrototypeFinds.mk settings grid requests).machine ω).Enabled
                  (.run thread) state)
              → ∃ ppl, (state.calls call).pc = .returned ppl)
            ∧ ∀ ppl, (state.calls call).pc = .returned ppl
              → (ppl.Perm
                  (people.filter
                    (settings.Matches (windows call) (requests call).locationOfUser))
                ↔ ∀ person ∈ people,
                  settings.Matches (windows call) (requests call).locationOfUser person
                  → settings.FoundOnce origin person) := by
  obtain ⟨grid, populates, populated⟩ := PrototypeSettings.populate_of_isValid homes
  obtain ⟨origin, located, onMap⟩ := @PrototypeSettings.locate_of_isValid settings _ (users call)
  let finds : PrototypeFinds ι := ⟨settings, grid, requests⟩
  have stored : finds.settings.Populated people finds.grid := populated
  have answerable : finds.Answerable := prototype_answerable stored users representable
  refine ⟨grid, origin, _, _, populates, located,
    fun schedule state run => prototype_runs_le answerable run,
    fun state reached => ⟨fun quiet => ?_, ?_⟩⟩
  · have done := done_of_quiet answerable reached.reached (not_exists.mpr quiet)
    exact done.returned call
  · intro ppl returned
    have same := perm_of_returned stored located onMap (representable call)
      (inTime_of_unhurried reached).1 returned
    rw [← populated.inspected_perm_iff homes onMap]
    exact ⟨same.symm.trans, same.trans⟩

/-- The find from just north of the equator, beside another one. -/
theorem prototype_unhurried_exact_southerner
    : ∃ grid origin steps perWakeup,
        shortRange.populate [southerner] = .ok grid
        ∧ shortRange.locate northernRequest.locationOfUser = .ok origin
        ∧ (∀ (schedule : List (PrototypeLabel (Fin 2) (Fin 1)))
            (state : PrototypeState (Fin 2) (Fin 1)),
          ((PrototypeFinds.mk shortRange grid (fun _ : Fin 2 => northernRequest)).machine
              (Fin 1)).follow schedule .start
            = some state
          → schedule.countP PrototypeLabel.isRun
            ≤ steps + perWakeup * schedule.countP PrototypeLabel.isSpurious)
        ∧ ∀ state : PrototypeState (Fin 2) (Fin 1),
          ReachedBy
            ((PrototypeFinds.mk shortRange grid (fun _ : Fin 2 => northernRequest)).machine
              (Fin 1))
            (Unhurried 0) state
          → ((∀ thread,
                ¬ ((PrototypeFinds.mk shortRange grid
                    (fun _ : Fin 2 => northernRequest)).machine (Fin 1)).Enabled
                  (.run thread) state)
              → ∃ ppl, (state.calls 0).pc = .returned ppl)
            ∧ ∀ ppl, (state.calls 0).pc = .returned ppl
              → (ppl.Perm
                  ([southerner].filter
                    (shortRange.Matches northernWindow northernRequest.locationOfUser))
                ↔ ∀ person ∈ [southerner],
                  shortRange.Matches northernWindow northernRequest.locationOfUser person
                  → shortRange.FoundOnce origin person) :=
  @prototype_unhurried_exact (Fin 2) (Fin 1) _ _ _ _ _ shortRange [southerner]
    (fun _ => northernRequest) (fun _ => northernWindow)
    (fun _ member => List.mem_singleton.mp member ▸ southerner_isValid)
    (fun _ => northernRequest_isValid) (fun _ => ⟨rfl, rfl⟩) 0

end PplMe.Engine
