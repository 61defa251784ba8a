import PplMe.Engine.PrototypeExactness

/-! What a call of a prototype provider and its worklettes do to each other, whenever the call
stops waiting: the pending ops count the worklettes that are not done, nothing is written to the
people of a call that has cleared its pointer, and what is returned are whole cells.
-/

namespace PplMe.Engine

open PplMe.Core Stepping

section Settling

variable {ι ω : Type*} [DecidableEq ι] [DecidableEq ω] {finds : PrototypeFinds ι}
  {state after : PrototypeState ι ω} {label : PrototypeLabel ι ω} {call : ι}

/-- No step brings a call to its first point. -/
theorem idle_of_step (moved : finds.step label state = some after)
    (idle : (after.calls call).pc = .idle)
    : (state.calls call).pc = .idle := by
  cases prototype_move_of_step moved with
  | @call mover _ moved =>
      by_cases own : call = mover
      · subst own
        exfalso
        cases moved with
        | @start ppl cells at_pc begun =>
            cases cells <;> simp [PrototypePc.firstCell] at idle
        | @lock pc locked entering free =>
            generalize (state.calls call).pc = earlier at entering
            cases entering <;> simp [PrototypeCall.goTo] at idle
        | @queueLeave rest at_pc =>
            cases rest <;> simp [PrototypeCall.goTo, PrototypePc.nextCell] at idle
        | count at_pc | leaveCount at_pc | queueEnter at_pc _ | queuePush at_pc
        | drained at_pc _ | sleep at_pc | clear at_pc | leaveWait at_pc =>
            simp [PrototypeCall.goTo] at idle
      · exact moved.others own ▸ idle
  | worker moved =>
      rcases (moved.calls call).2 with same | notified
      · exact same.symm.trans idle
      · have stirred : (state.calls call).pc.notify = .idle := notified.symm.trans idle
        exact (PrototypePc.notify_eq_iff (by simp)).mp stirred
  | crash | wakeWorker asleep => exact idle
  | @wakeCall mover asleep =>
      by_cases own : call = mover
      · subst own
        simp [PrototypeCall.goTo] at idle
      · simpa [own] using idle
  | @expire mover wait at_pc =>
      by_cases own : call = mover
      · subst own
        simp [PrototypeCall.goTo] at idle
      · simpa [own] using idle

/-- A call that has not begun has its pointer. -/
theorem attentive_of_idle (reached : Reached (finds.machine ω) state)
    : (state.calls call).pc = .idle → (state.calls call).orchestration.ppl = true := by
  refine reached.invariant
    (fun state =>
      (state.calls call).pc = .idle → (state.calls call).orchestration.ppl = true)
    (fun _ => rfl) ?_
  intro label before after _ attentive _ moved idle
  have earlier := idle_of_step moved idle
  by_contra cleared
  obtain ⟨_, at_pc⟩ := clears_of_step moved (attentive earlier) (by simpa using cleared)
  cases earlier.symm.trans at_pc

/-- The call has begun, and no more people can come: its pointer is cleared, or no nearby cell
was queued.
-/
structure Deaf [Fintype ω] (finds : PrototypeFinds ι) (call : ι) (ppl : List Person)
    (state : PrototypeState ι ω)
    : Prop where
  reached : Reached (finds.machine ω) state
  begun : (state.calls call).pc ≠ .idle
  settled : (finds.gather state call).listening = false ∨ (finds.job call).keys = []
  ppl : (state.calls call).ppl = ppl

variable [Fintype ω]

omit [DecidableEq ω] in
/-- In a call that has begun, the people gathered so far are in its vector. -/
theorem gather_items (begun : (state.calls call).pc ≠ .idle)
    : (finds.gather state call).items = (state.calls call).ppl := by
  rw [PrototypeFinds.gather, PrototypeFinds.view]
  cases at_pc : (state.calls call).pc with
  | idle => exact absurd at_pc begun
  | _ => rfl

/-- Whoever moves, a call to which no more people can come keeps its people. -/
theorem Deaf.step {ppl : List Person} (deaf : Deaf finds call ppl state)
    (moved : finds.step label state = some after)
    : Deaf finds call ppl after := by
  have valid := valid_of_prototype_reached deaf.reached
  have begun : (after.calls call).pc ≠ .idle := fun idle =>
    deaf.begun (idle_of_step moved idle)
  refine ⟨.next label deaf.reached trivial moved, begun, ?_, ?_⟩
  · rcases gathered_of_step deaf.reached valid moved call with same | stepped
    · exact same ▸ deaf.settled
    · exact deaf.settled.imp stepped.stays_deaf id
  · rw [← gather_items begun, ← deaf.ppl, ← gather_items deaf.begun]
    rcases gathered_of_step deaf.reached valid moved call with same | stepped
    · rw [same]
    · exact stepped.items_of_settled (valid call) deaf.settled

/-- No more people come to a call that has cleared its pointer. -/
theorem deaf_of_cleared (reached : Reached (finds.machine ω) state)
    (cleared : (state.calls call).orchestration.ppl = false)
    : Deaf finds call (state.calls call).ppl state := by
  refine ⟨reached, fun idle => ?_, Or.inl cleared, rfl⟩
  cases (attentive_of_idle reached idle).symm.trans cleared

/-- Nor to one that has returned. -/
theorem deaf_of_returned {ppl : List Person} (reached : Reached (finds.machine ω) state)
    (returned : (state.calls call).pc = .returned ppl)
    : Deaf finds call ppl state := by
  have begun : (state.calls call).pc ≠ .idle := fun idle => by cases idle.symm.trans returned
  obtain ⟨items, closed⟩ := (settled_of_reached reached call).returned ppl returned
  exact ⟨reached, begun, closed, (gather_items begun).symm.trans items⟩

/-- The vector of such a call stays as it is, however the process goes on. -/
theorem Deaf.follow {ppl : List Person} {schedule : List (PrototypeLabel ι ω)}
    (deaf : Deaf finds call ppl state)
    (run : (finds.machine ω).follow schedule state = some after)
    : (after.calls call).ppl = ppl :=
  (Machine.follow_invariant (Deaf finds call ppl) (fun _ _ _ deaf moved => deaf.step moved) deaf
    run).ppl

end Settling

section Orchestration

variable {ι ω : Type*} [DecidableEq ι] [DecidableEq ω] [Fintype ω]

/-- The cells of a call's worklettes that are counted and have not taken themselves off the
count: about to be queued, queued, or with a worker before the end of its worklette.
-/
def PrototypeState.unfinished (state : PrototypeState ι ω) (call : ι) : Multiset CellLocator :=
  state.out call + (state.calls call).pc.queueing

variable {finds : PrototypeFinds ι} {state : PrototypeState ι ω} {call : ι}

omit [DecidableEq ι] in
/-- What a find begins with: the people of the user's cell, and the nearby cells. -/
theorem beginFind_parts {first : List Person} {cells : List CellLocator}
    (begun : finds.beginFind call = .ok (some (first, cells)))
    : ∃ origin,
        finds.settings.locate (finds.requests call).locationOfUser = .ok origin
        ∧ finds.settings.searchCell finds.grid (finds.requests call) origin.cell = .ok first
        ∧ finds.settings.getNearbyCells origin = some cells := by
  obtain ⟨origin, located, begun⟩ := Failures.of_bind_eq_ok begun
  obtain ⟨ppl, searched, begun⟩ := Failures.of_bind_eq_ok begun
  obtain ⟨nearby, walked, same⟩ := Option.map_eq_some_iff.mp (Except.ok.inj begun)
  cases same
  exact ⟨origin, located, searched, walked⟩

/-- The pending ops of a call are as many as its worklettes that are not done. -/
theorem pendingOps_eq_card (reached : Reached (finds.machine ω) state) (call : ι)
    : (state.calls call).orchestration.pendingOps = (state.unfinished call).card := by
  obtain ⟨_, _, accounts⟩ := valid_of_prototype_reached reached call
  exact accounts.pending

/-- A call returns the people of the user's cell and then those of nearby cells, each nearby
cell at most once, and exactly once if its wait ended with no pending op.
-/
theorem delivered_of_returned {ppl : List Person} (reached : Reached (finds.machine ω) state)
    (returned : (state.calls call).pc = .returned ppl)
    : ∃ delivered : List CellLocator,
        delivered.Subperm (finds.job call).keys
        ∧ ppl = (finds.job call).first ++ delivered.flatMap (finds.job call).found
        ∧ (ReachedBy (finds.machine ω) (InTime call) state
          → delivered.Perm (finds.job call).keys) := by
  by_cases inTime : ReachedBy (finds.machine ω) (InTime call) state
  · obtain ⟨delivered, perm, whole⟩ := returned_of_inTime inTime returned
    exact ⟨delivered, perm.subperm, whole, fun _ => perm⟩
  · obtain ⟨delivered, subperm, items⟩ := (valid_of_prototype_reached reached call).items
    have same := (settled_of_reached reached call).returned ppl returned
    exact ⟨delivered, subperm, same.1.symm.trans items, fun other => absurd other inTime⟩

/-- In every reachable state of any number of concurrent finds, and for each of them: the
pending ops count the worklettes that are not done; once the pointer is cleared, or the call has
returned, its vector stays as it is whatever happens; and what it returns are the people of the
user's cell followed by those of nearby cells, each cell at most once, and exactly once where
the wait ended because no op was pending.
-/
theorem prototype_rendezvous (reached : Reached (finds.machine ω) state) (call : ι)
    : (state.calls call).orchestration.pendingOps = (state.unfinished call).card
      ∧ ((state.calls call).orchestration.ppl = false
          ∨ (∃ ppl, (state.calls call).pc = .returned ppl)
        → ∀ schedule after,
          (finds.machine ω).follow schedule state = some after
          → (after.calls call).ppl = (state.calls call).ppl)
      ∧ ∀ ppl, (state.calls call).pc = .returned ppl
        → ∃ origin first, ∃ cells delivered : List CellLocator,
          finds.settings.locate (finds.requests call).locationOfUser = .ok origin
          ∧ finds.settings.searchCell finds.grid (finds.requests call) origin.cell = .ok first
          ∧ finds.settings.getNearbyCells origin = some cells
          ∧ delivered.Subperm cells
          ∧ ppl = first ++ delivered.flatMap (finds.found call)
          ∧ (ReachedBy (finds.machine ω) (InTime call) state → delivered.Perm cells) := by
  refine ⟨pendingOps_eq_card reached call, ?_, ?_⟩
  · rintro (cleared | ⟨ppl, returned⟩) schedule after run
    · exact (deaf_of_cleared reached cleared).follow run
    · have deaf := deaf_of_returned reached returned
      exact (deaf.follow run).trans deaf.ppl.symm
  · intro ppl returned
    obtain ⟨⟨first, cells⟩, begun⟩ := (begun_of_reached reached call).resolve_left
      (fun idle => by cases returned.symm.trans idle)
    obtain ⟨origin, located, searched, walked⟩ := beginFind_parts begun
    obtain ⟨delivered, subperm, whole, inTime⟩ := delivered_of_returned reached returned
    have known : finds.begun call = (first, cells) := by rw [PrototypeFinds.begun, begun]
    simp only [PrototypeFinds.job, known] at subperm whole inTime
    exact ⟨origin, first, cells, delivered, located, searched, walked, subperm, whole, inTime⟩

end Orchestration

/-- Nobody is stored, and somebody looks for people at the origin of the map. -/
def islandFinds : PrototypeFinds Unit := ⟨shortRange, shortRange.emptyGrid, fun _ => islandRequest⟩

/-- A find that has counted its first nearby cell has one op pending and one worklette. -/
theorem prototype_rendezvous_island
    : ∃ state : PrototypeState Unit (Fin 1),
        Reached (islandFinds.machine (Fin 1)) state
        ∧ (state.calls ()).orchestration.pendingOps = 1
        ∧ (state.unfinished ()).card = 1 := by
  let begin : List (PrototypeLabel Unit (Fin 1)) := List.replicate 3 (.run (.caller ()))
  have counted : (((islandFinds.machine (Fin 1)).follow begin .start).map
      (fun state => (state.calls ()).orchestration.pendingOps)) = some 1 := by
    decide +kernel
  obtain ⟨state, run, pending⟩ := Option.map_eq_some_iff.mp counted
  have reached : Reached (islandFinds.machine (Fin 1)) state := Reached.follow .start run
  refine ⟨state, reached, pending, ?_⟩
  have card := (prototype_rendezvous reached ()).1
  rw [pending] at card
  exact_mod_cast card.symm

end PplMe.Engine
