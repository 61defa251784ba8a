import Mathlib.Data.List.Basic

/-! Runs of a machine whose labelled steps are partial functions on its states.
A label names who moves; a blocked or finished mover has no step. Everything that holds
across interleavings is proved once here, as an induction over admitted steps.
-/

namespace Stepping

/-- A machine starts in one state and moves by partial labelled steps. -/
structure Machine (State : Type*) (Label : Type*) where
  start : State
  step : Label → State → Option State

variable {State : Type*} {Label : Type*}

/-- States reached by steps that each meet `allowed` in the state they leave. -/
inductive ReachedBy (machine : Machine State Label) (allowed : Label → State → Prop)
    : State → Prop
  | start : ReachedBy machine allowed machine.start
  | next {before after} (label : Label) (earlier : ReachedBy machine allowed before)
    (admitted : allowed label before) (moved : machine.step label before = some after)
    : ReachedBy machine allowed after

/-- States reached by any steps at all. -/
abbrev Reached (machine : Machine State Label) : State → Prop :=
  ReachedBy machine (fun _ _ => True)

/-- A property of the start that every admitted step keeps holds of every reached state.
The step may use that the state it leaves is itself reached.
-/
theorem ReachedBy.invariant {machine : Machine State Label}
    {allowed : Label → State → Prop} {state : State}
    (reached : ReachedBy machine allowed state) (property : State → Prop)
    (initially : property machine.start)
    (kept
      : ∀ label before after,
          ReachedBy machine allowed before
          → property before
          → allowed label before
          → machine.step label before = some after
          → property after)
    : property state := by
  induction reached with
  | start => exact initially
  | next label earlier admitted moved ih => exact kept label _ _ earlier ih admitted moved

/-- Fewer admitted steps reach fewer states, by induction over the run. -/
theorem ReachedBy.weaken {machine : Machine State Label}
    {narrow wide : Label → State → Prop}
    (included : ∀ label state, narrow label state → wide label state)
    {state : State} (reached : ReachedBy machine narrow state)
    : ReachedBy machine wide state := by
  induction reached with
  | start => exact .start
  | next label _ admitted moved ih => exact .next label ih (included label _ admitted) moved

/-- Every restricted run is a run of the machine. -/
theorem ReachedBy.reached {machine : Machine State Label}
    {allowed : Label → State → Prop} {state : State}
    (reached : ReachedBy machine allowed state)
    : Reached machine state :=
  reached.weaken (fun _ _ _ => trivial)

/-- Follow a schedule, failing where a scheduled mover has no step. -/
def Machine.follow (machine : Machine State Label) : List Label → State → Option State
  | [], state => some state
  | label :: rest, state => (machine.step label state).bind (machine.follow rest)

/-- A schedule splits at its first label. -/
theorem Machine.follow_cons_some {machine : Machine State Label} {label : Label}
    {rest : List Label} {state final : State}
    : machine.follow (label :: rest) state = some final
      ↔ ∃ middle,
          machine.step label state = some middle
          ∧ machine.follow rest middle = some final := by
  simp only [Machine.follow, Option.bind_eq_some_iff]

/-- A schedule that runs through reaches its final state, by induction on the schedule. -/
theorem Reached.follow {machine : Machine State Label} {schedule : List Label}
    {state final : State} (reached : Reached machine state)
    (run : machine.follow schedule state = some final)
    : Reached machine final := by
  induction schedule generalizing state with
  | nil => exact Option.some.inj run ▸ reached
  | cons label rest ih =>
      obtain ⟨middle, moved, later⟩ := Machine.follow_cons_some.mp run
      exact ih (.next label reached trivial moved) later

/-- So is the state that a schedule leads to from the start. -/
theorem Reached.getD_follow {machine : Machine State Label} {schedule : List Label}
    (run : (machine.follow schedule machine.start).isSome)
    : Reached machine ((machine.follow schedule machine.start).getD machine.start) := by
  obtain ⟨final, run⟩ := Option.isSome_iff_exists.mp run
  rw [run]
  exact Reached.follow .start run

/-- What every step keeps, every schedule keeps, from whatever state it is followed. -/
theorem Machine.follow_invariant {machine : Machine State Label} (property : State → Prop)
    (kept
      : ∀ label before after,
          property before → machine.step label before = some after → property after)
    {schedule : List Label} {state final : State} (holds : property state)
    (run : machine.follow schedule state = some final)
    : property final := by
  induction schedule generalizing state with
  | nil => exact Option.some.inj run ▸ holds
  | cons label rest ih =>
      obtain ⟨middle, moved, later⟩ := Machine.follow_cons_some.mp run
      exact ih (kept label _ _ holds moved) later

/-- Amortized accounting: where each own step lowers a measure, and each other step raises it
by at most what is granted, a schedule has no more own steps than the measure at its start
and all that is granted. Witness: induction on the schedule, carrying the good-state
invariant.
-/
theorem Machine.countP_follow_le {machine : Machine State Label} {good : State → Prop}
    (measure : State → Nat) (own : Label → Bool) (grant : Nat)
    (kept
      : ∀ label before after,
          good before → machine.step label before = some after → good after)
    (lowered
      : ∀ label before after,
          good before
          → machine.step label before = some after
          → own label = true
          → measure after < measure before)
    (raised
      : ∀ label before after,
          good before
          → machine.step label before = some after
          → own label = false
          → measure after ≤ measure before + grant)
    {schedule : List Label} {state final : State} (holds : good state)
    (run : machine.follow schedule state = some final)
    : schedule.countP own
      ≤ measure state + grant * schedule.countP (fun label => !own label) := by
  induction schedule generalizing state with
  | nil => simp
  | cons label rest ih =>
      obtain ⟨middle, moved, later⟩ := Machine.follow_cons_some.mp run
      have bound := ih (kept label _ _ holds moved) later
      cases mine : own label with
      | true =>
          have step := lowered label _ _ holds moved mine
          simp only [List.countP_cons, mine, Bool.not_true, Bool.false_eq_true, if_true,
            if_false, Nat.add_zero]
          omega
      | false =>
          have step := raised label _ _ holds moved mine
          simp only [List.countP_cons, mine, Bool.not_false, Bool.false_eq_true, if_true,
            if_false, Nat.mul_add]
          omega

/-- Amortized accounting where only some steps grant more: each own step lowers a measure, each
granting step raises it by at most the grant, and no other step raises it.
-/
theorem Machine.countP_follow_le_granted {machine : Machine State Label} {good : State → Prop}
    (measure : State → Nat) (own granting : Label → Bool) (grant : Nat)
    (kept
      : ∀ label before after,
          good before → machine.step label before = some after → good after)
    (paid
      : ∀ label before after,
          good before
          → machine.step label before = some after
          → measure after + (own label).toNat ≤ measure before + grant * (granting label).toNat)
    {schedule : List Label} {state final : State} (holds : good state)
    (run : machine.follow schedule state = some final)
    : schedule.countP own ≤ measure state + grant * schedule.countP granting := by
  have count (chosen : Label → Bool) (label : Label) (rest : List Label)
      : (label :: rest).countP chosen = rest.countP chosen + (chosen label).toNat := by
    rw [List.countP_cons]
    cases chosen label <;> rfl
  induction schedule generalizing state with
  | nil => simp
  | cons label rest ih =>
      obtain ⟨middle, moved, later⟩ := Machine.follow_cons_some.mp run
      have bound := ih (kept label _ _ holds moved) later
      have step := paid label _ _ holds moved
      rw [count, count, Nat.mul_add]
      omega

/-- A thread-like label is able to move. -/
def Machine.Enabled (machine : Machine State Label) (label : Label) (state : State) : Prop :=
  ∃ after, machine.step label state = some after

/-- A state view simulates when each step of the concrete machine from a state whose view has
the property is, seen through the view, either no step or one step of the abstract relation.
-/
def Simulates {Abstract : Type*} (machine : Machine State Label)
    (view : State → Abstract) (abstractStep : Abstract → Abstract → Prop)
    (property : Abstract → Prop)
    : Prop :=
  ∀ label before after,
    Reached machine before
    → property (view before)
    → machine.step label before = some after
    → view after = view before ∨ abstractStep (view before) (view after)

/-- An invariant of the abstract steps holds of every simulated state, by induction over
the concrete run.
-/
theorem Simulates.invariant {Abstract : Type*} {machine : Machine State Label}
    {view : State → Abstract} {abstractStep : Abstract → Abstract → Prop}
    {property : Abstract → Prop}
    (simulates : Simulates machine view abstractStep property)
    (initially : property (view machine.start))
    (kept : ∀ before after, property before → abstractStep before after → property after)
    {state : State} (reached : Reached machine state)
    : property (view state) := by
  refine reached.invariant (fun state => property (view state)) initially ?_
  intro label before after earlier holds _ moved
  rcases simulates label before after earlier holds moved with same | stepped
  · exact same ▸ holds
  · exact kept _ _ holds stepped

/-- A simulation that may assume a property may assume more. -/
theorem Simulates.strengthen {Abstract : Type*} {machine : Machine State Label}
    {view : State → Abstract} {abstractStep : Abstract → Abstract → Prop}
    {property : Abstract → Prop}
    (simulates : Simulates machine view abstractStep property) (more : Abstract → Prop)
    : Simulates machine view abstractStep (fun abstract => property abstract ∧ more abstract) :=
  fun label before after earlier holds moved =>
    simulates label before after earlier holds.1 moved

/-- One of many independent components takes a step, and the others stay as they are. -/
structure Interleaved {Index Component : Type*}
    (componentStep : Index → Component → Component → Prop) (before after : Index → Component)
    : Prop where
  intro ::
  moved : ∃ index,
    componentStep index (before index) (after index)
    ∧ ∀ other, other ≠ index → after other = before other

/-- What each component keeps by its own steps, all of them keep by interleaved ones. -/
theorem Interleaved.invariant {Index Component : Type*}
    {componentStep : Index → Component → Component → Prop} {before after : Index → Component}
    {property : Index → Component → Prop}
    (kept
      : ∀ index left right,
          property index left → componentStep index left right → property index right)
    (holds : ∀ index, property index (before index))
    (interleaved : Interleaved componentStep before after)
    : ∀ index, property index (after index) := by
  obtain ⟨mover, stepped, others⟩ := interleaved.moved
  intro index
  by_cases same : index = mover
  · exact same ▸ kept mover _ _ (holds mover) stepped
  · exact others index same ▸ holds index

end Stepping
