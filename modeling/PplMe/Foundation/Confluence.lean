import PplMe.Foundation.Runs

/-! Machines whose movers do not get in each other's way.
Where two labels are both able to move, each still is after the other, and the order makes no
difference. Then one schedule that comes to an end decides for all: every other schedule is the
beginning of a reordering of it.
-/

namespace Stepping

variable {State : Type*} {Label : Type*}

/-- Two of the labels that can both move commute. -/
def Machine.Independent (machine : Machine State Label) (among : Label → Prop) : Prop :=
  ∀ left right before afterLeft afterRight,
    among left
    → among right
    → left ≠ right
    → machine.step left before = some afterLeft
    → machine.step right before = some afterRight
    → ∃ joined,
        machine.step right afterLeft = some joined
        ∧ machine.step left afterRight = some joined

/-- None of the labels can move. -/
def Machine.Stuck (machine : Machine State Label) (among : Label → Prop) (state : State)
    : Prop :=
  ∀ label, among label → machine.step label state = none

variable {machine : Machine State Label} {among : Label → Prop}

/-- Two schedules one after the other. -/
theorem Machine.follow_append {first second : List Label} {before after : State}
    : machine.follow (first ++ second) before = some after
      ↔ ∃ middle,
          machine.follow first before = some middle
          ∧ machine.follow second middle = some after := by
  induction first generalizing before with
  | nil => simp [Machine.follow]
  | cons label rest ih =>
      simp only [List.cons_append, Machine.follow_cons_some, ih]
      constructor
      · rintro ⟨next, moved, middle, earlier, later⟩
        exact ⟨middle, ⟨next, moved, earlier⟩, later⟩
      · rintro ⟨middle, ⟨next, moved, earlier⟩, later⟩
        exact ⟨next, moved, middle, earlier, later⟩

/-- Some schedule of these labels leads from one state to another. -/
def Machine.Leads (machine : Machine State Label) (among : Label → Prop)
    (before after : State)
    : Prop :=
  ∃ schedule, (∀ label ∈ schedule, among label) ∧ machine.follow schedule before = some after

theorem Machine.Leads.refl (state : State) : machine.Leads among state state :=
  ⟨[], by simp, rfl⟩

theorem Machine.Leads.step {label : Label} {before middle after : State} (own : among label)
    (moved : machine.step label before = some middle) (later : machine.Leads among middle after)
    : machine.Leads among before after := by
  obtain ⟨schedule, owns, run⟩ := later
  refine ⟨label :: schedule, ?_, Machine.follow_cons_some.mpr ⟨middle, moved, run⟩⟩
  intro other member
  rcases List.mem_cons.mp member with rfl | member
  · exact own
  · exact owns other member

theorem Machine.Leads.trans {before middle after : State}
    (earlier : machine.Leads among before middle) (later : machine.Leads among middle after)
    : machine.Leads among before after := by
  obtain ⟨first, firstOwn, firstRun⟩ := earlier
  obtain ⟨second, secondOwn, secondRun⟩ := later
  refine ⟨first ++ second, ?_, Machine.follow_append.mpr ⟨middle, firstRun, secondRun⟩⟩
  intro label member
  rcases List.mem_append.mp member with member | member
  · exact firstOwn label member
  · exact secondOwn label member

/-- A run of these labels is a schedule of them. -/
theorem ReachedBy.leads {state : State}
    (reached : ReachedBy machine (fun label _ => among label) state)
    : machine.Leads among machine.start state := by
  induction reached with
  | start => exact .refl _
  | next label _ own moved ih => exact ih.trans (.step own moved (.refl _))

/-- And a schedule of them goes on from what such a run has reached. -/
theorem ReachedBy.extend {before after : State}
    (reached : ReachedBy machine (fun label _ => among label) before)
    (leads : machine.Leads among before after)
    : ReachedBy machine (fun label _ => among label) after := by
  obtain ⟨schedule, owns, run⟩ := leads
  induction schedule generalizing before with
  | nil => exact Option.some.inj run ▸ reached
  | cons label rest ih =>
      obtain ⟨middle, moved, later⟩ := Machine.follow_cons_some.mp run
      exact ih (.next label reached (owns label List.mem_cons_self) moved)
        (fun other member => owns other (List.mem_cons_of_mem _ member)) later

/-- A label that can move is in every schedule that gets stuck, and may as well come first. By
induction on the schedule: the label commutes with every earlier one.
-/
theorem Machine.Independent.advance [DecidableEq Label] (independent : machine.Independent among)
    {label : Label} (own : among label) {before after final : State}
    (moved : machine.step label before = some after) (stuck : machine.Stuck among final)
    {schedule : List Label} (owns : ∀ label ∈ schedule, among label)
    (run : machine.follow schedule before = some final)
    : label ∈ schedule ∧ machine.follow (schedule.erase label) after = some final := by
  induction schedule generalizing before after with
  | nil =>
      have same : before = final := Option.some.inj run
      rw [same, stuck label own] at moved
      cases moved
  | cons first rest ih =>
      obtain ⟨middle, movedFirst, later⟩ := Machine.follow_cons_some.mp run
      by_cases same : first = label
      · subst same
        cases moved.symm.trans movedFirst
        exact ⟨List.mem_cons_self, by rwa [List.erase_cons_head]⟩
      · obtain ⟨joined, first', label'⟩ := independent label first before after middle own
          (owns first List.mem_cons_self) (Ne.symm same) moved movedFirst
        have ownRest : ∀ label ∈ rest, among label :=
          fun other member => owns other (List.mem_cons_of_mem _ member)
        obtain ⟨member, erased⟩ := ih label' ownRest later
        refine ⟨List.mem_cons_of_mem _ member, ?_⟩
        rw [List.erase_cons_tail (by simpa using same)]
        exact Machine.follow_cons_some.mpr ⟨joined, first', erased⟩

/-- If one schedule gets stuck, every schedule can be continued to the same state, and with its
continuation has the same labels. Witness: induction on the schedule, each label of which is
brought forward in the one that gets stuck.
-/
theorem Machine.Independent.converge [DecidableEq Label]
    (independent : machine.Independent among) {before final state : State}
    (stuck : machine.Stuck among final) {whole schedule : List Label}
    (wholeOwn : ∀ label ∈ whole, among label) (own : ∀ label ∈ schedule, among label)
    (wholeRun : machine.follow whole before = some final)
    (run : machine.follow schedule before = some state)
    : ∃ rest,
        (∀ label ∈ rest, among label)
        ∧ machine.follow rest state = some final
        ∧ (schedule ++ rest).Perm whole := by
  induction schedule generalizing before whole with
  | nil =>
      cases Option.some.inj run
      exact ⟨whole, wholeOwn, wholeRun, .refl _⟩
  | cons label schedule ih =>
      obtain ⟨middle, moved, later⟩ := Machine.follow_cons_some.mp run
      obtain ⟨member, erased⟩ :=
        independent.advance (own label List.mem_cons_self) moved stuck wholeOwn wholeRun
      obtain ⟨rest, restOwn, restRun, same⟩ := ih
        (fun other member => wholeOwn other (List.mem_of_mem_erase member))
        (fun other member => own other (List.mem_cons_of_mem _ member)) erased later
      exact ⟨rest, restOwn, restRun,
        (same.cons label).trans (List.perm_cons_erase member).symm⟩

/-- A view under which the steps of two machines are the same is one under which their runs are,
by induction on the schedule.
-/
theorem Machine.follow_map {State Label Other : Type*} {machine : Machine State Label}
    {other : Machine Other Label} {view : State → Other}
    (steps : ∀ label state, other.step label (view state) = (machine.step label state).map view)
    (schedule : List Label) (state : State)
    : other.follow schedule (view state) = (machine.follow schedule state).map view := by
  induction schedule generalizing state with
  | nil => rfl
  | cons label rest ih =>
      rw [Machine.follow, Machine.follow, steps]
      cases machine.step label state with
      | none => rfl
      | some middle => exact ih middle

/-- A part of a machine that moves with some of its labels only, by those labels' steps of another
machine, follows what it gets of a schedule. By induction on the schedule.
-/
theorem Machine.follow_filterMap {State Label Other Part : Type*} {machine : Machine State Label}
    {other : Machine Other Part} (view : State → Other) (part : Label → Option Part)
    (idle
      : ∀ label before after,
          part label = none → machine.step label before = some after → view after = view before)
    (steps
      : ∀ label own before after,
          part label = some own
          → machine.step label before = some after
          → other.step own (view before) = some (view after))
    {schedule : List Label} {state final : State}
    (run : machine.follow schedule state = some final)
    : other.follow (schedule.filterMap part) (view state) = some (view final) := by
  induction schedule generalizing state with
  | nil => exact congrArg (fun state => some (view state)) (Option.some.inj run)
  | cons label rest ih =>
      obtain ⟨middle, moved, later⟩ := Machine.follow_cons_some.mp run
      cases own : part label with
      | none =>
          rw [List.filterMap_cons_none own, ← idle label state middle own moved]
          exact ih later
      | some own' =>
          rw [List.filterMap_cons_some own]
          exact Machine.follow_cons_some.mpr ⟨_, steps label own' state middle own moved, ih later⟩

end Stepping
