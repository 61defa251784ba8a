import PplMe.Engine.FindAnswers
import PplMe.Engine.FindExactness

/-! Every possible order of a call's cells comes about.
A call runs on its own: it offers as many cells as it takes for the next one of the order to be with
a worker, and this worker goes first. The other calls do not begin.
-/

namespace PplMe.Engine

open PplMe.Core Stepping Gathering

/-- A call is about to offer its next cell, and each cell that it has offered and that is not
complete has been searched by a worker, which is about to append what it found.
-/
structure Resting {ι ω : Type*} [DecidableEq ι] (finds : Finds ι) (call : ι)
    (state : FindState ι ω) (held : List (ω × CellLocator)) (rest : List CellLocator)
    (ppl : List Person)
    : Prop where
  running : state.crashed = none
  pool : state.pool = ⟨none, [], false⟩
  context : state.contexts call = ⟨ppl, (held.map Prod.snd).toFinset, none, false⟩
  caller : state.callers call = .nextCell rest
  distinct : (held.map Prod.fst).Nodup
  holding
    : ∀ holder ∈ held,
        state.AtStage holder.1 ⟨call, holder.2⟩ (.enterAppend (finds.found call holder.2))
  idle : ∀ worker, worker ∉ held.map Prod.fst → state.workers worker = .enter

section Schedules

variable {ι ω : Type*} [DecidableEq ι] [DecidableEq ω] {finds : Finds ι} {call : ι}
  {state : FindState ι ω} {held : List (ω × CellLocator)} {cell : CellLocator}
  {rest : List CellLocator} {ppl : List Person}

/-- The next cell is queued. -/
theorem Resting.queue (resting : Resting finds call state held (cell :: rest) ppl)
    (few : ppl.length < finds.settings.maxPpl)
    (room : held.length < finds.settings.perFindConcurrency)
    (distinct : (held.map Prod.snd).Nodup) (new : cell ∉ held.map Prod.snd)
    : ∃ after,
        (finds.machine ω).follow (List.replicate 6 (.run (.caller call))) state = some after
        ∧ after.crashed = none
        ∧ after.pool = ⟨none, [⟨call, cell⟩], false⟩
        ∧ (∀ worker, after.workers worker = (state.workers worker).notify)
        ∧ after.contexts call = ⟨ppl, insert cell (held.map Prod.snd).toFinset, none, false⟩
        ∧ after.callers call = .nextCell rest := by
  have notFull : ¬ finds.settings.maxPpl ≤ ppl.length := Nat.not_le.mpr few
  have width : (held.map Prod.snd).toFinset.card < finds.settings.perFindConcurrency := by
    rwa [List.toFinset_card_of_nodup distinct, List.length_map]
  have absent : cell ∉ (held.map Prod.snd).toFinset := by
    rwa [List.mem_toFinset]
  have caller := resting.caller
  have context := resting.context
  rw [CallerPc.nextCell] at caller
  simp [Machine.follow, List.replicate, Finds.machine, Finds.step, Finds.findMatchingPplStep,
    caller, context, resting.running, resting.pool, FindContext.lock, Finds.ready, width,
    Finds.proceed, notFull, absent, NoddyWorkerPool.lock, NoddyWorkerPool.push,
    NoddyWorkerPool.unlock, FindState.notifyWorkers, FindContext.unlock]

/-- And a worker takes it and searches it. -/
theorem search_of_queued {context : FindContext ι ω} {worker : ω}
    (running : state.crashed = none) (pool : state.pool = ⟨none, [⟨call, cell⟩], false⟩)
    (idle : state.workers worker = .enter) (here : state.contexts call = context)
    (free : context.mutex = none) (going : context.weDoneHere = false)
    (searched
      : finds.settings.searchCell finds.grid (finds.requests call) cell
        = .ok (finds.found call cell))
    : ∃ after,
        (finds.machine ω).follow (List.replicate 7 (.run (.worker worker))) state = some after
        ∧ after.crashed = none
        ∧ after.pool = ⟨none, [], false⟩
        ∧ after.workers
          = Function.update state.workers worker
              (.running ⟨⟨call, cell⟩, .enterAppend (finds.found call cell)⟩)
        ∧ after.contexts call = context
        ∧ after.callers = state.callers := by
  obtain ⟨people, pending, mutex, done⟩ := context
  cases (free : mutex = none)
  cases (going : done = false)
  simp [Machine.follow, List.replicate, Finds.machine, Finds.step, running, Finds.workerStep, idle,
    pool, NoddyWorkerPool.startWorkingStep, NoddyWorkerPool.lock, NoddyWorkerPool.takeWork,
    Finds.tryFindPplAsyncStep, FindContext.lock, here, searched, NoddyWorkerPool.unlock,
    FindContext.unlock]

/-- A cell that a worker has searched is completed. -/
theorem append_of_searched {worker : ω} {people : List Person} {pending : Finset CellLocator}
    (running : state.crashed = none)
    (at_pc : state.AtStage worker ⟨call, cell⟩ (.enterAppend (finds.found call cell)))
    (here : state.contexts call = ⟨people, pending, none, false⟩) (member : cell ∈ pending)
    : ∃ after,
        (finds.machine ω).follow (List.replicate 3 (.run (.worker worker))) state = some after
        ∧ after.crashed = none
        ∧ after.pool = state.pool
        ∧ after.workers = Function.update state.workers worker .enter
        ∧ after.contexts call
          = ⟨people ++ finds.found call cell, pending.erase cell, none, false⟩
        ∧ after.callers call = (state.callers call).notify := by
  unfold FindState.AtStage at at_pc
  simp [Machine.follow, List.replicate, Finds.machine, Finds.step, running, Finds.workerStep, at_pc,
    Finds.tryFindPplAsyncStep, FindContext.lock, here, member, FindContext.unlock]

/-- A call with nothing pending returns. -/
theorem return_of_exhausted (running : state.crashed = none)
    (at_pc : state.callers call = .enter .final)
    (here : state.contexts call = ⟨ppl, ∅, none, false⟩)
    : ∃ after,
        (finds.machine ω).follow (List.replicate 3 (.run (.caller call))) state = some after
        ∧ after.callers call = .returned (finds.truncate ppl) := by
  simp [Machine.follow, List.replicate, Finds.machine, Finds.step, Finds.findMatchingPplStep,
    running, at_pc, here, FindContext.lock, Finds.ready, Finds.proceed, Finds.truncate]

/-- And so does one that has enough people, whatever is left of its walk. -/
theorem return_of_enough (running : state.crashed = none)
    (at_pc : state.callers call = .enter (.room cell rest))
    (here : state.contexts call = ⟨ppl, ∅, none, false⟩)
    (enough : finds.settings.maxPpl ≤ ppl.length)
    : ∃ after,
        (finds.machine ω).follow (List.replicate 7 (.run (.caller call))) state = some after
        ∧ after.callers call = .returned (finds.truncate ppl) := by
  simp [Machine.follow, List.replicate, Finds.machine, Finds.step, Finds.findMatchingPplStep,
    running, at_pc, here, FindContext.lock, Finds.ready, Finds.proceed, Finds.truncate, enough,
    FindContext.unlock]

end Schedules

-----------------------------------------------------------------------------------------
-- Resting calls
-----------------------------------------------------------------------------------------

section Resting

variable {ι ω : Type*} [DecidableEq ι] [DecidableEq ω] {finds : Finds ι} {call : ι}
  {state : FindState ι ω} {held : List (ω × CellLocator)} {cell : CellLocator}
  {rest : List CellLocator} {ppl : List Person}

/-- A call that begins has offered nothing. -/
theorem resting_start {origin : CellLocator}
    (located : finds.settings.toCellLocator (finds.requests call).locationOfUser = .ok origin)
    : ∃ state : FindState ι ω,
        Reached (finds.machine ω) state ∧ Resting finds call state [] (finds.walk call) [] := by
  have walked := walk_of_located finds located
  refine ⟨FindState.start.setCaller call (.nextCell (finds.walk call)),
    .next (.run (.caller call)) .start trivial ?_, ?_⟩
  · rw [walked]
    simp [Finds.machine, Finds.step, FindState.start, Finds.findMatchingPplStep, located]
  · exact
      { running := rfl
        pool := rfl
        context := rfl
        caller := Function.update_self _ _ _
        distinct := List.nodup_nil
        holding := fun _ member => absurd member List.not_mem_nil
        idle := fun _ _ => rfl }

/-- Where there is room for one more, an idle worker gets the next cell. -/
theorem Resting.offer (resting : Resting finds call state held (cell :: rest) ppl)
    (reached : Reached (finds.machine ω) state) (few : ppl.length < finds.settings.maxPpl)
    (room : held.length < finds.settings.perFindConcurrency)
    (distinct : (held.map Prod.snd ++ cell :: rest).Nodup)
    (searched
      : finds.settings.searchCell finds.grid (finds.requests call) cell
        = .ok (finds.found call cell))
    {worker : ω} (idle : worker ∉ held.map Prod.fst)
    : ∃ after,
        Reached (finds.machine ω) after
        ∧ Resting finds call after (held ++ [(worker, cell)]) rest ppl := by
  have new : cell ∉ held.map Prod.snd := fun among =>
    (List.nodup_append.mp distinct).2.2 cell among cell List.mem_cons_self rfl
  obtain ⟨queued, ran, running, pool, workers, context, caller⟩ :=
    resting.queue few room (List.nodup_append.mp distinct).1 new
  have idleStill : queued.workers worker = .enter := by
    rw [workers, resting.idle worker idle]
    rfl
  obtain ⟨after, ranOn, runningStill, drained, searching, contextStill, callers⟩ :=
    search_of_queued running pool idleStill context rfl rfl searched
  refine ⟨after, (reached.follow ran).follow ranOn, runningStill, drained, ?_, ?_, ?_, ?_, ?_⟩
  · rw [contextStill, List.map_append, List.toFinset_append, Finset.union_comm]
    rfl
  · rw [callers, caller]
  · rw [List.map_append]
    exact resting.distinct.append (List.nodup_singleton _) (List.disjoint_singleton.mpr idle)
  · intro holder member
    rw [FindState.AtStage, searching]
    rcases List.mem_append.mp member with before | new
    · have other : holder.1 ≠ worker := by
        rintro rfl
        exact idle (List.mem_map_of_mem before)
      rw [Function.update_of_ne other, workers, resting.holding holder before]
      rfl
    · cases List.mem_singleton.mp new
      exact Function.update_self _ _ _
  · intro other absent
    rw [List.map_append, List.mem_append, not_or] at absent
    have different : other ≠ worker := fun same => absent.2 (same ▸ List.mem_singleton_self _)
    rw [searching, Function.update_of_ne different, workers, resting.idle other absent.1]
    rfl

/-- Any cell that a worker has searched can be the next one to be complete. -/
theorem Resting.complete {worker : ω} {before later : List (ω × CellLocator)}
    (resting : Resting finds call state (before ++ (worker, cell) :: later) rest ppl)
    (reached : Reached (finds.machine ω) state)
    (distinct : ((before ++ (worker, cell) :: later).map Prod.snd).Nodup)
    : ∃ after,
        Reached (finds.machine ω) after
        ∧ Resting finds call after (before ++ later) rest (ppl ++ finds.found call cell) := by
  have member : (worker, cell) ∈ before ++ (worker, cell) :: later :=
    List.mem_append_right _ List.mem_cons_self
  obtain ⟨after, ran, running, pool, workers, context, callers⟩ :=
    append_of_searched resting.running (resting.holding _ member) resting.context
      (List.mem_toFinset.mpr (List.mem_map_of_mem member))
  -- Neither the worker nor the cell is among the others.
  have holders : worker ∉ (before ++ later).map Prod.fst
      ∧ ((before ++ later).map Prod.fst).Nodup := by
    have distinct := resting.distinct
    rw [List.map_append, List.map_cons, List.nodup_middle, ← List.map_append] at distinct
    exact List.nodup_cons.mp distinct
  rw [List.map_append, List.map_cons, List.nodup_middle, ← List.map_append] at distinct
  have absent := (List.nodup_cons.mp distinct).1
  refine ⟨after, reached.follow ran, running, pool.trans resting.pool, ?_, ?_, holders.2, ?_, ?_⟩
  · rw [context]
    have pending : ((before ++ (worker, cell) :: later).map Prod.snd).toFinset
        = insert cell ((before ++ later).map Prod.snd).toFinset := by
      ext other
      simp only [List.map_append, List.map_cons, List.mem_toFinset, List.mem_append,
        List.mem_cons, Finset.mem_insert]
      tauto
    rw [pending, Finset.erase_insert (by rwa [List.mem_toFinset])]
  · rw [callers, resting.caller]
    cases rest <;> rfl
  · intro holder among
    have different : holder.1 ≠ worker := fun same =>
      holders.1 (same ▸ List.mem_map_of_mem among)
    rw [FindState.AtStage, workers, Function.update_of_ne different]
    refine resting.holding holder ?_
    rcases List.mem_append.mp among with early | late
    · exact List.mem_append_left _ early
    · exact List.mem_append_right _ (List.mem_cons_of_mem _ late)
  · intro other away
    by_cases own : other = worker
    · rw [workers, own, Function.update_self]
    · rw [workers, Function.update_of_ne own]
      refine resting.idle other fun among => away ?_
      rw [List.map_append, List.map_cons] at among
      rw [List.map_append]
      rcases List.mem_append.mp among with early | late
      · exact List.mem_append_left _ early
      · exact List.mem_append_right _ ((List.mem_cons.mp late).resolve_left own)

end Resting

-----------------------------------------------------------------------------------------
-- Orders
-----------------------------------------------------------------------------------------

section Orders

variable {ι ω : Type*} [DecidableEq ι] [DecidableEq ω] [Fintype ω] {finds : Finds ι} {call : ι}
  {state : FindState ι ω} {held : List (ω × CellLocator)} {rest left : List CellLocator}
  {ppl : List Person}

/-- As long as there is room, a call can have so many cells searched, by induction on how many. -/
theorem Resting.offerMany (answers : finds.AnswersCall call)
    (resting : Resting finds call state held rest ppl)
    (reached : Reached (finds.machine ω) state) (few : ppl.length < finds.settings.maxPpl)
    (onWalk : (held.map Prod.snd ++ rest).Sublist (finds.walk call)) {count : Nat}
    (near : count ≤ (finds.job call).reach (Fintype.card ω))
    (enough : count ≤ (held.map Prod.snd ++ rest).length)
    : ∃ after more later,
        Reached (finds.machine ω) after
        ∧ Resting finds call after more later ppl
        ∧ more.map Prod.snd ++ later = held.map Prod.snd ++ rest
        ∧ count ≤ more.length := by
  induction count with
  | zero => exact ⟨state, held, rest, reached, resting, rfl, Nat.zero_le _⟩
  | succ count ih =>
      obtain ⟨after, more, later, reachedAfter, restingAfter, same, many⟩ :=
        ih (Nat.le_of_succ_le near) (Nat.le_of_succ_le enough)
      by_cases already : count + 1 ≤ more.length
      · exact ⟨after, more, later, reachedAfter, restingAfter, same, already⟩
      · obtain ⟨width, workers⟩ := le_min_iff.mp near
        cases later with
        | nil =>
            have lengths := congrArg List.length same
            rw [List.append_nil, List.length_map] at lengths
            omega
        | cons cell later =>
            -- Fewer cells are held than there are workers.
            obtain ⟨worker, idle⟩ : ∃ worker, worker ∉ more.map Prod.fst := by
              by_contra! everybody
              have all : Finset.univ ⊆ (more.map Prod.fst).toFinset := fun worker _ =>
                List.mem_toFinset.mpr (everybody worker)
              have bound := (Finset.card_le_card all).trans (List.toFinset_card_le _)
              rw [Finset.card_univ, List.length_map] at bound
              omega
            have distinct : (more.map Prod.snd ++ cell :: later).Nodup :=
              same ▸ answers.distinct.sublist onWalk
            have member : cell ∈ finds.walk call :=
              onWalk.subset (same ▸ List.mem_append_right _ List.mem_cons_self)
            obtain ⟨next, reachedNext, restingNext⟩ :=
              restingAfter.offer reachedAfter few (show more.length < _ by
                have := (show (finds.job call).width = finds.settings.perFindConcurrency from rfl)
                omega) distinct (answers.searchable cell member) idle
            refine ⟨next, _, later, reachedNext, restingNext, ?_, ?_⟩
            · rw [← same, List.map_append, List.append_assoc]
              rfl
            · rw [List.length_append, List.length_singleton]
              omega

omit [DecidableEq ι] [DecidableEq ω] [Fintype ω] in
/-- Where enough cells are held, one that is near enough is among them. -/
theorem split_held {before after : List CellLocator} {key : CellLocator}
    (same : held.map Prod.snd ++ rest = before ++ key :: after)
    (many : before.length + 1 ≤ held.length)
    : ∃ early holder late,
        held = early ++ holder :: late
        ∧ before = early.map Prod.snd
        ∧ key = holder.2
        ∧ after = late.map Prod.snd ++ rest := by
  rcases List.append_eq_append_iff.mp same with ⟨more, front, _⟩ | ⟨more, front, back⟩
  · have lengths := congrArg List.length front
    rw [List.length_append, List.length_map] at lengths
    omega
  · obtain ⟨early, others, rfl, rfl, rfl⟩ := List.map_eq_append_iff.mp front
    cases others with
    | nil =>
        rw [List.append_nil, List.length_map] at many
        omega
    | cons holder late =>
        obtain ⟨rfl, rfl⟩ := List.cons.inj back
        exact ⟨early, holder, late, rfl, rfl, rfl, rfl⟩

/-- As long as people are missing, the cells can be completed in any possible order, by induction
over it.
-/
theorem resting_of_settles (answers : finds.AnswersCall call) {done : List CellLocator}
    (settles : Settles ((finds.job call).reach (Fintype.card ω)) (finds.walk call) done left)
    (few
      : ∀ earlier, earlier <+: done
          → earlier ≠ done
          → (earlier.flatMap (finds.found call)).length < finds.settings.maxPpl)
    : ∃ (state : FindState ι ω) (held : List (ω × CellLocator)) (rest : List CellLocator),
        Reached (finds.machine ω) state
        ∧ Resting finds call state held rest (done.flatMap (finds.found call))
        ∧ held.map Prod.snd ++ rest = left := by
  induction settles with
  | start =>
      obtain ⟨origin, located⟩ := answers.located
      obtain ⟨state, reached, resting⟩ := @resting_start ι ω _ _ finds call origin located
      exact ⟨state, [], _, reached, resting, rfl⟩
  | @next done before key after settles near ih =>
      have proper : done ≠ done ++ [key] := fun same => by simp at same
      have missing := few done (List.prefix_append _ _) proper
      obtain ⟨state, held, rest, reached, resting, same⟩ := ih fun earlier early different =>
        few earlier (early.trans (List.prefix_append _ _)) fun equal => by
          have lengths := (equal ▸ early).length_le
          simp at lengths
      have onWalk : (held.map Prod.snd ++ rest).Sublist (finds.walk call) :=
        same ▸ settles.sublist
      obtain ⟨next, more, later, reachedNext, restingNext, sameNext, many⟩ :=
        @Resting.offerMany _ _ _ _ _ _ _ _ _ _ _ answers resting reached missing onWalk
          (before.length + 1) near (by rw [same]; simp)
      rw [same] at sameNext onWalk
      obtain ⟨early, holder, late, rfl, rfl, rfl, rfl⟩ := split_held sameNext many
      have distinct : ((early ++ holder :: late).map Prod.snd).Nodup :=
        (answers.distinct.sublist (sameNext ▸ onWalk)).of_append_left
      obtain ⟨after, reachedAfter, restingAfter⟩ := restingNext.complete reachedNext distinct
      refine ⟨after, early ++ late, later, reachedAfter, ?_, ?_⟩
      · rw [List.flatMap_append, List.flatMap_singleton]
        exact restingAfter
      · rw [List.map_append, List.append_assoc]

omit [Fintype ω] in
/-- Workers that have searched append what they found, by induction on them. -/
theorem Resting.drain (resting : Resting finds call state held rest ppl)
    (reached : Reached (finds.machine ω) state) (distinct : (held.map Prod.snd).Nodup)
    : ∃ after more,
        Reached (finds.machine ω) after
        ∧ Resting finds call after ([] : List (ω × CellLocator)) rest (ppl ++ more) := by
  induction held generalizing state ppl with
  | nil => exact ⟨state, [], reached, by rwa [List.append_nil]⟩
  | cons holder others ih =>
      obtain ⟨next, reachedNext, restingNext⟩ :=
        @Resting.complete _ _ _ _ _ _ _ _ _ _ holder.1 [] others resting reached distinct
      obtain ⟨after, more, reachedAfter, restingAfter⟩ :=
        ih restingNext reachedNext (List.nodup_cons.mp distinct).2
      exact ⟨after, _, reachedAfter, by rwa [← List.append_assoc]⟩

omit [Fintype ω] in
/-- With no cell pending a call returns once its walk is over, or there are enough people. -/
theorem Resting.returns (resting : Resting finds call state ([] : List (ω × CellLocator)) rest ppl)
    (reached : Reached (finds.machine ω) state)
    (finished : rest = [] ∨ finds.settings.maxPpl ≤ ppl.length)
    : ∃ after,
        Reached (finds.machine ω) after
        ∧ after.callers call = .returned (ppl.take finds.settings.maxPpl) := by
  rw [← finds.truncate_eq]
  cases rest with
  | nil =>
      obtain ⟨after, ran, returned⟩ :=
        return_of_exhausted resting.running resting.caller resting.context
      exact ⟨after, reached.follow ran, returned⟩
  | cons cell rest =>
      obtain ⟨after, ran, returned⟩ := return_of_enough resting.running resting.caller
        resting.context (finished.resolve_left (List.cons_ne_nil cell rest))
      exact ⟨after, reached.follow ran, returned⟩

/-- For every possible order of its cells a call can return the first people in it. -/
theorem returned_of_settles (answers : finds.AnswersCall call) {order : List CellLocator}
    (settles : Settles ((finds.job call).reach (Fintype.card ω)) (finds.walk call) order [])
    : ∃ state : FindState ι ω,
        Reached (finds.machine ω) state
        ∧ state.callers call
          = .returned ((order.flatMap (finds.found call)).take finds.settings.maxPpl) := by
  obtain ⟨first, left, settlesFirst, few, whole⟩ :=
    settles.cut (finds.found call) finds.settings.maxPpl
  obtain ⟨state, held, rest, reached, resting, same⟩ := resting_of_settles answers settlesFirst few
  rcases whole with ⟨rfl, rfl⟩ | ⟨⟨later, rfl⟩, enough⟩
  · obtain ⟨nobody, rfl⟩ := List.append_eq_nil_iff.mp same
    cases List.map_eq_nil_iff.mp nobody
    exact resting.returns reached (.inl rfl)
  · have distinct : (held.map Prod.snd).Nodup :=
      (answers.distinct.sublist (same ▸ settlesFirst.sublist)).of_append_left
    obtain ⟨drained, more, reachedDrained, restingDrained⟩ := resting.drain reached distinct
    -- More people make no difference where there are enough.
    have people : ((first ++ later).flatMap (finds.found call)).take finds.settings.maxPpl
        = (first.flatMap (finds.found call) ++ more).take finds.settings.maxPpl := by
      rw [List.flatMap_append, List.take_append_of_le_length enough,
        List.take_append_of_le_length enough]
    rw [people]
    refine restingDrained.returns reachedDrained (.inr (enough.trans ?_))
    rw [List.length_append]
    exact Nat.le_add_right _ _

end Orders

-----------------------------------------------------------------------------------------
-- Answers
-----------------------------------------------------------------------------------------

/-- What may be found for a request: the first matching people of the cells around the user, in an
order in which so many workers can complete them.
-/
inductive Settings.MayFind (settings : Settings) (grid : PplGrid) (workers : Nat)
    (parameters : PplMatchingParameters)
    : List Person → Prop
  | intro {origin : CellLocator} {window : Date × Date} {order : List CellLocator}
    (located : settings.toCellLocator parameters.locationOfUser = .ok origin)
    (representable : settings.Representable parameters window)
    (settles
      : Settles (min settings.perFindConcurrency workers)
          (sqiralCells settings.resolution origin) order [])
    : MayFind settings grid workers parameters
        ((order.flatMap (settings.matchingPpl grid window)).take settings.maxPpl)

section Answers

variable {ι ω : Type*} [DecidableEq ι] [DecidableEq ω] [Fintype ω] [Nonempty ω]
  {settings : Settings} {people ppl : List Person} {grid : PplGrid}
  {requests : ι → PplMatchingParameters} {call : ι}

omit [DecidableEq ι] [DecidableEq ω] [Fintype ω] [Nonempty ω] in
/-- The cells of an order are those of the walk. -/
theorem flatMap_order {origin : CellLocator} {window : Date × Date} {reach : Nat}
    {order : List CellLocator} (populated : settings.Populated people grid)
    (located : settings.toCellLocator (requests call).locationOfUser = .ok origin)
    (representable : settings.Representable (requests call) window)
    (settles : Settles reach ((Finds.mk settings grid requests).walk call) order [])
    : order.flatMap ((Finds.mk settings grid requests).found call)
      = order.flatMap (settings.matchingPpl grid window) := by
  refine List.flatMap_congr fun cell member => ?_
  have among := settles.perm.subset (List.mem_append_left [] member)
  exact found_of_mem_walk populated located representable among

omit [DecidableEq ι] [DecidableEq ω] [Fintype ω] [Nonempty ω] in
/-- Without a window nobody is found. -/
theorem found_of_error {fault : Fault} (failed : settings.ageWindow (requests call) = .error fault)
    (cell : CellLocator)
    : (Finds.mk settings grid requests).found call cell = [] := by
  unfold Finds.found
  split
  · rename_i people searched
    obtain ⟨_, _, inCell⟩ := Failures.of_bind_eq_ok searched
    obtain ⟨window, dates, _⟩ := Failures.of_bind_eq_ok inCell
    cases failed.symm.trans dates
  · rfl

/-- Whoever is returned may be found, and nobody is where nothing can be searched. -/
theorem mayFind_of_returned (populated : settings.Populated people grid)
    {state : FindState ι ω} (reached : Reached ((Finds.mk settings grid requests).machine ω) state)
    (returned : state.callers call = .returned ppl)
    : settings.MayFind grid (Fintype.card ω) (requests call) ppl ∨ ppl = [] := by
  let finds : Finds ι := ⟨settings, grid, requests⟩
  obtain ⟨order, settles, found⟩
    : ∃ order, Settles (min settings.perFindConcurrency (Fintype.card ω)) (finds.walk call) order []
        ∧ ppl = (order.flatMap (finds.found call)).take settings.maxPpl :=
    (orderly_of_reached reached call).result ppl (result_of_returned returned)
  cases located : settings.toCellLocator (requests call).locationOfUser with
  | error fault =>
      have nowhere : finds.walk call = [] := by rw [Finds.walk, located]
      have cells := settles.perm
      rw [nowhere, List.append_nil, List.perm_nil] at cells
      rw [found, cells, List.flatMap_nil, List.take_nil]
      exact .inr rfl
  | ok origin =>
      have walked := walk_of_located finds located
      cases dates : settings.ageWindow (requests call) with
      | error fault =>
          have nobody : order.flatMap (finds.found call) = [] :=
            List.flatMap_eq_nil_iff.mpr fun cell _ => found_of_error dates cell
          rw [found, nobody, List.take_nil]
          exact .inr rfl
      | ok window =>
          have representable := GridSettings.ageWindow_eq_ok_iff.mp dates
          rw [found, flatMap_order populated located representable settles]
          exact .inl (.intro located representable (walked ▸ settles))

omit [Nonempty ω] in
/-- And whoever may be found can be returned. -/
theorem returned_of_mayFind (populated : settings.Populated people grid)
    (found : settings.MayFind grid (Fintype.card ω) (requests call) ppl)
    : ∃ state : FindState ι ω,
        Reached ((Finds.mk settings grid requests).machine ω) state
        ∧ state.callers call = .returned ppl := by
  obtain @⟨origin, window, order, located, representable, settles⟩ := found
  let finds : Finds ι := ⟨settings, grid, requests⟩
  have walked := walk_of_located finds located
  rw [← walked] at settles
  rw [← flatMap_order populated located representable settles]
  exact returned_of_settles (answersCall_of_populated populated located representable) settles

/-- Something may be found: the cells in the order of the walk. -/
theorem exists_mayFind {parameters : PplMatchingParameters} {window : Date × Date} {workers : Nat}
    (asked : parameters.locationOfUser.isValid = true)
    (representable : settings.Representable parameters window) (some : 0 < workers)
    : ∃ ppl, settings.MayFind grid workers parameters ppl := by
  obtain ⟨_, _, _, _, located⟩ := settings.toCellLocator_of_isValid asked
  have positive : 0 < min settings.perFindConcurrency workers :=
    lt_min settings.perFindConcurrencyPositive some
  exact ⟨_, .intro located representable (Settles.start.exhaust positive)⟩

/-- Whoever may be found matches, and as many are as may be. -/
theorem Settings.MayFind.matching {parameters : PplMatchingParameters} {workers : Nat}
    (populated : settings.Populated people grid)
    (homes : ∀ person ∈ people, person.locationOfHome.isValid = true)
    (found : settings.MayFind grid workers parameters ppl)
    : ∃ window, settings.Representable parameters window
        ∧ (ppl : Multiset Person) ≤ (people.filter (InWindow window) : List Person)
        ∧ ppl.length = min settings.maxPpl (people.filter (InWindow window)).length := by
  obtain @⟨origin, window, order, located, representable, settles⟩ := found
  have cells := settles.perm
  rw [List.append_nil] at cells
  have everybody := (cells.flatMap_right (settings.matchingPpl grid window)).trans
    (flatMap_walk_perm populated homes located window)
  refine ⟨window, representable, ?_, ?_⟩
  · exact (Multiset.coe_le.mpr (List.take_sublist _ _).subperm).trans
      (Multiset.coe_le.mpr everybody.subperm)
  · rw [List.length_take, everybody.length_eq]

end Answers

end PplMe.Engine
