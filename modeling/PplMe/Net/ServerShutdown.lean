import PplMe.Net.ServerInvariants
import Mathlib.Logic.Basic

/-! Shutting down the server.
A call of `Shutdown` that takes a registry without entries leaves the connection threads to
themselves. One that takes a registry with entries waits for threads that look for their
entries where there is no registry any more.
-/

namespace PplMe.Net

open Stepping

section Orderly

variable {ι : Type*} [DecidableEq ι] {state after : ServerState ι} {label : ServerLabel ι}

/-- `Shutdown` takes the registry only when that has no entry. -/
def TakesNobody (label : ServerLabel ι) (state : ServerState ι) : Prop :=
  label = .run .shutdown → state.shutdown = .take → state.registry = some ∅

/-- The thread still has to take the lock, or to release it. -/
def ServicePc.needsLock : ServicePc → Prop
  | .serving | .enter | .unregister | .leave => True
  | _ => False

/-- The thread still has to touch the server: its members, or the `io_service_` of the connection
that it destroys. -/
def ServicePc.touchesServer : ServicePc → Prop
  | .unborn | .ended => False
  | _ => True

/-- What holds in addition where `Shutdown` takes nobody. -/
structure ServerState.Tidy (state : ServerState ι) : Prop where
  settled
    : state.registry = none
      → ∀ thread, ¬ (state.threads thread).needsLock
  nobody
    : ∀ threads,
        state.shutdown = .leave (some threads) ∨ state.shutdown = .joining threads
        → threads = ∅
  joined : state.joined = ∅
  found : state.crashed ≠ some .absentRegistry ∧ state.crashed ≠ some .missingEntry

omit [DecidableEq ι] in
theorem tidy_started : (ServerState.started : ServerState ι).Tidy where
  settled absent := nomatch absent
  nobody _ at_pc := by rcases at_pc with ⟨⟨⟩⟩ | ⟨⟨⟩⟩
  joined := rfl
  found := by simp [ServerState.started]

omit [DecidableEq ι] in
/-- No thread needs the lock while `Shutdown` holds it and there are no entries. -/
theorem not_needsLock_of_take (sound : state.Sound) (at_pc : state.shutdown = .take)
    (empty : state.registry = some ∅) (thread : ι)
    : ¬ (state.threads thread).needsLock := by
  have inside := holds_of_take at_pc
  have outside : ¬ state.Holds (.connection thread) := fun also =>
    nomatch sound.locked.unique inside also
  have absent : ¬ (state.threads thread).registered := fun registered =>
    Finset.notMem_empty thread ((sound.entries ∅ empty thread).mpr
      ⟨registered, sound.not_starting inside nofun thread⟩)
  cases pc : state.threads thread <;>
    simp_all [ServicePc.needsLock, ServerState.Holds, ServicePc.holds, ServicePc.registered]

theorem ServerMove.settled (moved : ServerMove state label after) (sound : state.Sound)
    (allowed : TakesNobody label state) (tidy : state.Tidy)
    : after.registry = none → ∀ thread, ¬ (after.threads thread).needsLock := by
  have settled := tidy.settled
  cases moved with
  | startThread _ present => exact fun absent => nomatch present.symm.trans absent
  | emplace _ _ | unregister _ _ _ => nofun
  | served at_pc | threadLock at_pc _ | threadUnlock at_pc =>
      intro absent
      exact (settled absent _ (by rw [at_pc]; trivial)).elim
  | detach at_pc | release at_pc =>
      intro absent
      exact forall_setThread (fun _ pc => ¬ pc.needsLock) id fun other _ => settled absent other
  | take at_pc =>
      exact fun _ => @not_needsLock_of_take ι state sound at_pc (allowed rfl at_pc)
  | _ => exact settled

theorem ServerMove.nobody (moved : ServerMove state label after)
    (allowed : TakesNobody label state) (tidy : state.Tidy)
    : ∀ threads,
        after.shutdown = .leave (some threads) ∨ after.shutdown = .joining threads
        → threads = ∅ := by
  have nobody := tidy.nobody
  cases moved with
  | shutdownLock _ _ | leaveAbsent _ | stop _ | joinIo _ _ =>
      rintro _ (⟨⟨⟩⟩ | ⟨⟨⟩⟩)
  | take at_pc =>
      rintro _ (at_leave | ⟨⟨⟩⟩)
      rw [allowed rfl at_pc] at at_leave
      cases at_leave
      rfl
  | leave at_pc =>
      rintro _ (⟨⟨⟩⟩ | ⟨⟨⟩⟩)
      exact nobody _ (.inl at_pc)
  | join at_pc member _ =>
      rw [nobody _ (.inr at_pc)] at member
      exact absurd member (Finset.notMem_empty _)
  | _ => exact nobody

theorem ServerMove.found (moved : ServerMove state label after) (sound : state.Sound)
    (tidy : state.Tidy)
    : after.crashed ≠ some .absentRegistry ∧ after.crashed ≠ some .missingEntry := by
  have found := tidy.found
  cases moved with
  | refuse _ _ | escape _ => simp [ServerState.crash]
  | emplaceAbsent at_pc absent =>
      have present := (sound.starting _ at_pc).2
      simp [absent] at present
  | unregisterAbsent at_pc absent => exact (tidy.settled absent _ (by rw [at_pc]; trivial)).elim
  | @unregisterMissing thread entries at_pc present missing =>
      have registered : (state.threads thread).registered := by
        rw [at_pc]
        trivial
      have still := sound.not_starting (holds_of_unregister at_pc) nofun thread
      exact absurd ((sound.entries entries present thread).mpr ⟨registered, still⟩) missing
  | _ => exact found

theorem ServerMove.tidy (moved : ServerMove state label after) (sound : state.Sound)
    (allowed : TakesNobody label state) (tidy : state.Tidy)
    : after.Tidy where
  settled := moved.settled sound allowed tidy
  nobody := moved.nobody allowed tidy
  joined := by
    have joined := tidy.joined
    cases moved with
    | join at_pc member _ =>
        rw [tidy.nobody _ (.inr at_pc)] at member
        exact absurd member (Finset.notMem_empty _)
    | _ => exact joined
  found := moved.found sound tidy

-----------------------------------------------------------------------------------------
-- Orderly shutdowns
-----------------------------------------------------------------------------------------

/-- `Shutdown` takes the registry only when every thread that was started has come to its end, and
no exception ends what a thread does with its client.
-/
def TakesLast (label : ServerLabel ι) (state : ServerState ι) : Prop :=
  (label = .run .shutdown
    → state.shutdown = .take
    → ∀ thread, ¬ (state.threads thread).touchesServer)
  ∧ ∀ thread, label ≠ .served thread true

omit [DecidableEq ι] in
/-- Then the registry has no entry. -/
theorem TakesLast.takesNobody (last : TakesLast label state) (sound : state.Sound)
    : TakesNobody label state := by
  intro shutdown at_pc
  have quiet := last.1 shutdown at_pc
  obtain ⟨entries, present⟩ := Option.isSome_iff_exists.mp (sound.present.mpr (.inr at_pc))
  refine present.trans (congrArg some (Finset.eq_empty_of_forall_notMem fun thread member => ?_))
  have registered := ((sound.entries entries present thread).mp member).1
  have still := quiet thread
  cases pc : state.threads thread <;>
    simp_all [ServicePc.registered, ServicePc.touchesServer]

/-- What holds where `Shutdown` takes the registry last. -/
structure ServerState.Quiet (state : ServerState ι) : Prop where
  tidy : state.Tidy
  settled : state.registry = none → ∀ thread, ¬ (state.threads thread).touchesServer
  contained : state.crashed ≠ some .escaped

theorem ServerMove.quiet (moved : ServerMove state label after) (sound : state.Sound)
    (last : TakesLast label state) (quiet : state.Quiet)
    : after.Quiet := by
  obtain ⟨tidy, settled, contained⟩ := quiet
  refine ⟨moved.tidy sound (last.takesNobody sound) tidy, ?_, ?_⟩
  · cases moved with
    | startThread _ present => exact fun absent => nomatch present.symm.trans absent
    | emplace _ _ | unregister _ _ _ => nofun
    | served at_pc | threadLock at_pc _ | threadUnlock at_pc | detach at_pc | release at_pc =>
        intro absent
        exact (settled absent _ (by rw [at_pc]; trivial)).elim
    | take at_pc => exact fun _ => last.1 rfl at_pc
    | _ => exact settled
  · cases moved with
    | escape _ => exact absurd rfl (last.2 _)
    | refuse _ _ | emplaceAbsent _ _ | unregisterAbsent _ _ | unregisterMissing _ _ _ =>
        simp [ServerState.crash]
    | _ => exact contained

theorem quiet_of_reached (reached : ReachedBy (singleShotServer ι) TakesLast state)
    : state.Quiet := by
  refine reached.invariant ServerState.Quiet ⟨tidy_started, nofun, nofun⟩ ?_
  exact fun _ _ _ earlier quiet last moved =>
    (serverMove_of_step moved).2.quiet (sound_of_reached earlier.reached) last quiet

/-- No thread looks for its entry where there is no registry, or in vain. Each thread is joined,
or takes its entry out and detaches itself, and not both: while it has not ended it can move,
unless it waits for the lock, whose holder can, or for its client and the handler. Once `Shutdown`
has returned each started thread has ended, was joined or has taken its entry out, and does not
touch the server any more.
-/
structure ServerState.Orderly (state : ServerState ι) : Prop where
  found
    : state.crashed ≠ some .absentRegistry
      ∧ state.crashed ≠ some .missingEntry
      ∧ state.crashed ≠ some .escaped
  exclusive : ∀ thread, ¬ (thread ∈ state.joined ∧ thread ∈ state.unregistered)
  ended
    : ∀ thread,
        state.threads thread = .ended
        → Xor (thread ∈ state.joined) (thread ∈ state.detached)
  progress
    : state.crashed = none
      → ∀ thread,
          state.threads thread ≠ .unborn
          → state.threads thread ≠ .ended
          → (singleShotServer ι).Enabled (.run (.connection thread)) state
            ∨ (∃ party,
                state.mutex = some party ∧ (singleShotServer ι).Enabled (.run party) state)
            ∨ state.threads thread = .serving
              ∧ (singleShotServer ι).Enabled (.served thread false) state
  settled
    : state.shutdown = .returned
      → ∀ thread,
          state.threads thread ≠ .unborn
          → state.threads thread = .ended
            ∧ Xor (thread ∈ state.joined) (thread ∈ state.unregistered)
  quiet : state.shutdown = .returned → ∀ thread, ¬ (state.threads thread).touchesServer

/-- Inside the lock no step has to wait: for the I/O thread, -/
theorem handleAcceptResultStep_isSome (inside : state.io.holds)
    : state.handleAcceptResultStep.isSome := by
  unfold ServerState.handleAcceptResultStep
  cases at_pc : state.io with
  | inspect connection | emplace connection => cases state.registry <;> rfl
  | leave => rfl
  | _ => exact (at_pc ▸ inside).elim

/-- for a connection thread, -/
theorem serviceStep_isSome {thread : ι} (inside : (state.threads thread).holds)
    : (state.serviceStep thread).isSome := by
  unfold ServerState.serviceStep
  cases at_pc : state.threads thread with
  | unregister =>
      cases state.registry with
      | none => rfl
      | some entries =>
          dsimp only
          split <;> rfl
  | leave => rfl
  | _ => exact (at_pc ▸ inside).elim

/-- and for the call of `Shutdown`. -/
theorem shutdownStep_isSome (inside : state.shutdown.holds) : state.shutdownStep.isSome := by
  unfold ServerState.shutdownStep
  cases at_pc : state.shutdown with
  | take => rfl
  | leave threads => cases threads <;> rfl
  | _ => exact (at_pc ▸ inside).elim

/-- A party inside the lock can move. -/
theorem enabled_of_holds (running : state.crashed = none) {party : ServerParty ι}
    (inside : state.Holds party)
    : (singleShotServer ι).Enabled (.run party) state := by
  have step : (singleShotServer ι).step (.run party) state
      = match party with
        | .io => state.handleAcceptResultStep
        | .connection thread => state.serviceStep thread
        | .shutdown => state.shutdownStep := by
    simp only [singleShotServer, running]
    cases party <;> rfl
  unfold Machine.Enabled
  rw [step, ← Option.isSome_iff_exists]
  cases party with
  | io => exact handleAcceptResultStep_isSome inside
  | connection thread => exact serviceStep_isSome inside
  | shutdown => exact shutdownStep_isSome inside

/-- A thread that is done with its client waits for nothing but the lock. -/
theorem progress_of_sound (sound : state.Sound) (running : state.crashed = none) {thread : ι}
    (started : state.threads thread ≠ .unborn) (going : state.threads thread ≠ .ended)
    (exchanged : state.threads thread ≠ .serving)
    : (singleShotServer ι).Enabled (.run (.connection thread)) state
      ∨ ∃ party, state.mutex = some party ∧ (singleShotServer ι).Enabled (.run party) state := by
  have step : (singleShotServer ι).step (.run (.connection thread)) state
      = state.serviceStep thread := by
    simp only [singleShotServer, running]
  cases held : state.mutex with
  | some party => exact .inr ⟨party, rfl, enabled_of_holds running ((sound.locked party).mp held)⟩
  | none =>
      refine .inl ?_
      unfold Machine.Enabled
      rw [step, ServerState.serviceStep]
      cases at_pc : state.threads thread with
      | unborn => exact absurd at_pc started
      | ended => exact absurd at_pc going
      | unregister | leave =>
          have inside : state.Holds (.connection thread) := by
            rw [ServerState.Holds, at_pc]
            trivial
          cases held.symm.trans ((sound.locked _).mpr inside)
      | enter => exact ⟨_, by simp only [ServerState.lock, held, Option.map_some]; rfl⟩
      | serving => exact absurd at_pc exchanged
      | detach | release => exact ⟨_, rfl⟩

/-- And one that is not can have done with it. -/
theorem served_enabled (running : state.crashed = none) {thread : ι}
    (serving : state.threads thread = .serving)
    : (singleShotServer ι).Enabled (.served thread false) state := by
  refine ⟨state.setThread thread .enter, ?_⟩
  simp only [singleShotServer, running, ServerState.serveStep, serving, Bool.false_eq_true,
    if_false]

/-- Where `Shutdown` takes the registry last, it is orderly. -/
theorem orderly_of_reached (reached : ReachedBy (singleShotServer ι) TakesLast state)
    : state.Orderly := by
  have sound := sound_of_reached reached.reached
  obtain ⟨tidy, settled, contained⟩ := quiet_of_reached reached
  have unjoined (thread : ι) : thread ∉ state.joined := by
    rw [tidy.joined]
    exact Finset.notMem_empty thread
  have quiet (returned : state.shutdown = .returned) (thread : ι)
      : ¬ (state.threads thread).touchesServer := by
    refine settled (Option.not_isSome_iff_eq_none.mp fun present => ?_) thread
    have early := sound.present.mp present
    simp [returned] at early
  refine ⟨⟨tidy.found.1, tidy.found.2, contained⟩, fun thread both => unjoined thread both.1,
    fun thread ended => ?_, fun running thread started going => ?_,
    fun returned thread started => ?_, quiet⟩
  · exact .inr ⟨(sound.detached thread).mpr (by rw [ended]; trivial), unjoined thread⟩
  · by_cases serving : state.threads thread = .serving
    · exact .inr (.inr ⟨serving, served_enabled running serving⟩)
    · exact (progress_of_sound sound running started going serving).imp_right .inl
  · have ended : state.threads thread = .ended := by
      have still := quiet returned thread
      cases pc : state.threads thread <;> simp_all [ServicePc.touchesServer]
    refine ⟨ended, .inr ⟨(sound.unregistered thread).mpr ?_, unjoined thread⟩⟩
    rw [ended]
    trivial

end Orderly

section Doomed

variable {ι : Type*} [DecidableEq ι] {state after : ServerState ι} {label : ServerLabel ι}
  {threads : Finset ι}

/-- `Shutdown` has taken threads that have not looked for their entries. -/
structure ServerState.Waiting (state : ServerState ι) (threads : Finset ι) : Prop where
  taken : state.shutdown = .leave (some threads) ∨ state.shutdown = .joining threads
  absent : state.registry = none
  registered : ∀ thread ∈ threads, (state.threads thread).registered

/-- They never find them, so it waits for ever. -/
theorem ServerMove.waiting (moved : ServerMove state label after) (nonempty : threads.Nonempty)
    (waiting : state.Waiting threads)
    : after.Waiting threads := by
  obtain ⟨taken, absent, registered⟩ := waiting
  cases moved with
  | startThread _ present | emplace _ present | unregister _ present _ =>
      cases absent.symm.trans present
  | served at_pc | threadLock at_pc _ =>
      exact ⟨taken, absent, forall_setThread (fun thread pc => thread ∈ threads → pc.registered)
        (fun _ => trivial) (fun other _ => registered other)⟩
  | threadUnlock at_pc | detach at_pc | release at_pc =>
      refine ⟨taken, absent, forall_setThread (fun thread pc => thread ∈ threads → pc.registered)
        (fun member => ?_) (fun other _ => registered other)⟩
      exact (at_pc ▸ registered _ member).elim
  | shutdownLock at_pc _ | take at_pc | leaveAbsent at_pc | joinIo at_pc _ =>
      simp [at_pc] at taken
  | leave at_pc =>
      simp only [at_pc, ShutdownPc.leave.injEq, Option.some.injEq, reduceCtorEq, or_false] at taken
      exact ⟨.inr (congrArg _ taken), absent, registered⟩
  | stop at_pc =>
      simp only [at_pc, reduceCtorEq, ShutdownPc.joining.injEq, false_or] at taken
      exact absurd taken.symm nonempty.ne_empty
  | join at_pc member ended =>
      simp only [at_pc, reduceCtorEq, ShutdownPc.joining.injEq, false_or] at taken
      have still := registered _ (taken ▸ member)
      exact (ended ▸ still).elim
  | _ => exact ⟨taken, absent, registered⟩

/-- Where `Shutdown` takes a registry with entries, it never returns, and the threads that it has
taken are neither joined nor take their entries out.
-/
theorem waits_forever (reached : Reached (singleShotServer ι) state)
    (at_pc : state.shutdown = .take) (present : state.registry = some threads)
    (nonempty : threads.Nonempty) {schedule : List (ServerLabel ι)}
    (run : (singleShotServer ι).follow (.run .shutdown :: schedule) state = some after)
    : after.shutdown ≠ .returned
      ∧ ∀ thread ∈ threads, thread ∉ after.joined ∧ thread ∉ after.unregistered := by
  obtain ⟨middle, took, later⟩ := Machine.follow_cons_some.mp run
  have sound := sound_of_reached reached
  have begins : middle.Waiting threads := by
    have still (thread : ι) (member : thread ∈ threads) : (state.threads thread).registered :=
      ((sound.entries threads present thread).mp member).1
    have step : (singleShotServer ι).step (.run .shutdown) state = state.shutdownStep := by
      simp only [singleShotServer, (serverMove_of_step took).1]
    rw [step, ServerState.shutdownStep, at_pc] at took
    cases took
    exact ⟨.inl (by rw [present]), rfl, still⟩
  have waiting : after.Waiting threads :=
    Machine.follow_invariant (fun state => state.Waiting threads)
      (fun _ _ _ waiting moved => (serverMove_of_step moved).2.waiting nonempty waiting) begins
      later
  have soundAfter := sound_of_reached (reached.follow run)
  refine ⟨?_, fun thread member => ⟨fun joined => ?_, fun unregistered => ?_⟩⟩
  · rcases waiting.taken with at_leave | at_join
    · simp [at_leave]
    · simp [at_join]
  · exact (soundAfter.joined thread joined ▸ waiting.registered thread member).elim
  · have still := waiting.registered thread member
    have out := (soundAfter.unregistered thread).mp unregistered
    cases pc : after.threads thread <;>
      simp_all [ServicePc.registered, ServicePc.unregistered]

/-- Where `Shutdown` takes a registry without entries while a thread is left that has unregistered,
it can return before that thread has touched the server for the last time.
-/
theorem returns_early (running : state.crashed = none) (at_pc : state.shutdown = .take)
    (nobody : state.registry = some ∅) (waiting : state.io = .waiting)
    : ∃ after,
        (singleShotServer ι).follow
            [.run .shutdown, .run .shutdown, .run .shutdown, .run .io, .run .shutdown] state
          = some after
        ∧ after.shutdown = .returned
        ∧ after.threads = state.threads := by
  obtain ⟨mutex, registry, threads, io, ioStopped, shutdown, joined, unregistered, detached,
    crashed⟩ := state
  cases running
  cases at_pc
  cases nobody
  cases waiting
  exact ⟨_, rfl, rfl, rfl⟩

end Doomed

-----------------------------------------------------------------------------------------
-- Shutting down
-----------------------------------------------------------------------------------------

/-- A server with at most one connection, after some steps. -/
def smallServer (schedule : List (ServerLabel (Fin 1))) : ServerState (Fin 1) :=
  ((singleShotServer (Fin 1)).follow schedule .started).getD .started

/-- The connection is accepted, and its thread registered. -/
def connecting : List (ServerLabel (Fin 1)) :=
  [.accept (some 0), .run .io, .run .io, .run .io, .run .io]

/-- `Shutdown` takes the lock and then the registry, and releases the lock. -/
def takingRegistry : List (ServerLabel (Fin 1)) :=
  [.run .shutdown, .run .shutdown, .run .shutdown]

/-- Where `Shutdown` takes the registry only when every thread that was started has come to its end,
and no exception ends what a thread does with its client, every state is orderly: threads find
their entries, each unregisters and detaches itself, and none touches the server once `Shutdown`
has returned. Where one takes a registry with entries, it never returns, and the threads it takes
are neither joined nor unregister. And where it takes the registry while another thread has not
come to its end, it can return before that.
-/
theorem shutdown_orderly {ι : Type*} [DecidableEq ι]
    : (∀ state, ReachedBy (singleShotServer ι) TakesLast state → state.Orderly)
      ∧ ∀ before threads,
          Reached (singleShotServer ι) before
          → before.crashed = none
          → before.shutdown = .take
          → before.registry = some threads
          → (threads.Nonempty
            → ∀ schedule after,
                (singleShotServer ι).follow (.run .shutdown :: schedule) before = some after
                → after.shutdown ≠ .returned
                  ∧ ∀ thread ∈ threads, thread ∉ after.joined ∧ thread ∉ after.unregistered)
            ∧ (threads = ∅
              → before.io = .waiting
              → ∀ thread,
                  (before.threads thread).touchesServer
                  → ∃ schedule after,
                      (singleShotServer ι).follow (.run .shutdown :: schedule) before
                        = some after
                      ∧ after.shutdown = .returned
                      ∧ (after.threads thread).touchesServer) := by
  refine ⟨fun _ reached => orderly_of_reached reached, ?_⟩
  intro before threads reached running at_pc present
  refine ⟨fun nonempty _ _ run => waits_forever reached at_pc present nonempty run, ?_⟩
  rintro rfl waiting thread touches
  obtain ⟨after, run, returned, same⟩ := returns_early running at_pc present waiting
  exact ⟨_, after, run, returned, same ▸ touches⟩

/-- A connection thread unregisters and detaches itself. -/
def unregistering : List (ServerLabel (Fin 1)) :=
  .served 0 false :: List.replicate 4 (.run (.connection 0))

/-- A server that no client connects to, one that is shut down while it serves a client, and one
that is shut down when its client's thread has detached itself.
-/
theorem shutdown_orderly_small
    : (smallServer takingRegistry).Orderly
      ∧ (smallServer (connecting ++ takingRegistry)).shutdown ≠ .returned
      ∧ ∃ schedule after,
          (singleShotServer (Fin 1)).follow (.run .shutdown :: schedule)
              (smallServer (connecting ++ unregistering ++ [.run .shutdown]))
            = some after
          ∧ after.shutdown = .returned
          ∧ (after.threads 0).touchesServer :=
  have shutdown := @shutdown_orderly (Fin 1) _
  ⟨shutdown.1 _
      (.next (.run .shutdown)
        (.next (.run .shutdown)
          (.next (.run .shutdown) .start ⟨fun _ at_pc => (nomatch at_pc), nofun⟩ rfl)
          ⟨fun _ _ _ => id, nofun⟩ rfl)
        ⟨fun _ at_pc => (nomatch at_pc), nofun⟩ rfl),
    ((shutdown.2 (smallServer (connecting ++ [.run .shutdown])) {0} (.getD_follow rfl) rfl rfl
      rfl).1 (Finset.singleton_nonempty 0) [.run .shutdown] _ rfl).1,
    (shutdown.2 (smallServer (connecting ++ unregistering ++ [.run .shutdown])) ∅
      (.getD_follow rfl) rfl rfl rfl).2 rfl rfl 0 (by trivial)⟩

/-- The client's thread looks for its entry after `Shutdown` has taken the registry. -/
theorem service_finds_no_registry
    : Reached (singleShotServer (Fin 1))
        (smallServer
          (connecting ++ takingRegistry
            ++ .served 0 false :: List.replicate 2 (.run (.connection 0))))
      ∧ (smallServer
          (connecting ++ takingRegistry
            ++ .served 0 false :: List.replicate 2 (.run (.connection 0)))).crashed
        = some .absentRegistry :=
  ⟨.getD_follow rfl, rfl⟩

end PplMe.Net
