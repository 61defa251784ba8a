import PplMe.Foundation.CallHistories
import PplMe.Net.ServerLife

/-! What holds over a server's whole life, whatever its owner calls and whoever connects: which
call of `Start` succeeds, and that no thread uses the server when it is gone.
-/

namespace PplMe.Net

open CallHistories Stepping ThreadHandles

-----------------------------------------------------------------------------------------
-- When a call of `Shutdown` has returned
-----------------------------------------------------------------------------------------

section Returned

variable {ι : Type*} [DecidableEq ι] {server next : ServerState ι} {label : ServerLabel ι}

/-- The first call of `Shutdown` finds a registry, and has the I/O thread ended. -/
structure ServerState.Returning (server : ServerState ι) : Prop where
  present : server.shutdown ≠ .leave none
  ended : server.shutdown = .returned → server.io = .ended

theorem ServerMove.returning (moved : ServerMove server label next) (sound : server.Sound)
    (returning : server.Returning)
    : next.Returning := by
  obtain ⟨present, ended⟩ := returning
  cases moved with
  | take at_pc =>
      have taken := sound.present.mpr (.inr at_pc)
      refine ⟨fun same => ?_, nofun⟩
      rw [ShutdownPc.leave.inj same] at taken
      cases taken
  | leaveAbsent at_pc => exact absurd at_pc present
  | joinIo at_pc still => exact ⟨nofun, fun _ => still⟩
  | shutdownLock _ _ | leave _ | stop _ | join _ _ _ => exact ⟨nofun, nofun⟩
  | accept waiting _ => exact ⟨present, fun at_pc => absurd (ended at_pc) (by simp [waiting])⟩
  | ioEnd _ => exact ⟨present, fun _ => rfl⟩
  | ioLock at_io _ | startThread at_io _ | emplace at_io _ | ioUnlock at_io =>
      exact ⟨present, fun at_pc => absurd (ended at_pc) (by simp [at_io])⟩
  | _ => exact ⟨present, ended⟩

theorem returning_of_reached (reached : Reached (singleShotServer ι) server)
    : server.Returning :=
  reached.invariant ServerState.Returning ⟨nofun, nofun⟩
    fun _ _ _ earlier returning _ moved =>
      (serverMove_of_step moved).2.returning (sound_of_reached earlier) returning

omit [DecidableEq ι] in
theorem not_takesNobody_iff
    : ¬ TakesNobody label server
      ↔ label = .run .shutdown ∧ server.shutdown = .take ∧ server.registry ≠ some ∅ := by
  simp only [TakesNobody, Classical.not_imp, ne_eq]

/-- A call of `Shutdown` that takes threads waits for them. -/
theorem ServerMove.waiting_of_take {threads : Finset ι}
    (moved : ServerMove server (.run .shutdown) next) (sound : server.Sound)
    (at_pc : server.shutdown = .take) (present : server.registry = some threads)
    : next.Waiting threads := by
  cases moved with
  | take _ =>
      refine ⟨.inl (by rw [present]), rfl, fun thread member => ?_⟩
      exact ((sound.entries threads present thread).mp member).1
  | shutdownLock other _ | leaveAbsent other | leave other | stop other | joinIo other _ =>
      cases at_pc.symm.trans other

/-- `Shutdown` has taken nobody so far, or it waits for ever. -/
theorem tidy_or_waiting (reached : Reached (singleShotServer ι) server)
    : server.Tidy ∨ ∃ threads : Finset ι, threads.Nonempty ∧ server.Waiting threads := by
  refine reached.invariant
    (fun server => server.Tidy ∨ ∃ threads : Finset ι, threads.Nonempty ∧ server.Waiting threads)
    (.inl tidy_started) ?_
  rintro label before after earlier (tidy | ⟨threads, nonempty, waiting⟩) - step
  · have moved := (serverMove_of_step step).2
    have sound := sound_of_reached earlier
    by_cases allowed : TakesNobody label before
    · exact .inl (moved.tidy sound allowed tidy)
    · obtain ⟨rfl, at_pc, someone⟩ := not_takesNobody_iff.mp allowed
      obtain ⟨threads, present⟩ := Option.isSome_iff_exists.mp (sound.present.mpr (.inr at_pc))
      have nonempty : threads.Nonempty :=
        Finset.nonempty_iff_ne_empty.mpr fun empty => someone (empty ▸ present)
      exact .inr ⟨threads, nonempty, moved.waiting_of_take sound at_pc present⟩
  · exact .inr ⟨threads, nonempty, (serverMove_of_step step).2.waiting nonempty waiting⟩

/-- When `Shutdown` has returned no thread needs the server's lock any more. -/
theorem quiet_of_returned (reached : Reached (singleShotServer ι) server)
    (returned : server.shutdown = .returned)
    : server.io = .ended ∧ ∀ thread, ¬ (server.threads thread).needsLock := by
  refine ⟨(returning_of_reached reached).ended returned, ?_⟩
  rcases tidy_or_waiting reached with tidy | ⟨threads, _, waiting⟩
  · apply tidy.settled
    have sound := sound_of_reached reached
    refine Option.not_isSome_iff_eq_none.mp fun present => ?_
    have early := sound.present.mp present
    simp [returned] at early
  · have taken := waiting.taken
    simp [returned] at taken

/-- The owner's last step in `Shutdown` makes it return, and no other step does. -/
theorem ServerMove.returned_iff (moved : ServerMove server label next)
    (returning : server.Returning)
    : next.shutdown = .returned
      ↔ server.shutdown = .returned ∨ LifeState.joinsIo server label = true := by
  cases moved with
  | leaveAbsent at_pc => exact absurd at_pc returning.present
  | joinIo at_pc _ => simp [LifeState.joinsIo, at_pc]
  | shutdownLock at_pc _ | take at_pc | leave at_pc | stop at_pc | join at_pc _ _ =>
      simp [LifeState.joinsIo, at_pc]
  | _ => simp [LifeState.joinsIo, ServerState.setThread, ServerState.crash]

/-- It does not crash. -/
theorem ServerMove.running_of_joinsIo (moved : ServerMove server label next)
    (running : server.crashed = none) (joins : LifeState.joinsIo server label = true)
    : next.crashed = none ∧ server.shutdown = .joiningIo := by
  cases moved with
  | joinIo at_pc _ => exact ⟨running, at_pc⟩
  | shutdownLock at_pc _ | take at_pc | leave at_pc | stop at_pc | leaveAbsent at_pc =>
      simp [LifeState.joinsIo, at_pc] at joins
  | _ => cases joins

/-- When `Shutdown` has returned, the only steps that use the server are those of threads that
destroy their connection.
-/
theorem releases_of_returned (reached : Reached (singleShotServer ι) server)
    (returned : server.shutdown = .returned)
    (stepped : (singleShotServer ι).step label server = some next)
    (threads : label.isOwner = false) (uses : label.uses server = true)
    : ∃ thread, server.threads thread = .release := by
  obtain ⟨ended, quiet⟩ := quiet_of_returned reached returned
  have running := (serverMove_of_step stepped).1
  cases label with
  | accept result =>
      simp [singleShotServer, running, ServerState.acceptCompletes, ended] at stepped
  | served thread threw =>
      have still := quiet thread
      cases at_pc : server.threads thread <;>
        simp_all [singleShotServer, ServerState.serveStep, ServicePc.needsLock]
  | join thread => cases threads
  | run party =>
      cases party with
      | io => simp [singleShotServer, running, ServerState.handleAcceptResultStep, ended] at stepped
      | shutdown => cases threads
      | connection thread =>
          have still := quiet thread
          refine ⟨thread, ?_⟩
          cases at_pc : server.threads thread <;>
            simp_all [ServerLabel.uses, ServicePc.needsLock]

end Returned

-----------------------------------------------------------------------------------------
-- What every step of a life keeps
-----------------------------------------------------------------------------------------

section Lives

variable {ι : Type*} [DecidableEq ι] {state after : LifeState ι}

/-- A call of `Start` succeeds if everything does that it asks the host for, and no acceptor was
opened before.
-/
def AsPromised (before : List (StartHost × Bool)) (entry : StartHost × Bool) : Prop :=
  entry.2 = (entry.1.succeeds && !before.any fun earlier => earlier.1.opens)

/-- A thread that has unregistered destroys its connection when the server is gone. -/
def LifeState.LosesConnection (state : LifeState ι) : Prop :=
  state.owner = .gone
  ∧ ∃ server thread, state.server = some server ∧ server.threads thread = .release

/-- What holds in every state of a server's life. -/
structure LifeState.Sound (state : LifeState ι) : Prop where
  opened : state.acceptorOpen = state.starts.any fun entry => entry.1.opens
  results : AllPermitted AsPromised state.starts
  absent : state.server = none → state.ioThread = .empty
  present
    : ∀ server,
        state.server = some server
        → state.acceptorOpen = true
          ∧ Reached (singleShotServer ι) server
          ∧ (state.ioThread = .empty ↔ server.shutdown = .returned)
  done
    : ∀ server,
        state.server = some server
        → (∃ destroying, state.owner = .leaving destroying) ∨ state.owner = .gone
        → server.shutdown = .returned
  faults
    : ∀ fault,
        state.crashed = some fault
        → fault = .notOpen ∧ state.acceptorOpen = false
          ∨ (∃ own, fault = .server own)
          ∨ fault = .destroyed ∧ state.LosesConnection

theorem LifeState.sound_constructed : (LifeState.constructed : LifeState ι).Sound where
  opened := rfl
  results := allPermitted_nil
  absent _ := rfl
  present _ := nofun
  done _ := nofun
  faults _ := nofun

/-- A call of `Start` that fails, having opened the acceptor or not. -/
theorem LifeState.Sound.returns (sound : state.Sound) (running : state.crashed = none)
    (idle : state.owner = .idle) (host : StartHost) (opened : Bool)
    (fails : (host.succeeds && !state.acceptorOpen) = false)
    (opens : opened = (state.acceptorOpen || host.opens))
    : ({ state with acceptorOpen := opened }.returns host false).Sound where
  opened := by simp [LifeState.returns, opens, sound.opened]
  results := by
    refine allPermitted_concat_iff.mpr ⟨sound.results, ?_⟩
    rw [AsPromised, ← sound.opened, fails]
  absent := sound.absent
  present server present := by
    obtain ⟨already, reached, joined⟩ := sound.present server present
    exact ⟨by simp [LifeState.returns, opens, already], reached, joined⟩
  done server present done := by simp [LifeState.returns, idle] at done
  faults fault crashed := by simp [LifeState.returns, running] at crashed

/-- One that succeeds, with the I/O thread's handle empty until then. -/
theorem LifeState.Sound.started (sound : state.Sound) (running : state.crashed = none)
    (idle : state.owner = .idle) {host : StartHost} (closed : state.acceptorOpen = false)
    (succeeds : host.succeeds = true)
    : ({ state with
          acceptorOpen := true
          ioThread := ⟨true⟩
          server := some (ServerState.started : ServerState ι) }.returns host true).Sound where
  opened := by
    have opens : host.opens = true := by
      simp only [StartHost.succeeds, Bool.and_eq_true] at succeeds
      exact succeeds.1.1.1
    simp [LifeState.returns, opens]
  results := by
    refine allPermitted_concat_iff.mpr ⟨sound.results, ?_⟩
    rw [AsPromised, ← sound.opened, succeeds, closed]
    rfl
  absent := nofun
  present := by
    rintro _ ⟨⟩
    exact ⟨rfl, .start, iff_of_false nofun nofun⟩
  done server present done := by simp [LifeState.returns, idle] at done
  faults fault crashed := by simp [LifeState.returns, running] at crashed

/-- Every call of `Start` keeps that. -/
theorem LifeState.Sound.start (sound : state.Sound) (running : state.crashed = none)
    (idle : state.owner = .idle) (host : StartHost)
    : (state.start host).Sound := by
  unfold LifeState.start
  split
  · rename_i cannot
    apply sound.returns running idle host state.acceptorOpen <;>
      cases closed : state.acceptorOpen <;> cases opens : host.opens <;>
      simp_all [StartHost.succeeds]
  · rename_i can
    simp only [Bool.or_eq_true, Bool.not_eq_true', not_or, Bool.not_eq_true,
      Bool.not_eq_false] at can
    obtain ⟨closed, opens⟩ := can
    dsimp only
    split
    · rename_i rest
      have succeeds : host.succeeds = true := by
        simpa [StartHost.succeeds, opens] using rest
      have none : state.server = none := by
        by_contra some
        obtain ⟨server, present⟩ := Option.ne_none_iff_exists'.mp some
        cases closed.symm.trans (sound.present server present).1
      rw [sound.absent none]
      exact sound.started running idle closed succeeds
    · rename_i rest
      apply sound.returns running idle host true
      · simp [StartHost.succeeds, opens, Bool.not_eq_true _ ▸ rest]
      · simp [opens]

/-- Only the owner moves. -/
theorem LifeState.Sound.moveOwner (sound : state.Sound) (running : state.crashed = none)
    {owner : OwnerPc}
    (done
      : ∀ server,
          state.server = some server
          → (∃ destroying, owner = .leaving destroying) ∨ owner = .gone
          → server.shutdown = .returned)
    : ({ state with owner } : LifeState ι).Sound where
  opened := sound.opened
  results := sound.results
  absent := sound.absent
  present := sound.present
  done := done
  faults _ crashed := nomatch running.symm.trans crashed

theorem LifeState.Sound.enterShutdown (sound : state.Sound) (running : state.crashed = none)
    {destroying : Bool} (entered : state.enterShutdown destroying = some after)
    : after.Sound := by
  unfold LifeState.enterShutdown at entered
  split at entered
  · rename_i none
    cases entered
    exact sound.moveOwner running fun server present => nomatch none.symm.trans present
  · rename_i server present
    split at entered
    · rename_i returned
      split at entered
      · cases entered
        refine sound.moveOwner running fun other same _ => ?_
        cases present.symm.trans same
        exact returned
      · cases entered
    · cases entered
      refine sound.moveOwner running fun _ _ done => ?_
      rcases done with ⟨_, leaving⟩ | gone
      · cases leaving
      · cases gone

/-- The I/O thread has been joined, so that its handle can go. -/
theorem LifeState.Sound.leaveShutdown (sound : state.Sound) (running : state.crashed = none)
    (destroying : Bool)
    (returned : ∀ server, state.server = some server → server.shutdown = .returned)
    : (state.leaveShutdown destroying).Sound := by
  have empty : state.ioThread = .empty := by
    cases present : state.server with
    | none => exact sound.absent present
    | some server => exact (sound.present server present).2.2.mpr (returned server present)
  have destroyed : state.ioThread.destroy = .ok () := by
    rw [empty]
    rfl
  unfold LifeState.leaveShutdown
  rw [destroyed]
  split
  · exact sound.moveOwner running fun server present _ => returned server present
  · refine sound.moveOwner running fun _ _ done => ?_
    rcases done with ⟨_, leaving⟩ | gone
    · cases leaving
    · cases gone

theorem LifeState.Sound.returnStep (sound : state.Sound) (running : state.crashed = none)
    (returned : state.returnStep = some after)
    : after.Sound := by
  unfold LifeState.returnStep at returned
  split at returned
  · rename_i destroying leaving
    cases returned
    exact sound.leaveShutdown running destroying fun server present =>
      sound.done server present (.inl ⟨destroying, leaving⟩)
  · split at returned
    · rename_i server present
      split at returned
      · rename_i done
        cases returned
        refine sound.leaveShutdown running _ fun other same => ?_
        cases present.symm.trans same
        exact done
      · cases returned
    · cases returned
  · cases returned

/-- The server's parties move on. -/
theorem LifeState.Sound.moveServer (sound : state.Sound) (running : state.crashed = none)
    {server next : ServerState ι} {label : ServerLabel ι} (present : state.server = some server)
    (stepped : (singleShotServer ι).step label server = some next) {ioThread : ThreadHandle}
    (joined : ioThread = .empty ↔ next.shutdown = .returned)
    : ({ state with ioThread, server := some next } : LifeState ι).Sound where
  opened := sound.opened
  results := sound.results
  absent := nofun
  present := by
    rintro _ ⟨⟩
    obtain ⟨opened, reached, _⟩ := sound.present server present
    exact ⟨opened, .next label reached trivial stepped, joined⟩
  done := by
    rintro _ ⟨⟩ done
    have returning := returning_of_reached (sound.present server present).2.1
    exact ((serverMove_of_step stepped).2.returned_iff returning).mpr
      (.inl (sound.done server present done))
  faults _ crashed := nomatch running.symm.trans crashed

theorem eq_of_ne_empty {handle : ThreadHandle} (nonempty : handle ≠ .empty) : handle = ⟨true⟩ := by
  obtain ⟨joinable⟩ := handle
  cases joinable with
  | true => rfl
  | false => exact absurd rfl nonempty

/-- A step of one of the server's parties ends the process by itself, if at all. -/
theorem LifeState.Sound.became (sound : state.Sound) (alive : state.crashed = none)
    {server next : ServerState ι} {label : ServerLabel ι} (present : state.server = some server)
    (stepped : (singleShotServer ι).step label server = some next)
    : (state.became label server next).Sound := by
  obtain ⟨_, reached, joined⟩ := sound.present server present
  obtain ⟨running, moved⟩ := serverMove_of_step stepped
  have returned := moved.returned_iff (returning_of_reached reached)
  have unjoined (other : LifeState.joinsIo server label = false)
      : state.ioThread = .empty ↔ next.shutdown = .returned := by
    rw [joined, returned, other]
    simp
  unfold LifeState.became
  split
  · rename_i fault crashed
    have other : LifeState.joinsIo server label = false := by
      refine Bool.eq_false_iff.mpr fun joins => ?_
      cases crashed.symm.trans (moved.running_of_joinsIo running joins).1
    have kept := sound.moveServer alive present stepped (unjoined other)
    refine ⟨kept.opened, kept.results, kept.absent, kept.present, kept.done, ?_⟩
    rintro _ ⟨⟩
    exact .inr (.inl ⟨fault, rfl⟩)
  · split
    · rename_i joins
      have at_pc := (moved.running_of_joinsIo running joins).2
      have joinable : state.ioThread = ⟨true⟩ := by
        refine eq_of_ne_empty fun empty => ?_
        cases at_pc.symm.trans (joined.mp empty)
      rw [joinable]
      exact sound.moveServer alive present stepped (iff_of_true rfl (returned.mpr (.inr joins)))
    · rename_i other
      exact sound.moveServer alive present stepped (unjoined (Bool.eq_false_iff.mpr other))

theorem LifeState.Sound.serverStep (sound : state.Sound) (alive : state.crashed = none)
    {label : ServerLabel ι} (stepped : state.serverStep label = some after)
    : after.Sound := by
  unfold LifeState.serverStep at stepped
  split at stepped
  · cases stepped
  · rename_i server present
    split at stepped
    · cases stepped
    · rename_i next moved
      split at stepped
      · cases stepped
        exact sound.became alive present moved
      · rename_i gone
        split at stepped
        · cases stepped
        · rename_i threads
          have reached := (sound.present server present).2.1
          have returned := sound.done server present (.inr gone)
          split at stepped
          · rename_i uses
            obtain ⟨thread, releases⟩ :=
              releases_of_returned reached returned moved (Bool.eq_false_iff.mpr threads) uses
            cases stepped
            refine ⟨sound.opened, sound.results, sound.absent, sound.present, sound.done, ?_⟩
            rintro _ ⟨⟩
            exact .inr (.inr ⟨rfl, gone, server, thread, present, releases⟩)
          · cases stepped
            exact sound.became alive present moved
      · split at stepped
        · cases stepped
        · cases stepped
          exact sound.became alive present moved

/-- Every step keeps that. -/
theorem LifeState.Sound.step (sound : state.Sound) {label : LifeLabel ι}
    (stepped : (serverLife ι).step label state = some after)
    : after.Sound := by
  unfold serverLife at stepped
  dsimp only at stepped
  split at stepped
  · cases stepped
  · rename_i running
    cases label with
    | returned => exact sound.returnStep running stepped
    | server label => exact sound.serverStep running stepped
    | call call =>
        dsimp only [LifeState.callStep] at stepped
        split at stepped
        · rename_i idle
          cases call with
          | start host =>
              cases stepped
              exact sound.start running idle host
          | shutdown => exact sound.enterShutdown running stepped
          | destroy => exact sound.enterShutdown running stepped
          | getLocalPort =>
              cases stepped
              split
              · exact sound
              · rename_i closed
                refine ⟨sound.opened, sound.results, sound.absent, sound.present, sound.done, ?_⟩
                rintro _ ⟨⟩
                exact .inl ⟨rfl, Bool.eq_false_iff.mpr closed⟩
        · cases stepped

theorem LifeState.sound_of_reached (reached : Reached (serverLife ι) state) : state.Sound :=
  reached.invariant LifeState.Sound sound_constructed fun _ _ _ _ sound _ moved =>
    sound.step moved

-----------------------------------------------------------------------------------------
-- A server's life
-----------------------------------------------------------------------------------------

/-- A call of `Start` returns true just if everything does that it asks the host for, and no
earlier call has opened the acceptor; after such a call none does. A thread's handle is never
misused: what ends the process is a fault of the server's own, a question for the port before
anything was opened, or a thread that has unregistered but not yet destroyed its connection when the
destructor has returned. By then the I/O thread has ended, and no thread needs the server's lock.
-/
structure LifeState.Safe (state : LifeState ι) : Prop where
  starts
    : ∀ before host success after,
        state.starts = before ++ (host, success) :: after
        → success = (host.succeeds && !before.any fun earlier => earlier.1.opens)
  once
    : ∀ before host after,
        state.starts = before ++ (host, true) :: after
        → ∀ entry ∈ after, entry.2 = false
  faults
    : ∀ fault,
        state.crashed = some fault
        → (fault = .notOpen ∧ ∀ entry ∈ state.starts, entry.1.opens = false)
          ∨ (∃ own, fault = .server own)
          ∨ fault = .destroyed ∧ state.LosesConnection
  gone
    : state.owner = .gone
      → state.ioThread = .empty
        ∧ ∀ server,
            state.server = some server
            → server.io = .ended ∧ ∀ thread, ¬ (server.threads thread).needsLock

/-- Whatever the owner calls, whoever connects, and in whatever order the threads move. -/
theorem serverLife_safe (reached : Reached (serverLife ι) state) : state.Safe := by
  have sound := LifeState.sound_of_reached reached
  have results (before : List (StartHost × Bool)) (host : StartHost) (success : Bool)
      (after : List (StartHost × Bool)) (same : state.starts = before ++ (host, success) :: after)
      : success = (host.succeeds && !before.any fun earlier => earlier.1.opens) :=
    sound.results before (host, success) after same
  refine ⟨results, ?_, ?_, ?_⟩
  · intro before host after same entry member
    obtain ⟨middle, rest, rfl⟩ := List.append_of_mem member
    have first := results before host true _ same
    have opens : host.opens = true := by
      simp only [eq_comm (a := true), Bool.and_eq_true, StartHost.succeeds] at first
      exact first.1.1.1.1
    have later := results (before ++ (host, true) :: middle) entry.1 entry.2 rest (by simp [same])
    simpa [opens] using later
  · intro fault crashed
    refine (sound.faults fault crashed).imp (fun closed => ⟨closed.1, ?_⟩) id
    have none := sound.opened.symm.trans closed.2
    simpa using none
  · intro gone
    have returned (server : ServerState ι) (present : state.server = some server)
        : server.shutdown = .returned :=
      sound.done server present (.inr gone)
    refine ⟨?_, fun server present => ?_⟩
    · cases present : state.server with
      | none => exact sound.absent present
      | some server => exact (sound.present server present).2.2.mpr (returned server present)
    · exact quiet_of_returned (sound.present server present).2.1 (returned server present)

end Lives

/-- A start that works, a client that is served, and the destructor. -/
def shortLife : List (LifeLabel Unit) :=
  .call (.start ⟨true, true, true, true⟩)
  :: .server (.accept (some ()))
  :: List.replicate 4 (.server (.run .io))
  ++ .server (.served () false)
  :: List.replicate 5 (.server (.run (.connection ())))
  ++ .call .destroy
  :: List.replicate 4 (.server (.run .shutdown))
  ++ [.server (.run .io), .server (.run .shutdown), .returned]

def afterShortLife : LifeState Unit :=
  ((serverLife Unit).follow shortLife (serverLife Unit).start).getD (serverLife Unit).start

theorem serverLife_safe_short : afterShortLife.Safe ∧ afterShortLife.owner = .gone :=
  ⟨serverLife_safe (Reached.getD_follow (by decide +kernel)), by decide +kernel⟩

end PplMe.Net
