import PplMe.Net.ServerMoves

/-! What every step of the server keeps: who holds the lock, which threads the registry has
entries for, and what became of those that it has none for.
-/

namespace PplMe.Net

open Stepping Ownership

section Invariant

variable {ι : Type*}

def AcceptPc.holds : AcceptPc ι → Prop
  | .inspect _ | .emplace _ | .leave => True
  | _ => False

def ServicePc.holds : ServicePc → Prop
  | .unregister | .leave => True
  | _ => False

def ShutdownPc.holds : ShutdownPc ι → Prop
  | .take | .leave _ => True
  | _ => False

/-- The party's program point is inside the lock. -/
def ServerState.Holds (state : ServerState ι) : ServerParty ι → Prop
  | .io => state.io.holds
  | .connection thread => (state.threads thread).holds
  | .shutdown => state.shutdown.holds

/-- The thread was started and has not taken its entry out. -/
def ServicePc.registered : ServicePc → Prop
  | .serving | .enter | .unregister => True
  | _ => False

/-- The thread has taken its entry out. -/
def ServicePc.unregistered : ServicePc → Prop
  | .leave | .detach | .release | .ended => True
  | _ => False

/-- The thread has detached itself. -/
def ServicePc.detached : ServicePc → Prop
  | .release | .ended => True
  | _ => False

/-- What holds of every state of the server. -/
structure ServerState.Sound (state : ServerState ι) : Prop where
  locked : Owned state.mutex state.Holds
  fresh
    : ∀ connection,
        state.io = .enter connection ∨ state.io = .inspect connection
        → state.threads connection = .unborn
  starting
    : ∀ connection,
        state.io = .emplace connection
        → (state.threads connection).registered ∧ state.registry.isSome
  entries
    : ∀ entries,
        state.registry = some entries
        → ∀ thread,
            thread ∈ entries
            ↔ (state.threads thread).registered ∧ state.io ≠ .emplace thread
  unregistered : ∀ thread, thread ∈ state.unregistered ↔ (state.threads thread).unregistered
  detached : ∀ thread, thread ∈ state.detached ↔ (state.threads thread).detached
  joined : ∀ thread ∈ state.joined, state.threads thread = .ended
  present : state.registry.isSome ↔ state.shutdown = .notCalled ∨ state.shutdown = .take

theorem sound_started : (ServerState.started : ServerState ι).Sound where
  locked party := by cases party <;> simp [ServerState.started, ServerState.Holds,
    AcceptPc.holds, ServicePc.holds, ShutdownPc.holds]
  fresh _ _ := rfl
  starting _ at_pc := nomatch at_pc
  entries := by
    rintro _ ⟨⟩ thread
    simp [ServerState.started, ServicePc.registered]
  unregistered thread := by simp [ServerState.started, ServicePc.unregistered]
  detached thread := by simp [ServerState.started, ServicePc.detached]
  joined _ member := nomatch member
  present := by simp [ServerState.started]

end Invariant

section Steps

variable {ι : Type*} [DecidableEq ι] {state after : ServerState ι} {label : ServerLabel ι}

/-- A thread other than the one that moved is where it was. -/
theorem threads_setThread_of_ne {thread other : ι} (pc : ServicePc) (different : other ≠ thread)
    : (state.setThread thread pc).threads other = state.threads other :=
  Function.update_of_ne different _ _

@[simp] theorem threads_setThread_self {thread : ι} {pc : ServicePc}
    : (state.setThread thread pc).threads thread = pc :=
  Function.update_self _ _ _

omit [DecidableEq ι] in
/-- A step of the I/O thread takes, keeps or releases the lock. -/
theorem locked_of_io (owned : Owned state.mutex state.Holds)
    (threads : ∀ thread, (after.threads thread).holds ↔ (state.threads thread).holds)
    (shutdown : after.shutdown = state.shutdown)
    (stepped : OwnerStep .io state.mutex state.io.holds after.mutex after.io.holds)
    : Owned after.mutex after.Holds := by
  refine owned.step stepped fun other different => ?_
  cases other with
  | io => exact absurd rfl different
  | connection thread => exact threads thread
  | shutdown => simp only [ServerState.Holds, shutdown]

/-- So does a step of a connection thread. -/
theorem locked_of_thread {thread : ι} {pc : ServicePc} (owned : Owned state.mutex state.Holds)
    (threads : after.threads = state.threads) (io : after.io = state.io)
    (shutdown : after.shutdown = state.shutdown)
    (stepped
      : OwnerStep (.connection thread) state.mutex (state.threads thread).holds after.mutex
          pc.holds)
    : Owned (after.setThread thread pc).mutex (after.setThread thread pc).Holds := by
  have own : (after.setThread thread pc).Holds (.connection thread) = pc.holds := by
    simp [ServerState.Holds]
  refine owned.step (own ▸ stepped) fun other different => ?_
  cases other with
  | io => simp only [ServerState.Holds, ServerState.setThread, io]
  | connection other =>
      have apart : other ≠ thread := fun same => different (congrArg _ same)
      simp only [ServerState.Holds, threads_setThread_of_ne pc apart, threads]
  | shutdown => simp only [ServerState.Holds, ServerState.setThread, shutdown]

omit [DecidableEq ι] in
/-- And one of the call of `Shutdown`. -/
theorem locked_of_shutdown (owned : Owned state.mutex state.Holds)
    (threads : after.threads = state.threads) (io : after.io = state.io)
    (stepped
      : OwnerStep .shutdown state.mutex state.shutdown.holds after.mutex after.shutdown.holds)
    : Owned after.mutex after.Holds := by
  refine owned.step stepped fun other different => ?_
  cases other with
  | io => simp only [ServerState.Holds, io]
  | connection thread => simp only [ServerState.Holds, threads]
  | shutdown => exact absurd rfl different

/-- Every step takes, keeps or releases the lock. -/
theorem ServerMove.locked (moved : ServerMove state label after) (sound : state.Sound)
    : Owned after.mutex after.Holds := by
  have owned := sound.locked
  cases moved with
  | acceptError | refuse _ _ | emplaceAbsent _ _ | escape _ | unregisterAbsent _ _
  | unregisterMissing _ _ _ => exact owned
  | accept waiting _ =>
      exact locked_of_io owned (fun _ => .rfl) rfl (.keep (by rw [waiting]; exact .rfl))
  | ioEnd waiting =>
      exact locked_of_io owned (fun _ => .rfl) rfl (.keep (by rw [waiting]; exact .rfl))
  | ioLock at_pc free =>
      exact locked_of_io owned (fun _ => .rfl) rfl (free ▸ .acquire trivial)
  | @startThread connection entries at_pc present =>
      have unborn := sound.fresh connection (.inr at_pc)
      refine locked_of_io owned (fun thread => ?_) rfl (.keep (by rw [at_pc]; exact .rfl))
      by_cases own : thread = connection
      · rw [own, unborn]
        simp [ServerState.setThread, ServicePc.holds]
      · simp [ServerState.setThread, Function.update_of_ne own]
  | emplace at_pc _ =>
      exact locked_of_io owned (fun _ => .rfl) rfl (.keep (by rw [at_pc]; exact .rfl))
  | ioUnlock at_pc =>
      exact locked_of_io owned (fun _ => .rfl) rfl (.release (at_pc ▸ trivial) id)
  | served at_pc =>
      exact locked_of_thread owned rfl rfl rfl (.keep (by rw [at_pc]; exact .rfl))
  | threadLock at_pc free =>
      exact locked_of_thread owned rfl rfl rfl (by rw [free]; exact .acquire trivial)
  | unregister at_pc _ _ =>
      exact locked_of_thread owned rfl rfl rfl (.keep (by rw [at_pc]; exact .rfl))
  | threadUnlock at_pc =>
      exact locked_of_thread owned rfl rfl rfl (.release (by rw [at_pc]; trivial) id)
  | detach at_pc | release at_pc =>
      exact locked_of_thread owned rfl rfl rfl (.keep (by rw [at_pc]; exact .rfl))
  | shutdownLock at_pc free =>
      exact locked_of_shutdown owned rfl rfl (free ▸ .acquire trivial)
  | take at_pc =>
      exact locked_of_shutdown owned rfl rfl (.keep (by rw [at_pc]; exact .rfl))
  | leaveAbsent at_pc =>
      exact locked_of_shutdown owned rfl rfl (.release (at_pc ▸ trivial) id)
  | leave at_pc =>
      exact locked_of_shutdown owned rfl rfl (.release (at_pc ▸ trivial) id)
  | stop at_pc =>
      exact locked_of_shutdown owned rfl rfl (.keep (by rw [at_pc]; exact .rfl))
  | joinIo at_pc _ =>
      exact locked_of_shutdown owned rfl rfl (.keep (by rw [at_pc]; exact .rfl))
  | join at_pc _ _ =>
      exact locked_of_shutdown owned rfl rfl (.keep (by rw [at_pc]; exact .rfl))

/-- What holds of every other thread, and of where the thread has got to, holds of all. -/
theorem forall_setThread {thread : ι} {pc : ServicePc} (property : ι → ServicePc → Prop)
    (own : property thread pc)
    (others : ∀ other, other ≠ thread → property other (state.threads other))
    (other : ι)
    : property other ((state.setThread thread pc).threads other) :=
  (Function.forall_update_iff state.threads property).mpr ⟨own, others⟩ other

/-- A record of the threads at some program points stays one where a thread's next program
point is recorded like its last.
-/
theorem recorded_setThread {record : Finset ι} (recorded : ServicePc → Prop) {thread : ι}
    {pc : ServicePc} (known : ∀ other, other ∈ record ↔ recorded (state.threads other))
    (same : recorded (state.threads thread) ↔ recorded pc) (other : ι)
    : other ∈ record ↔ recorded ((state.setThread thread pc).threads other) := by
  apply forall_setThread (fun other pc => other ∈ record ↔ recorded pc)
  · exact (known thread).trans same
  · exact fun other _ => known other

/-- Nor is it spoiled by a thread that comes to such a program point and is put in. -/
theorem recorded_setThread_insert {record : Finset ι} (recorded : ServicePc → Prop)
    {thread : ι} {pc : ServicePc}
    (known : ∀ other, other ∈ record ↔ recorded (state.threads other)) (now : recorded pc)
    (other : ι)
    : other ∈ insert thread record ↔ recorded ((state.setThread thread pc).threads other) := by
  apply forall_setThread (fun other pc => other ∈ insert thread record ↔ recorded pc)
  · exact iff_of_true (Finset.mem_insert_self _ _) now
  · intro other different
    rw [Finset.mem_insert, or_iff_right different]
    exact known other

omit [DecidableEq ι] in
/-- While another party is inside the lock, the I/O thread starts no thread. -/
theorem ServerState.Sound.not_starting (sound : state.Sound) {party : ServerParty ι}
    (inside : state.Holds party) (different : party ≠ .io) (connection : ι)
    : state.io ≠ .emplace connection := by
  intro at_io
  have io : state.Holds .io := by
    rw [ServerState.Holds, at_io]
    trivial
  exact different (sound.locked.unique inside io)

omit [DecidableEq ι] in
theorem holds_of_unregister {thread : ι} (at_pc : state.threads thread = .unregister)
    : state.Holds (.connection thread) := by
  rw [ServerState.Holds, at_pc]
  trivial

omit [DecidableEq ι] in
theorem holds_of_take (at_pc : state.shutdown = .take) : state.Holds .shutdown := by
  rw [ServerState.Holds, at_pc]
  trivial

/-- A connection's thread is started once. -/
theorem ServerMove.fresh (moved : ServerMove state label after) (sound : state.Sound)
    : ∀ connection,
        after.io = .enter connection ∨ after.io = .inspect connection
        → after.threads connection = .unborn := by
  have fresh := sound.fresh
  cases moved with
  | accept waiting unborn =>
      rintro _ (⟨⟨⟩⟩ | ⟨⟨⟩⟩)
      exact unborn
  | ioLock at_pc _ =>
      rintro _ (⟨⟨⟩⟩ | ⟨⟨⟩⟩)
      exact fresh _ (.inl at_pc)
  | ioEnd _ | startThread _ _ | emplace _ _ | ioUnlock _ =>
      rintro _ (⟨⟨⟩⟩ | ⟨⟨⟩⟩)
  | served at_pc | threadLock at_pc _ | unregister at_pc _ _ | threadUnlock at_pc
  | detach at_pc | release at_pc =>
      refine forall_setThread (fun connection pc => _ → pc = .unborn) (fun at_io => ?_)
        (fun other _ => fresh other)
      cases at_pc.symm.trans (fresh _ at_io)
  | _ => exact fresh

/-- While the I/O thread starts a thread, that has not got into the lock, and the registry stays:
the lock is the I/O thread's.
-/
theorem ServerMove.starting (moved : ServerMove state label after) (sound : state.Sound)
    : ∀ connection,
        after.io = .emplace connection
        → (after.threads connection).registered ∧ after.registry.isSome := by
  have starting := sound.starting
  cases moved with
  | accept _ _ | ioEnd _ | ioLock _ _ | emplace _ _ | ioUnlock _ => nofun
  | @startThread connection entries _ present =>
      rintro _ ⟨⟩
      refine ⟨?_, present ▸ rfl⟩
      change ((state.setThread connection .serving).threads connection).registered
      rw [threads_setThread_self]
      trivial
  | served at_pc | threadLock at_pc _ =>
      exact forall_setThread (fun connection pc => _ → pc.registered ∧ _)
        (fun at_io => ⟨trivial, (starting _ at_io).2⟩) (fun other _ => starting other)
  | unregister at_pc _ _ =>
      intro connection at_io
      exact absurd at_io (sound.not_starting (holds_of_unregister at_pc) nofun connection)
  | threadUnlock at_pc | detach at_pc | release at_pc =>
      refine forall_setThread (fun connection pc => _ → pc.registered ∧ _) (fun at_io => ?_)
        (fun other _ => starting other)
      exact absurd (starting _ at_io).1 (by rw [at_pc]; exact id)
  | take at_pc =>
      intro connection at_io
      exact absurd at_io (sound.not_starting (holds_of_take at_pc) nofun connection)
  | _ => exact starting

/-- The registry has an entry for each thread that was started and has not taken it out. -/
theorem ServerMove.entries (moved : ServerMove state label after) (sound : state.Sound)
    : ∀ entries,
        after.registry = some entries
        → ∀ thread,
            thread ∈ entries
            ↔ (after.threads thread).registered ∧ after.io ≠ .emplace thread := by
  have known := sound.entries
  cases moved with
  | accept waiting _ | ioEnd waiting | ioLock waiting _ | ioUnlock waiting =>
      intro entries present thread
      simpa [waiting] using known entries present thread
  | @startThread connection _ at_pc _ =>
      intro entries present
      have unborn := sound.fresh connection (.inr at_pc)
      refine @forall_setThread _ _ state _ _
        (fun thread pc => thread ∈ entries ↔ pc.registered ∧ _ ≠ AcceptPc.emplace thread) ?_
        (fun other different => ?_)
      · rw [known entries present, unborn]
        simp [ServicePc.registered]
      · rw [known entries present, at_pc]
        simp [Ne.symm different]
  | @emplace connection entries at_pc present =>
      rintro _ ⟨⟩ thread
      rw [Finset.mem_insert, known entries present, at_pc]
      by_cases own : thread = connection
      · simp [own, (sound.starting connection at_pc).1]
      · simp [own, Ne.symm own]
  | served at_pc | threadLock at_pc _ | threadUnlock at_pc | detach at_pc | release at_pc =>
      intro entries present
      refine forall_setThread
        (fun thread pc => thread ∈ entries ↔ pc.registered ∧ _ ≠ AcceptPc.emplace thread) ?_
        (fun other _ => known entries present other)
      rw [known entries present, at_pc]
      exact .rfl
  | @unregister thread entries at_pc present _ =>
      rintro _ ⟨⟩
      refine forall_setThread
        (fun other pc =>
          other ∈ entries.erase thread ↔ pc.registered ∧ _ ≠ AcceptPc.emplace other) ?_
        (fun other different => ?_)
      · simp [ServicePc.registered]
      · rw [Finset.mem_erase, and_iff_right different]
        exact known entries present other
  | take _ => nofun
  | _ => exact known

theorem ServerMove.unregistered (moved : ServerMove state label after) (sound : state.Sound)
    : ∀ thread, thread ∈ after.unregistered ↔ (after.threads thread).unregistered := by
  have known := sound.unregistered
  cases moved with
  | startThread at_pc _ =>
      apply recorded_setThread ServicePc.unregistered known
      rw [sound.fresh _ (.inr at_pc)]
      exact .rfl
  | served at_pc | threadLock at_pc _ | threadUnlock at_pc | detach at_pc | release at_pc =>
      apply recorded_setThread ServicePc.unregistered known
      rw [at_pc]
      exact .rfl
  | unregister _ _ _ => exact recorded_setThread_insert ServicePc.unregistered known trivial
  | _ => exact known

theorem ServerMove.detached (moved : ServerMove state label after) (sound : state.Sound)
    : ∀ thread, thread ∈ after.detached ↔ (after.threads thread).detached := by
  have known := sound.detached
  cases moved with
  | startThread at_pc _ =>
      apply recorded_setThread ServicePc.detached known
      rw [sound.fresh _ (.inr at_pc)]
      exact .rfl
  | served at_pc | threadLock at_pc _ | threadUnlock at_pc | unregister at_pc _ _
  | release at_pc =>
      apply recorded_setThread ServicePc.detached known
      rw [at_pc]
      exact .rfl
  | detach _ => exact recorded_setThread_insert ServicePc.detached known trivial
  | _ => exact known

theorem ServerMove.joined (moved : ServerMove state label after) (sound : state.Sound)
    : ∀ thread ∈ after.joined, after.threads thread = .ended := by
  have known := sound.joined
  cases moved with
  | @startThread connection _ at_pc _ =>
      have unborn := sound.fresh connection (.inr at_pc)
      refine @forall_setThread _ _ state _ _ (fun thread pc => thread ∈ state.joined → pc = .ended)
        (fun member => ?_) (fun other _ => known other)
      cases unborn.symm.trans (known _ member)
  | served at_pc | threadLock at_pc _ | threadUnlock at_pc | unregister at_pc _ _
  | detach at_pc | release at_pc =>
      refine forall_setThread (fun thread pc => thread ∈ state.joined → pc = .ended)
        (fun member => ?_) (fun other _ => known other)
      cases at_pc.symm.trans (known _ member)
  | join _ _ ended =>
      intro other member
      rcases Finset.mem_insert.mp member with rfl | member
      · exact ended
      · exact known other member
  | _ => exact known

/-- The registry is there until the call of `Shutdown` has taken it. -/
theorem ServerMove.present (moved : ServerMove state label after) (sound : state.Sound)
    : after.registry.isSome ↔ after.shutdown = .notCalled ∨ after.shutdown = .take := by
  have known := sound.present
  cases moved with
  | emplace _ present | unregister _ present _ =>
      simpa [present, ServerState.setThread] using known
  | shutdownLock at_pc _ | leaveAbsent at_pc | leave at_pc | stop at_pc | joinIo at_pc _
  | join at_pc _ _ => simpa [at_pc] using known
  | take _ => simp
  | _ => exact known

/-- Every move keeps the invariant. -/
theorem ServerMove.sound (moved : ServerMove state label after) (sound : state.Sound)
    : after.Sound where
  locked := moved.locked sound
  fresh := moved.fresh sound
  starting := moved.starting sound
  entries := moved.entries sound
  unregistered := moved.unregistered sound
  detached := moved.detached sound
  joined := moved.joined sound
  present := moved.present sound

/-- So it holds of every reached state. -/
theorem sound_of_reached (reached : Reached (singleShotServer ι) state) : state.Sound :=
  reached.invariant ServerState.Sound sound_started
    fun _ _ _ _ sound _ moved => (serverMove_of_step moved).2.sound sound

end Steps

end PplMe.Net
