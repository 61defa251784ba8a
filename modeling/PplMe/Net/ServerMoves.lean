import PplMe.Net.SingleShotServer
import PplMe.Foundation.Ownership

/-! Everything the server can do in one step, said once, and what every step keeps: who holds
the lock, and which threads the registry has entries for.
-/

namespace PplMe.Net

open Stepping Ownership

section Moves

variable {ι : Type*} [DecidableEq ι]

/-- The steps of the server, with what lets them happen. -/
inductive ServerMove (state : ServerState ι) : ServerLabel ι → ServerState ι → Prop
  | acceptError : ServerMove state (.accept none) state
  | accept {connection} (waiting : state.io = .waiting)
    (unborn : state.threads connection = .unborn)
    : ServerMove state (.accept (some connection)) { state with io := .enter connection }
  | ioEnd (waiting : state.io = .waiting) : ServerMove state (.run .io) { state with io := .ended }
  | ioLock {connection} (at_pc : state.io = .enter connection) (free : state.mutex = none)
    : ServerMove state (.run .io) { state with mutex := some .io, io := .inspect connection }
  | startThread {connection entries} (at_pc : state.io = .inspect connection)
    (present : state.registry = some entries)
    : ServerMove state (.run .io)
        { state.setThread connection .serving with io := .emplace connection }
  | emplace {connection entries} (at_pc : state.io = .emplace connection)
    (present : state.registry = some entries)
    : ServerMove state (.run .io)
        { state with registry := some (insert connection entries), io := .leave }
  | ioUnlock (at_pc : state.io = .leave)
    : ServerMove state (.run .io) { state with mutex := none, io := .waiting }
  | refuse {connection} (at_pc : state.io = .inspect connection) (absent : state.registry = none)
    : ServerMove state (.run .io) (state.crash .notConnected)
  | emplaceAbsent {connection} (at_pc : state.io = .emplace connection)
    (absent : state.registry = none)
    : ServerMove state (.run .io) (state.crash .absentRegistry)
  | served {thread} (at_pc : state.threads thread = .serving)
    : ServerMove state (.served thread false) (state.setThread thread .enter)
  | escape {thread} (at_pc : state.threads thread = .serving)
    : ServerMove state (.served thread true) (state.crash .escaped)
  | threadLock {thread} (at_pc : state.threads thread = .enter) (free : state.mutex = none)
    : ServerMove state (.run (.connection thread))
        ({ state with mutex := some (.connection thread) }.setThread thread .unregister)
  | unregister {thread entries} (at_pc : state.threads thread = .unregister)
    (present : state.registry = some entries) (member : thread ∈ entries)
    : ServerMove state (.run (.connection thread))
        ({ state with
            registry := some (entries.erase thread)
            unregistered := insert thread state.unregistered }.setThread thread .leave)
  | unregisterAbsent {thread} (at_pc : state.threads thread = .unregister)
    (absent : state.registry = none)
    : ServerMove state (.run (.connection thread)) (state.crash .absentRegistry)
  | unregisterMissing {thread entries} (at_pc : state.threads thread = .unregister)
    (present : state.registry = some entries) (missing : thread ∉ entries)
    : ServerMove state (.run (.connection thread)) (state.crash .missingEntry)
  | threadUnlock {thread} (at_pc : state.threads thread = .leave)
    : ServerMove state (.run (.connection thread))
        ({ state with mutex := none }.setThread thread .detach)
  | detach {thread} (at_pc : state.threads thread = .detach)
    : ServerMove state (.run (.connection thread))
        ({ state with detached := insert thread state.detached }.setThread thread .release)
  | release {thread} (at_pc : state.threads thread = .release)
    : ServerMove state (.run (.connection thread)) (state.setThread thread .ended)
  | shutdownLock (at_pc : state.shutdown = .notCalled) (free : state.mutex = none)
    : ServerMove state (.run .shutdown) { state with mutex := some .shutdown, shutdown := .take }
  | take (at_pc : state.shutdown = .take)
    : ServerMove state (.run .shutdown)
        { state with registry := none, shutdown := .leave state.registry }
  | leaveAbsent (at_pc : state.shutdown = .leave none)
    : ServerMove state (.run .shutdown) { state with mutex := none, shutdown := .returned }
  | leave {threads} (at_pc : state.shutdown = .leave (some threads))
    : ServerMove state (.run .shutdown) { state with mutex := none, shutdown := .joining threads }
  | stop (at_pc : state.shutdown = .joining ∅)
    : ServerMove state (.run .shutdown) { state with ioStopped := true, shutdown := .joiningIo }
  | joinIo (at_pc : state.shutdown = .joiningIo) (ended : state.io = .ended)
    : ServerMove state (.run .shutdown) { state with shutdown := .returned }
  | join {thread threads} (at_pc : state.shutdown = .joining threads) (member : thread ∈ threads)
    (ended : state.threads thread = .ended)
    : ServerMove state (.join thread)
        { state with
          joined := insert thread state.joined
          shutdown := .joining (threads.erase thread) }

variable {state after : ServerState ι}

omit [DecidableEq ι] in
theorem lock_eq_some_iff {party : ServerParty ι}
    : state.lock party = some after
      ↔ state.mutex = none ∧ after = { state with mutex := some party } := by
  unfold ServerState.lock
  split <;> simp_all [eq_comm]

theorem move_of_acceptCompletes {result : Option ι}
    (moved : state.acceptCompletes result = some after)
    : ServerMove state (.accept result) after := by
  unfold ServerState.acceptCompletes at moved
  split at moved
  · rename_i waiting
    split at moved
    · cases moved
    · split at moved
      · cases moved
        exact .acceptError
      · split at moved
        · rename_i unborn
          cases moved
          exact .accept waiting unborn
        · cases moved
  · cases moved

theorem move_of_handleAcceptResultStep (moved : state.handleAcceptResultStep = some after)
    : ServerMove state (.run .io) after := by
  unfold ServerState.handleAcceptResultStep at moved
  split at moved
  · rename_i waiting
    split at moved
    · cases moved
      exact .ioEnd waiting
    · cases moved
  · rename_i connection at_pc
    obtain ⟨_, locked, rfl⟩ := Option.map_eq_some_iff.mp moved
    obtain ⟨free, rfl⟩ := lock_eq_some_iff.mp locked
    exact .ioLock at_pc free
  · rename_i connection at_pc
    split at moved
    · rename_i entries present
      cases moved
      exact .startThread at_pc present
    · rename_i absent
      cases moved
      exact .refuse at_pc absent
  · rename_i connection at_pc
    split at moved
    · rename_i entries present
      cases moved
      exact .emplace at_pc present
    · rename_i absent
      cases moved
      exact .emplaceAbsent at_pc absent
  · rename_i at_pc
    cases moved
    exact .ioUnlock at_pc
  · cases moved

theorem move_of_serveStep {thread : ι} {threw : Bool}
    (moved : state.serveStep thread threw = some after)
    : ServerMove state (.served thread threw) after := by
  unfold ServerState.serveStep at moved
  split at moved
  · rename_i at_pc
    cases threw with
    | false =>
        cases moved
        exact .served at_pc
    | true =>
        cases moved
        exact .escape at_pc
  · cases moved

theorem move_of_serviceStep {thread : ι} (moved : state.serviceStep thread = some after)
    : ServerMove state (.run (.connection thread)) after := by
  unfold ServerState.serviceStep at moved
  split at moved
  · cases moved
  · cases moved
  · rename_i at_pc
    obtain ⟨_, locked, rfl⟩ := Option.map_eq_some_iff.mp moved
    obtain ⟨free, rfl⟩ := lock_eq_some_iff.mp locked
    exact .threadLock at_pc free
  · rename_i at_pc
    split at moved
    · rename_i absent
      cases moved
      exact .unregisterAbsent at_pc absent
    · rename_i entries present
      split at moved
      · rename_i member
        cases moved
        exact .unregister at_pc present member
      · rename_i missing
        cases moved
        exact .unregisterMissing at_pc present missing
  · rename_i at_pc
    cases moved
    exact .threadUnlock at_pc
  · rename_i at_pc
    cases moved
    exact .detach at_pc
  · rename_i at_pc
    cases moved
    exact .release at_pc
  · cases moved

theorem move_of_shutdownStep (moved : state.shutdownStep = some after)
    : ServerMove state (.run .shutdown) after := by
  unfold ServerState.shutdownStep at moved
  split at moved
  · rename_i at_pc
    obtain ⟨_, locked, rfl⟩ := Option.map_eq_some_iff.mp moved
    obtain ⟨free, rfl⟩ := lock_eq_some_iff.mp locked
    exact .shutdownLock at_pc free
  · rename_i at_pc
    cases moved
    exact .take at_pc
  · rename_i at_pc
    cases moved
    exact .leaveAbsent at_pc
  · rename_i threads at_pc
    cases moved
    exact .leave at_pc
  · rename_i threads at_pc
    split at moved
    · rename_i empty
      subst empty
      cases moved
      exact .stop at_pc
    · cases moved
  · rename_i at_pc
    split at moved
    · rename_i ended
      cases moved
      exact .joinIo at_pc ended
    · cases moved
  · cases moved

theorem move_of_joinStep {thread : ι} (moved : state.joinStep thread = some after)
    : ServerMove state (.join thread) after := by
  unfold ServerState.joinStep at moved
  split at moved
  · rename_i threads at_pc
    split at moved
    · rename_i joinable
      cases moved
      exact .join at_pc joinable.1 joinable.2
    · cases moved
  · cases moved

/-- Every step of the server is one of the moves. -/
theorem serverMove_of_step {label : ServerLabel ι}
    (moved : (singleShotServer ι).step label state = some after)
    : state.crashed = none ∧ ServerMove state label after := by
  simp only [singleShotServer] at moved
  split at moved
  · cases moved
  · rename_i running
    refine ⟨running, ?_⟩
    split at moved
    · exact move_of_acceptCompletes moved
    · exact move_of_serveStep moved
    · exact move_of_handleAcceptResultStep moved
    · exact move_of_serviceStep moved
    · exact move_of_shutdownStep moved
    · exact move_of_joinStep moved

end Moves

end PplMe.Net
