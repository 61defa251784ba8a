import PplMe.Foundation.Runs
import Mathlib.Data.Finset.Basic

/-! The single-shot server, step by step: the thread that accepts connections, a thread for each
connection, and a call of `Shutdown`.
The registry of connection threads is a member of the server under a lock. `ι` names the
connections, and with them their threads.
-/

namespace PplMe.Net

open Stepping

/-- Where a connection thread is in `Service`. -/
inductive ServicePc where
  /-- The thread was not started. -/
  | unborn
  /-- Talks to its client, and calls the handler. -/
  | serving
  /-- Is about to take the lock. -/
  | enter
  /-- Holds the lock, and looks for its entry. -/
  | unregister
  | leave
  /-- Owns itself, without the lock. -/
  | detach
  /-- Has returned from `Service`. What it was started with still owns the connection, whose socket
  it destroys through the server's `io_service_`. -/
  | release
  | ended
  deriving DecidableEq

/-- Where the I/O thread is: in a wait for an accept, or in `HandleAcceptResult`. -/
inductive AcceptPc (ι : Type*) where
  | waiting
  | enter (connection : ι)
  /-- Holds the lock, and looks whether there is a registry. -/
  | inspect (connection : ι)
  /-- Has started the connection's thread, whose entry is not there yet. -/
  | emplace (connection : ι)
  | leave
  | ended

/-- Where the call of `Shutdown` is. -/
inductive ShutdownPc (ι : Type*) where
  | notCalled
  /-- Holds the lock, and is about to take the registry. -/
  | take
  | leave (threads : Option (Finset ι))
  /-- Waits for the threads that it took and has not joined. -/
  | joining (threads : Finset ι)
  | joiningIo
  | returned

inductive ServerParty (ι : Type*) where
  | io
  | connection (thread : ι)
  | shutdown
  deriving DecidableEq

/-- What ends the process. -/
inductive ServerFault where
  | absentRegistry
  | missingEntry
  /-- A socket that was moved from is asked for its peer, and throws. -/
  | notConnected
  /-- An exception leaves a connection thread's function. -/
  | escaped
  deriving DecidableEq

structure ServerState (ι : Type*) where
  /-- The party that holds `connection_threads_lock_`. -/
  mutex : Option (ServerParty ι)
  /-- `connection_threads_`: the threads that have an entry, if it owns a map. -/
  registry : Option (Finset ι)
  threads : ι → ServicePc
  io : AcceptPc ι
  ioStopped : Bool
  shutdown : ShutdownPc ι
  /-- The threads that have been joined, that have taken their entry out, and that have
  detached themselves. -/
  joined : Finset ι
  unregistered : Finset ι
  detached : Finset ι
  /-- Set when the process has ended. -/
  crashed : Option ServerFault

section Steps

variable {ι : Type*} [DecidableEq ι]

namespace ServerState

def lock (state : ServerState ι) (party : ServerParty ι) : Option (ServerState ι) :=
  match state.mutex with
  | none => some { state with mutex := some party }
  | some _ => none

def setThread (state : ServerState ι) (thread : ι) (pc : ServicePc) : ServerState ι :=
  { state with threads := Function.update state.threads thread pc }

def crash (state : ServerState ι) (fault : ServerFault) : ServerState ι :=
  { state with crashed := some fault }

/-- `async_accept` completes, with an error or with a new connection. -/
def acceptCompletes (state : ServerState ι) (result : Option ι) : Option (ServerState ι) :=
  match state.io with
  | .waiting =>
      if state.ioStopped then
        none
      else
        match result with
        | none => some state
        | some connection =>
            if state.threads connection = .unborn then
              some { state with io := .enter connection }
            else
              none
  | _ => none

/-- A step of the I/O thread: `HandleAcceptResult`, or the end of `run`. -/
def handleAcceptResultStep (state : ServerState ι) : Option (ServerState ι) :=
  match state.io with
  | .waiting => if state.ioStopped then some { state with io := .ended } else none
  | .enter connection =>
      (state.lock .io).map (fun state => { state with io := .inspect connection })
  | .inspect connection =>
      match state.registry with
      | some _ => some { state.setThread connection .serving with io := .emplace connection }
      | none => some (state.crash .notConnected)
  | .emplace connection =>
      match state.registry with
      | some entries =>
          some { state with registry := some (insert connection entries), io := .leave }
      | none => some (state.crash .absentRegistry)
  | .leave => some { state with mutex := none, io := .waiting }
  | .ended => none

/-- What a connection thread does with its client is over, unless an exception ends it. -/
def serveStep (state : ServerState ι) (thread : ι) (threw : Bool) : Option (ServerState ι) :=
  match state.threads thread with
  | .serving => some (if threw then state.crash .escaped else state.setThread thread .enter)
  | _ => none

/-- A step of a connection thread in the rest of `Service`, and after it. -/
def serviceStep (state : ServerState ι) (thread : ι) : Option (ServerState ι) :=
  match state.threads thread with
  | .unborn => none
  | .serving => none
  | .enter =>
      (state.lock (.connection thread)).map (fun state => state.setThread thread .unregister)
  | .unregister =>
      match state.registry with
      | none => some (state.crash .absentRegistry)
      | some entries =>
          if thread ∈ entries then
            some
              ({ state with
                  registry := some (entries.erase thread)
                  unregistered := insert thread state.unregistered }.setThread thread .leave)
          else
            some (state.crash .missingEntry)
  | .leave => some ({ state with mutex := none }.setThread thread .detach)
  | .detach =>
      some ({ state with detached := insert thread state.detached }.setThread thread .release)
  | .release => some (state.setThread thread .ended)
  | .ended => none

/-- A step of the call of `Shutdown`. -/
def shutdownStep (state : ServerState ι) : Option (ServerState ι) :=
  match state.shutdown with
  | .notCalled => (state.lock .shutdown).map (fun state => { state with shutdown := .take })
  | .take => some { state with registry := none, shutdown := .leave state.registry }
  | .leave none => some { state with mutex := none, shutdown := .returned }
  | .leave (some threads) => some { state with mutex := none, shutdown := .joining threads }
  | .joining threads =>
      if threads = ∅ then
        some { state with ioStopped := true, shutdown := .joiningIo }
      else
        none
  | .joiningIo =>
      match state.io with
      | .ended => some { state with shutdown := .returned }
      | _ => none
  | .returned => none

/-- `Shutdown` joins one of the threads that it took, once that has ended. -/
def joinStep (state : ServerState ι) (thread : ι) : Option (ServerState ι) :=
  match state.shutdown with
  | .joining threads =>
      if thread ∈ threads ∧ state.threads thread = .ended then
        some
          { state with
            joined := insert thread state.joined
            shutdown := .joining (threads.erase thread) }
      else
        none
  | _ => none

/-- After a successful `Start`. -/
def started : ServerState ι where
  mutex := none
  registry := some ∅
  threads := fun _ => .unborn
  io := .waiting
  ioStopped := false
  shutdown := .notCalled
  joined := ∅
  unregistered := ∅
  detached := ∅
  crashed := none

end ServerState

inductive ServerLabel (ι : Type*) where
  | accept (result : Option ι)
  /-- A connection thread's exchange with its client comes to its end, which may take as long as it
  likes. -/
  | served (thread : ι) (threw : Bool)
  /-- A party's own step. -/
  | run (party : ServerParty ι)
  | join (thread : ι)

/-- The server: any connections, any order of steps, and none after a crash. -/
def singleShotServer (ι : Type*) [DecidableEq ι] : Machine (ServerState ι) (ServerLabel ι) where
  start := .started
  step label state :=
    match state.crashed with
    | some _ => none
    | none =>
        match label with
        | .accept result => state.acceptCompletes result
        | .served thread threw => state.serveStep thread threw
        | .run .io => state.handleAcceptResultStep
        | .run (.connection thread) => state.serviceStep thread
        | .run .shutdown => state.shutdownStep
        | .join thread => state.joinStep thread

end Steps

end PplMe.Net
