import PplMe.Foundation.ThreadHandles
import PplMe.Net.ServerShutdown

/-! A server from its constructor to its destructor.
Its owner makes one call after the other, in any order and any number of times; what the host does
in a call of `Start` is part of the call. All the while the server's own threads move, also after
the server is gone.
-/

namespace PplMe.Net

open Stepping ThreadHandles

/-- What the host does in a call of `Start`. -/
structure StartHost where
  opens : Bool
  binds : Bool
  listens : Bool
  /-- Whether the I/O thread starts. -/
  startsThread : Bool
  deriving DecidableEq, Repr

/-- The acceptor can be opened, and everything after that succeeds as well. -/
def StartHost.succeeds (host : StartHost) : Bool :=
  host.opens && host.binds && host.listens && host.startsThread

inductive OwnerCall where
  | start (host : StartHost)
  | getLocalPort
  | shutdown
  /-- The destructor. -/
  | destroy
  deriving DecidableEq, Repr

inductive OwnerPc where
  /-- Between two calls. -/
  | idle
  /-- In `Shutdown`, for the destructor or not, with the parties that it waits for. -/
  | inside (destroying : Bool)
  /-- In `Shutdown`, which has found no registry. -/
  | leaving (destroying : Bool)
  /-- The destructor has returned. -/
  | gone
  deriving DecidableEq, Repr

/-- What ends the process. -/
inductive LifeFault where
  | handle (fault : HandleFault)
  /-- A closed acceptor is asked for its endpoint, and throws. -/
  | notOpen
  | server (fault : ServerFault)
  /-- A thread uses a server that is gone. -/
  | destroyed
  deriving DecidableEq

structure LifeState (ι : Type*) where
  acceptorOpen : Bool
  ioThread : ThreadHandle
  /-- The server's parties, from the `Start` on that succeeded. -/
  server : Option (ServerState ι)
  owner : OwnerPc
  /-- The calls of `Start` so far, and what they have returned. -/
  starts : List (StartHost × Bool)
  /-- Set when the process has ended. -/
  crashed : Option LifeFault

section Steps

variable {ι : Type*} [DecidableEq ι]

/-- The step is one of the owner's, in `Shutdown`. -/
def ServerLabel.isOwner : ServerLabel ι → Bool
  | .run .shutdown | .join _ => true
  | _ => false

/-- The step uses the server's members. -/
def ServerLabel.uses (server : ServerState ι) : ServerLabel ι → Bool
  | .run (.connection thread) =>
      match server.threads thread with
      | .serving | .enter | .unregister | .leave | .release => true
      | .unborn | .detach | .ended => false
  | _ => true

namespace LifeState

variable (state : LifeState ι)

def constructed : LifeState ι where
  acceptorOpen := false
  ioThread := .empty
  server := none
  owner := .idle
  starts := []
  crashed := none

def crash (fault : LifeFault) : LifeState ι := { state with crashed := some fault }

def returns (host : StartHost) (success : Bool) : LifeState ι :=
  { state with starts := state.starts ++ [(host, success)] }

/-- `Start`. The acceptor stays open where a later step fails, and cannot be opened again. -/
def start (host : StartHost) : LifeState ι :=
  if state.acceptorOpen || !host.opens then
    state.returns host false
  else
    let state := { state with acceptorOpen := true }
    if host.binds && host.listens && host.startsThread then
      match state.ioThread.assign with
      | .error fault => state.crash (.handle fault)
      | .ok ioThread => { state with ioThread, server := some .started }.returns host true
    else
      state.returns host false

/-- The owner calls `Shutdown`, which takes the lock, and a registry if there is one. -/
def enterShutdown (destroying : Bool) : Option (LifeState ι) :=
  match state.server with
  | none => some { state with owner := .leaving destroying }
  | some server =>
      match server.shutdown with
      | .returned =>
          match server.mutex with
          | none => some { state with owner := .leaving destroying }
          | some _ => none
      | _ => some { state with owner := .inside destroying }

/-- `Shutdown` returns, and where that was for the destructor the members are destroyed. -/
def leaveShutdown (destroying : Bool) : LifeState ι :=
  if destroying then
    match state.ioThread.destroy with
    | .error fault => state.crash (.handle fault)
    | .ok () => { state with owner := .gone }
  else
    { state with owner := .idle }

def callStep (call : OwnerCall) : Option (LifeState ι) :=
  match state.owner with
  | .idle =>
      match call with
      | .start host => some (state.start host)
      | .getLocalPort => some (if state.acceptorOpen then state else state.crash .notOpen)
      | .shutdown => state.enterShutdown false
      | .destroy => state.enterShutdown true
  | _ => none

def returnStep : Option (LifeState ι) :=
  match state.owner with
  | .leaving destroying => some (state.leaveShutdown destroying)
  | .inside destroying =>
      match state.server with
      | some server =>
          match server.shutdown with
          | .returned => some (state.leaveShutdown destroying)
          | _ => none
      | none => none
  | _ => none

/-- The owner's last step in `Shutdown` joins the I/O thread. -/
def joinsIo (server : ServerState ι) : ServerLabel ι → Bool
  | .run .shutdown =>
      match server.shutdown with
      | .joiningIo => true
      | _ => false
  | _ => false

/-- The server's state after a step of one of its parties. -/
def became (label : ServerLabel ι) (server next : ServerState ι) : LifeState ι :=
  match next.crashed with
  | some fault => { state with server := some next }.crash (.server fault)
  | none =>
      if joinsIo server label then
        match state.ioThread.join with
        | .error fault => state.crash (.handle fault)
        | .ok ioThread => { state with ioThread, server := some next }
      else
        { state with server := some next }

/-- A step of one of the server's parties, the owner among them while it is in `Shutdown`. -/
def serverStep (label : ServerLabel ι) : Option (LifeState ι) :=
  match state.server with
  | none => none
  | some server =>
      match (singleShotServer ι).step label server with
      | none => none
      | some next =>
          match state.owner with
          | .inside _ => some (state.became label server next)
          | .gone =>
              if label.isOwner then
                none
              else if label.uses server then
                some (state.crash .destroyed)
              else
                some (state.became label server next)
          | _ => if label.isOwner then none else some (state.became label server next)

end LifeState

inductive LifeLabel (ι : Type*) where
  | call (call : OwnerCall)
  /-- A call of `Shutdown` returns. -/
  | returned
  | server (label : ServerLabel ι)

/-- The owner's calls and the server's threads in any order, and nothing after a crash. -/
def serverLife (ι : Type*) [DecidableEq ι] : Machine (LifeState ι) (LifeLabel ι) where
  start := .constructed
  step label state :=
    match state.crashed with
    | some _ => none
    | none =>
        match label with
        | .call call => state.callStep call
        | .returned => state.returnStep
        | .server label => state.serverStep label

end Steps

end PplMe.Net
