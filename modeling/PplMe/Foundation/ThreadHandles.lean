import Mathlib.Logic.Basic

/-! Handles that own a thread or none.
A thread that is owned has to be joined before its handle is assigned another one or goes.
-/

namespace ThreadHandles

/-- What ends the process, or throws. -/
inductive HandleFault where
  | assignedJoinable
  | joinedNothing
  | destroyedJoinable
  deriving DecidableEq, Repr

structure ThreadHandle where
  joinable : Bool
  deriving DecidableEq, Repr

namespace ThreadHandle

def empty : ThreadHandle := ⟨false⟩

/-- Take over a thread that has just been started. -/
def assign (handle : ThreadHandle) : Except HandleFault ThreadHandle :=
  if handle.joinable then .error .assignedJoinable else .ok ⟨true⟩

/-- Join the thread, which ends. -/
def join (handle : ThreadHandle) : Except HandleFault ThreadHandle :=
  if handle.joinable then .ok ⟨false⟩ else .error .joinedNothing

def destroy (handle : ThreadHandle) : Except HandleFault Unit :=
  if handle.joinable then .error .destroyedJoinable else .ok ()

@[simp] theorem assign_false : assign ⟨false⟩ = .ok ⟨true⟩ := rfl
@[simp] theorem assign_true : assign ⟨true⟩ = .error .assignedJoinable := rfl
@[simp] theorem join_false : join ⟨false⟩ = .error .joinedNothing := rfl
@[simp] theorem join_true : join ⟨true⟩ = .ok ⟨false⟩ := rfl
@[simp] theorem destroy_false : destroy ⟨false⟩ = .ok () := rfl

end ThreadHandle

end ThreadHandles
