import PplMe.Engine.NoddyWorkerPool
import PplMe.Engine.PplGrid
import Mathlib.Data.Multiset.Bind
import Mathlib.Algebra.BigOperators.Group.List.Basic

/-! The worklettes of concurrent finds: who runs them, where they are in their search of a
cell, and which cells of a call the queue and the workers hold at a time.
-/

namespace PplMe.Engine

open PplMe.Core

inductive Thread (ι ω : Type*) where
  | caller (call : ι)
  | worker (worker : ω)
  deriving DecidableEq

/-- The search of one cell for one call, as queued. -/
structure Worklette (ι : Type*) where
  call : ι
  cell : CellLocator
  deriving DecidableEq

/-- Where a worklette is in `TryFindPplAsync`, or in the prototype's `findppl_worklette`. Both
check whether their call still wants them, search the cell, and append what they found.
-/
inductive AsyncStage where
  | enterCheck
  | check
  | leaveCheck (done : Bool)
  | search
  | enterAppend (myPpl : List Person)
  | append (myPpl : List Person)
  | leaveAppend

structure AsyncFind (ι : Type*) where
  worklette : Worklette ι
  stage : AsyncStage

abbrev FindWorkerPc (ι : Type*) := WorkerPc (Worklette ι) (AsyncFind ι)

section Shares

variable {ι : Type*} [DecidableEq ι]

def Worklette.cellOf (call : ι) (worklette : Worklette ι) : Multiset CellLocator :=
  if worklette.call = call then {worklette.cell} else 0

/-- A worklette of the call that a worker has and has not begun to search with. -/
def freshShare (call : ι) : FindWorkerPc ι → Multiset CellLocator
  | .leave (some worklette) => worklette.cellOf call
  | .running ⟨worklette, .enterCheck⟩ => worklette.cellOf call
  | .running ⟨worklette, .check⟩ => worklette.cellOf call
  | _ => 0

/-- A worklette of the call that still has its last critical section ahead. -/
def searchingShare (call : ι) : FindWorkerPc ι → Multiset CellLocator
  | .running ⟨worklette, .leaveCheck false⟩ => worklette.cellOf call
  | .running ⟨worklette, .search⟩ => worklette.cellOf call
  | .running ⟨worklette, .enterAppend _⟩ => worklette.cellOf call
  | .running ⟨worklette, .append _⟩ => worklette.cellOf call
  | _ => 0

/-- The queued cells of a call. -/
def queuedCells (call : ι) (work : List (Worklette ι)) : Multiset CellLocator :=
  (work.map (Worklette.cellOf call)).sum

@[simp] theorem cellOf_self (call : ι) (cell : CellLocator)
    : Worklette.cellOf call ⟨call, cell⟩ = {cell} := if_pos rfl

theorem cellOf_call (worklette : Worklette ι)
    : worklette.cellOf worklette.call = {worklette.cell} := if_pos rfl

theorem cellOf_other {call : ι} {worklette : Worklette ι} (other : call ≠ worklette.call)
    : worklette.cellOf call = 0 := if_neg (Ne.symm other)

/-- A worklette that is being run is nobody's but its own call's. -/
theorem freshShare_other {call : ι} {worklette : Worklette ι} (stage : AsyncStage)
    (other : call ≠ worklette.call)
    : freshShare call (.running ⟨worklette, stage⟩) = 0 := by
  unfold freshShare
  split <;> simp_all [cellOf_other]

theorem searchingShare_other {call : ι} {worklette : Worklette ι} (stage : AsyncStage)
    (other : call ≠ worklette.call)
    : searchingShare call (.running ⟨worklette, stage⟩) = 0 := by
  unfold searchingShare
  split <;> simp_all [cellOf_other]

@[simp] theorem queuedCells_append (call : ι) (left right : List (Worklette ι))
    : queuedCells call (left ++ right) = queuedCells call left + queuedCells call right := by
  simp [queuedCells]

@[simp] theorem queuedCells_cons (call : ι) (worklette : Worklette ι)
    (rest : List (Worklette ι))
    : queuedCells call (worklette :: rest) = worklette.cellOf call + queuedCells call rest := by
  simp [queuedCells]

@[simp] theorem queuedCells_nil (call : ι) : queuedCells call [] = 0 := rfl

/-- The cell of a queued worklette is queued for its call, by induction on the queue. -/
theorem mem_queuedCells {worklette : Worklette ι} {work : List (Worklette ι)}
    (member : worklette ∈ work)
    : worklette.cell ∈ queuedCells worklette.call work := by
  induction work with
  | nil => cases member
  | cons first rest ih =>
      rw [queuedCells_cons, Multiset.mem_add]
      rcases List.mem_cons.mp member with rfl | later
      · exact Or.inl (cellOf_call worklette ▸ Multiset.mem_singleton_self _)
      · exact Or.inr (ih later)

@[simp] theorem freshShare_notify (call : ι) (pc : FindWorkerPc ι)
    : freshShare call pc.notify = freshShare call pc := by
  cases pc <;> rfl

@[simp] theorem searchingShare_notify (call : ι) (pc : FindWorkerPc ι)
    : searchingShare call pc.notify = searchingShare call pc := by
  cases pc <;> rfl

/-- A worker's loop moves worklettes from the queue to the worker and loses none. -/
theorem StartWorking.shares {ω : Type*} {self : Thread ι ω} {pool next pc after}
    (looped
      : StartWorking (fun worklette => (⟨worklette, .enterCheck⟩ : AsyncFind ι)) self pool pc
          next after)
    (call : ι)
    : queuedCells call next.work + freshShare call after
        = queuedCells call pool.work + freshShare call pc
      ∧ searchingShare call after = searchingShare call pc := by
  cases looped with
  | die at_test dead => rcases at_test with rfl | rfl <;> simp [freshShare, searchingShare]
  | take at_test alive work =>
      rcases at_test with rfl | rfl <;> simp [freshShare, searchingShare, work, add_comm]
  | _ => simp [freshShare, searchingShare]

end Shares

end PplMe.Engine
