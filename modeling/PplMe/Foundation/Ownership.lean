import Mathlib.Logic.Basic

/-! A mutex and the threads between taking and releasing it.
The mutex records its owner; where a thread's program point says that it holds the mutex, it
is the owner. One thread at a time takes, keeps or releases.
-/

namespace Ownership

variable {θ : Type*}

/-- The recorded owner is exactly the thread that holds the mutex. -/
def Owned (owner : Option θ) (holds : θ → Prop) : Prop :=
  ∀ thread, owner = some thread ↔ holds thread

/-- What a step of `self` may do to a mutex, and to whether `self` holds it. -/
inductive OwnerStep (self : θ) : Option θ → Prop → Option θ → Prop → Prop
  | keep {owner before after} (same : after ↔ before) : OwnerStep self owner before owner after
  | acquire {before after : Prop} (now : after) : OwnerStep self none before (some self) after
  | release {owner} {before after : Prop} (was : before) (now : ¬ after)
    : OwnerStep self owner before none after

/-- A step of one thread keeps the record right. -/
theorem Owned.step {owner next : Option θ} {before after : θ → Prop} {self : θ}
    (owned : Owned owner before) (stepped : OwnerStep self owner (before self) next (after self))
    (others : ∀ other, other ≠ self → (after other ↔ before other))
    : Owned next after := by
  intro thread
  cases stepped with
  | keep same =>
      by_cases own : thread = self
      · rw [own, owned self, same]
      · rw [owned thread, others thread own]
  | acquire now =>
      by_cases own : thread = self
      · simp [own, now]
      · rw [others thread own, ← owned thread]
        simp [Ne.symm own]
  | release was now =>
      by_cases own : thread = self
      · simp [own, now]
      · rw [others thread own, ← owned thread, (owned self).mpr was]
        simp [Ne.symm own]

/-- Two threads that hold the mutex are the same. -/
theorem Owned.unique {owner : Option θ} {holds : θ → Prop} {left right : θ}
    (owned : Owned owner holds) (onLeft : holds left) (onRight : holds right)
    : left = right :=
  Option.some.inj (((owned left).mpr onLeft).symm.trans ((owned right).mpr onRight))

end Ownership
