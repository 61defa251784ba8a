import Mathlib.Control.Monad.Basic
import Mathlib.Data.List.Basic

/-! Computations that may fail, and those that carry a state as well. -/

namespace Failures

universe u v

section Failing

variable {Failure : Type u} {α β : Type v}

/-- What succeeded did so in two parts. -/
theorem of_bind_eq_ok {first : Except Failure α} {next : α → Except Failure β} {result : β}
    (succeeded : first >>= next = .ok result)
    : ∃ value, first = .ok value ∧ next value = .ok result := by
  cases first with
  | error failure => cases succeeded
  | ok value => exact ⟨value, rfl, succeeded⟩

/-- What has succeeded goes on. -/
theorem ok_bind (value : α) (next : α → Except Failure β)
    : ((Except.ok value : Except Failure α) >>= next) = next value := rfl

end Failing

section Stateful

variable {State : Type u} {Failure : Type v} {α β : Type u}
  {first : StateT State (Except Failure) α} {next : α → StateT State (Except Failure) β}
  {before middle after : State}

/-- A computation goes on from where its first part ends. -/
theorem run_bind_ok {value : α} (ran : first.run before = .ok (value, middle))
    : (first >>= next).run before = (next value).run middle := by
  rw [StateT.run_bind, ran]
  rfl

/-- Where the first part fails, so does the whole. -/
theorem run_bind_error {failure : Failure} (ran : first.run before = .error failure)
    : (first >>= next).run before = .error failure := by
  rw [StateT.run_bind, ran]
  rfl

/-- What ran to its end did so in two parts. -/
theorem run_bind_inv {result : β} (ran : (first >>= next).run before = .ok (result, after))
    : ∃ value middle,
        first.run before = .ok (value, middle)
        ∧ (next value).run middle = .ok (result, after) := by
  rw [StateT.run_bind] at ran
  obtain ⟨⟨value, middle⟩, ranFirst, ranNext⟩ := of_bind_eq_ok ran
  exact ⟨value, middle, ranFirst, ranNext⟩

end Stateful

end Failures
