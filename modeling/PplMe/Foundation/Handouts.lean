import Mathlib.Data.List.Basic
import Mathlib.Logic.Function.Basic

/-! Items that are queued, taken off the front by many takers, and started later by the taker that
has them.
A taker has one item at a time. It lets go of one that cannot be started.
-/

namespace Handouts

variable {ω τ : Type*}

structure Ledger (ω τ : Type*) where
  /-- All that was ever queued, in that order. -/
  queued : List τ
  waiting : List τ
  /-- Who took what, in the order of taking. -/
  taken : List (ω × τ)
  /-- Who started what, in the order of starting. -/
  started : List (ω × τ)
  /-- What a taker has taken, and has neither started nor let go of. -/
  held : ω → Option τ

def Ledger.empty : Ledger ω τ where
  queued := []
  waiting := []
  taken := []
  started := []
  held := fun _ => none

section Takers

variable [DecidableEq ω]

/-- The items of one taker, in their order. -/
def ofTaker (entries : List (ω × τ)) (taker : ω) : List τ :=
  (entries.filter fun entry => entry.1 = taker).map Prod.snd

@[simp] theorem ofTaker_append_self (entries : List (ω × τ)) (taker : ω) (item : τ)
    : ofTaker (entries ++ [(taker, item)]) taker = ofTaker entries taker ++ [item] := by
  simp [ofTaker]

/-- What one taker gets is no other's. -/
theorem ofTaker_append_of_ne (entries : List (ω × τ)) {taker other : ω} (item : τ)
    (different : other ≠ taker)
    : ofTaker (entries ++ [(taker, item)]) other = ofTaker entries other := by
  simp [ofTaker, different.symm]

theorem mem_ofTaker {entries : List (ω × τ)} {taker : ω} {item : τ}
    : item ∈ ofTaker entries taker ↔ (taker, item) ∈ entries := by
  simp [ofTaker]

/-- What can happen to the items. -/
inductive Step (startable : τ → Bool) (ledger : Ledger ω τ) : Ledger ω τ → Prop
  | queue (item : τ)
    : Step startable ledger
        { ledger with
          queued := ledger.queued ++ [item]
          waiting := ledger.waiting ++ [item] }
  | take {taker item rest} (next : ledger.waiting = item :: rest)
    (free : ledger.held taker = none)
    : Step startable ledger
        { ledger with
          waiting := rest
          taken := ledger.taken ++ [(taker, item)]
          held := Function.update ledger.held taker (some item) }
  | start {taker item} (has : ledger.held taker = some item) (able : startable item = true)
    : Step startable ledger
        { ledger with
          started := ledger.started ++ [(taker, item)]
          held := Function.update ledger.held taker none }
  | letGo {taker item} (has : ledger.held taker = some item) (unable : startable item = false)
    : Step startable ledger { ledger with held := Function.update ledger.held taker none }

/-- Items are taken in the order of queueing, each once. Each taker starts what it has taken and
can be started, in that order and each once, but for the one that it still has.
-/
structure Accounts (startable : τ → Bool) (ledger : Ledger ω τ) : Prop where
  taken : ledger.taken.map Prod.snd ++ ledger.waiting = ledger.queued
  started
    : ∀ taker,
        (ofTaker ledger.taken taker).filter startable
        = ofTaker ledger.started taker ++ (ledger.held taker).toList.filter startable

theorem accounts_empty (startable : τ → Bool)
    : Accounts startable (Ledger.empty : Ledger ω τ) :=
  ⟨rfl, fun _ => rfl⟩

variable {startable : τ → Bool} {before after : Ledger ω τ}

/-- Every step keeps the accounts. -/
theorem Accounts.step (accounts : Accounts startable before)
    (stepped : Step startable before after)
    : Accounts startable after := by
  obtain ⟨taken, started⟩ := accounts
  cases stepped with
  | queue item =>
      refine ⟨?_, started⟩
      rw [← List.append_assoc, taken]
  | @take taker item rest next free =>
      refine ⟨?_, fun other => ?_⟩
      · rw [List.map_append, List.append_assoc, ← taken, next]
        rfl
      · by_cases same : other = taker
        · subst same
          have own := started other
          rw [free] at own
          simp [own]
        · simp only [ofTaker_append_of_ne _ _ same, Function.update_of_ne same]
          exact started other
  | @start taker item has able =>
      refine ⟨taken, fun other => ?_⟩
      by_cases same : other = taker
      · subst same
        have own := started other
        rw [has] at own
        simp [own, able]
      · simp only [ofTaker_append_of_ne _ _ same, Function.update_of_ne same]
        exact started other
  | @letGo taker item has unable =>
      refine ⟨taken, fun other => ?_⟩
      by_cases same : other = taker
      · subst same
        have own := started other
        rw [has] at own
        simp [own, unable]
      · simp only [Function.update_of_ne same]
        exact started other

/-- Nothing is started that cannot be. -/
theorem Accounts.able {ledger : Ledger ω τ} (accounts : Accounts startable ledger)
    {entry : ω × τ} (member : entry ∈ ledger.started)
    : startable entry.2 = true := by
  have own : entry.2 ∈ ofTaker ledger.started entry.1 := mem_ofTaker.mpr member
  have taken := List.mem_append_left
    ((ledger.held entry.1).toList.filter startable) own
  rw [← accounts.started entry.1] at taken
  exact (List.mem_filter.mp taken).2

end Takers

end Handouts
