import Mathlib.Algebra.BigOperators.Group.Finset.Basic
import Mathlib.Algebra.Order.BigOperators.Group.Finset
import Mathlib.Data.Fintype.Basic

/-! Sums over the parts of a system of which one part changes. -/

namespace DistributedSums

variable {Part Local : Type*} [Fintype Part]

/-- A change of one part trades its old share of the sum for its new one. -/
theorem sum_change {Share : Type*} [AddCommMonoid Share] {before after : Part → Share}
    (part : Part) (others : ∀ other, other ≠ part → after other = before other)
    : ∑ other, after other + before part = ∑ other, before other + after part := by
  classical
  have rest : ∑ other ∈ Finset.univ.erase part, after other
      = ∑ other ∈ Finset.univ.erase part, before other :=
    Finset.sum_congr rfl (fun other member => others other (Finset.ne_of_mem_erase member))
  rw [← Finset.add_sum_erase _ after (Finset.mem_univ part), rest,
    ← Finset.add_sum_erase _ before (Finset.mem_univ part)]
  ac_rfl

theorem sum_update [DecidableEq Part] {Share : Type*} [AddCommMonoid Share]
    (locals : Part → Local) (part : Part) (next : Local) (share : Local → Share)
    : ∑ other, share (Function.update locals part next other) + share (locals part)
      = ∑ other, share (locals other) + share next := by
  have others (other : Part) (different : other ≠ part)
      : share (Function.update locals part next other) = share (locals other) := by
    rw [Function.update_of_ne different]
  simpa only [Function.update_self] using sum_change part others

/-- A part that keeps its share keeps the sum. -/
theorem sum_update_same [DecidableEq Part] {Share : Type*} [AddCancelCommMonoid Share]
    {locals : Part → Local} {part : Part} {next : Local} {share : Local → Share}
    (same : share next = share (locals part))
    : ∑ other, share (Function.update locals part next other)
      = ∑ other, share (locals other) := by
  have traded := sum_update locals part next share
  rw [same] at traded
  exact add_right_cancel traded

section Multisets

variable {α : Type*} {locals : Part → Local} {part : Part} {next : Local}
  {share : Local → Multiset α} {item : α}

/-- A part that gains an item adds it to the sum. -/
theorem sum_update_gain [DecidableEq Part] (empty : share (locals part) = 0)
    (gained : share next = {item})
    : ∑ other, share (Function.update locals part next other)
      = item ::ₘ ∑ other, share (locals other) := by
  have traded := sum_update locals part next share
  rwa [empty, gained, add_zero, add_comm, Multiset.singleton_add] at traded

/-- What a part has is in the sum. -/
theorem mem_sum (held : share (locals part) = {item}) : item ∈ ∑ other, share (locals other) := by
  refine Multiset.mem_of_le
    (Finset.single_le_sum (f := fun other => share (locals other))
      (fun _ _ => Multiset.zero_le _) (Finset.mem_univ part)) ?_
  rw [held]
  exact Multiset.mem_singleton_self item

/-- A part that loses its only item takes it from the sum. -/
theorem sum_update_lose [DecidableEq Part] [DecidableEq α] (held : share (locals part) = {item})
    (empty : share next = 0)
    : ∑ other, share (Function.update locals part next other)
      = (∑ other, share (locals other)).erase item := by
  have traded := sum_update locals part next share
  rw [held, empty, add_zero] at traded
  rw [← traded, add_comm, Multiset.singleton_add, Multiset.erase_cons_head]

end Multisets

end DistributedSums
