import PplMe.Foundation.Gathering

/-! How far a gather may get out of order.
Keys are offered only while items are missing, and few of them are pending. So when there are
enough items, all keys that were offered are settled but the few that were pending at the last
offer: only these can have been overtaken.
-/

namespace Gathering

variable {κ α : Type*}

/-- The keys up to the last offer: `settled` ones were completed before it; of those that were
pending after it some are `late`, and completed, some `dropped`, and some are still pending.
-/
structure Offered (job : Job κ α) (gather : Gather κ α) (offered later settled late : List κ)
    (dropped : Multiset κ)
    : Prop where
  keys : job.keys = offered ++ later
  accounts
    : (settled : Multiset κ) + (late + dropped + gather.pending.val) = (offered : Multiset κ)
  width : ((late : Multiset κ) + dropped + gather.pending.val).card ≤ job.width
  few : (settled.flatMap job.found).length ≤ job.limit
  items : gather.result = none → gather.items = (settled ++ late).flatMap job.found
  going : gather.stopped = false → dropped = 0 ∧ later = gather.remaining
  stopped
    : gather.stopped = true → job.limit ≤ ((settled ++ late).flatMap job.found).length
  result
    : ∀ items, gather.result = some items
        → gather.remaining = []
          ∧ gather.pending = ∅
          ∧ items = ((settled ++ late).flatMap job.found).take job.limit

/-- The order in which keys are settled is bounded by the width. -/
def Bounded (job : Job κ α) (gather : Gather κ α) : Prop :=
  ∃ offered later settled late dropped, Offered job gather offered later settled late dropped

theorem bounded_start (job : Job κ α) : Bounded job job.start :=
  ⟨[], job.keys, [], [], 0,
    { keys := rfl
      accounts := rfl
      width := Nat.zero_le _
      few := Nat.zero_le _
      items := fun _ => rfl
      going := fun _ => ⟨rfl, rfl⟩
      stopped := fun stopped => by cases stopped
      result := fun _ result => by cases result }⟩

theorem Offered.unfinished {job : Job κ α} {gather : Gather κ α} {offered later settled late}
    {dropped} {key : κ} (holds : Offered job gather offered later settled late dropped)
    (member : key ∈ gather.pending)
    : gather.result = none := by
  cases result : gather.result with
  | none => rfl
  | some items =>
      rw [(holds.result items result).2.1] at member
      exact absurd member (Finset.notMem_empty key)

/-- Every step keeps the bound: an offer settles all that has completed, and what is pending after
it is no more than the width.
-/
theorem Bounded.step [DecidableEq κ] {job : Job κ α} {before after : Gather κ α}
    (bounded : Bounded job before) (stepped : Step job before after)
    : Bounded job after := by
  obtain ⟨offered, later, settled, late, dropped, holds⟩ := bounded
  cases stepped with
  | @offer key rest unfinished going next few room new =>
      obtain ⟨none, same⟩ := holds.going going
      have card : (insert key before.pending).card ≤ job.width := by
        rw [Finset.card_insert_of_notMem new]
        exact room
      refine ⟨offered ++ [key], rest, settled ++ late, [], 0, ?_, ?_, ?_, ?_, ?_, ?_, ?_, ?_⟩
      · rw [holds.keys, same, next, List.append_assoc, List.singleton_append]
      · have accounts := holds.accounts
        rw [none, add_zero] at accounts
        rw [Finset.insert_val_of_notMem new, ← Multiset.coe_add offered, ← accounts,
          ← Multiset.coe_add, Multiset.coe_singleton, ← Multiset.singleton_add, Multiset.coe_nil]
        simp only [zero_add, add_assoc, add_comm, add_left_comm]
      · rw [Multiset.coe_nil, zero_add, zero_add]
        exact card
      · exact (holds.items unfinished ▸ few).le
      · intro _
        rw [List.append_nil]
        exact holds.items unfinished
      · exact fun _ => ⟨rfl, rfl⟩
      · intro stopped
        cases going.symm.trans stopped
      · intro items result
        cases unfinished.symm.trans result
  | stop unfinished full =>
      refine ⟨offered, later, settled, late, dropped, holds.keys, holds.accounts, holds.width,
        holds.few, holds.items, ?_, ?_, ?_⟩
      · intro going
        cases going
      · exact fun _ => holds.items unfinished ▸ full
      · intro items result
        cases unfinished.symm.trans result
  | @drop key stopped unsearched pending =>
      have moved : (late : Multiset κ) + key ::ₘ dropped + (before.pending.erase key).val
          = late + dropped + before.pending.val := by
        rw [pending_eq_cons_erase pending, Multiset.singleton_add]
        simp only [Multiset.add_cons, Multiset.cons_add]
      refine ⟨offered, later, settled, late, key ::ₘ dropped, holds.keys, ?_, ?_, holds.few,
        holds.items, ?_, holds.stopped, ?_⟩
      · rw [← holds.accounts]
        exact congrArg _ moved
      · exact (congrArg Multiset.card moved).trans_le holds.width
      · intro going
        cases stopped.symm.trans going
      · intro items result
        cases (holds.unfinished pending).symm.trans result
  | pick unsearched =>
      exact ⟨offered, later, settled, late, dropped, holds.keys, holds.accounts, holds.width,
        holds.few, holds.items, holds.going, holds.stopped, holds.result⟩
  | @finish key searched pending =>
      have unfinished := holds.unfinished pending
      have moved : ((late ++ [key] : List κ) : Multiset κ) + dropped
            + (before.pending.erase key).val
          = late + dropped + before.pending.val := by
        rw [pending_eq_cons_erase pending, ← Multiset.coe_add, Multiset.coe_singleton]
        simp only [add_assoc, add_left_comm]
      have gathered : ((settled ++ (late ++ [key])).flatMap job.found)
          = (settled ++ late).flatMap job.found ++ job.found key := by
        rw [← List.append_assoc, List.flatMap_append, List.flatMap_singleton]
      refine ⟨offered, later, settled, late ++ [key], dropped, holds.keys, ?_, ?_, holds.few, ?_,
        holds.going, ?_, ?_⟩
      · rw [← holds.accounts]
        exact congrArg _ moved
      · exact (congrArg Multiset.card moved).trans_le holds.width
      · intro _
        rw [gathered, ← holds.items unfinished]
      · intro stopped
        have enough := holds.stopped stopped
        rw [gathered, List.length_append]
        omega
      · intro items result
        cases unfinished.symm.trans result
  | conclude unfinished exhausted drained =>
      refine ⟨offered, later, settled, late, dropped, holds.keys, holds.accounts, holds.width,
        holds.few, ?_, holds.going, holds.stopped, ?_⟩
      · intro impossible
        cases impossible
      · intro items result
        cases result
        exact ⟨exhausted, drained, by rw [holds.items unfinished]⟩

/-- What is returned: everything that the offered keys hold but for a few `overtaken` ones, and
nothing of the `later` keys.
-/
structure Returns (job : Job κ α) (items : List α) (offered later : List κ)
    (overtaken : Multiset κ)
    : Prop where
  keys : job.keys = offered ++ later
  few : overtaken.card ≤ job.width
  among : overtaken ≤ offered
  returned : ∀ item ∈ items, ∃ key ∈ offered, item ∈ job.found key
  complete
    : ((job.keys.flatMap job.found : List α) : Multiset α)
      ≤ items + (overtaken + later).bind fun key => (job.found key : Multiset α)

/-- A result is everything of the keys that were settled at the last offer, and some of what those
that were pending then hold.
-/
theorem Bounded.returns {job : Job κ α} {gather : Gather κ α} {items : List α}
    (bounded : Bounded job gather) (result : gather.result = some items)
    : ∃ offered later overtaken, Returns job items offered later overtaken := by
  obtain ⟨offered, later, settled, late, dropped, holds⟩ := bounded
  obtain ⟨exhausted, drained, rfl⟩ := holds.result items result
  have accounts := holds.accounts
  have width := holds.width
  rw [drained, Finset.empty_val, add_zero] at accounts width
  have whole : settled.flatMap job.found
      <+: ((settled ++ late).flatMap job.found).take job.limit := by
    rw [List.flatMap_append, List.prefix_take_iff]
    exact ⟨List.prefix_append _ _, holds.few⟩
  refine ⟨offered, later, late + dropped, holds.keys, width, ?_, ?_, ?_⟩
  · exact accounts ▸ Multiset.le_add_left _ _
  · intro item member
    obtain ⟨key, among, held⟩ := List.mem_flatMap.mp (List.mem_of_mem_take member)
    refine ⟨key, ?_, held⟩
    rw [← Multiset.mem_coe, ← accounts]
    rcases List.mem_append.mp among with early | late
    · exact Multiset.mem_add.mpr (.inl early)
    · exact Multiset.mem_add.mpr (.inr (Multiset.mem_add.mpr (.inl late)))
  · have keys : (job.keys : Multiset κ) = settled + (late + dropped + later) := by
      rw [holds.keys, ← Multiset.coe_add, ← accounts, add_assoc]
    rw [← Multiset.coe_bind, keys, Multiset.add_bind, Multiset.coe_bind]
    exact Multiset.add_le_add_right (Multiset.coe_le.mpr whole.sublist.subperm)

/-- An item that is not returned as often as it is held is held by an overtaken or a later key. -/
theorem Returns.missing [DecidableEq α] {job : Job κ α} {items : List α} {offered later : List κ}
    {overtaken : Multiset κ} (returns : Returns job items offered later overtaken) {item : α}
    (missing : items.count item < (job.keys.flatMap job.found).count item)
    : ∃ key, (key ∈ overtaken ∨ key ∈ later) ∧ item ∈ job.found key := by
  have counts := Multiset.count_le_of_le item returns.complete
  rw [Multiset.count_add, Multiset.coe_count, Multiset.coe_count] at counts
  have some : 0 < ((overtaken + (later : Multiset κ)).bind
      fun key => (job.found key : Multiset α)).count item := by
    omega
  obtain ⟨key, among, held⟩ := Multiset.mem_bind.mp (Multiset.count_pos.mp some)
  exact ⟨key, Multiset.mem_add.mp among, held⟩

end Gathering
