import Mathlib.Data.Finset.Card
import Mathlib.Data.Multiset.Bind

/-! Gathering items from keys, a bounded number of keys at a time, until there are enough.
Keys are offered in order and searched in any order; once enough items are there the rest of
the keys is not offered and offered keys may be dropped unsearched. What is gathered does not
depend on the order in which the keys finish.
-/

namespace Gathering

variable {κ α : Type*}

/-- The keys in the order in which they are offered, and what each of them holds. -/
structure Job (κ α : Type*) where
  keys : List κ
  /-- How many items are enough. -/
  limit : Nat
  /-- How many keys may be pending at once. -/
  width : Nat
  found : κ → List α

@[ext] structure Gather (κ α : Type*) where
  remaining : List κ
  /-- Offered keys that nobody has begun to search. -/
  fresh : Multiset κ
  searching : Multiset κ
  pending : Finset κ
  items : List α
  stopped : Bool
  result : Option (List α)

def Job.start (job : Job κ α) : Gather κ α where
  remaining := job.keys
  fresh := 0
  searching := 0
  pending := ∅
  items := []
  stopped := false
  result := none

/-- The steps of a gather. Only a gather that has not stopped offers keys, and only one that
has stopped drops them.
-/
inductive Step [DecidableEq κ] (job : Job κ α) (gather : Gather κ α) : Gather κ α → Prop
  | offer {key rest} (unfinished : gather.result = none) (going : gather.stopped = false)
    (next : gather.remaining = key :: rest) (few : gather.items.length < job.limit)
    (room : gather.pending.card < job.width) (new : key ∉ gather.pending)
    : Step job gather
        { gather with
          remaining := rest
          fresh := key ::ₘ gather.fresh
          pending := insert key gather.pending }
  | stop (unfinished : gather.result = none) (full : job.limit ≤ gather.items.length)
    : Step job gather { gather with stopped := true, remaining := [] }
  | drop {key} (stopped : gather.stopped = true) (unsearched : key ∈ gather.fresh)
    (pending : key ∈ gather.pending)
    : Step job gather
        { gather with
          fresh := gather.fresh.erase key
          pending := gather.pending.erase key }
  | pick {key} (unsearched : key ∈ gather.fresh)
    : Step job gather
        { gather with
          fresh := gather.fresh.erase key
          searching := key ::ₘ gather.searching }
  | finish {key} (searched : key ∈ gather.searching) (pending : key ∈ gather.pending)
    : Step job gather
        { gather with
          searching := gather.searching.erase key
          pending := gather.pending.erase key
          items := gather.items ++ job.found key }
  | conclude (unfinished : gather.result = none) (exhausted : gather.remaining = [])
    (drained : gather.pending = ∅)
    : Step job gather
        { gather with
          items := gather.items.take job.limit
          result := some (gather.items.take job.limit) }

/-- Where every key is: `completed` in the order of completion, and `dropped`. -/
structure Accounts (job : Job κ α) (gather : Gather κ α) (completed : List κ)
    (dropped : Multiset κ)
    : Prop where
  /-- Each pending key is in flight exactly once. -/
  inFlight : gather.fresh + gather.searching = gather.pending.val
  keys
    : (completed : Multiset κ) + dropped + gather.pending.val + gather.remaining
      = (job.keys : Multiset κ)
  items : gather.result = none → gather.items = completed.flatMap job.found
  going : gather.stopped = false → dropped = 0
  stopped
    : gather.stopped = true
      → gather.remaining = [] ∧ job.limit ≤ (completed.flatMap job.found).length
  width : gather.pending.card ≤ job.width
  result
    : ∀ items, gather.result = some items
        → gather.remaining = []
          ∧ gather.pending = ∅
          ∧ items = (completed.flatMap job.found).take job.limit

/-- Every key is accounted for. -/
def Valid (job : Job κ α) (gather : Gather κ α) : Prop :=
  ∃ completed dropped, Accounts job gather completed dropped

theorem valid_start (job : Job κ α) : Valid job job.start :=
  ⟨[], 0,
    { inFlight := rfl
      keys := by simp [Job.start]
      items := fun _ => rfl
      going := fun _ => rfl
      stopped := fun stopped => by cases stopped
      width := by simp [Job.start]
      result := fun _ result => by cases result }⟩

/-- Erasing a pending key from the keys in flight erases it from the pending keys. -/
theorem erase_inFlight [DecidableEq κ] {keys others : Multiset κ} {pending : Finset κ} {key : κ}
    (inFlight : keys + others = pending.val) (member : key ∈ keys)
    : keys.erase key + others = (pending.erase key).val := by
  rw [Finset.erase_val, ← inFlight, Multiset.erase_add_left_pos _ member]

/-- A pending key and the other pending keys are the pending keys. -/
theorem pending_eq_cons_erase [DecidableEq κ] {pending : Finset κ} {key : κ}
    (member : key ∈ pending)
    : pending.val = {key} + (pending.erase key).val := by
  rw [Finset.erase_val, Multiset.singleton_add, Multiset.cons_erase (by simpa using member)]

/-- A finished gather has no pending keys, so nothing of it can still be pending. -/
theorem Accounts.unfinished {job : Job κ α} {gather : Gather κ α} {completed dropped}
    {key : κ} (accounts : Accounts job gather completed dropped) (member : key ∈ gather.pending)
    : gather.result = none := by
  cases result : gather.result with
  | none => rfl
  | some items =>
      rw [(accounts.result items result).2.1] at member
      exact absurd member (Finset.notMem_empty key)

/-- Every step keeps the accounts: an offer moves a key from the remaining to the pending
ones, a drop and a finish move it on, and stopping drops all that remain.
-/
theorem Valid.step [DecidableEq κ] {job : Job κ α} {before after : Gather κ α}
    (valid : Valid job before) (stepped : Step job before after)
    : Valid job after := by
  obtain ⟨completed, dropped, accounts⟩ := valid
  cases stepped with
  | @offer key rest unfinished going next few room new =>
      refine ⟨completed, dropped, ?_, ?_, accounts.items, accounts.going, ?_, ?_, ?_⟩
      · simp only [Multiset.cons_add, accounts.inFlight, Finset.insert_val_of_notMem new]
      · rw [← accounts.keys, next, Finset.insert_val_of_notMem new]
        simp only [← Multiset.cons_coe, Multiset.add_cons, Multiset.cons_add]
      · intro stopped
        cases going.symm.trans stopped
      · rw [Finset.card_insert_of_notMem new]
        exact room
      · intro items result
        cases unfinished.symm.trans result
  | stop unfinished full =>
      refine ⟨completed, dropped + before.remaining, accounts.inFlight, ?_, accounts.items,
        ?_, ?_, accounts.width, ?_⟩
      · rw [← accounts.keys, Multiset.coe_nil, add_zero, ← add_assoc, add_right_comm]
      · intro going
        cases going
      · intro _
        exact ⟨rfl, accounts.items unfinished ▸ full⟩
      · intro items result
        cases unfinished.symm.trans result
  | @drop key stopped unsearched pending =>
      refine ⟨completed, key ::ₘ dropped, erase_inFlight accounts.inFlight unsearched, ?_,
        accounts.items, ?_, accounts.stopped,
        (Finset.card_le_card (Finset.erase_subset _ _)).trans accounts.width, ?_⟩
      · rw [← accounts.keys, pending_eq_cons_erase pending, Multiset.singleton_add]
        simp only [Multiset.add_cons, Multiset.cons_add]
      · intro going
        cases stopped.symm.trans going
      · intro items result
        cases (accounts.unfinished pending).symm.trans result
  | @pick key unsearched =>
      refine ⟨completed, dropped, ?_, accounts.keys, accounts.items, accounts.going,
        accounts.stopped, accounts.width, accounts.result⟩
      simp only [Multiset.add_cons, ← Multiset.cons_add, Multiset.cons_erase unsearched,
        accounts.inFlight]
  | @finish key searched pending =>
      have unfinished := accounts.unfinished pending
      refine ⟨completed ++ [key], dropped, ?_, ?_, ?_, accounts.going, ?_,
        (Finset.card_le_card (Finset.erase_subset _ _)).trans accounts.width, ?_⟩
      · have swapped := (add_comm _ _).trans accounts.inFlight
        exact (add_comm _ _).trans (erase_inFlight swapped searched)
      · rw [← accounts.keys, pending_eq_cons_erase pending, ← Multiset.coe_add,
          Multiset.coe_singleton]
        simp only [add_assoc, add_left_comm]
      · intro _
        simp [accounts.items unfinished]
      · intro stopped
        obtain ⟨exhausted, enough⟩ := accounts.stopped stopped
        refine ⟨exhausted, ?_⟩
        rw [List.flatMap_append, List.length_append]
        omega
      · intro items result
        cases unfinished.symm.trans result
  | conclude unfinished exhausted drained =>
      refine ⟨completed, dropped, accounts.inFlight, accounts.keys, ?_, accounts.going,
        accounts.stopped, accounts.width, ?_⟩
      · intro impossible
        cases impossible
      · intro items result
        cases result
        exact ⟨exhausted, drained, by rw [accounts.items unfinished]⟩

section Results

variable {job : Job κ α} {gather : Gather κ α}

/-- Keys in flight are pending. -/
theorem Valid.mem_pending {key : κ} (valid : Valid job gather)
    (member : key ∈ gather.fresh + gather.searching)
    : key ∈ gather.pending := by
  obtain ⟨_, _, accounts⟩ := valid
  rwa [accounts.inFlight, Finset.mem_val] at member

/-- Pending keys are keys of the job. -/
theorem Valid.mem_keys {key : κ} (valid : Valid job gather) (member : key ∈ gather.pending)
    : key ∈ job.keys := by
  obtain ⟨_, _, accounts⟩ := valid
  rw [← Multiset.mem_coe, ← accounts.keys]
  simp [member]

/-- The next key to offer is not pending when the job's keys are distinct. -/
theorem Valid.next_notMem {key : κ} {rest : List κ} (valid : Valid job gather)
    (distinct : job.keys.Nodup) (next : gather.remaining = key :: rest)
    : key ∉ gather.pending := by
  obtain ⟨_, _, accounts⟩ := valid
  intro member
  have nodup : (job.keys : Multiset κ).Nodup := distinct
  rw [← accounts.keys, next] at nodup
  have disjoint := (Multiset.nodup_add.mp nodup).2.2
  have elsewhere : key ∉ ((key :: rest : List κ) : Multiset κ) :=
    Multiset.disjoint_left.mp disjoint (by simp [member])
  exact elsewhere (by simp)

/-- While keys remain, the gather has not stopped. -/
theorem Valid.going_of_remaining {key : κ} {rest : List κ} (valid : Valid job gather)
    (next : gather.remaining = key :: rest)
    : gather.stopped = false := by
  obtain ⟨_, _, accounts⟩ := valid
  cases stopped : gather.stopped with
  | false => rfl
  | true =>
      have empty := (accounts.stopped stopped).1
      rw [next] at empty
      cases empty

/-- A stopped gather has no keys left to offer. -/
theorem Valid.remaining_of_stopped (valid : Valid job gather) (stopped : gather.stopped = true)
    : gather.remaining = [] := by
  obtain ⟨_, _, accounts⟩ := valid
  exact (accounts.stopped stopped).1

/-- What is returned is, as a multiset, among what the keys hold, and its length is the limit
or everything there is. Witness: without a stop every key is completed, and after one the
completed keys already hold enough.
-/
theorem Valid.result {items : List α} (valid : Valid job gather)
    (result : gather.result = some items)
    : (items : Multiset α) ≤ (job.keys.flatMap job.found : List α)
      ∧ items.length = min job.limit (job.keys.flatMap job.found).length := by
  obtain ⟨completed, dropped, accounts⟩ := valid
  obtain ⟨exhausted, drained, rfl⟩ := accounts.result items result
  have keys := accounts.keys
  rw [exhausted, drained, Finset.empty_val, Multiset.coe_nil, add_zero, add_zero] at keys
  have bound : ((completed.flatMap job.found : List α) : Multiset α)
      ≤ (job.keys.flatMap job.found : List α) := by
    rw [← Multiset.coe_bind, ← Multiset.coe_bind, ← keys, Multiset.add_bind]
    exact Multiset.le_add_right _ _
  have taken : (((completed.flatMap job.found).take job.limit : List α) : Multiset α)
      ≤ (completed.flatMap job.found : List α) :=
    (List.take_sublist _ _).subperm
  refine ⟨taken.trans bound, ?_⟩
  have lengths : (completed.flatMap job.found).length ≤ (job.keys.flatMap job.found).length := by
    simpa using Multiset.card_le_card bound
  rw [List.length_take]
  cases stopped : gather.stopped with
  | true =>
      have enough := (accounts.stopped stopped).2
      omega
  | false =>
      rw [accounts.going stopped, add_zero, Multiset.coe_eq_coe] at keys
      rw [(keys.flatMap_right job.found).length_eq]

end Results

/-- With one pending key at a time the keys complete in order: first `completed`, then the
pending key, if any, then `later`.
-/
structure InOrder (job : Job κ α) (gather : Gather κ α) (completed later : List κ)
    : Prop where
  width : gather.pending.card ≤ 1
  keys : job.keys = completed ++ gather.pending.toList ++ later
  items : gather.result = none → gather.items = completed.flatMap job.found
  busy : gather.pending ≠ ∅ → (completed.flatMap job.found).length < job.limit
  going : gather.stopped = false → later = gather.remaining
  stopped
    : gather.stopped = true
      → gather.pending = ∅
        ∧ gather.remaining = []
        ∧ job.limit ≤ (completed.flatMap job.found).length
  result
    : ∀ items, gather.result = some items
        → gather.remaining = []
          ∧ gather.pending = ∅
          ∧ items = (completed.flatMap job.found).take job.limit

def Sequential (job : Job κ α) (gather : Gather κ α) : Prop :=
  ∃ completed later, InOrder job gather completed later

theorem sequential_start (job : Job κ α) : Sequential job job.start :=
  ⟨[], job.keys,
    { width := by simp [Job.start]
      keys := by simp [Job.start]
      items := fun _ => rfl
      busy := fun busy => absurd rfl busy
      going := fun _ => rfl
      stopped := fun stopped => by cases stopped
      result := fun _ result => by cases result }⟩

/-- The only pending key, when there is room for one. -/
theorem InOrder.pending_eq {job : Job κ α} {gather : Gather κ α} {completed later} {key : κ}
    (ordered : InOrder job gather completed later) (member : key ∈ gather.pending)
    : gather.pending = {key} :=
  Finset.eq_singleton_iff_unique_mem.mpr
    ⟨member, fun other also => Finset.card_le_one.mp ordered.width other also key member⟩

/-- Every step keeps the order: a key is offered only when none is pending, so a finished
key is the next one in order, and a stop comes when none is pending.
-/
theorem Sequential.step [DecidableEq κ] {job : Job κ α} {before after : Gather κ α}
    (narrow : job.width = 1) (sequential : Sequential job before)
    (stepped : Step job before after)
    : Sequential job after := by
  obtain ⟨completed, later, ordered⟩ := sequential
  cases stepped with
  | @offer key rest unfinished going next few room new =>
      have none : before.pending = ∅ := by
        rw [← Finset.card_eq_zero]
        omega
      have same := ordered.going going
      rw [next] at same
      refine ⟨completed, rest, ?_, ?_, ordered.items, ?_, fun _ => rfl, ?_, ?_⟩
      · simp [none]
      · rw [ordered.keys, none, same]
        simp
      · intro _
        exact ordered.items unfinished ▸ few
      · intro stopped
        cases going.symm.trans stopped
      · intro items result
        cases unfinished.symm.trans result
  | stop unfinished full =>
      have enough : job.limit ≤ (completed.flatMap job.found).length :=
        ordered.items unfinished ▸ full
      have none : before.pending = ∅ := by
        by_contra busy
        have few := ordered.busy busy
        omega
      refine ⟨completed, later, ordered.width, ordered.keys, ordered.items, ordered.busy, ?_,
        ?_, ?_⟩
      · intro going
        cases going
      · intro _
        exact ⟨none, rfl, enough⟩
      · intro items result
        cases unfinished.symm.trans result
  | @drop key stopped unsearched pending =>
      rw [(ordered.stopped stopped).1] at pending
      exact absurd pending (Finset.notMem_empty key)
  | pick unsearched =>
      exact ⟨completed, later, ordered.width, ordered.keys, ordered.items, ordered.busy,
        ordered.going, ordered.stopped, ordered.result⟩
  | @finish key searched pending =>
      have only := ordered.pending_eq pending
      have unstopped : before.stopped ≠ true := by
        intro stopped
        rw [(ordered.stopped stopped).1] at pending
        exact absurd pending (Finset.notMem_empty key)
      have unfinished : before.result = none := by
        cases result : before.result with
        | none => rfl
        | some items =>
            rw [(ordered.result items result).2.1] at pending
            exact absurd pending (Finset.notMem_empty key)
      refine ⟨completed ++ [key], later, ?_, ?_, ?_, ?_, ordered.going, ?_, ?_⟩
      · simp [only]
      · rw [ordered.keys, only]
        simp
      · intro _
        simp [ordered.items unfinished]
      · intro busy
        exact absurd (by simp [only]) busy
      · intro stopped
        exact absurd stopped unstopped
      · intro items result
        cases unfinished.symm.trans result
  | conclude unfinished exhausted drained =>
      refine ⟨completed, later, ordered.width, ordered.keys, ?_, ordered.busy, ordered.going,
        ordered.stopped, ?_⟩
      · intro impossible
        cases impossible
      · intro items result
        cases result
        exact ⟨exhausted, drained, by rw [ordered.items unfinished]⟩

/-- One key at a time, the result is a prefix of what the keys hold in order. Witness: the
keys after the completed ones are either none or not needed.
-/
theorem Sequential.result {job : Job κ α} {gather : Gather κ α} {items : List α}
    (sequential : Sequential job gather) (result : gather.result = some items)
    : items = (job.keys.flatMap job.found).take job.limit := by
  obtain ⟨completed, later, ordered⟩ := sequential
  obtain ⟨exhausted, drained, rfl⟩ := ordered.result items result
  have keys := ordered.keys
  rw [drained, Finset.toList_empty, List.append_nil] at keys
  cases stopped : gather.stopped with
  | false =>
      rw [keys, ordered.going stopped, exhausted, List.append_nil]
  | true =>
      rw [keys, List.flatMap_append, List.take_append_of_le_length (ordered.stopped stopped).2.2]

end Gathering
