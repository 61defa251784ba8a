import Mathlib.Data.Multiset.AddSub
import Mathlib.Data.Multiset.Bind
import Mathlib.Data.Int.Basic

/-! Keys handed out to be searched elsewhere, and somebody who listens for a while.
A count of the keys handed out and not yet back tells when there is nothing left to wait for.
What is brought back while somebody listens is kept in the order of its return, and what is
brought back later is thrown away.
-/

namespace Rendezvous

variable {κ α : Type*}

/-- The keys in the order in which they are handed out, what is there before any of them, and
what each of them holds.
-/
structure Job (κ α : Type*) where
  keys : List κ
  first : List α
  found : κ → List α

@[ext] structure Gather (κ α : Type*) where
  remaining : List κ
  /-- Keys handed out and not yet back. -/
  outstanding : Multiset κ
  pending : Int
  items : List α
  listening : Bool

def Job.start (job : Job κ α) : Gather κ α where
  remaining := job.keys
  outstanding := 0
  pending := 0
  items := job.first
  listening := true

/-- The steps of a gather. Keys are handed out one by one and come back in any order, and the
listening ends after all of them have been handed out.
-/
inductive Step [DecidableEq κ] (job : Job κ α) (gather : Gather κ α) : Gather κ α → Prop
  | post {key rest} (next : gather.remaining = key :: rest)
    : Step job gather
        { gather with
          remaining := rest
          outstanding := key ::ₘ gather.outstanding
          pending := gather.pending + 1 }
  | deliver {key} (out : key ∈ gather.outstanding) (listening : gather.listening = true)
    : Step job gather
        { gather with
          outstanding := gather.outstanding.erase key
          pending := gather.pending - 1
          items := gather.items ++ job.found key }
  | miss {key} (out : key ∈ gather.outstanding) (deaf : gather.listening = false)
    : Step job gather
        { gather with
          outstanding := gather.outstanding.erase key
          pending := gather.pending - 1 }
  | close (exhausted : gather.remaining = [])
    : Step job gather { gather with listening := false }

/-- Where every key is: `delivered` in the order of return, and `missed`. -/
structure Accounts (job : Job κ α) (gather : Gather κ α) (delivered : List κ)
    (missed : Multiset κ)
    : Prop where
  keys
    : (delivered : Multiset κ) + missed + gather.outstanding + gather.remaining
      = (job.keys : Multiset κ)
  items : gather.items = job.first ++ delivered.flatMap job.found
  pending : gather.pending = gather.outstanding.card
  listening : gather.listening = true → missed = 0
  closed : gather.listening = false → gather.remaining = []

/-- Every key is accounted for. -/
def Valid (job : Job κ α) (gather : Gather κ α) : Prop :=
  ∃ delivered missed, Accounts job gather delivered missed

/-- Nothing was missed, and the listening went on until everything was back. -/
def Complete (job : Job κ α) (gather : Gather κ α) : Prop :=
  ∃ delivered,
    Accounts job gather delivered 0 ∧ (gather.listening = false → gather.outstanding = 0)

theorem complete_start (job : Job κ α) : Complete job job.start :=
  ⟨[],
    { keys := by simp [Job.start]
      items := (List.append_nil _).symm
      pending := rfl
      listening := fun _ => rfl
      closed := fun closed => by cases closed },
    fun closed => by cases closed⟩

theorem valid_start (job : Job κ α) : Valid job job.start :=
  ⟨_, _, (complete_start job).choose_spec.1⟩

/-- Nothing is out while all keys remain. -/
theorem Valid.outstanding_eq_zero {job : Job κ α} {gather : Gather κ α} (valid : Valid job gather)
    (untouched : gather.remaining = job.keys)
    : gather.outstanding = 0 := by
  obtain ⟨delivered, missed, accounts⟩ := valid
  have sizes := congrArg Multiset.card accounts.keys
  rw [untouched, Multiset.card_add, Multiset.card_add] at sizes
  exact Multiset.card_eq_zero.mp (by omega)

section Steps

variable [DecidableEq κ] {job : Job κ α} {before after : Gather κ α} {delivered : List κ}
  {missed : Multiset κ}

/-- The accounts after a step: a delivered key is added at the end, and a missed one to the
missed ones. Nothing is missed by a listener, or when nothing is out.
-/
theorem Accounts.step (accounts : Accounts job before delivered missed)
    (stepped : Step job before after)
    : ∃ deliveredAfter missedAfter,
        Accounts job after deliveredAfter missedAfter
        ∧ (before.listening = true ∨ before.outstanding = 0 → missedAfter = missed) := by
  -- A key that comes back leaves the outstanding ones, and the count follows.
  have back {key : κ} (out : key ∈ before.outstanding)
      : {key} + before.outstanding.erase key = before.outstanding
        ∧ before.pending - 1 = (before.outstanding.erase key).card := by
    have whole : {key} + before.outstanding.erase key = before.outstanding := by
      rw [Multiset.singleton_add, Multiset.cons_erase out]
    refine ⟨whole, ?_⟩
    have size := congrArg Multiset.card whole
    rw [Multiset.card_add, Multiset.card_singleton] at size
    rw [accounts.pending]
    omega
  cases stepped with
  | @post key rest next =>
      refine ⟨delivered, missed, ⟨?_, accounts.items, ?_, accounts.listening, ?_⟩, fun _ => rfl⟩
      · rw [← accounts.keys, next, ← Multiset.cons_coe, Multiset.add_cons, Multiset.add_cons,
          Multiset.cons_add]
      · simp [accounts.pending]
      · intro closed
        cases next.symm.trans (accounts.closed closed)
  | @deliver key out listening =>
      obtain ⟨whole, count⟩ := back out
      refine ⟨delivered ++ [key], missed, ⟨?_, ?_, count, accounts.listening, accounts.closed⟩,
        fun _ => rfl⟩
      · calc ((delivered ++ [key] : List κ) : Multiset κ) + missed
              + before.outstanding.erase key + before.remaining
            = delivered + missed + ({key} + before.outstanding.erase key)
              + before.remaining := by
                rw [← Multiset.coe_add, Multiset.coe_singleton]
                ac_rfl
          _ = job.keys := by rw [whole, accounts.keys]
      · simp [accounts.items]
  | @miss key out deaf =>
      obtain ⟨whole, count⟩ := back out
      refine ⟨delivered, {key} + missed, ⟨?_, accounts.items, count, ?_, accounts.closed⟩, ?_⟩
      · calc (delivered : Multiset κ) + ({key} + missed) + before.outstanding.erase key
              + before.remaining
            = delivered + missed + ({key} + before.outstanding.erase key)
              + before.remaining := by ac_rfl
          _ = job.keys := by rw [whole, accounts.keys]
      · intro listening
        cases deaf.symm.trans listening
      · rintro (listening | empty)
        · cases deaf.symm.trans listening
        · rw [empty] at out
          exact absurd out (Multiset.notMem_zero key)
  | close exhausted =>
      refine ⟨delivered, missed,
        ⟨accounts.keys, accounts.items, accounts.pending, ?_, fun _ => exhausted⟩, fun _ => rfl⟩
      intro listening
      cases listening

/-- Every step keeps the accounts. -/
theorem Valid.step (valid : Valid job before) (stepped : Step job before after)
    : Valid job after := by
  obtain ⟨delivered, missed, accounts⟩ := valid
  obtain ⟨deliveredAfter, missedAfter, holds, _⟩ := accounts.step stepped
  exact ⟨deliveredAfter, missedAfter, holds⟩

/-- The listening does not begin again. -/
theorem Step.stays_deaf (stepped : Step job before after) (deaf : before.listening = false)
    : after.listening = false := by
  cases stepped with
  | close exhausted => rfl
  | _ => exact deaf

/-- Where nobody listens any more, or there is nothing to listen for, the items stay. -/
theorem Step.items_of_settled (stepped : Step job before after) (valid : Valid job before)
    (settled : before.listening = false ∨ job.keys = [])
    : after.items = before.items := by
  cases stepped with
  | @deliver key out listening =>
      rcases settled with deaf | none
      · cases deaf.symm.trans listening
      · obtain ⟨delivered, missed, accounts⟩ := valid
        have sizes := congrArg Multiset.card accounts.keys
        have held := Multiset.card_pos_iff_exists_mem.mpr ⟨key, out⟩
        rw [none, Multiset.card_add, Multiset.card_add, Multiset.coe_nil,
          Multiset.card_zero] at sizes
        omega
  | _ => rfl

/-- A gather that is complete stays so if its listening ends only when none is pending. -/
theorem Complete.step (complete : Complete job before) (stepped : Step job before after)
    (prompt : before.listening = true → after.listening = false → before.pending = 0)
    : Complete job after := by
  obtain ⟨delivered, accounts, drained⟩ := complete
  obtain ⟨deliveredAfter, missedAfter, holds, kept⟩ := accounts.step stepped
  have attentive : before.listening = true ∨ before.outstanding = 0 := by
    cases listens : before.listening with
    | true => exact Or.inl rfl
    | false => exact Or.inr (drained listens)
  refine ⟨deliveredAfter, kept attentive ▸ holds, fun closed => ?_⟩
  cases stepped with
  | post next => cases next.symm.trans (accounts.closed closed)
  | deliver out listening => cases closed.symm.trans listening
  | @miss key out deaf =>
      rw [drained closed] at out
      exact absurd out (Multiset.notMem_zero key)
  | close exhausted =>
      rcases attentive with listening | empty
      · have none := prompt listening rfl
        rw [accounts.pending] at none
        exact Multiset.card_eq_zero.mp (by exact_mod_cast none)
      · exact empty

end Steps

/-- The items are those of some of the keys, none of which is used more often than it occurs. -/
theorem Valid.items {job : Job κ α} {gather : Gather κ α} (valid : Valid job gather)
    : ∃ delivered : List κ,
        delivered.Subperm job.keys ∧ gather.items = job.first ++ delivered.flatMap job.found := by
  obtain ⟨delivered, missed, accounts⟩ := valid
  refine ⟨delivered, Multiset.coe_le.mp ?_, accounts.items⟩
  rw [← accounts.keys, add_assoc, add_assoc]
  exact Multiset.le_add_right _ _

/-- A complete gather whose listening has ended, or that had no keys, has the items of all keys,
each key once, in the order of their return.
-/
theorem Complete.items {job : Job κ α} {gather : Gather κ α} (complete : Complete job gather)
    (settled : gather.listening = false ∨ job.keys = [])
    : ∃ delivered : List κ,
        delivered.Perm job.keys ∧ gather.items = job.first ++ delivered.flatMap job.found := by
  obtain ⟨delivered, accounts, drained⟩ := complete
  have keys := accounts.keys
  refine ⟨delivered, ?_, accounts.items⟩
  rcases settled with closed | none
  · rw [drained closed, accounts.closed closed, add_zero, add_zero, Multiset.coe_nil,
      add_zero] at keys
    exact Multiset.coe_eq_coe.mp keys
  · have sizes := congrArg Multiset.card keys
    rw [none, Multiset.card_add, Multiset.card_add, Multiset.card_add, Multiset.coe_nil,
      Multiset.card_zero, Multiset.coe_card] at sizes
    have empty : delivered = [] := List.eq_nil_of_length_eq_zero (by omega)
    rw [none, empty]

end Rendezvous
