import PplMe.Foundation.Gathering

/-! The orders in which the keys of a gather can be completed.
Offered keys wait in a line, and a few servers take them from its front. A server is busy with its
key until the key is completed, so it is one of the first few that are left.
-/

namespace Gathering

variable {κ α : Type*}

/-- Keys are completed one after the other, each of them one of the first few that are left. -/
inductive Settles (reach : Nat) (keys : List κ) : List κ → List κ → Prop
  | start : Settles reach keys [] keys
  | next {done before key after} (earlier : Settles reach keys done (before ++ key :: after))
    (near : before.length < reach)
    : Settles reach keys (done ++ [key]) (before ++ after)

namespace Settles

variable {reach : Nat} {keys done left : List κ}

/-- No key is lost, by induction over the completions. -/
theorem perm (settles : Settles reach keys done left) : (done ++ left).Perm keys := by
  induction settles with
  | start => exact .refl _
  | @next done before key after _ _ ih =>
      refine List.Perm.trans ?_ ih
      rw [List.append_assoc, List.singleton_append]
      exact (List.perm_middle.symm).append_left done

/-- Those that are left are in the order in which they came, by induction over the completions. -/
theorem sublist (settles : Settles reach keys done left) : left.Sublist keys := by
  induction settles with
  | start => exact .refl _
  | next _ _ ih => exact ((List.sublist_cons_self _ _).append_left _).trans ih

/-- All that are left can be completed as they come, by induction on them. -/
theorem exhaust (settles : Settles reach keys done left) (positive : 0 < reach)
    : Settles reach keys (done ++ left) [] := by
  induction left generalizing done with
  | nil => rwa [List.append_nil]
  | cons key rest ih =>
      rw [List.append_cons]
      exact ih (@Settles.next _ _ _ _ [] _ _ settles positive)

/-- An order breaks off where what is complete holds enough, but not before. -/
theorem cut (settles : Settles reach keys done left) (found : κ → List α) (limit : Nat)
    : ∃ first rest,
        Settles reach keys first rest
        ∧ (∀ earlier, earlier <+: first → earlier ≠ first
          → (earlier.flatMap found).length < limit)
        ∧ (first = done ∧ rest = left
          ∨ first <+: done ∧ limit ≤ (first.flatMap found).length) := by
  induction settles with
  | start =>
      refine ⟨[], keys, .start, fun earlier early different => ?_, .inl ⟨rfl, rfl⟩⟩
      exact absurd (List.prefix_nil.mp early) different
  | @next done before key after settles near ih =>
      obtain ⟨first, rest, settlesFirst, few, ⟨rfl, rfl⟩ | ⟨early, enough⟩⟩ := ih
      · by_cases enough : limit ≤ (first.flatMap found).length
        · exact ⟨_, _, settlesFirst, few, .inr ⟨List.prefix_append _ _, enough⟩⟩
        · refine ⟨_, _, settlesFirst.next near, fun earlier early different => ?_,
            .inl ⟨rfl, rfl⟩⟩
          rcases List.prefix_concat_iff.mp early with same | early
          · exact absurd same different
          · by_cases same : earlier = first
            · exact same ▸ Nat.lt_of_not_le enough
            · exact few earlier early same
      · exact ⟨_, _, settlesFirst, few, .inr ⟨early.trans (List.prefix_append _ _), enough⟩⟩

end Settles

/-- Where the first items are enough, more make no difference. -/
theorem take_of_start {first items : List α} {limit : Nat} (early : first <+: items)
    (enough : limit ≤ first.length)
    : items.take limit = first.take limit := by
  obtain ⟨rest, rfl⟩ := early
  exact List.take_append_of_le_length enough

-----------------------------------------------------------------------------------------
-- Gathers with a line
-----------------------------------------------------------------------------------------

/-- A gather, and the offered keys that no server has taken yet. -/
structure Lined (κ α : Type*) where
  gather : Gather κ α
  line : List κ

/-- A key that is offered goes to the end of the line, and one that is taken leaves its front. As
for all other steps, no more keys are taken than there are servers.
-/
inductive LinedStep [DecidableEq κ] (job : Job κ α) (servers : Nat) (lined : Lined κ α)
    : Lined κ α → Prop
  | offer {key rest} (unfinished : lined.gather.result = none)
    (going : lined.gather.stopped = false) (next : lined.gather.remaining = key :: rest)
    (new : key ∉ lined.gather.pending)
    : LinedStep job servers lined
        ⟨{ lined.gather with
            remaining := rest
            fresh := key ::ₘ lined.gather.fresh
            pending := insert key lined.gather.pending },
          lined.line ++ [key]⟩
  | take {key rest} (front : lined.line = key :: rest)
    : LinedStep job servers lined ⟨lined.gather, rest⟩
  | other {after} (stepped : Step job lined.gather after)
    (unoffered : after.pending ⊆ lined.gather.pending)
    (taken : ∀ key ∈ lined.gather.searching, key ∉ lined.line)
    (room : lined.gather.pending.card ≤ job.width)
    (manned : lined.gather.pending.card ≤ lined.line.length + servers)
    : LinedStep job servers lined ⟨after, lined.line⟩

/-- How far from the first key that is left the next one to complete may be. -/
def Job.reach (job : Job κ α) (servers : Nat) : Nat := min job.width servers

/-- Before a stop: `done` keys in the order of their completion, and keys `held` by servers. -/
structure Serving (job : Job κ α) (servers : Nat) (lined : Lined κ α) (done held : List κ)
    : Prop where
  settles
    : Settles (job.reach servers) job.keys done
        (held ++ lined.line ++ lined.gather.remaining)
  pending : ((held ++ lined.line : List κ) : Multiset κ) = lined.gather.pending.val
  items : lined.gather.items = done.flatMap job.found

/-- After it: what was complete at the stop has enough items, and later ones come after these. -/
structure Served (job : Job κ α) (servers : Nat) (lined : Lined κ α) (done left : List κ)
    : Prop where
  settles : Settles (job.reach servers) job.keys done left
  enough : job.limit ≤ (done.flatMap job.found).length
  items : done.flatMap job.found <+: lined.gather.items

/-- What is gathered is what the keys hold in one of their orders. -/
structure Orderly (job : Job κ α) (servers : Nat) (lined : Lined κ α) : Prop where
  serving
    : lined.gather.result = none
      → lined.gather.stopped = false
      → ∃ done held, Serving job servers lined done held
  served
    : lined.gather.result = none
      → lined.gather.stopped = true
      → ∃ done left, Served job servers lined done left
  result
    : ∀ items, lined.gather.result = some items
        → ∃ order, Settles (job.reach servers) job.keys order []
          ∧ items = (order.flatMap job.found).take job.limit

theorem orderly_start (job : Job κ α) (servers : Nat) : Orderly job servers ⟨job.start, []⟩ where
  serving _ _ := ⟨[], [], .start, rfl, rfl⟩
  served _ stopped := by cases stopped
  result _ result := by cases result

section Steps

variable [DecidableEq κ] {job : Job κ α} {servers : Nat} {lined : Lined κ α}

/-- A key that a server completes is near enough: all that are before it are with servers, too. -/
theorem Serving.finish {done held : List κ} {key : κ}
    (serving : Serving job servers lined done held)
    (untaken : key ∉ lined.line) (pending : key ∈ lined.gather.pending)
    (room : lined.gather.pending.card ≤ job.width)
    (manned : lined.gather.pending.card ≤ lined.line.length + servers)
    : ∃ others,
        Serving job servers
          ⟨{ lined.gather with
              searching := lined.gather.searching.erase key
              pending := lined.gather.pending.erase key
              items := lined.gather.items ++ job.found key },
            lined.line⟩
          (done ++ [key]) others := by
  have among : key ∈ held ++ lined.line := by
    rw [← Multiset.mem_coe, serving.pending]
    exact pending
  obtain ⟨before, after, rfl⟩ :=
    List.append_of_mem ((List.mem_append.mp among).resolve_right untaken)
  have count := congrArg Multiset.card serving.pending
  simp only [Multiset.coe_card, List.length_append, List.length_cons, Finset.card_val] at count
  refine ⟨before ++ after, ?_, ?_, ?_⟩
  · have settles := serving.settles
    simp only [List.append_assoc, List.cons_append] at settles ⊢
    exact settles.next (lt_min (by omega) (by omega))
  · have erased := congrArg (Multiset.erase · key) serving.pending
    simp only [Multiset.coe_erase] at erased
    rw [← Finset.erase_val] at erased
    rw [← erased, Multiset.coe_eq_coe]
    have front
        : (before ++ key :: after ++ lined.line).Perm (key :: (before ++ after ++ lined.line)) := by
      simp only [List.append_assoc, List.cons_append]
      exact List.perm_middle
    exact (List.cons_perm_iff_perm_erase.mp front.symm).2
  · rw [List.flatMap_append, List.flatMap_singleton, ← serving.items]

omit [DecidableEq κ] in
/-- As long as no items are lost, what was complete at the stop stays enough. -/
theorem Orderly.stillServed {after : Lined κ α} (orderly : Orderly job servers lined)
    (unfinished : lined.gather.result = none) (stopped : lined.gather.stopped = true)
    (kept : lined.gather.items <+: after.gather.items)
    : ∃ done left, Served job servers after done left := by
  obtain ⟨done, left, served⟩ := orderly.served unfinished stopped
  exact ⟨done, left, served.settles, served.enough, served.items.trans kept⟩

/-- Every step keeps the gather orderly. -/
theorem Orderly.step {after : Lined κ α} (positive : 0 < job.reach servers)
    (orderly : Orderly job servers lined) (stepped : LinedStep job servers lined after)
    : Orderly job servers after := by
  cases stepped with
  | @offer key rest unfinished going next new =>
      refine ⟨fun _ _ => ?_, fun _ stopped => ?_, fun items result => ?_⟩
      · obtain ⟨done, held, serving⟩ := orderly.serving unfinished going
        refine ⟨done, held, ?_, ?_, serving.items⟩
        · have settles := serving.settles
          rw [next] at settles
          simpa only [List.append_assoc, List.singleton_append] using settles
        · rw [← List.append_assoc, ← Multiset.coe_add, serving.pending,
            Finset.insert_val_of_notMem new, Multiset.coe_singleton, Multiset.add_comm,
            Multiset.singleton_add]
      · cases going.symm.trans stopped
      · cases unfinished.symm.trans result
  | @take key rest front =>
      refine ⟨fun unfinished going => ?_, fun unfinished stopped => ?_, orderly.result⟩
      · obtain ⟨done, held, serving⟩ := orderly.serving unfinished going
        have settles := serving.settles
        have pending := serving.pending
        rw [front] at settles pending
        refine ⟨done, held ++ [key], ?_, ?_, serving.items⟩
        · simpa only [List.append_assoc, List.singleton_append] using settles
        · simpa only [List.append_assoc, List.singleton_append] using pending
      · exact orderly.stillServed unfinished stopped (List.prefix_refl _)
  | other stepped unoffered taken room manned =>
      cases stepped with
      | @offer key rest _ _ _ _ _ new =>
          exact absurd (unoffered (Finset.mem_insert_self key _)) new
      | stop unfinished full =>
          refine ⟨fun _ going => ?_, fun _ _ => ?_, orderly.result⟩
          · cases going
          · cases stopped : lined.gather.stopped with
            | false =>
                obtain ⟨done, held, serving⟩ := orderly.serving unfinished stopped
                exact ⟨done, _, serving.settles, serving.items ▸ full,
                  serving.items ▸ List.prefix_refl _⟩
            | true =>
                exact orderly.stillServed unfinished stopped (List.prefix_refl _)
      | drop stopped _ _ =>
          refine ⟨fun _ going => ?_, fun unfinished _ => ?_, orderly.result⟩
          · cases stopped.symm.trans going
          · exact orderly.stillServed unfinished stopped (List.prefix_refl _)
      | pick _ =>
          refine ⟨fun unfinished going => ?_, fun unfinished stopped => ?_, orderly.result⟩
          · obtain ⟨done, held, serving⟩ := orderly.serving unfinished going
            exact ⟨done, held, serving.settles, serving.pending, serving.items⟩
          · exact orderly.stillServed unfinished stopped (List.prefix_refl _)
      | @finish key searched pending =>
          refine ⟨fun unfinished going => ?_, fun unfinished stopped => ?_, orderly.result⟩
          · obtain ⟨done, held, serving⟩ := orderly.serving unfinished going
            exact ⟨_, serving.finish (taken key searched) pending room manned⟩
          · exact orderly.stillServed unfinished stopped (List.prefix_append _ _)
      | conclude unfinished exhausted drained =>
          refine ⟨fun impossible => ?_, fun impossible => ?_, fun items result => ?_⟩
          · cases impossible
          · cases impossible
          · cases result
            cases stopped : lined.gather.stopped with
            | false =>
                obtain ⟨done, held, serving⟩ := orderly.serving unfinished stopped
                have none : held ++ lined.line = [] := by
                  have pending := serving.pending
                  rwa [drained, Finset.empty_val, Multiset.coe_eq_zero] at pending
                have settles := serving.settles
                rw [none, exhausted, List.append_nil] at settles
                exact ⟨done, settles, by rw [serving.items]⟩
            | true =>
                obtain ⟨done, left, served⟩ := orderly.served unfinished stopped
                refine ⟨_, served.settles.exhaust positive, ?_⟩
                rw [take_of_start served.items served.enough, List.flatMap_append,
                  List.take_append_of_le_length served.enough]

end Steps

end Gathering
