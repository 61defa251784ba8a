import Mathlib.Data.List.Sort
import Mathlib.Data.List.TakeWhile
import Mathlib.Order.Basic

/-! Binary search, insertion and window walks over lists kept in order of a key.
The search halves the range as a standard library does; its result is the partition point
only where the predicate really is partitioned, which is what the ordering is for.
-/

namespace OrderedLists

variable {α : Type*}

/-- Narrow `[first, first + len)` to the first index whose item fails the predicate. The
fuel bounds the halvings; a range of `len` items never needs more than `len` of them.
-/
def search (before : α → Bool) (items : List α) : Nat → Nat → Nat → Nat
  | 0, first, _ => first
  | fuel + 1, first, len =>
      if len = 0 then
        first
      else
        let half := len / 2
        if (items[first + half]?).any before then
          search before items fuel (first + half + 1) (len - half - 1)
        else
          search before items fuel first half

/-- The index at which items stop satisfying the predicate. -/
def partitionPoint (before : α → Bool) (items : List α) : Nat :=
  search before items items.length 0 items.length

/-- The predicate holds exactly on the items below the cut. -/
def PartitionedAt (before : α → Bool) (items : List α) (cut : Nat) : Prop :=
  cut ≤ items.length
  ∧ ∀ index (inside : index < items.length), before items[index] = true ↔ index < cut

/-- Halving keeps the cut inside its range, so enough fuel ends exactly at the cut;
witness: induction on fuel, one case for each half.
-/
theorem search_eq_cut {before : α → Bool} {items : List α} {cut : Nat}
    (partitioned : PartitionedAt before items cut) (fuel first len : Nat)
    (enough : len ≤ fuel) (low : first ≤ cut) (high : cut ≤ first + len)
    (inside : first + len ≤ items.length)
    : search before items fuel first len = cut := by
  induction fuel generalizing first len with
  | zero =>
      simp only [search]
      omega
  | succ fuel ih =>
      simp only [search]
      split
      · omega
      · rename_i nonempty
        have middle : first + len / 2 < items.length := by omega
        have cutSide := partitioned.2 (first + len / 2) middle
        rw [List.getElem?_eq_getElem middle, Option.any_some]
        by_cases below : before items[first + len / 2] = true
        · rw [if_pos below]
          have := cutSide.mp below
          exact ih _ _ (by omega) (by omega) (by omega) (by omega)
        · rw [if_neg below]
          have : ¬ first + len / 2 < cut := fun lower => below (cutSide.mpr lower)
          exact ih _ _ (by omega) (by omega) (by omega) (by omega)

/-- On a partitioned list the search finds the cut. -/
theorem partitionPoint_eq_cut {before : α → Bool} {items : List α} {cut : Nat}
    (partitioned : PartitionedAt before items cut)
    : partitionPoint before items = cut :=
  search_eq_cut partitioned _ _ _ (Nat.le_refl _) (Nat.zero_le _)
    (by simpa using partitioned.1) (by simp)

/-- A predicate that only earlier items can satisfy is partitioned at the end of the
longest satisfying front; witness: list induction.
-/
theorem partitionedAt_takeWhile {before : α → Bool} {items : List α}
    (downward : items.Pairwise (fun left right => before right → before left))
    : PartitionedAt before items (items.takeWhile before).length := by
  induction items with
  | nil => simp [PartitionedAt]
  | cons head tail ih =>
      obtain ⟨first, rest⟩ := List.pairwise_cons.mp downward
      obtain ⟨bound, cut⟩ := ih rest
      by_cases holds : before head = true
      · rw [List.takeWhile_cons_of_pos holds]
        refine ⟨by simpa using bound, ?_⟩
        rintro (_ | index) inside
        · simpa using holds
        · simpa using cut index (by simpa using inside)
      · rw [List.takeWhile_cons_of_neg holds]
        refine ⟨Nat.zero_le _, ?_⟩
        rintro (_ | index) inside
        · simpa using holds
        · have within : index < tail.length := by simpa using inside
          have later : ¬ before tail[index] = true :=
            fun yes => holds (first _ (List.getElem_mem within) yes)
          simpa using later

/-- Dropping up to the partition point leaves what follows the satisfying front. -/
theorem drop_partitionPoint {before : α → Bool} {items : List α}
    (downward : items.Pairwise (fun left right => before right → before left))
    : items.drop (partitionPoint before items) = items.dropWhile before := by
  rw [partitionPoint_eq_cut (partitionedAt_takeWhile downward)]
  have dropped := @List.drop_left _ (items.takeWhile before) (items.dropWhile before)
  rwa [List.takeWhile_append_dropWhile] at dropped

/-- Taking up to the partition point gives the satisfying front. -/
theorem take_partitionPoint {before : α → Bool} {items : List α}
    (downward : items.Pairwise (fun left right => before right → before left))
    : items.take (partitionPoint before items) = items.takeWhile before := by
  rw [partitionPoint_eq_cut (partitionedAt_takeWhile downward)]
  have taken := @List.take_left _ (items.takeWhile before) (items.dropWhile before)
  rwa [List.takeWhile_append_dropWhile] at taken

section Keyed

variable {κ : Type*} [LinearOrder κ] (key : α → κ)

/-- The items stand in non-decreasing order of their keys. -/
def InOrder (items : List α) : Prop := items.Pairwise (fun left right => key left ≤ key right)

/-- First position whose item is not before the bound. -/
def lowerBound (bound : κ) (items : List α) : Nat :=
  partitionPoint (fun item => decide (key item < bound)) items

/-- First position whose item is after the given one. -/
def upperBound (item : α) (items : List α) : Nat :=
  partitionPoint (fun other => !decide (key item < key other)) items

/-- Insert after every item whose key is not greater. -/
def insertUpper (item : α) (items : List α) : List α :=
  items.take (upperBound key item items) ++ item :: items.drop (upperBound key item items)

/-- Walk from the lower bound while keys stay within the upper end. -/
def walkWindow (earliest latest : κ) (items : List α) : List α :=
  (items.drop (lowerBound key earliest items)).takeWhile (fun item => decide (key item ≤ latest))

variable {key}

/-- Being before a bound is inherited by earlier items of an ordered list. -/
theorem InOrder.lower {items : List α} (ordered : InOrder key items) (bound : κ)
    : items.Pairwise (fun left right =>
        (decide (key right < bound) : Bool) → (decide (key left < bound) : Bool)) := by
  refine ordered.imp ?_
  intro left right le below
  simpa using lt_of_le_of_lt le (by simpa using below)

/-- Not being after an item is inherited by earlier items of an ordered list. -/
theorem InOrder.upper {items : List α} (ordered : InOrder key items) (item : α)
    : items.Pairwise (fun left right =>
        (!decide (key item < key right) : Bool) → (!decide (key item < key left) : Bool)) := by
  refine ordered.imp ?_
  intro left right le notAfter
  simpa using le_trans le (by simpa using notAfter)

/-- Insertion adds exactly the inserted item. -/
theorem insertUpper_perm (item : α) (items : List α)
    : (insertUpper key item items).Perm (item :: items) := by
  have split := List.take_append_drop (upperBound key item items) items
  calc insertUpper key item items
      = items.take (upperBound key item items)
          ++ item :: items.drop (upperBound key item items) := rfl
    _ |>.Perm (item :: (items.take (upperBound key item items)
          ++ items.drop (upperBound key item items))) := List.perm_middle
    _ |>.Perm (item :: items) := by rw [split]

/-- On an ordered list the insertion stands between the items not after it and the rest. -/
theorem insertUpper_eq {item : α} {items : List α} (ordered : InOrder key items)
    : insertUpper key item items
      = items.takeWhile (fun other => !decide (key item < key other))
        ++ item :: items.dropWhile (fun other => !decide (key item < key other)) := by
  rw [insertUpper, upperBound, take_partitionPoint (ordered.upper item),
    drop_partitionPoint (ordered.upper item)]

/-- Everything past a satisfying front of an ordered list is after the item. -/
theorem InOrder.after_of_mem_dropWhile {item other : α} {items : List α}
    (ordered : InOrder key items)
    (member : other ∈ items.dropWhile (fun other => !decide (key item < key other)))
    : key item < key other := by
  induction items with
  | nil => cases member
  | cons head tail ih =>
      obtain ⟨first, rest⟩ := List.pairwise_cons.mp ordered
      by_cases after : key item < key head
      · rw [List.dropWhile_cons_of_neg (by simpa using after)] at member
        rcases List.mem_cons.mp member with same | later
        · exact same ▸ after
        · exact lt_of_lt_of_le after (first _ later)
      · rw [List.dropWhile_cons_of_pos (by simpa using after)] at member
        exact ih rest member

/-- Insertion keeps the order; witness: the front is not after the item, the rest is. -/
theorem InOrder.insertUpper {item : α} {items : List α} (ordered : InOrder key items)
    : InOrder key (insertUpper key item items) := by
  rw [insertUpper_eq ordered]
  have whole := List.takeWhile_append_dropWhile
    (p := fun other => !decide (key item < key other)) (l := items)
  have parts := ordered
  rw [InOrder, ← whole, List.pairwise_append] at parts
  obtain ⟨front, back, cross⟩ := parts
  refine List.pairwise_append.mpr ⟨front, List.pairwise_cons.mpr ⟨?_, back⟩, ?_⟩
  · intro other member
    exact le_of_lt (ordered.after_of_mem_dropWhile member)
  · intro left leftMember right rightMember
    rcases List.mem_cons.mp rightMember with same | later
    · have notAfter := List.mem_takeWhile_imp leftMember
      simpa [same] using notAfter
    · exact cross left leftMember right later

/-- An inserted item stands behind all others with its key, and moves no two of these. -/
theorem InOrder.filter_key_insertUpper {item : α} {items : List α} {value : κ}
    {selected : α → Bool} (ordered : InOrder key items)
    (selects : ∀ other, selected other = true ↔ key other = value)
    : (OrderedLists.insertUpper key item items).filter selected
      = (items ++ [item]).filter selected := by
  have whole := List.takeWhile_append_dropWhile
    (p := fun other => !decide (key item < key other)) (l := items)
  have front := congrArg (List.filter selected) whole
  rw [List.filter_append] at front
  rw [insertUpper_eq ordered, List.filter_append, List.filter_append, List.filter_cons]
  by_cases same : selected item = true
  · have behind : (items.dropWhile (fun other => !decide (key item < key other))).filter selected
        = [] := by
      refine List.filter_eq_nil_iff.mpr (fun other member isSelected => ?_)
      have after := ordered.after_of_mem_dropWhile member
      rw [(selects item).mp same, (selects other).mp isSelected] at after
      exact lt_irrefl _ after
    rw [behind, List.append_nil] at front
    rw [behind, front]
    simp [same]
  · simp [same, front]

/-- A walk over the part of an ordered list from the lower bound on keeps exactly the items
in the window, in order; witness: list induction, the walk's early end dropping only items
past the upper end.
-/
theorem walkWindow_eq_filter {earliest latest : κ} {items : List α}
    (ordered : InOrder key items)
    : walkWindow key earliest latest items
      = items.filter (fun item => decide (earliest ≤ key item ∧ key item ≤ latest)) := by
  rw [walkWindow, lowerBound, drop_partitionPoint (ordered.lower earliest)]
  induction items with
  | nil => rfl
  | cons head tail ih =>
      obtain ⟨first, rest⟩ := List.pairwise_cons.mp ordered
      by_cases early : key head < earliest
      · have outside : ¬ (earliest ≤ key head ∧ key head ≤ latest) :=
          fun within => absurd early (not_lt.mpr within.1)
        rw [List.dropWhile_cons_of_pos (by simpa using early),
          List.filter_cons_of_neg (by simpa using outside)]
        exact ih rest
      · rw [List.dropWhile_cons_of_neg (by simpa using early)]
        have tailFrom : tail.dropWhile (fun item => decide (key item < earliest)) = tail := by
          cases tail with
          | nil => rfl
          | cons next more =>
              have late : ¬ key next < earliest :=
                not_lt.mpr (le_trans (not_lt.mp early) (first next (by simp)))
              rw [List.dropWhile_cons_of_neg (by simpa using late)]
        by_cases within : key head ≤ latest
        · have inWindow : earliest ≤ key head ∧ key head ≤ latest := ⟨not_lt.mp early, within⟩
          rw [List.takeWhile_cons_of_pos (by simpa using within),
            List.filter_cons_of_pos (by simpa using inWindow), ← ih rest, tailFrom]
        · have outside : ∀ item ∈ head :: tail,
              ¬ (earliest ≤ key item ∧ key item ≤ latest) := by
            intro item member inWindow
            rcases List.mem_cons.mp member with same | later
            · exact within (same ▸ inWindow.2)
            · exact within (le_trans (first item later) inWindow.2)
          rw [List.takeWhile_cons_of_neg (by simpa using within),
            List.filter_eq_nil_iff.mpr (by simpa using outside)]

end Keyed

end OrderedLists
