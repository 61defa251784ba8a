import Mathlib.Data.List.Nodup
import Mathlib.Data.List.Range

/-! Loops that tick a position until a test stops them.
Nothing in such a loop counts its rounds: that it ends, and where it has been, follows from a
path that its ticks take and at whose end the test stops it.
-/

namespace TickedWalks

variable {Position Item : Type*}

/-- `for (position = start; !stop(position); position = tick(position)) body(position, items)`,
with no result where `fuel` tests do not end it.
-/
def walk (tick : Position → Position) (stop : Position → Bool)
    (body : Position → List Item → Option (List Item))
    : Nat → Position → List Item → Option (List Item)
  | 0, _, _ => none
  | fuel + 1, position, items =>
      if stop position then
        some items
      else
        (body position items).bind (walk tick stop body fuel (tick position))

/-- The positions of a path before the first at which the loop stops. -/
def visited (stop : Position → Bool) (path : Nat → Position) (length : Nat) : List Position :=
  ((List.range length).map path).takeWhile (fun position => !stop position)

variable {tick : Position → Position} {stop : Position → Bool} {path : Nat → Position}
  {length : Nat}

/-- A path's first position is visited before those of the rest of the path. -/
theorem visited_succ
    : visited stop path (length + 1)
      = if stop (path 0) then
          []
        else
          path 0 :: visited stop (fun round => path (round + 1)) length := by
  cases stopped : stop (path 0) <;>
    simp [visited, List.range_succ_eq_map, stopped, Function.comp_def]

/-- A loop that ticks along a path to a stop ends, and has done its body at the positions
visited on the way, by induction along the path.
-/
theorem walk_eq {body : Position → List Item → Option (List Item)}
    {found : Position → List Item} {fuel : Nat} {items : List Item}
    (ticks : ∀ round < length, tick (path round) = path (round + 1))
    (last : stop (path length) = true)
    (appends
      : ∀ round < length,
          ∀ items, body (path round) items = some (items ++ found (path round)))
    (enough : length < fuel)
    : walk tick stop body fuel (path 0) items
      = some (items ++ (visited stop path length).flatMap found) := by
  induction length generalizing path fuel items with
  | zero =>
      obtain ⟨fuel, rfl⟩ := Nat.exists_eq_add_of_lt enough
      simp [walk, last, visited]
  | succ length ih =>
      obtain ⟨fuel, rfl⟩ : ∃ more, fuel = more + 1 := ⟨fuel - 1, by omega⟩
      rw [walk, visited_succ]
      by_cases stopped : stop (path 0) = true
      · simp [stopped]
      · have rest := @ih (fun round => path (round + 1)) fuel (items ++ found (path 0))
          (fun round below => ticks (round + 1) (by omega)) last
          (fun round below => appends (round + 1) (by omega)) (by omega)
        rw [if_neg stopped, if_neg stopped, appends 0 (by omega), Option.bind_some,
          ticks 0 (by omega), rest]
        simp

/-- A position is visited when the loop stops neither there nor earlier on the path. -/
theorem mem_visited {position : Position}
    : position ∈ visited stop path length
      ↔ ∃ round < length,
          path round = position ∧ ∀ earlier ≤ round, stop (path earlier) = false := by
  induction length generalizing path with
  | zero => simp [visited]
  | succ length ih =>
      rw [visited_succ]
      cases stopped : stop (path 0) with
      | true =>
          refine iff_of_false (by simp) ?_
          rintro ⟨round, _, _, going⟩
          cases stopped.symm.trans (going 0 (Nat.zero_le _))
      | false =>
          simp only [Bool.false_eq_true, if_false, List.mem_cons, ih]
          constructor
          · rintro (rfl | ⟨round, below, same, going⟩)
            · refine ⟨0, by omega, rfl, fun earlier least => ?_⟩
              rw [Nat.le_zero.mp least]
              exact stopped
            · refine ⟨round + 1, by omega, same, fun earlier upTo => ?_⟩
              cases earlier with
              | zero => exact stopped
              | succ earlier => exact going earlier (by omega)
          · rintro ⟨round, below, same, going⟩
            cases round with
            | zero => exact Or.inl same.symm
            | succ round =>
                exact Or.inr
                  ⟨round, by omega, same, fun earlier upTo => going (earlier + 1) (by omega)⟩

/-- Where the test is passed at a round whenever it is passed at the path's ends around it, the
loop visits what its test admits together with the path's first position.
-/
theorem mem_visited_of_between {reached : Nat → Prop} {position : Position}
    (tests : ∀ round < length, stop (path round) = false ↔ reached round)
    (between : ∀ round, ∀ earlier ≤ round, reached 0 → reached round → reached earlier)
    : position ∈ visited stop path length
      ↔ ∃ round < length, path round = position ∧ reached 0 ∧ reached round := by
  rw [mem_visited]
  constructor
  · rintro ⟨round, below, same, going⟩
    exact ⟨round, below, same, (tests 0 (by omega)).mp (going 0 (Nat.zero_le _)),
      (tests round below).mp (going round le_rfl)⟩
  · rintro ⟨round, below, same, first, last⟩
    refine ⟨round, below, same, fun earlier upTo => ?_⟩
    exact (tests earlier (by omega)).mpr (between round earlier upTo first last)

/-- Positions are numbered, and a test is passed between two numbers at which it is. Then a walk to
the numbers after `start` visits those at which the test is passed, if it is at the first.
-/
theorem mem_visited_ascending {passes : Nat → Prop} {position : Position}
    (locate : Nat → Position) (start : Nat)
    (convex : ∀ {near middle far},
      passes near → passes far → near ≤ middle → middle ≤ far → passes middle)
    (path_eq : ∀ round < length, path round = locate (start + 1 + round))
    (tests
      : ∀ number, start < number → number ≤ start + length
        → (stop (locate number) = false ↔ passes number))
    : position ∈ visited stop path length
      ↔ ∃ number, start < number ∧ number ≤ start + length
          ∧ locate number = position ∧ passes (start + 1) ∧ passes number := by
  have passed (round : Nat) (below : round < length)
      : stop (path round) = false ↔ passes (start + 1 + round) := by
    rw [path_eq round below]
    exact tests _ (by omega) (by omega)
  rw [mem_visited_of_between passed fun round earlier upTo first last =>
    convex first last (by omega) (by omega)]
  constructor
  · rintro ⟨round, below, same, first, last⟩
    exact ⟨start + 1 + round, by omega, by omega, path_eq round below ▸ same, first, last⟩
  · rintro ⟨number, after, within, same, first, last⟩
    obtain ⟨round, rfl⟩ := Nat.exists_eq_add_of_le (Nat.succ_le_of_lt after)
    have below : round < length := by omega
    exact ⟨round, below, (path_eq round below).trans same, first, last⟩

/-- A walk to the numbers before `start` visits those that come just before one at which the test
is passed, if it is at `start`.
-/
theorem mem_visited_descending {passes : Nat → Prop} {position : Position}
    (locate : Nat → Position) (start : Nat)
    (convex : ∀ {near middle far},
      passes near → passes far → near ≤ middle → middle ≤ far → passes middle)
    (short : length ≤ start)
    (path_eq : ∀ round < length, path round = locate (start - 1 - round))
    (tests
      : ∀ number < start, start ≤ number + length
        → (stop (locate number) = false ↔ passes (number + 1)))
    : position ∈ visited stop path length
      ↔ ∃ number < start, start ≤ number + length
          ∧ locate number = position ∧ passes start ∧ passes (number + 1) := by
  have passed (round : Nat) (below : round < length)
      : stop (path round) = false ↔ passes (start - round) := by
    have next : start - 1 - round + 1 = start - round := by omega
    rw [path_eq round below, ← next]
    exact tests _ (by omega) (by omega)
  rw [mem_visited_of_between passed fun round earlier upTo first last =>
    convex last first (by omega) (by omega)]
  constructor
  · rintro ⟨round, below, same, first, last⟩
    have next : start - round = start - 1 - round + 1 := by omega
    exact ⟨start - 1 - round, by omega, by omega, path_eq round below ▸ same, first, next ▸ last⟩
  · rintro ⟨number, before, within, same, first, last⟩
    have back : start - 1 - (start - 1 - number) = number := by omega
    have next : start - (start - 1 - number) = number + 1 := by omega
    have below : start - 1 - number < length := by omega
    refine ⟨start - 1 - number, below, ?_, first, next ▸ last⟩
    rw [path_eq _ below, back, same]

/-- A path that does not return visits no position twice. -/
theorem visited_nodup
    (onward : ∀ left < length, ∀ right < length, path left = path right → left = right)
    : (visited stop path length).Nodup := by
  refine (List.nodup_range.map_on ?_).sublist (List.takeWhile_sublist _)
  intro left leftBelow right rightBelow
  exact onward left (List.mem_range.mp leftBelow) right (List.mem_range.mp rightBelow)

end TickedWalks
