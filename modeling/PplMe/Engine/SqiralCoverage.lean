import PplMe.Engine.Sqiral
import Mathlib.Data.List.Perm.Basic
import Mathlib.Data.List.Perm.Subperm
import Mathlib.Data.List.Sort

/-! The walk ends, and it visits each reachable cell once, nearest first.
Four corners end the loop, and the farthest corner's diamond is the first that encloses the
whole grid as seen from the origin, so counting corners is counting far enough.
-/

namespace PplMe.Engine

open StoppableVisits

-----------------------------------------------------------------------------------------
-- Corners and the last diamond
-----------------------------------------------------------------------------------------

/-- The offset leads to a row of the grid and at most half way around it. -/
def Admissible (resolution : Nat) (origin : CellLocator) (offset : Int × Int) : Prop :=
  (-(180 * resolution : Int) ≤ offset.2 ∧ offset.2 ≤ 180 * resolution)
  ∧ (0 ≤ origin.latitudeIndex + offset.1
    ∧ origin.latitudeIndex + offset.1 ≤ (181 * resolution : Int))

instance (resolution : Nat) (origin : CellLocator)
    : DecidablePred (Admissible resolution origin) :=
  fun _ => inferInstanceAs (Decidable (_ ∧ _))

/-- The four corners of the grid as offsets from the origin. -/
def corners (resolution : Nat) (origin : CellLocator) : List (Int × Int) :=
  [(-origin.latitudeIndex, 180 * resolution), (-origin.latitudeIndex, -(180 * resolution)),
    (181 * resolution - origin.latitudeIndex, 180 * resolution),
    (181 * resolution - origin.latitudeIndex, -(180 * resolution))]

/-- The diamond of the farthest corner. -/
def lastRing (resolution : Nat) (origin : CellLocator) : Nat :=
  180 * resolution + max origin.latitudeIndex (181 * resolution - origin.latitudeIndex)

section Corners

variable {resolution : Nat} {origin : CellLocator}

theorem checkOffsets_eq_terminal_iff {offset : Int × Int}
    : checkOffsets resolution origin offset.1 offset.2 = .terminal
      ↔ offset ∈ corners resolution origin := by
  obtain ⟨latOff, longOff⟩ := offset
  simp only [checkOffsets, corners, List.mem_cons, List.not_mem_nil, or_false, Prod.mk.injEq]
  constructor
  · intro h
    split at h
    · split at h
      · split at h
        · omega
        · cases h
      · cases h
    · cases h
  · intro h
    rw [if_pos (by omega), if_pos (by omega), if_pos (by omega)]

/-- The callback is called on exactly the admissible offsets. -/
theorem checkOffsets_called_iff {offset : Int × Int}
    : (checkOffsets resolution origin offset.1 offset.2 = .terminal
        ∨ checkOffsets resolution origin offset.1 offset.2 = .valid)
      ↔ Admissible resolution origin offset := by
  simp only [checkOffsets, Admissible]
  constructor
  · intro h
    split at h
    · split at h
      · omega
      · simp at h
    · simp at h
  · intro h
    rw [if_pos (by omega), if_pos (by omega)]
    split <;> simp

theorem corners_nodup (positive : 1 ≤ resolution) : (corners resolution origin).Nodup := by
  simp only [corners, List.nodup_cons, List.mem_cons, Prod.mk.injEq, List.not_mem_nil,
    or_false, List.nodup_nil, and_true, not_false_eq_true]
  omega

/-- All four corners lie within a diamond exactly from the last one on. -/
theorem corners_within_iff (inside : origin.latitudeIndex ≤ 181 * resolution)
    {maxOffset : Nat}
    : (∀ corner ∈ corners resolution origin, offsetNorm corner ≤ maxOffset)
      ↔ lastRing resolution origin ≤ maxOffset := by
  simp only [corners, List.forall_mem_cons, List.not_mem_nil, false_implies, implies_true,
    and_true, offsetNorm, lastRing]
  omega

/-- The walk meets the corners within its diamonds, each once. -/
theorem terminal_perm_corners (positive : 1 ≤ resolution) (maxOffset : Nat)
    : ((offsetsTo maxOffset).filter
        (fun offset => checkOffsets resolution origin offset.1 offset.2 = .terminal)).Perm
      ((corners resolution origin).filter (fun corner => offsetNorm corner ≤ maxOffset)) := by
  refine (List.perm_ext_iff_of_nodup ((offsetsTo_nodup _).filter _)
    ((corners_nodup positive).filter _)).mpr ?_
  intro offset
  simp only [List.mem_filter, mem_offsetsTo, decide_eq_true_eq, checkOffsets_eq_terminal_iff]
  exact and_comm

/-- The walk never meets more than four corners. -/
theorem countP_terminal_le_four (positive : 1 ≤ resolution) (maxOffset : Nat)
    : (offsetsTo maxOffset).countP
        (fun offset => checkOffsets resolution origin offset.1 offset.2 = .terminal)
      ≤ 4 := by
  rw [List.countP_eq_length_filter, (terminal_perm_corners positive maxOffset).length_eq]
  exact List.length_filter_le _ _

/-- The walk has met four corners exactly from the last diamond on. -/
theorem countP_terminal_eq_four_iff (positive : 1 ≤ resolution)
    (inside : origin.latitudeIndex ≤ 181 * resolution) (maxOffset : Nat)
    : (offsetsTo maxOffset).countP
          (fun offset => checkOffsets resolution origin offset.1 offset.2 = .terminal)
        = 4
      ↔ lastRing resolution origin ≤ maxOffset := by
  rw [List.countP_eq_length_filter, (terminal_perm_corners positive maxOffset).length_eq,
    ← corners_within_iff inside]
  have four : (corners resolution origin).length = 4 := rfl
  rw [← four, List.length_filter_eq_length_iff]
  simp

end Corners

-----------------------------------------------------------------------------------------
-- The walk is the callback along the admissible offsets
-----------------------------------------------------------------------------------------

/-- The cells of the admissible offsets, in order. -/
def cellsOf (resolution : Nat) (origin : CellLocator) (offsets : List (Int × Int))
    : List CellLocator :=
  (offsets.filter (Admissible resolution origin)).map
    (fun offset => offsetCell resolution origin offset.1 offset.2)

section List

variable {σ : Type*} (resolution : Nat) (origin : CellLocator)
  (visit : CellLocator → σ → Bool × σ)

/-- Loop bodies along offsets call back along their cells, and while not done they have
counted the corners among the offsets; witness: offset induction.
-/
theorem resume_doOffset (offsets : List (Int × Int)) (walk : Walk σ)
    : ∃ count,
        resume (doOffset resolution origin visit) offsets (false, walk)
          = ((visitUntil visit (cellsOf resolution origin offsets) walk.state).1,
              ⟨count, (visitUntil visit (cellsOf resolution origin offsets) walk.state).2⟩)
        ∧ ((visitUntil visit (cellsOf resolution origin offsets) walk.state).1 = false
          → count
            = walk.cornerCount
              + offsets.countP (fun offset =>
                  checkOffsets resolution origin offset.1 offset.2 = .terminal)) := by
  induction offsets generalizing walk with
  | nil => exact ⟨walk.cornerCount, rfl, fun _ => rfl⟩
  | cons offset rest ih =>
      simp only [resume, visitUntil_cons]
      by_cases called : Admissible resolution origin offset
      · have kept : cellsOf resolution origin (offset :: rest)
            = offsetCell resolution origin offset.1 offset.2
              :: cellsOf resolution origin rest := by
          simp [cellsOf, List.filter_cons_of_pos, called]
        rw [kept, visitUntil_cons, doOffset, doCell, if_pos (checkOffsets_called_iff.mpr called)]
        generalize visit (offsetCell resolution origin offset.1 offset.2) walk.state = result
        obtain ⟨_ | _, next⟩ := result
        · obtain ⟨count, run, counted⟩ := ih
            ⟨if checkOffsets resolution origin offset.1 offset.2 = .terminal then
                walk.cornerCount + 1 else walk.cornerCount, next⟩
          refine ⟨count, run, fun going => ?_⟩
          rw [counted going, List.countP_cons]
          simp only [decide_eq_true_eq]
          split <;> omega
        · exact ⟨_, rfl, fun going => by cases going⟩
      · have dropped : cellsOf resolution origin (offset :: rest)
            = cellsOf resolution origin rest := by
          simp [cellsOf, List.filter_cons_of_neg, called]
        have uncalled := mt checkOffsets_called_iff.mp called
        have notCorner : checkOffsets resolution origin offset.1 offset.2 ≠ .terminal :=
          fun corner => uncalled (Or.inl corner)
        rw [dropped, doOffset, doCell, if_neg uncalled, if_neg notCorner]
        obtain ⟨count, run, counted⟩ := ih walk
        refine ⟨count, run, fun going => ?_⟩
        rw [counted going, List.countP_cons]
        simp [notCorner]

variable {resolution origin visit}

/-- The offsets up to a later diamond begin with those up to an earlier one. -/
theorem offsetsTo_add (maxOffset more : Nat)
    : ∃ later, offsetsTo (maxOffset + more) = offsetsTo maxOffset ++ later := by
  induction more with
  | zero => exact ⟨[], by simp⟩
  | succ more ih =>
      obtain ⟨later, split⟩ := ih
      exact ⟨later ++ ringOffsets (maxOffset + more + 1), by
        rw [← Nat.add_assoc, offsetsTo_succ, split, List.append_assoc]⟩

/-- The outer loop ends where four corners were met or the callback is done. -/
theorem rings_of_stopped {fuel maxOffset : Nat} {done : Bool} {walk : Walk σ}
    (stopped : walk.cornerCount = 4 ∨ done = true)
    : rings resolution origin visit fuel maxOffset (done, walk) = some (done, walk) := by
  have ended : ¬ (walk.cornerCount ≠ 4 ∧ done = false) := by
    rintro ⟨notFour, going⟩
    rcases stopped with four | isDone
    · exact notFour four
    · exact absurd (going.symm.trans isDone) (by simp)
  rw [rings.eq_def]
  exact if_neg ended

/-- Otherwise it takes the next diamond. -/
theorem rings_of_going {fuel maxOffset : Nat} {walk : Walk σ} (going : walk.cornerCount ≠ 4)
    : rings resolution origin visit (fuel + 1) maxOffset (false, walk)
      = rings resolution origin visit fuel (maxOffset + 1)
          (ring resolution origin visit maxOffset (false, walk)) := by
  rw [rings.eq_def]
  exact if_pos ⟨going, rfl⟩

/-- The outer loop, entered after a diamond with enough fuel for the last one, has the
effect of visiting all offsets up to the last one; witness: induction on the fuel.
-/
theorem rings_eq_resume (positive : 1 ≤ resolution)
    (inside : origin.latitudeIndex ≤ 181 * resolution) (initial : σ) (fuel maxOffset : Nat)
    (notPast : maxOffset ≤ lastRing resolution origin)
    (enough : lastRing resolution origin ≤ maxOffset + fuel)
    : rings resolution origin visit fuel (maxOffset + 1)
        (resume (doOffset resolution origin visit) (offsetsTo maxOffset) (false, ⟨0, initial⟩))
      = some
        (resume (doOffset resolution origin visit) (offsetsTo (lastRing resolution origin))
          (false, ⟨0, initial⟩)) := by
  induction fuel generalizing maxOffset with
  | zero =>
      have last : maxOffset = lastRing resolution origin := by omega
      obtain ⟨count, run, counted⟩ := resume_doOffset resolution origin
        visit (offsetsTo maxOffset) ⟨0, initial⟩
      rw [← last, run]
      apply rings_of_stopped
      cases going : (visitUntil visit (cellsOf resolution origin (offsetsTo maxOffset)) initial).1
      · left
        have four := (countP_terminal_eq_four_iff positive inside _).mpr last.ge
        simpa [four] using counted going
      · exact Or.inr rfl
  | succ fuel ih =>
      obtain ⟨count, run, counted⟩ := resume_doOffset resolution origin
        visit (offsetsTo maxOffset) ⟨0, initial⟩
      cases going
        : (visitUntil visit (cellsOf resolution origin (offsetsTo maxOffset)) initial).1 with
      | true =>
          -- A walk that is done stays as it is through all later diamonds.
          rw [going] at run
          obtain ⟨later, split⟩ := offsetsTo_add maxOffset
            (lastRing resolution origin - maxOffset)
          rw [Nat.add_sub_cancel' notPast] at split
          rw [split, resume_append, run, resume_true]
          exact rings_of_stopped (Or.inr rfl)
      | false =>
          have corners := counted going
          simp only [Nat.zero_add] at corners
          have fourIff := countP_terminal_eq_four_iff positive inside maxOffset
          rw [← corners] at fourIff
          rw [going] at run
          by_cases last : lastRing resolution origin ≤ maxOffset
          · rw [Nat.le_antisymm last notPast, run]
            exact rings_of_stopped (Or.inl (fourIff.mpr last))
          · have notFour : count ≠ 4 := fun four => last (fourIff.mp four)
            rw [run, rings_of_going notFour, ring_eq_resume, ← run, ← resume_append,
              ← offsetsTo_succ]
            exact ih (maxOffset + 1) (by omega) (by omega)

/-- The walk from a row of the grid ends, with the callback visited along the admissible
offsets up to the last diamond.
-/
theorem sqiral_eq_visit (positive : 1 ≤ resolution)
    (inside : origin.latitudeIndex ≤ 181 * resolution) (initial : σ)
    : sqiral resolution origin visit initial
      = some
        (visitUntil visit
          (cellsOf resolution origin (offsetsTo (lastRing resolution origin))) initial) := by
  have first : doCell resolution origin visit 0 0 ⟨0, initial⟩
      = resume (doOffset resolution origin visit) (offsetsTo 0) (false, ⟨0, initial⟩) := by
    simp only [offsetsTo, List.range_zero, List.flatMap_nil, resume, visitUntil_cons]
    exact (resume_nil _).symm
  have fuel : lastRing resolution origin ≤ 0 + 361 * resolution := by
    unfold lastRing
    omega
  obtain ⟨count, run, -⟩ := resume_doOffset resolution origin visit
    (offsetsTo (lastRing resolution origin)) ⟨0, initial⟩
  rw [sqiral, first, rings_eq_resume positive inside initial _ 0 (Nat.zero_le _) fuel, run]
  rfl

end List

/-- The cells offered by the walk are those of the admissible offsets. -/
theorem sqiralCells_eq {resolution : Nat} {origin : CellLocator} (positive : 1 ≤ resolution)
    (inside : origin.latitudeIndex ≤ 181 * resolution)
    : sqiralCells resolution origin
      = cellsOf resolution origin (offsetsTo (lastRing resolution origin)) := by
  rw [sqiralCells, sqiral_eq_visit positive inside, visitUntil_record]
  rfl

/-- With any callback the walk visits the offered cells until the callback stops it. -/
theorem sqiral_eq_visitUntil {σ : Type*} {resolution : Nat} {origin : CellLocator}
    {visit : CellLocator → σ → Bool × σ} (positive : 1 ≤ resolution)
    (inside : origin.latitudeIndex ≤ 181 * resolution) (initial : σ)
    : sqiral resolution origin visit initial
      = some (visitUntil visit (sqiralCells resolution origin) initial) := by
  rw [sqiral_eq_visit positive inside, sqiralCells_eq positive inside]

section Cells

variable {resolution : Nat} {origin : CellLocator}

/-- The wrapped column is the index modulo the number of columns. -/
theorem wrapLongitude_eq_emod {longIndex : Int} (low : -(361 * resolution : Int) ≤ longIndex)
    : wrapLongitude resolution longIndex = longIndex % (361 * resolution) := by
  unfold wrapLongitude
  split
  · exact Int.tmod_eq_emod_of_nonneg (by omega)
  · split
    · rw [Int.tmod_eq_emod_of_nonneg (by omega), Int.add_emod_left]
    · rename_i zero
      simp [not_not.mp zero]

/-- An admissible offset leads to a cell of the grid. -/
theorem offsetCell_onGrid (positive : 1 ≤ resolution) {offset : Int × Int}
    (admissible : Admissible resolution origin offset)
    : (offsetCell resolution origin offset.1 offset.2).latitudeIndex ≤ 181 * resolution
      ∧ (offsetCell resolution origin offset.1 offset.2).longitudeIndex < 361 * resolution := by
  obtain ⟨column, row⟩ := admissible
  constructor
  · simp only [offsetCell]
    omega
  · have columns : 0 < (361 * resolution : Int) := by omega
    have below := Int.emod_lt_of_pos (origin.longitudeIndex + offset.2) columns
    simp only [offsetCell]
    rw [wrapLongitude_eq_emod (by omega)]
    omega

/-- Distinct admissible offsets lead to distinct cells: columns repeat only after a full
turn, and the offsets stay within half a turn on each side.
-/
theorem offsetCell_injective (positive : 1 ≤ resolution) {left right : Int × Int}
    (onLeft : Admissible resolution origin left) (onRight : Admissible resolution origin right)
    (same : offsetCell resolution origin left.1 left.2
      = offsetCell resolution origin right.1 right.2)
    : left = right := by
  obtain ⟨leftColumn, leftRow⟩ := onLeft
  obtain ⟨rightColumn, rightRow⟩ := onRight
  simp only [offsetCell, CellLocator.mk.injEq] at same
  rw [wrapLongitude_eq_emod (by omega), wrapLongitude_eq_emod (by omega)] at same
  have columns : 0 < (361 * resolution : Int) := by omega
  have leftNonneg := Int.emod_nonneg (origin.longitudeIndex + left.2) columns.ne'
  have rightNonneg := Int.emod_nonneg (origin.longitudeIndex + right.2) columns.ne'
  have congruent : (origin.longitudeIndex + left.2) % (361 * resolution : Int)
      = (origin.longitudeIndex + right.2) % (361 * resolution : Int) := by omega
  have turns := Int.dvd_of_emod_eq_zero
    (Int.emod_eq_emod_iff_emod_sub_eq_zero.mp congruent)
  have none := Int.eq_zero_of_dvd_of_natAbs_lt_natAbs turns (by omega)
  exact Prod.ext (by omega) (by omega)

/-- The walk offers no cell twice. -/
theorem sqiralCells_nodup (positive : 1 ≤ resolution)
    (inside : origin.latitudeIndex ≤ 181 * resolution)
    : (sqiralCells resolution origin).Nodup := by
  rw [sqiralCells_eq positive inside, cellsOf]
  refine List.Nodup.map_on ?_ ((offsetsTo_nodup _).filter _)
  intro left leftMember right rightMember same
  exact offsetCell_injective positive (by simpa using (List.mem_filter.mp leftMember).2)
    (by simpa using (List.mem_filter.mp rightMember).2) same

/-- Every cell offered by the walk is on the grid. -/
theorem sqiralCells_onGrid (positive : 1 ≤ resolution)
    (inside : origin.latitudeIndex ≤ 181 * resolution) {cell : CellLocator}
    (member : cell ∈ sqiralCells resolution origin)
    : cell.latitudeIndex ≤ 181 * resolution ∧ cell.longitudeIndex < 361 * resolution := by
  rw [sqiralCells_eq positive inside, cellsOf] at member
  obtain ⟨offset, kept, rfl⟩ := List.mem_map.mp member
  exact offsetCell_onGrid positive (by simpa using (List.mem_filter.mp kept).2)

/-- Every admissible offset is within the last diamond, so its cell is offered. -/
theorem offsetCell_mem_sqiralCells (positive : 1 ≤ resolution)
    (inside : origin.latitudeIndex ≤ 181 * resolution) {offset : Int × Int}
    (admissible : Admissible resolution origin offset)
    : offsetCell resolution origin offset.1 offset.2 ∈ sqiralCells resolution origin := by
  rw [sqiralCells_eq positive inside, cellsOf]
  refine List.mem_map_of_mem (List.mem_filter.mpr ⟨mem_offsetsTo.mpr ?_, by simpa using admissible⟩)
  obtain ⟨column, row⟩ := admissible
  unfold offsetNorm lastRing
  omega

/-- Columns of whole degrees are at most half a turn apart, one way or the other. -/
theorem exists_turn (positive : 1 ≤ resolution) {here there : Nat} (hereBound : here ≤ 360)
    (thereBound : there ≤ 360)
    : ∃ turn : Int,
        (-180 ≤ turn ∧ turn ≤ 180)
        ∧ ((here * resolution : Nat) + turn * resolution : Int) % (361 * resolution)
          = (there * resolution : Nat) := by
  obtain ⟨turn, range, whole⟩
      : ∃ turn : Int, (-180 ≤ turn ∧ turn ≤ 180) ∧ ((here : Int) + turn) % 361 = there := by
    by_cases east : (there : Int) - here > 180
    · exact ⟨there - here - 361, by omega, by omega⟩
    · by_cases west : (there : Int) - here < -180
      · exact ⟨there - here + 361, by omega, by omega⟩
      · exact ⟨there - here, by omega, by omega⟩
  refine ⟨turn, range, ?_⟩
  have scaled := @Int.mul_emod_mul_of_pos (resolution : Int) (here + turn) 361 (by omega)
  rw [whole] at scaled
  push_cast
  rw [← Int.add_mul, Int.mul_comm (here + turn), Int.mul_comm 361, scaled, Int.mul_comm]

/-- From an origin of whole degrees the walk offers every cell of whole degrees. -/
theorem degrees_mem_sqiralCells (positive : 1 ≤ resolution)
    {originLat originLong lat long : Nat} (originRow : originLat ≤ 180)
    (originColumn : originLong ≤ 360) (row : lat ≤ 180) (column : long ≤ 360)
    : (⟨lat * resolution, long * resolution⟩ : CellLocator)
      ∈ sqiralCells resolution ⟨originLat * resolution, originLong * resolution⟩ := by
  obtain ⟨turn, turnRange, reached⟩ := exists_turn positive originColumn column
  have originInside : originLat * resolution ≤ 181 * resolution :=
    Nat.mul_le_mul_right _ (by omega)
  have rowInside : lat * resolution ≤ 181 * resolution := Nat.mul_le_mul_right _ (by omega)
  have turnLow : -180 * (resolution : Int) ≤ turn * resolution :=
    Int.mul_le_mul_of_nonneg_right turnRange.1 (by omega)
  have turnHigh : turn * (resolution : Int) ≤ 180 * resolution :=
    Int.mul_le_mul_of_nonneg_right turnRange.2 (by omega)
  let origin : CellLocator := ⟨originLat * resolution, originLong * resolution⟩
  let offset : Int × Int :=
    ((lat * resolution : Nat) - (originLat * resolution : Nat), turn * resolution)
  have admissible : Admissible resolution origin offset := by
    simp only [Admissible, origin, offset]
    omega
  have offered : offsetCell resolution origin offset.1 offset.2 ∈ sqiralCells resolution origin :=
    offsetCell_mem_sqiralCells positive originInside admissible
  have cell : offsetCell resolution origin offset.1 offset.2
      = ⟨lat * resolution, long * resolution⟩ := by
    simp only [offsetCell, origin, offset, CellLocator.mk.injEq]
    rw [wrapLongitude_eq_emod (by omega), reached]
    omega
  rwa [cell] at offered

-----------------------------------------------------------------------------------------
-- Nearest cells first
-----------------------------------------------------------------------------------------

/-- Rows between two cells, and columns the shorter way around. -/
def cellDistance (resolution : Nat) (origin cell : CellLocator) : Nat :=
  ((cell.latitudeIndex : Int) - origin.latitudeIndex).natAbs
  + min (((cell.longitudeIndex : Int) - origin.longitudeIndex) % (361 * resolution)).toNat
      (((origin.longitudeIndex : Int) - cell.longitudeIndex) % (361 * resolution)).toNat

/-- The shorter way around leads back from an offset of less than half a turn. -/
theorem min_emod_eq_natAbs {turn offset : Int} (low : -turn ≤ 2 * offset)
    (high : 2 * offset ≤ turn) (positive : 0 < turn)
    : min (offset % turn).toNat (-offset % turn).toNat = offset.natAbs := by
  rcases lt_trichotomy offset 0 with west | rfl | east
  · have back : -offset % turn = -offset := Int.emod_eq_of_lt (by omega) (by omega)
    have around : offset % turn = turn + offset := by
      rw [← Int.add_emod_left]
      exact Int.emod_eq_of_lt (by omega) (by omega)
    omega
  · simp
  · have back : offset % turn = offset := Int.emod_eq_of_lt (by omega) (by omega)
    have around : -offset % turn = turn + -offset := by
      rw [← Int.add_emod_left]
      exact Int.emod_eq_of_lt (by omega) (by omega)
    omega

/-- An admissible offset is as long as the way to its cell. -/
theorem cellDistance_offsetCell (positive : 1 ≤ resolution) {offset : Int × Int}
    (admissible : Admissible resolution origin offset)
    : cellDistance resolution origin (offsetCell resolution origin offset.1 offset.2)
      = offsetNorm offset := by
  obtain ⟨⟨west, east⟩, south, north⟩ := admissible
  have columns : 0 < (361 * resolution : Int) := by omega
  have column : (((origin.longitudeIndex + offset.2) % (361 * resolution)).toNat : Int)
      = (origin.longitudeIndex + offset.2) % (361 * resolution) :=
    Int.toNat_of_nonneg (Int.emod_nonneg _ columns.ne')
  have eastward : ((origin.longitudeIndex + offset.2) % (361 * resolution)
      - origin.longitudeIndex) % (361 * resolution) = offset.2 % (361 * resolution) := by
    rw [Int.emod_sub_emod, add_sub_cancel_left]
  have westward : ((origin.longitudeIndex : Int)
      - (origin.longitudeIndex + offset.2) % (361 * resolution)) % (361 * resolution)
      = -offset.2 % (361 * resolution) := by
    rw [Int.sub_emod_emod, sub_add_cancel_left]
  have rows : (((origin.latitudeIndex : Int) + offset.1).toNat : Int) - origin.latitudeIndex
      = offset.1 := by omega
  rw [cellDistance, offsetNorm, offsetCell, wrapLongitude_eq_emod (by omega), column, eastward,
    westward, rows, min_emod_eq_natAbs (by omega) (by omega) columns]

/-- Diamond after diamond, offsets grow, by induction over the diamonds. -/
theorem offsetsTo_pairwise (maxOffset : Nat)
    : (offsetsTo maxOffset).Pairwise
        (fun earlier later => offsetNorm earlier ≤ offsetNorm later) := by
  induction maxOffset with
  | zero => simp [offsetsTo]
  | succ maxOffset ih =>
      rw [offsetsTo_succ, List.pairwise_append]
      refine ⟨ih, ?_, fun earlier inner later outer => ?_⟩
      · apply List.pairwise_of_forall_mem_list
        intro earlier first later second
        have near := (mem_ringOffsets (Nat.succ_pos maxOffset)).mp first
        have far := (mem_ringOffsets (Nat.succ_pos maxOffset)).mp second
        omega
      · have near := mem_offsetsTo.mp inner
        have far := (mem_ringOffsets (Nat.succ_pos maxOffset)).mp outer
        omega

/-- The walk offers nearer cells before farther ones. -/
theorem sqiralCells_pairwise (positive : 1 ≤ resolution)
    (inside : origin.latitudeIndex ≤ 181 * resolution)
    : (sqiralCells resolution origin).Pairwise
        (fun earlier later =>
          cellDistance resolution origin earlier ≤ cellDistance resolution origin later) := by
  rw [sqiralCells_eq positive inside, cellsOf, List.pairwise_map]
  refine ((offsetsTo_pairwise _).filter _).imp_of_mem ?_
  intro earlier later first second grows
  have onFirst := of_decide_eq_true (List.mem_filter.mp first).2
  have onSecond := of_decide_eq_true (List.mem_filter.mp second).2
  rwa [cellDistance_offsetCell positive onFirst, cellDistance_offsetCell positive onSecond]

end Cells

/-- From a cell of whole degrees the walk ends for every callback. It calls back on distinct
cells of the grid, nearest first, until the callback is done; and one that never is done is
called on every cell a valid position lies in.
-/
theorem sqiral_coverage.{u} (settings : GridSettings) {originLat originLong : Nat}
    (row : originLat ≤ 180) (column : originLong ≤ 360)
    : ∃ origin cells,
        origin = ⟨originLat * settings.resolution, originLong * settings.resolution⟩
        ∧ cells.Nodup
        ∧ (∀ cell ∈ cells,
            cell.latitudeIndex ≤ 181 * settings.resolution
            ∧ cell.longitudeIndex < 361 * settings.resolution)
        ∧ cells.Pairwise
            (fun earlier later =>
              cellDistance settings.resolution origin earlier
              ≤ cellDistance settings.resolution origin later)
        ∧ (∀ position cell,
            position.isValid = true
            → settings.toCellLocator position = .ok cell
            → cell ∈ cells)
        ∧ ∀ (σ : Type u) (visit : CellLocator → σ → Bool × σ) (initial : σ),
            ∃ done final called rest,
              sqiral settings.resolution origin visit initial = some (done, final)
              ∧ cells = called ++ rest
              ∧ Calls visit initial called done final
              ∧ (done = false → rest = []) := by
  have positive := settings.resolutionPositive
  have inside : originLat * settings.resolution ≤ 181 * settings.resolution :=
    Nat.mul_le_mul_right _ (by omega)
  refine ⟨_, sqiralCells settings.resolution
    ⟨originLat * settings.resolution, originLong * settings.resolution⟩, rfl,
    sqiralCells_nodup positive inside, fun cell => sqiralCells_onGrid positive inside,
    sqiralCells_pairwise positive inside, fun position cell valid located => ?_,
    fun σ visit initial => ?_⟩
  · obtain ⟨lat, latBound, long, longBound, same⟩ := settings.toCellLocator_of_isValid valid
    cases same.symm.trans located
    exact degrees_mem_sqiralCells positive row column latBound longBound
  · obtain ⟨called, rest, split, calls, complete⟩ := @calls_of_visitUntil _ _ visit
      (sqiralCells settings.resolution
        ⟨originLat * settings.resolution, originLong * settings.resolution⟩) initial _ _ rfl
    exact ⟨_, _, called, rest, sqiral_eq_visitUntil positive inside initial, split, calls,
      complete⟩

/-- The walk from the origin of coordinates, one cell per degree. -/
theorem sqiral_coverage_wholeDegrees
    : ∃ origin cells,
        origin = ⟨90 * wholeDegrees.resolution, 180 * wholeDegrees.resolution⟩
        ∧ cells.Nodup
        ∧ (∀ cell ∈ cells,
            cell.latitudeIndex ≤ 181 * wholeDegrees.resolution
            ∧ cell.longitudeIndex < 361 * wholeDegrees.resolution)
        ∧ cells.Pairwise
            (fun earlier later =>
              cellDistance wholeDegrees.resolution origin earlier
              ≤ cellDistance wholeDegrees.resolution origin later)
        ∧ (∀ position cell,
            position.isValid = true
            → wholeDegrees.toCellLocator position = .ok cell
            → cell ∈ cells)
        ∧ ∀ (σ : Type) (visit : CellLocator → σ → Bool × σ) (initial : σ),
            ∃ done final called rest,
              sqiral wholeDegrees.resolution origin visit initial = some (done, final)
              ∧ cells = called ++ rest
              ∧ Calls visit initial called done final
              ∧ (done = false → rest = []) :=
  sqiral_coverage wholeDegrees (by decide) (by decide)

end PplMe.Engine
