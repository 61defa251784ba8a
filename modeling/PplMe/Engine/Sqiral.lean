import PplMe.Engine.PplmeGrid
import PplMe.Foundation.StoppableVisits

/-! The walk over the grid in growing diamonds around an origin cell, with its callback.
The walk is first the code's loops, then shown to be the callback applied along one fixed
list of cells until it asks to stop.
-/

namespace PplMe.Engine

open StoppableVisits

-----------------------------------------------------------------------------------------
-- The code's loops
-----------------------------------------------------------------------------------------

inductive CheckOffsetsResult where
  | valid
  | terminal
  | invalid
  deriving DecidableEq, Repr

/-- Offsets are invalid off the grid and terminal in its corners as seen from the origin. -/
def checkOffsets (resolution : Nat) (origin : CellLocator) (latOff longOff : Int)
    : CheckOffsetsResult :=
  let maxLongOffset : Int := 180 * resolution
  let maxLatIndex : Int := 181 * resolution
  let latIndex : Int := origin.latitudeIndex + latOff
  if longOff ≤ maxLongOffset ∧ -maxLongOffset ≤ longOff then
    if 0 ≤ latIndex ∧ latIndex ≤ maxLatIndex then
      if (longOff = maxLongOffset ∨ longOff = -maxLongOffset)
          ∧ (latIndex = 0 ∨ latIndex = maxLatIndex) then
        .terminal
      else
        .valid
    else
      .invalid
  else
    .invalid

/-- Column of an index that may have left the grid on either side. -/
def wrapLongitude (resolution : Nat) (longIndex : Int) : Int :=
  if 0 < longIndex then
    longIndex.tmod (361 * resolution)
  else if longIndex ≠ 0 then
    (361 * resolution + longIndex).tmod (361 * resolution)
  else
    longIndex

/-- The cell at an offset from the origin. -/
def offsetCell (resolution : Nat) (origin : CellLocator) (latOff longOff : Int)
    : CellLocator :=
  ⟨(origin.latitudeIndex + latOff).toNat,
    (wrapLongitude resolution (origin.longitudeIndex + longOff)).toNat⟩

/-- The callback's state and the number of corners met so far. -/
structure Walk (σ : Type*) where
  cornerCount : Nat
  state : σ

section Loops

variable {σ : Type*} (resolution : Nat) (origin : CellLocator)
  (visit : CellLocator → σ → Bool × σ)

/-- Count a corner, and call back on every cell of the grid. -/
def doCell (latOff longOff : Int) (walk : Walk σ) : Bool × Walk σ :=
  let result := checkOffsets resolution origin latOff longOff
  let cornerCount :=
    if result = .terminal then walk.cornerCount + 1 else walk.cornerCount
  if result = .terminal ∨ result = .valid then
    let (done, state) := visit (offsetCell resolution origin latOff longOff) walk.state
    (done, ⟨cornerCount, state⟩)
  else
    (false, ⟨cornerCount, walk.state⟩)

/-- One side of a diamond: the first offset grows while the second shrinks to nothing. -/
def side (place : Nat → Nat → Walk σ → Bool × Walk σ)
    : Nat → Nat → Bool × Walk σ → Bool × Walk σ
  | _, 0, progress => progress
  | _, _ + 1, (true, walk) => (true, walk)
  | grown, shrunk + 1, (false, walk) =>
      side place (grown + 1) shrunk (place grown (shrunk + 1) walk)

/-- The four sides of a diamond: north to east, east to south, south to west, west to
north.
-/
def ring (maxOffset : Nat) (progress : Bool × Walk σ) : Bool × Walk σ :=
  let northToEast := side
    (fun east north => doCell resolution origin visit north east) 0 maxOffset progress
  let eastToSouth := side
    (fun south east => doCell resolution origin visit (-south) east) 0 maxOffset northToEast
  let southToWest := side
    (fun west south => doCell resolution origin visit (-south) (-west)) 0 maxOffset eastToSouth
  side (fun north west => doCell resolution origin visit north (-west)) 0 maxOffset southToWest

/-- Ever larger diamonds until four corners were met or the callback is done; no result
when the fuel runs out first.
-/
def rings : Nat → Nat → Bool × Walk σ → Option (Bool × Walk σ)
  | fuel, maxOffset, (done, walk) =>
      if walk.cornerCount ≠ 4 ∧ done = false then
        match fuel with
        | 0 => none
        | fuel + 1 =>
            rings fuel (maxOffset + 1) (ring resolution origin visit maxOffset (done, walk))
      else
        some (done, walk)

/-- The walk from the origin, and whether the callback ended it. -/
def sqiral (initial : σ) : Option (Bool × σ) :=
  (rings resolution origin visit (361 * resolution) 1
      (doCell resolution origin visit 0 0 ⟨0, initial⟩)).map
    (fun (done, walk) => (done, walk.state))

end Loops

/-- The cells a walk offers to a callback that never stops it, in order. -/
def sqiralCells (resolution : Nat) (origin : CellLocator) : List CellLocator :=
  ((sqiral resolution origin (fun cell seen => (false, seen ++ [cell])) []).map
    (fun (_, seen) => seen)).getD []

-----------------------------------------------------------------------------------------
-- The walk's offsets as one list
-----------------------------------------------------------------------------------------

/-- A diamond's side as offset pairs. -/
def sidePairs : Nat → Nat → List (Nat × Nat)
  | _, 0 => []
  | grown, shrunk + 1 => (grown, shrunk + 1) :: sidePairs (grown + 1) shrunk

/-- The offsets of a diamond, latitude first, in the order of its four sides. -/
def ringOffsets (maxOffset : Nat) : List (Int × Int) :=
  (sidePairs 0 maxOffset).map (fun (east, north) => ((north : Int), (east : Int)))
  ++ (sidePairs 0 maxOffset).map (fun (south, east) => (-(south : Int), (east : Int)))
  ++ (sidePairs 0 maxOffset).map (fun (west, south) => (-(south : Int), -(west : Int)))
  ++ (sidePairs 0 maxOffset).map (fun (north, west) => ((north : Int), -(west : Int)))

/-- All offsets up to a diamond, in the order of the walk. -/
def offsetsTo (maxOffset : Nat) : List (Int × Int) :=
  (0, 0) :: (List.range maxOffset).flatMap (fun earlier => ringOffsets (earlier + 1))

section WalkAsList

variable {σ : Type*} {resolution : Nat} {origin : CellLocator}
  {visit : CellLocator → σ → Bool × σ}

/-- A side visits its offset pairs in order. -/
theorem side_eq_resume (place : Nat → Nat → Walk σ → Bool × Walk σ) (grown shrunk : Nat)
    (progress : Bool × Walk σ)
    : side place grown shrunk progress
      = resume (fun pair => place pair.1 pair.2) (sidePairs grown shrunk) progress := by
  induction shrunk generalizing grown progress with
  | zero => simp [side, sidePairs]
  | succ shrunk ih =>
      obtain ⟨_ | _, walk⟩ := progress
      · simp only [side, sidePairs, resume, visitUntil_cons]
        exact ih (grown + 1) _
      · rfl

/-- The loop body at an offset pair. -/
def doOffset (resolution : Nat) (origin : CellLocator) (visit : CellLocator → σ → Bool × σ)
    (offset : Int × Int) (walk : Walk σ)
    : Bool × Walk σ :=
  doCell resolution origin visit offset.1 offset.2 walk

/-- A diamond visits its offsets in order. -/
theorem ring_eq_resume (maxOffset : Nat) (progress : Bool × Walk σ)
    : ring resolution origin visit maxOffset progress
      = resume (doOffset resolution origin visit) (ringOffsets maxOffset) progress := by
  simp only [ring, ringOffsets, resume_append, resume_map, side_eq_resume]
  rfl

end WalkAsList

-----------------------------------------------------------------------------------------
-- Which offsets a diamond has
-----------------------------------------------------------------------------------------

/-- A side has one pair for each way to split its length with a positive second part. -/
theorem mem_sidePairs {grown shrunk left right : Nat}
    : (left, right) ∈ sidePairs grown shrunk
      ↔ 0 < right ∧ right ≤ shrunk ∧ left + right = grown + shrunk := by
  induction shrunk generalizing grown with
  | zero =>
      simp only [sidePairs, List.not_mem_nil, false_iff]
      omega
  | succ shrunk ih =>
      simp only [sidePairs, List.mem_cons, Prod.mk.injEq, ih]
      omega

theorem sidePairs_nodup (grown shrunk : Nat) : (sidePairs grown shrunk).Nodup := by
  induction shrunk generalizing grown with
  | zero => exact List.nodup_nil
  | succ shrunk ih =>
      refine List.nodup_cons.mpr ⟨?_, ih (grown + 1)⟩
      intro member
      have := (mem_sidePairs.mp member).2.1
      omega

/-- Steps from the origin to an offset. -/
def offsetNorm (offset : Int × Int) : Nat := offset.1.natAbs + offset.2.natAbs

/-- A diamond consists of the offsets at its distance, by cases on the quadrant. -/
theorem mem_ringOffsets {maxOffset : Nat} (positive : 0 < maxOffset) {offset : Int × Int}
    : offset ∈ ringOffsets maxOffset ↔ offsetNorm offset = maxOffset := by
  obtain ⟨latOff, longOff⟩ := offset
  simp only [ringOffsets, List.mem_append, List.mem_map, Prod.exists, mem_sidePairs,
    Prod.mk.injEq, offsetNorm]
  constructor
  · rintro (((⟨_, _, h, rfl, rfl⟩ | ⟨_, _, h, rfl, rfl⟩) | ⟨_, _, h, rfl, rfl⟩)
      | ⟨_, _, h, rfl, rfl⟩) <;> omega
  · intro norm
    by_cases north : 0 < latOff ∧ 0 ≤ longOff
    · exact Or.inl (Or.inl (Or.inl ⟨longOff.natAbs, latOff.natAbs, by omega, by omega, by omega⟩))
    · by_cases east : latOff ≤ 0 ∧ 0 < longOff
      · exact Or.inl (Or.inl (Or.inr ⟨latOff.natAbs, longOff.natAbs, by omega, by omega, by omega⟩))
      · by_cases south : latOff < 0 ∧ longOff ≤ 0
        · exact Or.inl (Or.inr ⟨longOff.natAbs, latOff.natAbs, by omega, by omega, by omega⟩)
        · exact Or.inr ⟨latOff.natAbs, longOff.natAbs, by omega, by omega, by omega⟩

/-- No offset occurs twice in a diamond: the sides lie in different quadrants. -/
theorem ringOffsets_nodup (maxOffset : Nat) : (ringOffsets maxOffset).Nodup := by
  have sideNodup (place : Nat × Nat → Int × Int) (injective : Function.Injective place)
      : ((sidePairs 0 maxOffset).map place).Nodup :=
    (sidePairs_nodup 0 maxOffset).map injective
  simp only [ringOffsets, List.nodup_append, List.mem_append, List.mem_map, Prod.exists,
    mem_sidePairs]
  refine ⟨⟨⟨?_, ?_, ?_⟩, ?_, ?_⟩, ?_, ?_⟩
  · exact sideNodup _ (by rintro ⟨_, _⟩ ⟨_, _⟩ h; simp only [Prod.mk.injEq] at h ⊢; omega)
  · exact sideNodup _ (by rintro ⟨_, _⟩ ⟨_, _⟩ h; simp only [Prod.mk.injEq] at h ⊢; omega)
  · rintro _ ⟨_, _, _, rfl⟩ _ ⟨_, _, _, rfl⟩ same
    simp only [Prod.mk.injEq] at same
    omega
  · exact sideNodup _ (by rintro ⟨_, _⟩ ⟨_, _⟩ h; simp only [Prod.mk.injEq] at h ⊢; omega)
  · rintro _ (⟨_, _, _, rfl⟩ | ⟨_, _, _, rfl⟩) _ ⟨_, _, _, rfl⟩ same <;>
      (simp only [Prod.mk.injEq] at same; omega)
  · exact sideNodup _ (by rintro ⟨_, _⟩ ⟨_, _⟩ h; simp only [Prod.mk.injEq] at h ⊢; omega)
  · rintro _ ((⟨_, _, _, rfl⟩ | ⟨_, _, _, rfl⟩) | ⟨_, _, _, rfl⟩) _ ⟨_, _, _, rfl⟩ same <;>
      (simp only [Prod.mk.injEq] at same; omega)

theorem offsetsTo_succ (maxOffset : Nat)
    : offsetsTo (maxOffset + 1) = offsetsTo maxOffset ++ ringOffsets (maxOffset + 1) := by
  simp [offsetsTo, List.range_succ, List.flatMap_append]

/-- The walk up to a diamond has the offsets within its distance. -/
theorem mem_offsetsTo {maxOffset : Nat} {offset : Int × Int}
    : offset ∈ offsetsTo maxOffset ↔ offsetNorm offset ≤ maxOffset := by
  induction maxOffset with
  | zero =>
      obtain ⟨latOff, longOff⟩ := offset
      simp only [offsetsTo, List.range_zero, List.flatMap_nil, List.mem_singleton,
        Prod.mk.injEq, offsetNorm]
      omega
  | succ maxOffset ih =>
      rw [offsetsTo_succ, List.mem_append, ih, mem_ringOffsets (by omega)]
      omega

/-- The walk has no offset twice. -/
theorem offsetsTo_nodup (maxOffset : Nat) : (offsetsTo maxOffset).Nodup := by
  induction maxOffset with
  | zero => simp [offsetsTo]
  | succ maxOffset ih =>
      rw [offsetsTo_succ]
      refine List.nodup_append.mpr ⟨ih, ringOffsets_nodup _, ?_⟩
      intro left inner right outer same
      subst same
      have near := mem_offsetsTo.mp inner
      have far := (mem_ringOffsets (by omega)).mp outer
      omega

end PplMe.Engine
