import PplMe.Engine.SqiralCoverage
import PplMe.Engine.FindsOnGrid

/-! The ints behind the addressing of the matching provider's grid.
The walk over the grid is told once more with a check of every int operation, and the checks
never fail at the resolutions the constructor admits.
-/

namespace PplMe.Engine

open PplMe.Core Failures StoppableVisits

-----------------------------------------------------------------------------------------
-- The walk with its ints checked
-----------------------------------------------------------------------------------------

section Loops

variable {σ : Type} (resolution : Nat) (origin : CellLocator)
  (visit : CellLocator → σ → Bool × σ)

/-- `CheckOffsets`; an index that does not fit an int fails like an operation. -/
def checkOffsetsInInts (latOff longOff : Int) : Except Fault CheckOffsetsResult := do
  let maxLongOffset ← checkedInt (180 * resolution)
  let maxLatIndex ← checkedInt (181 * resolution)
  let row ← checkedInt origin.latitudeIndex
  let latIndex ← checkedInt (row + latOff)
  let minLongOffset ← checkedInt (-maxLongOffset)
  pure
    (if longOff ≤ maxLongOffset ∧ minLongOffset ≤ longOff then
      if 0 ≤ latIndex ∧ latIndex ≤ maxLatIndex then
        if (longOff = maxLongOffset ∨ longOff = minLongOffset)
            ∧ (latIndex = 0 ∨ latIndex = maxLatIndex) then
          .terminal
        else
          .valid
      else
        .invalid
    else
      .invalid)

def wrapLongitudeInInts (longIndex : Int) : Except Fault Int := do
  let columns ← checkedInt (361 * resolution)
  if 0 < longIndex then
    pure (longIndex.tmod columns)
  else if longIndex ≠ 0 then do
    let east ← checkedInt (columns + longIndex)
    pure (east.tmod columns)
  else
    pure longIndex

def offsetCellInInts (latOff longOff : Int) : Except Fault CellLocator := do
  let column ← checkedInt origin.longitudeIndex
  let longIndex ← checkedInt (column + longOff)
  let longIndex ← wrapLongitudeInInts resolution longIndex
  let row ← checkedInt origin.latitudeIndex
  let latIndex ← checkedInt (row + latOff)
  pure ⟨latIndex.toNat, longIndex.toNat⟩

def doCellInInts (latOff longOff : Int) (walk : Walk σ) : Except Fault (Bool × Walk σ) := do
  let result ← checkOffsetsInInts resolution origin latOff longOff
  let cornerCount :=
    if result = .terminal then walk.cornerCount + 1 else walk.cornerCount
  if result = .terminal ∨ result = .valid then do
    let cell ← offsetCellInInts resolution origin latOff longOff
    let (done, state) := visit cell walk.state
    pure (done, ⟨cornerCount, state⟩)
  else
    pure (false, ⟨cornerCount, walk.state⟩)

/-- One side of a diamond, with its counters checked. -/
def sideInInts (place : Nat → Nat → Walk σ → Except Fault (Bool × Walk σ))
    : Nat → Nat → Bool × Walk σ → Except Fault (Bool × Walk σ)
  | _, 0, progress => pure progress
  | _, _ + 1, (true, walk) => pure (true, walk)
  | grown, shrunk + 1, (false, walk) => do
      let progress ← place grown (shrunk + 1) walk
      let _ ← checkedInt (grown + 1)
      sideInInts place (grown + 1) shrunk progress

/-- The four sides of a diamond; the offsets to the south and to the west are negated ints. -/
def ringInInts (maxOffset : Nat) (progress : Bool × Walk σ) : Except Fault (Bool × Walk σ) := do
  let progress ← sideInInts
    (fun east north => doCellInInts resolution origin visit north east) 0 maxOffset progress
  let progress ← sideInInts
    (fun south east walk => do
      let latOff ← checkedInt (-south)
      doCellInInts resolution origin visit latOff east walk) 0 maxOffset progress
  let progress ← sideInInts
    (fun west south walk => do
      let latOff ← checkedInt (-south)
      let longOff ← checkedInt (-west)
      doCellInInts resolution origin visit latOff longOff walk) 0 maxOffset progress
  sideInInts
    (fun north west walk => do
      let longOff ← checkedInt (-west)
      doCellInInts resolution origin visit north longOff walk) 0 maxOffset progress

def ringsInInts : Nat → Nat → Bool × Walk σ → Except Fault (Option (Bool × Walk σ))
  | fuel, maxOffset, (done, walk) =>
      if walk.cornerCount ≠ 4 ∧ done = false then
        match fuel with
        | 0 => pure none
        | fuel + 1 => do
            let progress ← ringInInts resolution origin visit maxOffset (done, walk)
            let _ ← checkedInt (maxOffset + 1)
            ringsInInts fuel (maxOffset + 1) progress
      else
        pure (some (done, walk))

/-- `Sqiral`, whose result is a fault where an int operation overflows. -/
def sqiralInInts (initial : σ) : Except Fault (Option (Bool × σ)) := do
  let first ← doCellInInts resolution origin visit 0 0 ⟨0, initial⟩
  let walked ← ringsInInts resolution origin visit (361 * resolution) 1 first
  pure (walked.map (fun (done, walk) => (done, walk.state)))

end Loops

-----------------------------------------------------------------------------------------
-- No check fails
-----------------------------------------------------------------------------------------

section Fitting

variable {σ : Type} {resolution : Nat} {origin : CellLocator}
  {visit : CellLocator → σ → Bool × σ}

/-- The walk's ints are far from their limits: resolutions are small, the origin is on the grid,
and offsets are as many as the walk has diamonds.
-/
structure Fits (resolution : Nat) (origin : CellLocator) (offset : Int × Int) : Prop where
  small : resolution ≤ 100
  row : origin.latitudeIndex ≤ 181 * resolution
  column : origin.longitudeIndex ≤ 361 * resolution
  near : offsetNorm offset ≤ 2 ^ 30

variable {latOff longOff : Int}

theorem checkOffsetsInInts_eq (fits : Fits resolution origin (latOff, longOff))
    : checkOffsetsInInts resolution origin latOff longOff
      = .ok (checkOffsets resolution origin latOff longOff) := by
  obtain ⟨small, row, column, near⟩ := fits
  simp only [offsetNorm] at near
  have maxLongOffset := @checkedInt_eq_ok (180 * resolution) (by omega) (by omega)
  have maxLatIndex := @checkedInt_eq_ok (181 * resolution) (by omega) (by omega)
  have originRow := @checkedInt_eq_ok origin.latitudeIndex (by omega) (by omega)
  have latIndex := @checkedInt_eq_ok (origin.latitudeIndex + latOff) (by omega) (by omega)
  have minLongOffset := @checkedInt_eq_ok (-(180 * resolution)) (by omega) (by omega)
  simp only [checkOffsetsInInts, maxLongOffset, maxLatIndex, originRow, latIndex, minLongOffset,
    ok_bind]
  rfl

theorem wrapLongitudeInInts_eq {longIndex : Int} (small : resolution ≤ 100)
    (near : longIndex.natAbs ≤ 2 ^ 30 + 2 ^ 16)
    : wrapLongitudeInInts resolution longIndex = .ok (wrapLongitude resolution longIndex) := by
  have columns := @checkedInt_eq_ok (361 * resolution) (by omega) (by omega)
  rw [wrapLongitudeInInts, wrapLongitude, columns, ok_bind]
  split
  · rfl
  · split
    · have east := @checkedInt_eq_ok (361 * resolution + longIndex) (by omega) (by omega)
      rw [east, ok_bind]
      rfl
    · rfl

theorem offsetCellInInts_eq (fits : Fits resolution origin (latOff, longOff))
    : offsetCellInInts resolution origin latOff longOff
      = .ok (offsetCell resolution origin latOff longOff) := by
  obtain ⟨small, row, column, near⟩ := fits
  simp only [offsetNorm] at near
  have originColumn := @checkedInt_eq_ok origin.longitudeIndex (by omega) (by omega)
  have longIndex := @checkedInt_eq_ok (origin.longitudeIndex + longOff) (by omega) (by omega)
  have wrapped := @wrapLongitudeInInts_eq _ (origin.longitudeIndex + longOff) small (by omega)
  have originRow := @checkedInt_eq_ok origin.latitudeIndex (by omega) (by omega)
  have latIndex := @checkedInt_eq_ok (origin.latitudeIndex + latOff) (by omega) (by omega)
  rw [offsetCellInInts, originColumn, ok_bind, longIndex, ok_bind, wrapped, ok_bind, originRow,
    ok_bind, latIndex, ok_bind]
  rfl

theorem doCellInInts_eq (fits : Fits resolution origin (latOff, longOff)) (walk : Walk σ)
    : doCellInInts resolution origin visit latOff longOff walk
      = .ok (doCell resolution origin visit latOff longOff walk) := by
  simp only [doCellInInts, doCell, checkOffsetsInInts_eq fits, offsetCellInInts_eq fits, ok_bind]
  split <;> rfl

/-- A side's counters fit as long as its length does, by induction on what is left of it. -/
theorem sideInInts_eq {place : Nat → Nat → Walk σ → Except Fault (Bool × Walk σ)}
    {placed : Nat → Nat → Walk σ → Bool × Walk σ} (grown shrunk : Nat)
    (progress : Bool × Walk σ) (short : grown + shrunk < 2 ^ 30)
    (places
      : ∀ left right walk,
          left + right = grown + shrunk → place left right walk = .ok (placed left right walk))
    : sideInInts place grown shrunk progress = .ok (side placed grown shrunk progress) := by
  induction shrunk generalizing grown progress with
  | zero => rfl
  | succ shrunk ih =>
      obtain ⟨_ | _, walk⟩ := progress
      · have counted := @checkedInt_eq_ok (grown + 1) (by omega) (by omega)
        rw [sideInInts, places grown (shrunk + 1) walk rfl, ok_bind, counted, ok_bind]
        exact ih (grown + 1) _ (by omega)
          (fun left right walk whole => places left right walk (by omega))
      · rfl

/-- A diamond's ints fit as long as it is not too large. -/
theorem ringInInts_eq (small : resolution ≤ 100)
    (row : origin.latitudeIndex ≤ 181 * resolution)
    (column : origin.longitudeIndex ≤ 361 * resolution) {maxOffset : Nat}
    (short : maxOffset < 2 ^ 30) (progress : Bool × Walk σ)
    : ringInInts resolution origin visit maxOffset progress
      = .ok (ring resolution origin visit maxOffset progress) := by
  have cell {latOff longOff : Int} (near : latOff.natAbs + longOff.natAbs = 0 + maxOffset)
      (walk : Walk σ)
      : doCellInInts resolution origin visit latOff longOff walk
        = .ok (doCell resolution origin visit latOff longOff walk) :=
    doCellInInts_eq ⟨small, row, column, by simp only [offsetNorm]; omega⟩ walk
  have negated {offset : Nat} (within : offset ≤ 0 + maxOffset)
      : checkedInt (-(offset : Int)) = .ok (-(offset : Int)) :=
    checkedInt_eq_ok (by omega) (by omega)
  rw [ringInInts, ring]
  rw [@sideInInts_eq σ _ (fun east north => doCell resolution origin visit north east)
      0 maxOffset _ (by omega), ok_bind,
    @sideInInts_eq σ _ (fun south east => doCell resolution origin visit (-south) east)
      0 maxOffset _ (by omega), ok_bind,
    @sideInInts_eq σ _ (fun west south => doCell resolution origin visit (-south) (-west))
      0 maxOffset _ (by omega), ok_bind,
    @sideInInts_eq σ _ (fun north west => doCell resolution origin visit north (-west))
      0 maxOffset _ (by omega)]
  · intro north west walk whole
    rw [negated (by omega), ok_bind, cell (by omega)]
  · intro west south walk whole
    rw [negated (by omega), ok_bind, negated (by omega), ok_bind, cell (by omega)]
  · intro south east walk whole
    rw [negated (by omega), ok_bind, cell (by omega)]
  · intro east north walk whole
    rw [cell (by omega)]

/-- The diamonds' ints fit as long as the last one is not too large, by induction on the fuel. -/
theorem ringsInInts_eq (small : resolution ≤ 100)
    (row : origin.latitudeIndex ≤ 181 * resolution)
    (column : origin.longitudeIndex ≤ 361 * resolution) (fuel maxOffset : Nat)
    (short : maxOffset + fuel < 2 ^ 30) (progress : Bool × Walk σ)
    : ringsInInts resolution origin visit fuel maxOffset progress
      = .ok (rings resolution origin visit fuel maxOffset progress) := by
  induction fuel generalizing maxOffset progress with
  | zero =>
      rw [ringsInInts.eq_def, rings.eq_def]
      dsimp only
      split <;> rfl
  | succ fuel ih =>
      rw [ringsInInts.eq_def, rings.eq_def]
      dsimp only
      split
      · have counted := @checkedInt_eq_ok (maxOffset + 1) (by omega) (by omega)
        rw [ringInInts_eq small row column (by omega), ok_bind, counted, ok_bind]
        exact ih (maxOffset + 1) (by omega) _
      · rfl

/-- From an origin on the grid, with any callback, no int operation of the walk overflows. -/
theorem sqiralInInts_eq (small : resolution ≤ 100)
    (row : origin.latitudeIndex ≤ 181 * resolution)
    (column : origin.longitudeIndex ≤ 361 * resolution) (initial : σ)
    : sqiralInInts resolution origin visit initial
      = .ok (sqiral resolution origin visit initial) := by
  have first := @doCellInInts_eq σ resolution origin visit 0 0 ⟨small, row, column, Nat.zero_le _⟩
    ⟨0, initial⟩
  rw [sqiralInInts, first, ok_bind, ringsInInts_eq small row column _ _ (by omega), ok_bind]
  rfl

end Fitting

-----------------------------------------------------------------------------------------
-- Addressing
-----------------------------------------------------------------------------------------

namespace Settings

/-- Cells that are looked up: those of valid positions, and those that a walk from one of these
calls back on.
-/
inductive Addressed (settings : Settings) : CellLocator → Prop
  | located {position cell} (valid : GeoPosition.isValid position = true)
    (locator : settings.toCellLocator position = .ok cell)
    : Addressed settings cell
  | walked {position origin cell} (valid : GeoPosition.isValid position = true)
    (locator : settings.toCellLocator position = .ok origin)
    (called : cell ∈ sqiralCells settings.resolution origin)
    : Addressed settings cell

variable {settings : Settings}

/-- The origin of a walk is within the map. -/
theorem origin_bounds {position : GeoPosition} {origin : CellLocator}
    (valid : position.isValid = true) (locator : settings.toCellLocator position = .ok origin)
    : origin.latitudeIndex ≤ 180 * settings.resolution
      ∧ origin.longitudeIndex ≤ 360 * settings.resolution := by
  obtain ⟨latitude, row, longitude, column, located⟩ := settings.toCellLocator_of_isValid valid
  cases located.symm.trans locator
  exact ⟨Nat.mul_le_mul_right _ row, Nat.mul_le_mul_right _ column⟩

theorem Addressed.onGrid {cell : CellLocator} (addressed : settings.Addressed cell)
    : settings.OnGrid cell := by
  have positive := settings.resolutionPositive
  cases addressed with
  | located valid locator =>
      obtain ⟨row, column⟩ := origin_bounds valid locator
      exact ⟨by omega, by omega⟩
  | walked valid locator called =>
      obtain ⟨row, _⟩ := origin_bounds valid locator
      exact sqiralCells_onGrid positive (by omega) called

/-- Cells that are looked up have indices below the grid's size, each its own; with any callback
a walk is the visit of its cells, and no int operation of it overflows; it meets four corners at
most; and the other products of the resolution and the grid's size fit an int.
-/
theorem gridAddressing (settings : Settings)
    : (∀ cell, settings.Addressed cell
        → settings.getPplIndex cell < calculateSizeForPplGrid settings.resolution)
      ∧ (∀ left right, settings.Addressed left → settings.Addressed right
        → (settings.getPplIndex left = settings.getPplIndex right ↔ left = right))
      ∧ (∀ position origin, GeoPosition.isValid position = true
        → settings.toCellLocator position = .ok origin
        → (∀ (σ : Type) (visit : CellLocator → σ → Bool × σ) (initial : σ),
            sqiralInInts settings.resolution origin visit initial
            = .ok
              (some
                (visitUntil visit (sqiralCells settings.resolution origin) initial)))
          ∧ ∀ maxOffset, (offsetsTo maxOffset).countP
              (fun offset =>
                checkOffsets settings.resolution origin offset.1 offset.2 = .terminal)
            ≤ 4)
      ∧ (∀ factor : Nat, factor ≤ 362
        → checkedInt (factor * settings.resolution) = .ok (factor * settings.resolution))
      ∧ calculateSizeForPplGrid settings.resolution < 2 ^ 31 := by
  have positive := settings.resolutionPositive
  have small := settings.resolutionAdmitted
  refine ⟨fun cell addressed => settings.getPplIndex_lt addressed.onGrid, ?_, ?_, ?_, ?_⟩
  · intro left right onLeft onRight
    exact ⟨settings.getPplIndex_injective onLeft.onGrid onRight.onGrid,
      congrArg settings.getPplIndex⟩
  · intro position origin valid locator
    obtain ⟨row, column⟩ := origin_bounds valid locator
    refine ⟨fun σ visit initial => ?_, fun maxOffset => ?_⟩
    · rw [sqiralInInts_eq small (by omega) (by omega),
        sqiral_eq_visitUntil positive (by omega)]
    · exact countP_terminal_le_four positive maxOffset
  · intro factor bound
    have product : factor * settings.resolution ≤ 362 * 100 := Nat.mul_le_mul bound small
    exact checkedInt_eq_ok (by omega) (by exact_mod_cast Nat.lt_of_le_of_lt product (by norm_num))
  · rw [calculateSizeForPplGrid_eq]
    have rows : 182 * settings.resolution ≤ 18200 := by omega
    have columns : 362 * settings.resolution ≤ 36200 := by omega
    exact Nat.lt_of_le_of_lt (Nat.mul_le_mul rows columns) (by norm_num)

end Settings

end PplMe.Engine
