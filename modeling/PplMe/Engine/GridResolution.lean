import PplMe.Engine.PplGrid

/-! Which positions share a cell.
A grid of some resolution is to have as many cells per degree. The code truncates a position
to whole degrees before it multiplies, so that its cells are squares of one degree at any
resolution.
-/

namespace PplMe.Engine

open PplMe.Core Floats

/-- The places lie in one cell of a grid with so many cells per degree. -/
def SameCell (resolution : Nat) (here there : Place) : Prop :=
  ⌊resolution * (here.latitude + 90)⌋ = ⌊resolution * (there.latitude + 90)⌋
  ∧ ⌊resolution * (here.longitude + 180)⌋ = ⌊resolution * (there.longitude + 180)⌋

/-- The places lie in one square of whole degrees. -/
def SameDegrees (here there : Place) : Prop :=
  ⌊here.latitude⌋ = ⌊there.latitude⌋ ∧ ⌊here.longitude⌋ = ⌊there.longitude⌋

/-- Numbers that share a part of a whole share the whole. -/
theorem floor_eq_of_floor_mul_eq {parts : Nat} {here there : ℚ} (positive : 0 < parts)
    (same : ⌊parts * here⌋ = ⌊parts * there⌋)
    : ⌊here⌋ = ⌊there⌋ := by
  have le {here there : ℚ} (same : ⌊parts * here⌋ = ⌊parts * there⌋) : ⌊here⌋ ≤ ⌊there⌋ := by
    have scale : (0 : ℚ) < parts := Nat.cast_pos.mpr positive
    have below : (parts : ℚ) * ⌊here⌋ ≤ parts * here :=
      mul_le_mul_of_nonneg_left (Int.floor_le here) scale.le
    have whole : (parts : ℤ) * ⌊here⌋ ≤ ⌊parts * here⌋ := Int.le_floor.mpr (by exact_mod_cast below)
    have reached : ((parts : ℤ) * ⌊here⌋ : ℚ) ≤ parts * there := by
      exact_mod_cast Int.le_floor.mp (same ▸ whole)
    exact Int.le_floor.mpr (le_of_mul_le_mul_left (by exact_mod_cast reached) scale)
  exact le_antisymm (le same) (le same.symm)

theorem sameDegrees_of_sameCell {resolution : Nat} {here there : Place}
    (positive : 0 < resolution) (same : SameCell resolution here there)
    : SameDegrees here there := by
  have latitude := floor_eq_of_floor_mul_eq positive same.1
  have longitude := floor_eq_of_floor_mul_eq positive same.2
  simp only [Int.floor_add_ofNat] at latitude longitude
  exact ⟨by omega, by omega⟩

namespace GridSettings

variable {settings : GridSettings}

/-- With exact arithmetic a coordinate's index is its whole degrees, times the resolution. -/
theorem coordinateIndex_of_exact (exact : settings.rounding = .exact) {shift : Nat}
    {failed : Fault} {coordinate : ℚ} (small : 2 * shift ≤ 2 ^ 24)
    (low : -(shift : ℚ) ≤ coordinate) (high : coordinate ≤ shift)
    : settings.coordinateIndex shift failed (.finite coordinate)
      = .ok (⌊coordinate + shift⌋ * settings.resolution).toNat := by
  have nonneg : 0 ≤ coordinate + (shift : ℤ) := by
    push_cast
    linarith
  have truncated : truncate (coordinate + (shift : ℤ)) = ⌊coordinate + shift⌋ := by
    rw [truncate_of_nonneg nonneg, Int.cast_natCast]
  have lower : 0 ≤ ⌊coordinate + shift⌋ := Int.floor_nonneg.mpr (by linarith)
  have upper : ⌊coordinate + shift⌋ ≤ 2 * shift := by
    have whole : (⌊coordinate + shift⌋ : ℚ) ≤ ((2 * shift : ℕ) : ℤ) := by
      refine (Int.floor_le _).trans ?_
      push_cast
      linarith
    exact_mod_cast whole
  have fits : -2 ^ 31 ≤ ⌊coordinate + shift⌋ ∧ ⌊coordinate + shift⌋ < 2 ^ 31 := by omega
  have onMap : 0 ≤ ⌊coordinate + shift⌋ ∧ ⌊coordinate + shift⌋ ≤ ((2 * shift : ℕ) : ℤ) := by
    omega
  simp only [coordinateIndex, exact, Rounding.exact, FloatValue.addInt, id_eq, FloatValue.toInt?,
    truncated, if_pos fits, if_pos onMap]

/-- The cell of a place: its whole degrees from the south-west corner, times the resolution. -/
theorem toCellLocator_of_exact (exact : settings.rounding = .exact) {place : Place}
    (valid : place.position.isValid = true)
    : settings.toCellLocator place.position
        = .ok
          ⟨((⌊place.latitude⌋ + 90) * settings.resolution).toNat,
            ((⌊place.longitude⌋ + 180) * settings.resolution).toNat⟩
      ∧ 0 ≤ ⌊place.latitude⌋ + 90
      ∧ 0 ≤ ⌊place.longitude⌋ + 180 := by
  obtain ⟨_, _, same, latRange, longRange⟩ := GeoPosition.isValid_iff.mp valid
  cases same
  have row := @coordinateIndex_of_exact settings exact 90 .latitudeCheck place.latitude
    (by norm_num) (by exact_mod_cast latRange.1) (by exact_mod_cast latRange.2)
  have column := @coordinateIndex_of_exact settings exact 180 .longitudeCheck place.longitude
    (by norm_num) (by exact_mod_cast longRange.1) (by exact_mod_cast longRange.2)
  rw [Int.floor_add_natCast] at row column
  have south : -90 ≤ ⌊place.latitude⌋ := Int.le_floor.mpr (by exact_mod_cast latRange.1)
  have west : -180 ≤ ⌊place.longitude⌋ := Int.le_floor.mpr (by exact_mod_cast longRange.1)
  refine ⟨?_, by omega, by omega⟩
  rw [toCellLocator, getLatitudeIndex, getLongitudeIndex, Place.position, row, column]
  rfl

/-- Places share a cell of the code's grid exactly when they share a square of whole degrees. -/
theorem toCellLocator_eq_iff (exact : settings.rounding = .exact) {here there : Place}
    (hereValid : here.position.isValid = true) (thereValid : there.position.isValid = true)
    : settings.toCellLocator here.position = settings.toCellLocator there.position
      ↔ SameDegrees here there := by
  obtain ⟨hereCell, hereSouth, hereWest⟩ := toCellLocator_of_exact exact hereValid
  obtain ⟨thereCell, thereSouth, thereWest⟩ := toCellLocator_of_exact exact thereValid
  have scale : (0 : ℤ) < settings.resolution :=
    Int.natCast_pos.mpr settings.resolutionPositive
  have index_eq_iff {left right : ℤ} (leftNonneg : 0 ≤ left) (rightNonneg : 0 ≤ right)
      : (left * settings.resolution).toNat = (right * settings.resolution).toNat
        ↔ left = right := by
    have leftScaled := Int.mul_nonneg leftNonneg scale.le
    have rightScaled := Int.mul_nonneg rightNonneg scale.le
    constructor
    · intro same
      have products : left * settings.resolution = right * settings.resolution := by omega
      exact mul_right_cancel₀ scale.ne' products
    · exact congrArg (fun index : ℤ => (index * settings.resolution).toNat)
  rw [hereCell, thereCell, Except.ok.injEq, CellLocator.mk.injEq,
    index_eq_iff hereSouth thereSouth, index_eq_iff hereWest thereWest, SameDegrees,
    add_left_inj, add_left_inj]

/-- The code's grid has the cells of its resolution for two places exactly unless they lie in
one square of whole degrees but in different parts of it.
-/
theorem resolution_honoured_iff (exact : settings.rounding = .exact) {here there : Place}
    (hereValid : here.position.isValid = true) (thereValid : there.position.isValid = true)
    : (settings.toCellLocator here.position = settings.toCellLocator there.position
        ↔ SameCell settings.resolution here there)
      ↔ (SameDegrees here there → SameCell settings.resolution here there) := by
  rw [toCellLocator_eq_iff exact hereValid thereValid]
  exact ⟨Iff.mp, fun whole => ⟨whole, sameDegrees_of_sameCell settings.resolutionPositive⟩⟩

end GridSettings

/-- Ten cells per degree. -/
def tenthDegrees : GridSettings :=
  { wholeDegrees with
    resolution := 10
    resolutionPositive := by decide
    resolutionAdmitted := by decide }

/-- Two places half a degree apart share a cell at one cell per degree, and are to share it. -/
theorem resolution_honoured_iff_islands
    : (wholeDegrees.toCellLocator (Place.position ⟨0, 0⟩)
          = wholeDegrees.toCellLocator (Place.position ⟨1 / 2, 0⟩)
        ↔ SameCell wholeDegrees.resolution ⟨0, 0⟩ ⟨1 / 2, 0⟩)
      ↔ (SameDegrees ⟨0, 0⟩ ⟨1 / 2, 0⟩
        → SameCell wholeDegrees.resolution ⟨0, 0⟩ ⟨1 / 2, 0⟩) :=
  GridSettings.resolution_honoured_iff rfl (by decide +kernel) (by decide +kernel)

/-- At ten cells per degree they share a cell of the code's grid, five rows apart. -/
theorem resolution_ignored
    : (Place.position ⟨0, 0⟩).isValid = true
      ∧ (Place.position ⟨1 / 2, 0⟩).isValid = true
      ∧ tenthDegrees.toCellLocator (Place.position ⟨0, 0⟩)
        = tenthDegrees.toCellLocator (Place.position ⟨1 / 2, 0⟩)
      ∧ ¬ SameCell tenthDegrees.resolution ⟨0, 0⟩ ⟨1 / 2, 0⟩ := by
  refine ⟨by decide +kernel, by decide +kernel, by decide +kernel, fun same => ?_⟩
  have rows : ⌊(10 : ℚ) * (0 + 90)⌋ = ⌊(10 : ℚ) * (1 / 2 + 90)⌋ := same.1
  norm_num at rows

end PplMe.Engine
