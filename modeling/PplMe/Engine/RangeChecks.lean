import PplMe.Engine.GridResolution
import PplMe.Engine.FindsOnGrid

/-! Which positions the matching provider's range checks let through.
A coordinate is shifted and truncated before it is checked, and truncation takes everything
within a degree outside the map to its border.
-/

namespace PplMe.Engine

open PplMe.Core Floats

namespace GridSettings

variable {settings : GridSettings}

/-- With exact arithmetic a coordinate passes its check up to a whole degree off the map. -/
theorem coordinateIndex_isOk_iff (exact : settings.rounding = .exact) {shift : Nat}
    {failed : Fault} {coordinate : ℚ} (small : 2 * shift < 2 ^ 31)
    : (∃ index, settings.coordinateIndex shift failed (.finite coordinate) = .ok index)
      ↔ -(shift : ℚ) - 1 < coordinate ∧ coordinate < shift + 1 := by
  have nonneg := @truncate_nonneg_iff (coordinate + (shift : ℤ))
  have bounded := @truncate_le_iff (coordinate + (shift : ℤ)) (2 * shift)
  have range
      : (0 ≤ truncate (coordinate + (shift : ℤ))
          ∧ truncate (coordinate + (shift : ℤ)) ≤ ((2 * shift : ℕ) : ℤ))
        ↔ -(shift : ℚ) - 1 < coordinate ∧ coordinate < shift + 1 := by
    rw [nonneg, bounded]
    push_cast
    constructor
    · rintro ⟨low, high⟩
      exact ⟨by linarith, by linarith⟩
    · rintro ⟨low, high⟩
      exact ⟨by linarith, by linarith⟩
  rw [← range]
  simp only [coordinateIndex, exact, Rounding.exact, FloatValue.addInt, id_eq, FloatValue.toInt?]
  generalize truncate (coordinate + (shift : ℤ)) = index
  by_cases fits : -2 ^ 31 ≤ index ∧ index < 2 ^ 31
  · simp only [if_pos fits]
    split <;> simp_all
  · simp only [if_neg fits, reduceCtorEq, exists_false, false_iff]
    omega

/-- A position is located if both of its coordinates pass their checks. -/
theorem toCellLocator_isOk_iff {position : GeoPosition}
    : (∃ cell, settings.toCellLocator position = .ok cell)
      ↔ (∃ row, settings.getLatitudeIndex position.latitude = .ok row)
        ∧ ∃ column, settings.getLongitudeIndex position.longitude = .ok column := by
  unfold toCellLocator
  cases settings.getLatitudeIndex position.latitude <;>
    cases settings.getLongitudeIndex position.longitude <;>
    simp [bind, Except.bind, pure, Except.pure]

/-- A place passes the checks when it is less than a degree off the map. -/
theorem toCellLocator_isOk_iff_of_exact (exact : settings.rounding = .exact) (place : Place)
    : (∃ cell, settings.toCellLocator place.position = .ok cell)
      ↔ (-91 < place.latitude ∧ place.latitude < 91)
        ∧ -181 < place.longitude ∧ place.longitude < 181 := by
  have row := @coordinateIndex_isOk_iff settings exact 90 .latitudeCheck place.latitude
    (by norm_num)
  have column := @coordinateIndex_isOk_iff settings exact 180 .longitudeCheck place.longitude
    (by norm_num)
  norm_num at row column
  rw [toCellLocator_isOk_iff]
  exact and_congr row column

/-- A place is valid when it is on the map. -/
theorem isValid_place_iff {place : Place}
    : place.position.isValid = true
      ↔ (-90 ≤ place.latitude ∧ place.latitude ≤ 90)
        ∧ -180 ≤ place.longitude
        ∧ place.longitude ≤ 180 := by
  rw [GeoPosition.isValid_iff]
  constructor
  · rintro ⟨_, _, same, ranges⟩
    cases same
    exact ranges
  · intro ranges
    exact ⟨place.latitude, place.longitude, rfl, ranges⟩

/-- The checks and the domain agree on a place exactly if it is valid, or is off the map by a
whole degree at least.
-/
theorem rangeChecks_agree_iff (exact : settings.rounding = .exact) (place : Place)
    : ((∃ cell, settings.toCellLocator place.position = .ok cell)
        ↔ place.position.isValid = true)
      ↔ place.position.isValid = true
        ∨ place.latitude ≤ -91
        ∨ 91 ≤ place.latitude
        ∨ place.longitude ≤ -181
        ∨ 181 ≤ place.longitude := by
  rw [toCellLocator_isOk_iff_of_exact exact place]
  have valid := @isValid_place_iff place
  constructor
  · intro agree
    by_contra! other
    obtain ⟨invalid, south, north, west, east⟩ := other
    exact invalid (agree.mp ⟨⟨south, north⟩, west, east⟩)
  · rintro (onMap | off)
    · obtain ⟨⟨south, north⟩, west, east⟩ := valid.mp onMap
      refine iff_of_true ⟨⟨?_, ?_⟩, ?_, ?_⟩ onMap <;> linarith
    · refine iff_of_false ?_ ?_
      · rintro ⟨⟨south, north⟩, west, east⟩
        rcases off with off | off | off | off <;> linarith
      · intro onMap
        obtain ⟨⟨south, north⟩, west, east⟩ := valid.mp onMap
        rcases off with off | off | off | off <;> linarith

end GridSettings

/-- Half a degree beyond the South Pole, and beyond the antimeridian. -/
def beyondPole : Place := ⟨-181 / 2, 0⟩

def beyondAntimeridian : Place := ⟨0, 361 / 2⟩

/-- Invalid positions are taken to lie in cells at the border of the map, and somebody is stored
there.
-/
theorem rangeChecks_disagree
    : beyondPole.position.isValid = false
      ∧ smallSettings.toCellLocator beyondPole.position = .ok ⟨0, 180⟩
      ∧ (smallSettings.addPerson smallSettings.emptyGrid
            { islander with locationOfHome := beyondPole.position }).toBool = true
      ∧ beyondAntimeridian.position.isValid = false
      ∧ smallSettings.toCellLocator beyondAntimeridian.position = .ok ⟨90, 360⟩ := by
  refine ⟨?_, ?_, ?_, ?_, ?_⟩ <;> decide +kernel

/-- On the island a position is located, and a whole degree off the map none is. -/
theorem rangeChecks_agree_iff_island
    : (∃ cell, smallSettings.toCellLocator (Place.position ⟨0, 0⟩) = .ok cell)
      ∧ ¬∃ cell, smallSettings.toCellLocator (Place.position ⟨91, 0⟩) = .ok cell := by
  have island := @GridSettings.rangeChecks_agree_iff smallSettings.toGridSettings rfl ⟨0, 0⟩
  have beyond := @GridSettings.rangeChecks_agree_iff smallSettings.toGridSettings rfl ⟨91, 0⟩
  constructor
  · exact (island.mpr (.inl nullIsland_isValid)).mpr nullIsland_isValid
  · intro located
    have valid := (beyond.mpr (.inr (.inr (.inl le_rfl)))).mp located
    revert valid
    decide +kernel

end PplMe.Engine
