import Mathlib.Data.Rat.Floor
import Mathlib.Algebra.Order.Floor.Ring
import Mathlib.Tactic.Linarith
import Mathlib.Tactic.NormNum

/-! Floating-point values as exact rationals with infinities and a not-a-number.
A host rounds a sum by some monotone function that leaves small integers alone; results
that hold for every such rounding hold for a single-precision host and for exact arithmetic.
-/

namespace Floats

/-- What a floating-point variable may hold. -/
inductive FloatValue where
  | finite (value : ℚ)
  | infinity (negative : Bool)
  | notANumber
  deriving DecidableEq, Repr

/-- How a host rounds an exact sum back to a representable value. -/
structure Rounding where
  round : ℚ → ℚ
  monotone : Monotone round
  fixesInt : ∀ n : ℤ, |n| ≤ 2 ^ 24 → round n = n

/-- Arithmetic that does not round. -/
def Rounding.exact : Rounding where
  round := id
  monotone := monotone_id
  fixesInt _ _ := rfl

namespace FloatValue

/-- `value >= n`; a not-a-number compares false. -/
def ge : FloatValue → ℤ → Bool
  | finite value, n => decide ((n : ℚ) ≤ value)
  | infinity negative, _ => !negative
  | notANumber, _ => false

/-- `value <= n`; a not-a-number compares false. -/
def le : FloatValue → ℤ → Bool
  | finite value, n => decide (value ≤ (n : ℚ))
  | infinity negative, _ => negative
  | notANumber, _ => false

/-- `value + n`, rounded by the host. -/
def addInt (rounding : Rounding) : FloatValue → ℤ → FloatValue
  | finite value, n => finite (rounding.round (value + n))
  | infinity negative, _ => infinity negative
  | notANumber, _ => notANumber

end FloatValue

/-- Drop the fractional part, towards zero. -/
def truncate (value : ℚ) : ℤ := if 0 ≤ value then ⌊value⌋ else ⌈value⌉

/-- Conversion to a 32-bit int, undefined outside its range. -/
def FloatValue.toInt? : FloatValue → Option ℤ
  | .finite value =>
      if -2 ^ 31 ≤ truncate value ∧ truncate value < 2 ^ 31 then
        some (truncate value)
      else
        none
  | _ => none

@[simp] theorem truncate_of_nonneg {value : ℚ} (nonneg : 0 ≤ value)
    : truncate value = ⌊value⌋ :=
  if_pos nonneg

/-- Everything from just above -1 on truncates to a non-negative integer. -/
theorem truncate_nonneg_iff {value : ℚ} : 0 ≤ truncate value ↔ -1 < value := by
  unfold truncate
  split
  · rename_i nonneg
    exact iff_of_true (Int.floor_nonneg.mpr nonneg) (by linarith)
  · rw [← Int.sub_one_lt_iff, Int.lt_ceil]
    norm_num

/-- Everything up to just below the next integer truncates to at most a natural number. -/
theorem truncate_le_iff {value : ℚ} {high : ℕ} : truncate value ≤ high ↔ value < high + 1 := by
  unfold truncate
  split
  · rw [Int.floor_le_iff]
    norm_cast
  · rename_i negative
    have top : (0 : ℚ) ≤ high := Nat.cast_nonneg high
    refine iff_of_true (Int.ceil_le.mpr ?_) (by linarith)
    push_cast
    linarith

/-- A value between two natural bounds truncates between them. -/
theorem truncate_mem_Icc {value : ℚ} {high : ℕ} (low : 0 ≤ value) (bound : value ≤ high)
    : 0 ≤ truncate value ∧ truncate value ≤ high := by
  rw [truncate_of_nonneg low]
  refine ⟨Int.floor_nonneg.mpr low, ?_⟩
  have lifted : (⌊value⌋ : ℚ) ≤ (high : ℤ) :=
    le_trans (Int.floor_le value) (by exact_mod_cast bound)
  exact_mod_cast lifted

/-- A sum between two small naturals rounds between them. -/
theorem Rounding.mem_Icc (rounding : Rounding) {value : ℚ} {high : ℕ}
    (small : high ≤ 2 ^ 24) (low : 0 ≤ value) (bound : value ≤ high)
    : 0 ≤ rounding.round value ∧ rounding.round value ≤ high := by
  have zero : rounding.round 0 = 0 := by simpa using rounding.fixesInt 0 (by norm_num)
  have top : rounding.round high = high := by
    have fixed := rounding.fixesInt high (by rw [abs_of_nonneg (by simp)]; exact_mod_cast small)
    simpa using fixed
  exact ⟨zero ▸ rounding.monotone low, top ▸ rounding.monotone bound⟩

/-- Shifting a value of `[-shift, shift]` by `shift` converts to an int of `[0, 2 * shift]`. -/
theorem toInt?_addInt_of_mem (rounding : Rounding) {value : ℚ} {shift : ℕ}
    (small : 2 * shift ≤ 2 ^ 24) (low : -(shift : ℚ) ≤ value) (high : value ≤ shift)
    : ∃ index : ℕ,
        index ≤ 2 * shift
        ∧ ((FloatValue.finite value).addInt rounding shift).toInt? = some (index : ℤ) := by
  have sumLow : (0 : ℚ) ≤ value + (shift : ℤ) := by push_cast; linarith
  have sumHigh : value + (shift : ℤ) ≤ ((2 * shift : ℕ) : ℚ) := by push_cast; linarith
  obtain ⟨roundLow, roundHigh⟩ := rounding.mem_Icc small sumLow sumHigh
  obtain ⟨indexLow, indexHigh⟩ := truncate_mem_Icc roundLow roundHigh
  obtain ⟨index, same⟩ := Int.eq_ofNat_of_zero_le indexLow
  refine ⟨index, by omega, ?_⟩
  have inRange : -2 ^ 31 ≤ (index : ℤ) ∧ (index : ℤ) < 2 ^ 31 := by omega
  simp only [FloatValue.addInt, FloatValue.toInt?, same, if_pos inRange]

end Floats
