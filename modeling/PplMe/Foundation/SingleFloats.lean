import PplMe.Foundation.Floats
import Mathlib.Tactic.Ring

/-! Single-precision floating-point values and their bits.
Below the sign bit, the bits of a finite value are the place of its magnitude among all
magnitudes in order. Every magnitude is a whole number of the smallest one's units.
-/

namespace Floats

/-- The bits of positive infinity: whatever is below them is a finite magnitude. -/
def infinityBits : Nat := 255 * 2 ^ 23

/-- A finite magnitude in units of the smallest one: from the second exponent on the significand
has a leading one that is not stored.
-/
def unitsOfBits (bits : Nat) : Nat :=
  if bits < 2 ^ 23 then
    bits
  else
    (2 ^ 23 + bits % 2 ^ 23) * 2 ^ (bits / 2 ^ 23 - 1)

/-- The bits of a finite magnitude; of a longer significand the upper ones are kept. -/
def bitsOfUnits (units : Nat) : Nat :=
  if units < 2 ^ 23 then
    units
  else
    (units.log2 - 23) * 2 ^ 23 + units / 2 ^ (units.log2 - 23)

/-- The smallest positive value. -/
def smallest : ℚ := 1 / 2 ^ 149

def signed (negative : Bool) (value : ℚ) : ℚ := if negative then -value else value

/-- The bits of a sign, and of what stands below it. -/
def signedBits (negative : Bool) (bits : Nat) : UInt32 :=
  .ofNat ((if negative then 2 ^ 31 else 0) + bits)

/-- The value of a sign and the bits below it. -/
def FloatValue.ofMagnitude (negative : Bool) (bits : Nat) : FloatValue :=
  if bits < infinityBits then
    .finite (signed negative (unitsOfBits bits * smallest))
  else if bits = infinityBits then
    .infinity negative
  else
    .notANumber

/-- The value of a single-precision float from its bits. -/
def FloatValue.ofBits (bits : UInt32) : FloatValue :=
  .ofMagnitude (decide (2 ^ 31 ≤ bits.toNat)) (bits.toNat % 2 ^ 31)

/-- The bits of a single-precision float from its value. -/
def FloatValue.bits : FloatValue → UInt32
  | .finite value => signedBits (value < 0) (bitsOfUnits ⌊|value| / smallest⌋₊)
  | .infinity negative => signedBits negative infinityBits
  | .notANumber => signedBits false (infinityBits + 2 ^ 22)

/-- The values that a single-precision float may have. -/
def FloatValue.IsSingle (value : FloatValue) : Prop := ∃ bits, FloatValue.ofBits bits = value

-----------------------------------------------------------------------------------------
-- Bits and back
-----------------------------------------------------------------------------------------

section RoundTrip

variable {negative : Bool} {bits units : Nat}

theorem smallest_pos : 0 < smallest := by
  unfold smallest
  positivity

/-- The leading one of the significand shows the exponent. -/
theorem bitsOfUnits_unitsOfBits (bits : Nat) : bitsOfUnits (unitsOfBits bits) = bits := by
  unfold unitsOfBits
  split
  · rename_i small
    exact if_pos small
  · rename_i large
    have low : bits % 2 ^ 23 < 2 ^ 23 := Nat.mod_lt _ (by decide)
    generalize shiftIs : bits / 2 ^ 23 - 1 = shift
    have positive : 0 < 2 ^ shift := Nat.two_pow_pos shift
    have log : ((2 ^ 23 + bits % 2 ^ 23) * 2 ^ shift).log2 = 23 + shift := by
      rw [Nat.log2_eq_iff (by positivity), Nat.pow_add, Nat.add_right_comm, Nat.pow_add]
      exact ⟨Nat.mul_le_mul_right _ (Nat.le_add_right _ _),
        Nat.mul_lt_mul_of_pos_right (by omega) positive⟩
    have notSmall : ¬ (2 ^ 23 + bits % 2 ^ 23) * 2 ^ shift < 2 ^ 23 :=
      Nat.not_lt.mpr ((Nat.le_add_right _ _).trans (Nat.le_mul_of_pos_right _ positive))
    rw [bitsOfUnits, if_neg notSmall, log, Nat.add_sub_cancel_left,
      Nat.mul_div_cancel _ positive]
    omega

theorem abs_signed {value : ℚ} (nonneg : 0 ≤ value) : |signed negative value| = value := by
  cases negative with
  | true => exact (abs_neg _).trans (abs_of_nonneg nonneg)
  | false => exact abs_of_nonneg nonneg

/-- A finite value's units are counted, whatever its sign. -/
theorem units_of_signed : ⌊|signed negative (units * smallest)| / smallest⌋₊ = units := by
  rw [abs_signed (mul_nonneg (Nat.cast_nonneg units) smallest_pos.le),
    mul_div_cancel_right₀ _ smallest_pos.ne', Nat.floor_natCast]

/-- The sign is the most significant bit. -/
theorem ofBits_signedBits (small : bits < 2 ^ 31)
    : FloatValue.ofBits (signedBits negative bits) = FloatValue.ofMagnitude negative bits := by
  have parts : (signedBits negative bits).toNat % 2 ^ 31 = bits
      ∧ decide (2 ^ 31 ≤ (signedBits negative bits).toNat) = negative := by
    cases negative with
    | true =>
        have word : (signedBits true bits).toNat = 2 ^ 31 + bits := by
          rw [signedBits, if_pos rfl, UInt32.toNat_ofNat']
          exact Nat.mod_eq_of_lt (by omega)
        rw [word]
        exact ⟨by omega, decide_eq_true (by omega)⟩
    | false =>
        have word : (signedBits false bits).toNat = bits := by
          rw [signedBits, if_neg Bool.false_ne_true, Nat.zero_add, UInt32.toNat_ofNat']
          exact Nat.mod_eq_of_lt (by omega)
        rw [word]
        exact ⟨by omega, decide_eq_false (by omega)⟩
  rw [FloatValue.ofBits, parts.1, parts.2]

/-- The sign of a value is that of what it came from, unless that is zero. -/
theorem signed_decide (value : ℚ) (nonneg : 0 ≤ value)
    : signed (decide (signed negative value < 0)) value = signed negative value := by
  cases negative with
  | false =>
      have notNegative : ¬ value < 0 := not_lt.mpr nonneg
      simp [signed, notNegative]
  | true =>
      rcases nonneg.eq_or_lt with rfl | positive
      · simp [signed]
      · simp [signed, positive]

theorem ofBits_bits_ofMagnitude (negative : Bool) (bits : Nat)
    : FloatValue.ofBits (FloatValue.ofMagnitude negative bits).bits
      = FloatValue.ofMagnitude negative bits := by
  have small : infinityBits < 2 ^ 31 := by decide
  by_cases finite : bits < infinityBits
  · rw [FloatValue.ofMagnitude, if_pos finite, FloatValue.bits, units_of_signed,
      bitsOfUnits_unitsOfBits, ofBits_signedBits (finite.trans small), FloatValue.ofMagnitude,
      if_pos finite, signed_decide _ (mul_nonneg (Nat.cast_nonneg _) smallest_pos.le)]
  · by_cases infinite : bits = infinityBits
    · rw [FloatValue.ofMagnitude, if_neg finite, if_pos infinite, FloatValue.bits,
        ofBits_signedBits small, FloatValue.ofMagnitude, if_neg (lt_irrefl _), if_pos rfl]
    · rw [FloatValue.ofMagnitude, if_neg finite, if_neg infinite]
      decide +kernel

/-- The bits of a value are the ones it came from, but for the payload of a not-a-number and the
sign of zero.
-/
theorem ofBits_bits {value : FloatValue} (single : value.IsSingle)
    : FloatValue.ofBits value.bits = value := by
  obtain ⟨word, rfl⟩ := single
  exact ofBits_bits_ofMagnitude _ _

end RoundTrip

end Floats
