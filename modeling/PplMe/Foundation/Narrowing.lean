import PplMe.Foundation.SingleFloats
import Mathlib.Order.GaloisConnection.Basic
import Mathlib.Tactic.Linarith

/-! Narrowing to single precision.
Bits and units of magnitudes form a Galois connection, so that keeping the upper bits of a longer
significand rounds towards zero. A narrowing chooses, for a value between single-precision ones, a
neighbouring one.
-/

namespace Floats

section Magnitudes

variable {bits units : Nat}

/-- The units of bits from the second exponent on. -/
theorem unitsOfBits_of_large (large : 2 ^ 23 ≤ bits)
    : unitsOfBits bits = (2 ^ 23 + bits % 2 ^ 23) * 2 ^ (bits / 2 ^ 23 - 1) :=
  if_neg (Nat.not_lt.mpr large)

/-- A longer significand is cut to its upper bits. -/
theorem bitsOfUnits_of_large (large : 2 ^ 23 ≤ units)
    : ∃ shift significand : Nat,
        2 ^ 23 ≤ significand
        ∧ significand < 2 ^ 24
        ∧ units / 2 ^ shift = significand
        ∧ bitsOfUnits units = shift * 2 ^ 23 + significand := by
  have nonzero : units ≠ 0 := by omega
  have log : 23 ≤ units.log2 := (Nat.le_log2 nonzero).mpr large
  have positive : 0 < 2 ^ (units.log2 - 23) := Nat.two_pow_pos _
  refine ⟨units.log2 - 23, _, ?_, ?_, rfl, if_neg (Nat.not_lt.mpr large)⟩
  · rw [Nat.le_div_iff_mul_le positive, ← Nat.pow_add, Nat.add_sub_cancel' log]
    exact Nat.log2_self_le nonzero
  · rw [Nat.div_lt_iff_lt_mul positive, ← Nat.pow_add]
    have exponent : 24 + (units.log2 - 23) = units.log2 + 1 := by omega
    rw [exponent]
    exact Nat.lt_log2_self

/-- The greater exponent makes the greater magnitude, whatever the significands. -/
theorem scaled_le_of_lt {left right exponent shift : Nat} (long : left ≤ 2 ^ 24)
    (short : 2 ^ 23 ≤ right) (less : exponent < shift)
    : left * 2 ^ exponent ≤ right * 2 ^ shift := by
  calc left * 2 ^ exponent
      ≤ 2 ^ 24 * 2 ^ exponent := Nat.mul_le_mul_right _ long
    _ = 2 ^ 23 * 2 ^ (exponent + 1) := by ring
    _ ≤ right * 2 ^ shift := Nat.mul_le_mul short (Nat.pow_le_pow_right (by decide) less)

/-- Bits are below those of some units just if their own units are: the exponent decides, and
for one exponent the significand does.
-/
theorem unitsOfBits_le_iff (bits units : Nat)
    : unitsOfBits bits ≤ units ↔ bits ≤ bitsOfUnits units := by
  by_cases smallBits : bits < 2 ^ 23
  · rw [unitsOfBits, if_pos smallBits]
    by_cases smallUnits : units < 2 ^ 23
    · rw [bitsOfUnits, if_pos smallUnits]
    · obtain ⟨shift, significand, low, _, _, same⟩ :=
        bitsOfUnits_of_large (Nat.not_lt.mp smallUnits)
      exact iff_of_true (by omega) (by omega)
  · have ofBits := unitsOfBits_of_large (Nat.not_lt.mp smallBits)
    have positive : 0 < 2 ^ (bits / 2 ^ 23 - 1) := Nat.two_pow_pos _
    by_cases smallUnits : units < 2 ^ 23
    · rw [bitsOfUnits, if_pos smallUnits]
      have more := Nat.le_mul_of_pos_right (2 ^ 23 + bits % 2 ^ 23) positive
      exact iff_of_false (by omega) (by omega)
    · obtain ⟨shift, significand, low, high, cut, same⟩ :=
        bitsOfUnits_of_large (Nat.not_lt.mp smallUnits)
      have whole : bits = (bits / 2 ^ 23 - 1) * 2 ^ 23 + (2 ^ 23 + bits % 2 ^ 23) := by omega
      rw [ofBits, same]
      generalize bits / 2 ^ 23 - 1 = exponent at whole positive
      have leading : 2 ^ 23 ≤ 2 ^ 23 + bits % 2 ^ 23 := Nat.le_add_right _ _
      have bound : 2 ^ 23 + bits % 2 ^ 23 < 2 ^ 24 := by omega
      generalize 2 ^ 23 + bits % 2 ^ 23 = other at whole leading bound
      rcases lt_trichotomy exponent shift with less | rfl | greater
      · have enough := scaled_le_of_lt bound.le low less
        have kept : significand * 2 ^ shift ≤ units := cut ▸ Nat.div_mul_le_self units _
        exact iff_of_true (enough.trans kept) (by omega)
      · rw [← Nat.le_div_iff_mul_le positive, cut]
        omega
      · have enough : (significand + 1) * 2 ^ shift ≤ other * 2 ^ exponent :=
          scaled_le_of_lt high leading greater
        have beyond : units < (significand + 1) * 2 ^ shift :=
          (Nat.div_lt_iff_lt_mul (Nat.two_pow_pos _)).mp (by omega)
        exact iff_of_false (by omega) (by omega)

theorem gc_unitsOfBits : GaloisConnection unitsOfBits bitsOfUnits := unitsOfBits_le_iff

end Magnitudes

-----------------------------------------------------------------------------------------
-- Rounding towards zero
-----------------------------------------------------------------------------------------

section Chopping

variable {value : ℚ} {bits : Nat}

/-- The bits of the greatest magnitude up to a value. -/
def choppedBits (value : ℚ) : Nat := bitsOfUnits ⌊value / smallest⌋₊

def chop (value : ℚ) : ℚ := unitsOfBits (choppedBits value) * smallest

theorem chop_nonneg (value : ℚ) : 0 ≤ chop value :=
  mul_nonneg (Nat.cast_nonneg _) smallest_pos.le

theorem chop_le (nonneg : 0 ≤ value) : chop value ≤ value := by
  have units := gc_unitsOfBits.l_u_le ⌊value / smallest⌋₊
  have cast : (unitsOfBits (choppedBits value) : ℚ) ≤ ⌊value / smallest⌋₊ := Nat.cast_le.mpr units
  have floor : (⌊value / smallest⌋₊ : ℚ) ≤ value / smallest :=
    Nat.floor_le (div_nonneg nonneg smallest_pos.le)
  exact (le_div_iff₀ smallest_pos).mp (cast.trans floor)

/-- No other magnitude is between a value and what it is chopped to. -/
theorem le_chop (below : unitsOfBits bits * smallest ≤ value)
    : unitsOfBits bits * smallest ≤ chop value := by
  have units : unitsOfBits bits ≤ ⌊value / smallest⌋₊ :=
    Nat.le_floor ((le_div_iff₀ smallest_pos).mpr below)
  have kept := gc_unitsOfBits.monotone_l (gc_unitsOfBits.le_u units)
  exact mul_le_mul_of_nonneg_right (Nat.cast_le.mpr kept) smallest_pos.le

/-- A value up to a finite magnitude is chopped to a finite one. -/
theorem choppedBits_le (above : value ≤ unitsOfBits bits * smallest)
    : choppedBits value ≤ bits := by
  have units : ⌊value / smallest⌋₊ ≤ unitsOfBits bits :=
    Nat.floor_le_of_le ((div_le_iff₀ smallest_pos).mpr above)
  exact (gc_unitsOfBits.monotone_u units).trans (bitsOfUnits_unitsOfBits bits).le

/-- The finite single-precision values are signed magnitudes. -/
theorem isSingle_finite_iff
    : (FloatValue.finite value).IsSingle
      ↔ ∃ negative, ∃ bits < infinityBits,
          value = signed negative (unitsOfBits bits * smallest) := by
  constructor
  · rintro ⟨word, same⟩
    unfold FloatValue.ofBits FloatValue.ofMagnitude at same
    split at same
    · rename_i finite
      cases same
      exact ⟨_, _, finite, rfl⟩
    · split at same <;> cases same
  · rintro ⟨negative, bits, finite, rfl⟩
    have small : infinityBits < 2 ^ 31 := by decide
    refine ⟨signedBits negative bits, ?_⟩
    rw [ofBits_signedBits (finite.trans small), FloatValue.ofMagnitude, if_pos finite]

end Chopping

-----------------------------------------------------------------------------------------
-- Narrowing
-----------------------------------------------------------------------------------------

/-- A conversion to single precision, wherever the language defines it: a value between two
single-precision ones becomes one that is not beyond either.
-/
structure Narrowing where
  narrow : ℚ → ℚ
  adjacent
    : ∀ {value low high : ℚ},
        (FloatValue.finite low).IsSingle
        → (FloatValue.finite high).IsSingle
        → low ≤ value
        → value ≤ high
        → (FloatValue.finite (narrow value)).IsSingle
          ∧ low ≤ narrow value
          ∧ narrow value ≤ high

/-- The single-precision value of a double-precision one. -/
def FloatValue.narrowed (narrowing : Narrowing) : FloatValue → FloatValue
  | .finite value => .finite (narrowing.narrow value)
  | value => value

section TowardZero

variable {value low high : ℚ}

def towardZero (value : ℚ) : ℚ := signed (value < 0) (chop |value|)

theorem towardZero_of_nonneg (nonneg : 0 ≤ value) : towardZero value = chop value := by
  rw [towardZero, decide_eq_false nonneg.not_gt, abs_of_nonneg nonneg]
  rfl

theorem towardZero_neg (positive : 0 < value) : towardZero (-value) = -chop value := by
  rw [towardZero, decide_eq_true (neg_neg_of_pos positive), abs_neg, abs_of_pos positive]
  rfl

/-- A value that is not negative is a magnitude. -/
theorem magnitude_of_isSingle (single : (FloatValue.finite value).IsSingle) (nonneg : 0 ≤ value)
    : ∃ bits < infinityBits, value = unitsOfBits bits * smallest := by
  obtain ⟨negative, bits, finite, same⟩ := isSingle_finite_iff.mp single
  refine ⟨bits, finite, ?_⟩
  have magnitude : |value| = unitsOfBits bits * smallest :=
    same ▸ abs_signed (mul_nonneg (Nat.cast_nonneg _) smallest_pos.le)
  rwa [abs_of_nonneg nonneg] at magnitude

theorem isSingle_neg (single : (FloatValue.finite value).IsSingle)
    : (FloatValue.finite (-value)).IsSingle := by
  obtain ⟨negative, bits, finite, rfl⟩ := isSingle_finite_iff.mp single
  refine isSingle_finite_iff.mpr ⟨!negative, bits, finite, ?_⟩
  cases negative with
  | true => exact neg_neg _
  | false => rfl

/-- What is not negative is chopped to the greatest value up to it. -/
theorem chop_adjacent (ofLow : (FloatValue.finite low).IsSingle)
    (ofHigh : (FloatValue.finite high).IsSingle) (nonneg : 0 ≤ value) (above : low ≤ value)
    (below : value ≤ high)
    : (FloatValue.finite (chop value)).IsSingle ∧ low ≤ chop value ∧ chop value ≤ high := by
  obtain ⟨bits, finite, rfl⟩ := magnitude_of_isSingle ofHigh (nonneg.trans below)
  refine ⟨?_, ?_, (chop_le nonneg).trans below⟩
  · exact isSingle_finite_iff.mpr ⟨false, _, (choppedBits_le below).trans_lt finite, rfl⟩
  · rcases le_total low 0 with negative | positive
    · exact negative.trans (chop_nonneg value)
    · obtain ⟨lowBits, _, rfl⟩ := magnitude_of_isSingle ofLow positive
      exact le_chop above

/-- Rounding towards zero is a narrowing. -/
def Narrowing.towardZero : Narrowing where
  narrow := Floats.towardZero
  adjacent {value low high} ofLow ofHigh above below := by
    rcases le_or_gt 0 value with nonneg | negative
    · rw [towardZero_of_nonneg nonneg]
      exact chop_adjacent ofLow ofHigh nonneg above below
    · have positive : 0 < -value := neg_pos.mpr negative
      obtain ⟨single, notBelow, notAbove⟩ :=
        chop_adjacent (isSingle_neg ofHigh) (isSingle_neg ofLow) positive.le
          (neg_le_neg below) (neg_le_neg above)
      have same : Floats.towardZero value = -chop (-value) := by
        rw [← towardZero_neg positive, neg_neg]
      rw [same]
      exact ⟨isSingle_neg single, le_neg_of_le_neg notAbove, neg_le_of_neg_le notBelow⟩

end TowardZero

end Floats
