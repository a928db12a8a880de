/-
# Rounding keeps small numbers finite

A ratio below the largest finite double rounds to a finite one
(`Binary64.isFinite_nearest_of_lt`): its significand takes at most `2 ^ 53`, and its scale
stays below the exponents of infinity. So every 64-bit integer has a finite double nearest
to it (`Binary64.isFinite_ofInt`). What is finite is no NaN, and equality of numbers does
not leave the finite ones (`Binary64.isFinite_eq_of_sameNumber`): it is equality, but for NaNs
and for the two zeros (`Binary64.sameNumber_iff_eq_or_zeros`).
-/
import JobParameters.Binary64
import Mathlib

namespace JobParameters
namespace Binary64

theorem magnitude_ofMagnitude (negative : Bool) {m : Nat} (h : m < signBit) :
    (ofMagnitude negative m).magnitude = m := by
  have hs : signBit = 9223372036854775808 := rfl
  rw [hs] at h
  simp only [magnitude, ofMagnitude, UInt64.toNat_ofNat', hs]
  cases negative <;> simp <;> omega

theorem ofMagnitude_magnitude (x : Binary64) : ofMagnitude x.negative x.magnitude = x := by
  have hs : signBit = 9223372036854775808 := rfl
  have hlt := x.bits.toNat_lt
  have hbits : (if x.negative then signBit + x.magnitude else x.magnitude) = x.bits.toNat := by
    simp only [negative, magnitude, hs, decide_eq_true_eq]
    split <;> omega
  rw [ofMagnitude, hbits, UInt64.ofNat_toNat]

theorem isFinite_iff (x : Binary64) : x.isFinite = true ↔ x.magnitude < infiniteMagnitude := by
  have hl : leadingBit = 4503599627370496 := rfl
  simp only [isFinite, exponentField, infiniteMagnitude, decide_eq_true_eq, hl]
  omega

theorem not_isNaN_of_isFinite {x : Binary64} (h : x.isFinite = true) : x.isNaN = false := by
  have := (isFinite_iff x).mp h
  simp only [isNaN, decide_eq_false_iff_not]
  omega

/-! ### Sameness of numbers -/

theorem magnitude_of_bits_eq {x y : Binary64} (h : x.bits = y.bits) :
    x.magnitude = y.magnitude := by
  simp [magnitude, h]

theorem sameNumber_iff {x y : Binary64} : x.sameNumber y = true ↔
    (x.isNaN = false ∧ y.isNaN = false) ∧
      (x.bits = y.bits ∨ (x.magnitude = 0 ∧ y.magnitude = 0)) := by
  simp [sameNumber]

theorem magnitude_eq_of_sameNumber {x y : Binary64} (h : x.sameNumber y = true) :
    x.magnitude = y.magnitude := by
  obtain ⟨-, hb | ⟨hx, hy⟩⟩ := sameNumber_iff.mp h
  · exact magnitude_of_bits_eq hb
  · rw [hx, hy]

theorem sameNumber_trans {x y z : Binary64} (hxy : x.sameNumber y = true)
    (hyz : y.sameNumber z = true) : x.sameNumber z = true := by
  obtain ⟨⟨hx, -⟩, h1⟩ := sameNumber_iff.mp hxy
  obtain ⟨⟨-, hz⟩, h2⟩ := sameNumber_iff.mp hyz
  refine sameNumber_iff.mpr ⟨⟨hx, hz⟩, ?_⟩
  rcases h1 with h1 | ⟨h1, -⟩
  · rcases h2 with h2 | ⟨h2, h3⟩
    · exact Or.inl (h1.trans h2)
    · exact Or.inr ⟨(magnitude_of_bits_eq h1).trans h2, h3⟩
  · have hm := (magnitude_eq_of_sameNumber hyz).symm.trans
      ((magnitude_eq_of_sameNumber hxy).symm.trans h1)
    exact Or.inr ⟨h1, hm⟩

theorem eq_zero_of_magnitude {x : Binary64} (h : x.magnitude = 0) : x = zero x.negative := by
  rw [zero, ← h, ofMagnitude_magnitude]

/-- Two words are the same number if they are one word, that of a number, or the two zeros. -/
theorem sameNumber_iff_eq_or_zeros {x y : Binary64} : x.sameNumber y = true ↔
    (x = y ∧ x.isNaN = false) ∨ ∃ negative, x = zero negative ∧ y = zero !negative := by
  constructor
  · intro h
    obtain ⟨⟨hx, -⟩, hbits | ⟨h0, h0'⟩⟩ := sameNumber_iff.mp h
    · cases x
      cases y
      cases hbits
      exact Or.inl ⟨rfl, hx⟩
    · by_cases hsign : y.negative = x.negative
      · refine Or.inl ⟨?_, hx⟩
        rw [eq_zero_of_magnitude h0, eq_zero_of_magnitude h0', hsign]
      · refine Or.inr ⟨x.negative, eq_zero_of_magnitude h0, ?_⟩
        rw [eq_zero_of_magnitude h0', Bool.eq_not_of_ne hsign]
  · rintro (⟨rfl, hx⟩ | ⟨negative, rfl, rfl⟩)
    · rw [sameNumber_self, hx]
      rfl
    · cases negative <;> decide

/-- Numbers that are the same are finite together. -/
theorem isFinite_eq_of_sameNumber {x y : Binary64} (h : x.sameNumber y = true) :
    x.isFinite = y.isFinite := by
  have hm := magnitude_eq_of_sameNumber h
  rw [Bool.eq_iff_iff, isFinite_iff, isFinite_iff, hm]

/-! ### Rounding -/

theorem roundQuotient_le (num den : Nat) : roundQuotient num den ≤ num / den + 1 := by
  simp only [roundQuotient]
  split <;> omega

/-- The significand at the scale that rounding chooses has at most 53 bits. -/
theorem scaled_div_lt (whole : Nat) :
    whole / 2 ^ (if whole < 2 * leadingBit then 0 else Nat.log2 whole - 52) <
      2 * leadingBit := by
  have hl : 2 * leadingBit = 2 ^ 53 := rfl
  split
  · next h => simpa using h
  · next h =>
    have h0 : whole ≠ 0 := by omega
    have h53 : 53 ≤ Nat.log2 whole := (Nat.le_log2 h0).mpr (by omega)
    rw [Nat.div_lt_iff_lt_mul (Nat.two_pow_pos _), hl, ← Nat.pow_add]
    have : 53 + (Nat.log2 whole - 52) = Nat.log2 whole + 1 := by omega
    rw [this]
    exact Nat.lt_log2_self

theorem unitsPerOne_pos : 0 < unitsPerOne := by decide +kernel

/-- The largest finite number, in units. -/
def largestUnits : Nat := (2 * leadingBit - 1) <<< 2045

/-- A ratio below the largest finite number is nearest to a finite number. -/
theorem isFinite_nearest_of_lt (negative : Bool) {num den : Nat}
    (h : num * unitsPerOne < largestUnits * den) :
    (nearest negative num den).isFinite = true := by
  have hden : 0 < den := by
    rcases Nat.eq_zero_or_pos den with rfl | hd
    · simp at h
    · exact hd
  set whole := num * unitsPerOne / den with hw
  set s := if whole < 2 * leadingBit then 0 else Nat.log2 whole - 52 with hs
  have hwhole : whole < largestUnits := (Nat.div_lt_iff_lt_mul hden).mpr h
  have hscale : s ≤ 2045 := by
    rw [hs]
    split
    · omega
    · next hge =>
      have h0 : whole ≠ 0 := by
        intro h0
        rw [h0] at hge
        exact hge (by decide)
      have hlog : whole < 1 <<< 2098 := Nat.lt_trans hwhole (by decide +kernel)
      rw [Nat.one_shiftLeft] at hlog
      have := (Nat.log2_lt h0).mpr hlog
      omega
  have hround : roundQuotient (num * unitsPerOne) (den <<< s) ≤ whole / 2 ^ s + 1 := by
    rw [hw, Nat.div_div_eq_div_mul, ← Nat.shiftLeft_eq]
    exact roundQuotient_le _ _
  have hbits := scaled_div_lt whole
  rw [← hs] at hbits
  have hmag : nearestMagnitude num den ≤
      s * leadingBit + roundQuotient (num * unitsPerOne) (den <<< s) := Nat.min_le_right _ _
  have hlt : nearestMagnitude num den < infiniteMagnitude := by
    have hl : leadingBit = 4503599627370496 := rfl
    have hi : infiniteMagnitude = 2047 * leadingBit := rfl
    rcases hscale.lt_or_eq with hless | htop
    · have := Nat.mul_le_mul_right leadingBit (Nat.le_of_lt_succ hless)
      omega
    · -- At the greatest scale the significand does not take its last value but one.
      have htopbits : whole / 2 ^ s < 2 * leadingBit - 1 := by
        rw [Nat.div_lt_iff_lt_mul (Nat.two_pow_pos s), ← Nat.shiftLeft_eq, htop]
        exact hwhole
      have := Nat.mul_le_mul_right leadingBit htop.le
      omega
  rw [isFinite_iff, nearest, magnitude_ofMagnitude]
  · exact hlt
  · exact Nat.lt_trans hlt (by decide)

/-- A ratio below `2 ^ 1022` is nearest to a finite number. -/
theorem isFinite_nearest (negative : Bool) {num den : Nat} (h : num < den * (1 <<< 1022)) :
    (nearest negative num den).isFinite = true := by
  refine isFinite_nearest_of_lt negative ?_
  have hmul := Nat.mul_lt_mul_of_pos_right h unitsPerOne_pos
  calc num * unitsPerOne < den * (1 <<< 1022) * unitsPerOne := hmul
    _ = (1 <<< 1022) * unitsPerOne * den := by ring
    _ ≤ largestUnits * den := Nat.mul_le_mul_right den (by decide +kernel)

/-- Every 64-bit integer has a finite number nearest to it. -/
theorem isFinite_ofInt (n : Int64) : (ofInt n.toInt).isFinite = true := by
  have h1 := n.toInt_lt
  have h2 := n.le_toInt
  refine isFinite_nearest _ ?_
  have h3 : n.toInt.natAbs ≤ 9223372036854775808 := by omega
  exact Nat.lt_of_le_of_lt h3 (by decide)

end Binary64
end JobParameters
