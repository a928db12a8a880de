/-
# Floats that are integers exactly

A finite float is a rational number (`Binary64.toRat`), and a whole count of units with a
sign (`Binary64.signedUnits`). The count grows with the word (`Binary64.units_lt_iff`), so
the order of floats is that of the rationals they are, and the two ends of the range are
exactly `-2 ^ 63` and `2 ^ 63`. A fractional part is a multiple of the least float and is not
rounded to zero unless it is zero. So within the range the cast drops nothing
(`Binary64.toInt64?_eq_some_iff`), and a float is coerced to the integer it is or to none
(`float_coerced_exactly`).
-/
import JobParameters.Proofs.Coercing
import JobParameters.Proofs.Nearest

namespace JobParameters
namespace Binary64

variable {x y : Binary64}

/-! ### The rational a float is -/

/-- The exact value of a finite number, from the fields of its word. -/
def toRat (x : Binary64) : ℚ :=
  (if x.negative then -1 else 1) *
    if x.exponentField = 0 then (x.fraction : ℚ) / 2 ^ 52 * 2 ^ (-1022 : ℤ)
    else (1 + (x.fraction : ℚ) / 2 ^ 52) * 2 ^ ((x.exponentField : ℤ) - 1023)

/-- The value of a finite number in units, with its sign. -/
def signedUnits (x : Binary64) : ℤ :=
  if x.negative then -(x.units : ℤ) else (x.units : ℤ)

theorem cast_unitsPerOne : (unitsPerOne : ℚ) = 2 ^ 52 * 2 ^ 1022 := by
  have h : unitsPerOne = 2 ^ 52 * 2 ^ 1022 := by decide +kernel
  rw [h, Nat.cast_mul, Nat.cast_pow, Nat.cast_pow, Nat.cast_ofNat]

theorem unitsPerOne_ne_zero : (unitsPerOne : ℚ) ≠ 0 :=
  Nat.cast_ne_zero.mpr unitsPerOne_pos.ne'

/-- The units of a number, from the fields of its word. -/
theorem units_div (x : Binary64) : (x.units : ℚ) / unitsPerOne =
    if x.exponentField = 0 then (x.fraction : ℚ) / 2 ^ 52 * 2 ^ (-1022 : ℤ)
    else (1 + (x.fraction : ℚ) / 2 ^ 52) * 2 ^ ((x.exponentField : ℤ) - 1023) := by
  have hl : (leadingBit : ℚ) = 2 ^ 52 := by norm_num [leadingBit, Nat.shiftLeft_eq]
  have h1022 : (2 : ℚ) ^ (1022 : ℤ) = 2 ^ 1022 := zpow_ofNat _ _
  rw [cast_unitsPerOne, units, Nat.shiftLeft_eq, Nat.cast_mul, Nat.cast_pow, Nat.cast_ofNat]
  split
  · next h =>
    rw [significand, if_pos h, scale, h, zpow_neg, h1022]
    simp only [Nat.zero_sub, pow_zero, mul_one]
    field_simp
  · next h =>
    have hscale : (x.exponentField : ℤ) - 1023 = (x.scale : ℤ) - 1022 := by
      unfold scale
      omega
    rw [significand, if_neg h, Nat.cast_add, hl, hscale, zpow_sub₀ (by decide), zpow_natCast,
      h1022]
    field_simp

theorem toRat_eq (x : Binary64) : x.toRat = x.signedUnits / unitsPerOne := by
  rw [toRat, ← units_div, signedUnits]
  split
  · rw [Int.cast_neg, Int.cast_natCast, neg_one_mul, neg_div]
  · rw [Int.cast_natCast, one_mul]

theorem toRat_zero (negative : Bool) : (zero negative).toRat = 0 := by
  have hunits : (zero negative).signedUnits = 0 := by cases negative <;> decide
  rw [toRat_eq, hunits, Int.cast_zero, zero_div]

/-! ### Order -/

theorem units_of_magnitude_eq (h : x.magnitude = y.magnitude) : x.units = y.units := by
  have hexponent : x.exponentField = y.exponentField := by rw [exponentField, h, exponentField]
  have hfraction : x.fraction = y.fraction := by rw [fraction, h, fraction]
  rw [units, units, significand, significand, scale, scale, hexponent, hfraction]

theorem units_lt_of_magnitude (h : x.magnitude < y.magnitude) : x.units < y.units := by
  have hl : leadingBit = 4503599627370496 := rfl
  have hx := x.magnitude_eq
  have hy := y.magnitude_eq
  have hxlt := x.significand_lt
  have hylt := y.significand_lt
  have hpos : 0 < 2 ^ x.scale := Nat.two_pow_pos _
  rw [units, units, Nat.shiftLeft_eq, Nat.shiftLeft_eq]
  rcases Nat.lt_trichotomy x.scale y.scale with hless | heq | hmore
  · -- At a larger scale the leading bit alone outweighs every significand.
    obtain ⟨-, hysig⟩ := significand_of_scale (Nat.zero_lt_of_lt hless)
    calc x.significand * 2 ^ x.scale
        < 2 * leadingBit * 2 ^ x.scale := Nat.mul_lt_mul_of_pos_right hxlt hpos
      _ = leadingBit * 2 ^ (x.scale + 1) := by rw [Nat.pow_succ]; ring
      _ ≤ leadingBit * 2 ^ y.scale :=
          Nat.mul_le_mul_left _ (Nat.pow_le_pow_right (by decide) hless)
      _ ≤ y.significand * 2 ^ y.scale := Nat.mul_le_mul_right _ (by omega)
  · rw [heq] at hx hpos ⊢
    exact Nat.mul_lt_mul_of_pos_right (by omega) hpos
  · obtain ⟨-, hxsig⟩ := significand_of_scale (Nat.zero_lt_of_lt hmore)
    rw [hl] at hx hy hylt hxsig
    omega

/-- **Words without a sign are ordered as the numbers are.** -/
theorem units_lt_iff : x.units < y.units ↔ x.magnitude < y.magnitude := by
  constructor
  · intro h
    rcases Nat.lt_trichotomy x.magnitude y.magnitude with hless | heq | hmore
    · exact hless
    · exact absurd (units_of_magnitude_eq heq) h.ne
    · exact absurd (units_lt_of_magnitude hmore) h.asymm
  · exact units_lt_of_magnitude

theorem units_eq_zero_iff : x.units = 0 ↔ x.magnitude = 0 := by
  have hzero : (zero false).units = 0 ∧ (zero false).magnitude = 0 := by decide
  have hlt : (zero false).units < x.units ↔ (zero false).magnitude < x.magnitude := units_lt_iff
  rw [hzero.1, hzero.2] at hlt
  omega

theorem rank_lt_iff : x.rank < y.rank ↔ x.signedUnits < y.signedUnits := by
  have hxy := units_lt_iff (x := x) (y := y)
  have hyx := units_lt_iff (x := y) (y := x)
  have hx := units_eq_zero_iff (x := x)
  have hy := units_eq_zero_iff (x := y)
  unfold rank signedUnits
  split <;> split <;> omega

theorem toRat_lt_iff : x.toRat < y.toRat ↔ x.rank < y.rank := by
  rw [toRat_eq, toRat_eq, rank_lt_iff,
    div_lt_div_iff_of_pos_right (Nat.cast_pos.mpr unitsPerOne_pos), Int.cast_lt]

/-- The order of finite numbers is that of their exact values. -/
theorem lt_iff (hx : x.isFinite = true) (hy : y.isFinite = true) :
    x.lt y = true ↔ x.toRat < y.toRat := by
  simp [lt, not_isNaN_of_isFinite hx, not_isNaN_of_isFinite hy, toRat_lt_iff]

theorem le_iff (hx : x.isFinite = true) (hy : y.isFinite = true) :
    x.le y = true ↔ x.toRat ≤ y.toRat := by
  rw [← not_lt, toRat_lt_iff]
  simp [le, not_isNaN_of_isFinite hx, not_isNaN_of_isFinite hy]

/-- The ends of the range of 64-bit integers, as floats: the greatest is rounded up. -/
theorem ofInt_ends :
    ((ofInt Int64.minValue.toInt).isFinite = true ∧
      (ofInt Int64.minValue.toInt).toRat = -2 ^ 63) ∧
    (ofInt Int64.maxValue.toInt).isFinite = true ∧
      (ofInt Int64.maxValue.toInt).toRat = 2 ^ 63 := by
  have hlow : (ofInt Int64.minValue.toInt).signedUnits = -2 ^ 63 * (unitsPerOne : ℤ) := by
    decide +kernel
  have hhigh : (ofInt Int64.maxValue.toInt).signedUnits = 2 ^ 63 * (unitsPerOne : ℤ) := by
    decide +kernel
  refine ⟨⟨isFinite_ofInt _, ?_⟩, isFinite_ofInt _, ?_⟩
  · rw [toRat_eq, hlow]
    push_cast
    exact mul_div_cancel_right₀ _ unitsPerOne_ne_zero
  · rw [toRat_eq, hhigh]
    push_cast
    exact mul_div_cancel_right₀ _ unitsPerOne_ne_zero

/-! ### Whole numbers -/

theorem sameNumber_zero_iff (negative : Bool) :
    x.sameNumber (zero negative) = true ↔ x.magnitude = 0 := by
  have hzero : (zero negative).magnitude = 0 ∧ (zero negative).isNaN = false := by
    cases negative <;> decide
  constructor
  · intro h
    rw [magnitude_eq_of_sameNumber h, hzero.1]
  · intro h
    refine sameNumber_iff.mpr ⟨⟨?_, hzero.2⟩, Or.inr ⟨h, hzero.1⟩⟩
    simp [isNaN, h]

/-- A fractional part is zero only if there is none: it is not rounded away. -/
theorem fract_iff : x.fract.sameNumber (zero false) = true ↔ unitsPerOne ∣ x.units := by
  have hpos := unitsPerOne_pos
  rw [sameNumber_zero_iff, fract, nearest, magnitude_ofMagnitude _ (nearestMagnitude_lt _ _),
    nearestMagnitude_eq_zero_iff hpos, Nat.dvd_iff_mod_eq_zero]
  constructor
  · intro h
    rcases Nat.eq_zero_or_pos (x.units % unitsPerOne) with h0 | hmod
    · exact h0
    · have := Nat.le_mul_of_pos_left unitsPerOne hmod
      omega
  · intro h
    rw [h]
    omega

theorem fract_iff_exists_int :
    x.fract.sameNumber (zero false) = true ↔ ∃ z : ℤ, x.toRat = z := by
  rw [fract_iff]
  constructor
  · rintro ⟨k, hk⟩
    refine ⟨if x.negative then -(k : ℤ) else k, ?_⟩
    have hne := unitsPerOne_ne_zero
    rw [toRat_eq, signedUnits, hk]
    split <;> (push_cast; field_simp)
  · rintro ⟨z, hz⟩
    rw [toRat_eq, div_eq_iff unitsPerOne_ne_zero] at hz
    have hsigned : x.signedUnits = z * unitsPerOne := by exact_mod_cast hz
    have hunits : x.units = x.signedUnits.natAbs := by
      unfold signedUnits
      split <;> omega
    rw [hunits, hsigned, Int.natAbs_mul, Int.natAbs_natCast]
    exact Nat.dvd_mul_left _ _

/-- Nothing is dropped of a whole number. -/
theorem truncated_eq {z : ℤ} (h : x.toRat = z) : x.truncated = z := by
  obtain ⟨k, hk⟩ := fract_iff.mp (fract_iff_exists_int.mpr ⟨z, h⟩)
  have hdiv : x.units / unitsPerOne = k := by
    rw [hk, Nat.mul_div_cancel_left k unitsPerOne_pos]
  rw [toRat_eq, div_eq_iff unitsPerOne_ne_zero] at h
  have hsigned : x.signedUnits = z * unitsPerOne := by exact_mod_cast h
  have hpos : (unitsPerOne : ℤ) ≠ 0 := by exact_mod_cast unitsPerOne_pos.ne'
  refine mul_right_cancel₀ hpos ?_
  rw [← hsigned, truncated, signedUnits, hdiv, hk]
  push_cast
  split <;> ring

/-- A cast within the range does not stop at its ends. -/
theorem toInt64_eq {n : Int64} (hx : x.isFinite = true) (h : x.toRat = n.toInt) :
    x.toInt64 = n := by
  have hmin : Int64.minValue.toInt ≤ n.toInt := n.minValue_le_toInt
  have hmax : n.toInt ≤ Int64.maxValue.toInt := n.toInt_le
  rw [toInt64, not_isNaN_of_isFinite hx, truncated_eq h, min_eq_left hmax, max_eq_right hmin]
  simp

/-! ### Integers of 64 bits -/

/-- A finite number whose exact value is an integer of 64 bits. -/
structure IsInteger (x : Binary64) : Prop where
  finite : x.isFinite = true
  whole : ∃ z : ℤ, x.toRat = z
  low : -2 ^ 63 ≤ x.toRat
  high : x.toRat < 2 ^ 63

theorem isInteger_iff : x.IsInteger ↔ ∃ n : Int64, x.isFinite = true ∧ x.toRat = n.toInt := by
  constructor
  · rintro ⟨hx, ⟨z, hz⟩, hlow, hhigh⟩
    rw [hz] at hlow hhigh
    have hn : (Int64.ofInt z).toInt = z :=
      Int64.toInt_ofInt_of_le (by exact_mod_cast hlow) (by exact_mod_cast hhigh)
    exact ⟨Int64.ofInt z, hx, by rw [hn, hz]⟩
  · rintro ⟨n, hx, hn⟩
    refine ⟨hx, ⟨n.toInt, hn⟩, ?_, ?_⟩
    · rw [hn]
      exact_mod_cast n.le_toInt
    · rw [hn]
      exact_mod_cast n.toInt_lt

/-- The tests before the cast are passed by the numbers that are 64-bit integers. -/
theorem tests_iff (x : Binary64) :
    (x.isFinite && x.fract.sameNumber (zero false) && (ofInt Int64.minValue.toInt).le x &&
      x.lt (ofInt Int64.maxValue.toInt)) = true ↔ x.IsInteger := by
  obtain ⟨⟨hfinlow, hlow⟩, hfinhigh, hhigh⟩ := ofInt_ends
  rw [Bool.and_eq_true, Bool.and_eq_true, Bool.and_eq_true, fract_iff_exists_int]
  constructor
  · rintro ⟨⟨⟨hx, hwhole⟩, hle⟩, hlt⟩
    rw [le_iff hfinlow hx, hlow] at hle
    rw [lt_iff hx hfinhigh, hhigh] at hlt
    exact ⟨hx, hwhole, hle, hlt⟩
  · rintro ⟨hx, hwhole, hle, hlt⟩
    rw [le_iff hfinlow hx, lt_iff hx hfinhigh, hlow, hhigh]
    exact ⟨⟨⟨hx, hwhole⟩, hle⟩, hlt⟩

/-- **The 64-bit integer a number is.** -/
theorem toInt64?_eq_some_iff {n : Int64} :
    x.toInt64? = some n ↔ x.isFinite = true ∧ x.toRat = n.toInt := by
  unfold toInt64?
  split
  · next h =>
    obtain ⟨m, hx, hm⟩ := isInteger_iff.mp ((tests_iff x).mp h)
    rw [toInt64_eq hx hm, hm, Option.some.injEq]
    constructor
    · rintro rfl
      exact ⟨hx, rfl⟩
    · rintro ⟨-, hcast⟩
      exact Int64.toInt_inj.mp (Int.cast_injective hcast)
  · next h =>
    exact iff_of_false (by simp) fun hn => h ((tests_iff x).mpr (isInteger_iff.mpr ⟨n, hn⟩))

/-- The least integer is a float, and the float nearest to the greatest is out of range. -/
example : (ofInt Int64.minValue.toInt).toInt64? = some Int64.minValue ∧
    (ofInt Int64.maxValue.toInt).toInt64? = none := by
  decide +kernel

end Binary64

/-- **A float is coerced to the integer it is exactly, or not at all.** What the coercion gives
is an integer that is the exact value of the float, and it gives one for the finite floats whose
exact value is an integer from `-2 ^ 63` up to, and without, `2 ^ 63`. All others are refused,
with the float in the error. Both zeros are the integer zero. -/
theorem float_coerced_exactly (name : String) (x : Binary64) :
    (∀ w, coerce name (.float x) .integer = .ok w ↔
      x.isFinite = true ∧ ∃ n : Int64, w = .integer n ∧ x.toRat = n.toInt) ∧
    ((∃ w, coerce name (.float x) .integer = .ok w) ↔
      x.isFinite = true ∧ (∃ z : ℤ, x.toRat = z) ∧ -2 ^ 63 ≤ x.toRat ∧ x.toRat < 2 ^ 63) ∧
    (∀ e, coerce name (.float x) .integer = .error e ↔
      ¬ x.IsInteger ∧ e = .typeMismatch name .integer (.value (.float x))) ∧
    ∀ negative, coerce name (.float (Binary64.zero negative)) .integer = .ok (.integer 0) := by
  have hok (y : Binary64) (w : Value) : coerce name (.float y) .integer = .ok w ↔
      y.isFinite = true ∧ ∃ n : Int64, w = .integer n ∧ y.toRat = n.toInt := by
    rw [coerce_eq_ok]
    show y.toInt64?.map Value.integer = some w ↔ _
    rw [Option.map_eq_some_iff]
    constructor
    · rintro ⟨n, hn, rfl⟩
      obtain ⟨hy, hexact⟩ := Binary64.toInt64?_eq_some_iff.mp hn
      exact ⟨hy, n, rfl, hexact⟩
    · rintro ⟨hy, n, rfl, hexact⟩
      exact ⟨n, Binary64.toInt64?_eq_some_iff.mpr ⟨hy, hexact⟩, rfl⟩
  have hexists : (∃ w, coerce name (.float x) .integer = .ok w) ↔ x.IsInteger := by
    rw [Binary64.isInteger_iff]
    constructor
    · rintro ⟨w, hw⟩
      obtain ⟨hx, n, -, hn⟩ := (hok x w).mp hw
      exact ⟨n, hx, hn⟩
    · rintro ⟨n, hx, hn⟩
      exact ⟨_, (hok x _).mpr ⟨hx, n, rfl, hn⟩⟩
  refine ⟨hok x, ?_, fun e => ?_, fun negative => (hok _ _).mpr ?_⟩
  · rw [hexists]
    exact ⟨fun ⟨h1, h2, h3, h4⟩ => ⟨h1, h2, h3, h4⟩, fun ⟨h1, h2, h3, h4⟩ => ⟨h1, h2, h3, h4⟩⟩
  · rw [coerce_eq_error_iff, ← hexists, not_exists]
    simp only [coerce_eq_ok, ← Option.eq_none_iff_forall_ne_some]
  · refine ⟨by cases negative <;> decide, 0, rfl, ?_⟩
    rw [Binary64.toRat_zero]
    rfl

end JobParameters
