/-
# Rescaling a significand

A number of a document is read as a significand of at most 64 bits and a power of ten. The
significand is rounded to a float, the power is rounded to a float, and their product or
quotient is rounded again. If both are floats exactly, which they are for a significand of
at most `2 ^ 53` and a power of at most `10 ^ 22`, only the last rounding is left, and what is
read is the float nearest to the number (`Numeral.floatOf_of_contains`). So a float whose
numeral is that short reads back (`Binary64.ReadsBack.of_short`).

For other numerals the roundings may add up, and what is read may be a neighbour of the
float. They do not add up to more than the largest float, so a finite float always reads
back as some finite float of its sign (`Binary64.exists_reread`).
-/
import JobParameters.Proofs.Rereading
import JobParameters.Proofs.ShortestDecimal

namespace JobParameters

namespace Binary64

/-! ### Signs -/

theorem magnitude_lt (x : Binary64) : x.magnitude < signBit :=
  Nat.mod_lt _ (by decide)

theorem negative_ofMagnitude (negative : Bool) {m : Nat} (h : m < signBit) :
    (ofMagnitude negative m).negative = negative := by
  have hs : signBit = 9223372036854775808 := rfl
  rw [hs] at h
  simp only [Binary64.negative, ofMagnitude, UInt64.toNat_ofNat', hs]
  cases negative <;> simp <;> omega

theorem negative_nearest (negative : Bool) (num den : Nat) :
    (nearest negative num den).negative = negative :=
  negative_ofMagnitude negative (nearestMagnitude_lt num den)

theorem neg_ofMagnitude (negative : Bool) {m : Nat} (h : m < signBit) :
    (ofMagnitude negative m).neg = ofMagnitude (!negative) m := by
  rw [neg, negative_ofMagnitude negative h, magnitude_ofMagnitude negative h]

/-! ### Large floats -/

/-- How far the largest floats are apart, in units. -/
def topStep : Nat := 1 <<< 2045

theorem largestUnits_eq : largestUnits = (2 * leadingBit - 1) * topStep := by decide +kernel

theorem shiftLeft_le_topStep (n : Nat) {s : Nat} (hs : s ≤ 2045) : n <<< s ≤ n * topStep := by
  have hle (t : Nat) (h : s ≤ t) : n <<< s ≤ n * (1 <<< t) := by
    rw [Nat.shiftLeft_eq, Nat.one_shiftLeft]
    exact Nat.mul_le_mul_left n (Nat.pow_le_pow_right (by decide) h)
  exact hle 2045 hs

theorem scale_le {x : Binary64} (hx : x.isFinite = true) : x.scale ≤ 2045 := by
  have hfield : x.exponentField < 2047 := of_decide_eq_true hx
  unfold scale
  omega

theorem units_le_largestUnits {x : Binary64} (hx : x.isFinite = true) :
    x.units ≤ largestUnits := by
  rw [largestUnits_eq]
  exact Nat.le_trans (shiftLeft_le_topStep _ (scale_le hx))
    (Nat.mul_le_mul_right _ (Nat.le_sub_one_of_lt x.significand_lt))

/-- A natural below the largest float is off by at most its part in `2 ^ 53`. -/
theorem units_ofNat_bounds {n : Nat} (hn : n * unitsPerOne < largestUnits) :
    (ofNat n).isFinite = true ∧
      2 ^ 53 * (ofNat n).units ≤ (2 ^ 53 + 1) * (n * unitsPerOne) ∧
      (2 ^ 53 - 1) * (n * unitsPerOne) ≤ 2 ^ 53 * (ofNat n).units := by
  have hfin : (ofNat n).isFinite = true :=
    isFinite_nearest_of_lt false (by rwa [Nat.mul_one])
  rcases Nat.eq_zero_or_pos n with rfl | hpos
  · rw [units_ofNat (Nat.zero_le _)]
    exact ⟨hfin, by simp, by simp⟩
  · have hnormal : leadingBit * 1 ≤ n * unitsPerOne := by
      have hone : leadingBit ≤ unitsPerOne := by decide +kernel
      exact Nat.le_trans (Nat.mul_one _ ▸ hone) (Nat.le_mul_of_pos_left _ hpos)
    have hbounds := units_nearest_bounds false Nat.one_pos hnormal hfin
    rw [Nat.mul_one] at hbounds
    exact ⟨hfin, hbounds⟩

theorem pow_ten_lt {k : Nat} (hk : k ≤ 308) : 10 ^ k * unitsPerOne < largestUnits := by
  have hall : ∀ k < 309, 10 ^ k * unitsPerOne < largestUnits := by decide +kernel
  exact hall k (by omega)

/-- A whole number in the interval of a float that is not one of the three largest. -/
theorem mul_unitsPerOne_le {x : Binary64} (hx : x.magnitude + 3 < infiniteMagnitude) {n : Nat}
    (h : (Interval.around x).Contains n) :
    2 * (n * unitsPerOne) ≤ (2 ^ 54 - 7) * topStep := by
  have hl : leadingBit = 2 ^ 52 := rfl
  have hi : infiniteMagnitude = 2047 * leadingBit := rfl
  have hfin : x.isFinite = true := (isFinite_iff x).mpr (by omega)
  have hlt := x.significand_lt
  have hparts := x.magnitude_eq
  have hover : (Interval.around x).Contains ((n : ℚ) / (1 : Nat)) := by simpa using h
  obtain ⟨-, hhigh, -⟩ := bounds_of_contains Nat.one_pos hover
  set d := 1 <<< x.scale with hd
  rcases (scale_le hfin).lt_or_eq with hless | htop
  · -- Below the greatest scale a step is at most half of the last.
    have hstep : 2 * d ≤ topStep := by
      have hshift := shiftLeft_le_topStep 1 hless
      rw [Nat.one_shiftLeft, Nat.pow_succ, Nat.one_mul] at hshift
      rw [hd, Nat.one_shiftLeft]
      omega
    have hsig : x.significand * d ≤ (2 ^ 53 - 1) * d := Nat.mul_le_mul_right d (by omega)
    omega
  · have hstep : d ≤ topStep := by
      have hshift := shiftLeft_le_topStep 1 htop.le
      rwa [Nat.one_mul] at hshift
    have hsig : x.significand * d ≤ (2 ^ 53 - 4) * d := by
      rw [htop] at hparts
      exact Nat.mul_le_mul_right d (by omega)
    omega

end Binary64

namespace Numeral

open Binary64

/-! ### Exact factors -/

section

variable {x : Binary64} {n k : Nat}

/-- A product of exact factors is rounded once. -/
theorem mul_powerOfTen (hx : x.isFinite = true) (hn : n ≤ 2 ^ 53) (hk : k ≤ 22)
    (h : (Interval.around x).Contains (n * (10 : ℚ) ^ k)) :
    (ofNat n).mul (powerOfTen k) = ofMagnitude false x.magnitude := by
  have hu : (unitsPerOne : ℚ) ≠ 0 := by exact_mod_cast unitsPerOne_pos.ne'
  have hratio : (n * (10 : ℚ) ^ k) =
      ((n * unitsPerOne * (10 ^ k * unitsPerOne) : Nat) : ℚ) /
        ((unitsPerOne * unitsPerOne : Nat) : ℚ) := by
    push_cast
    field_simp
  rw [hratio] at h
  rw [Binary64.mul, units_ofNat hn, units_powerOfTen hk, nearest,
    nearestMagnitude_of_contains hx (Nat.mul_pos unitsPerOne_pos unitsPerOne_pos) h]

/-- And so is a quotient. -/
theorem div_powerOfTen (hx : x.isFinite = true) (hn : n ≤ 2 ^ 53) (hk : k ≤ 22)
    (h : (Interval.around x).Contains (n / (10 : ℚ) ^ k)) :
    (ofNat n).div (powerOfTen k) = ofMagnitude false x.magnitude := by
  have hu : (unitsPerOne : ℚ) ≠ 0 := by exact_mod_cast unitsPerOne_pos.ne'
  have hratio : (n / (10 : ℚ) ^ k) =
      ((n * unitsPerOne : Nat) : ℚ) / ((10 ^ k * unitsPerOne : Nat) : ℚ) := by
    push_cast
    field_simp
  rw [hratio] at h
  rw [Binary64.div, units_ofNat hn, units_powerOfTen hk, nearest,
    nearestMagnitude_of_contains hx (Nat.mul_pos (Nat.pow_pos (by decide)) unitsPerOne_pos) h]

/-- **A short number is read as the float nearest to it.** -/
theorem floatOf_of_contains {e : Int} (hx : x.isFinite = true) (hn : n ≤ 2 ^ 53)
    (he : e.natAbs ≤ 22) (h : (Interval.around x).Contains (n * (10 : ℚ) ^ e)) :
    floatOf x.negative n e = .float x := by
  have hscale : scaleByTen 3 (ofNat n) e = some (ofMagnitude false x.magnitude) := by
    rw [scaleByTen, if_pos (by omega)]
    split
    · next hpos =>
      have hpower : (10 : ℚ) ^ e = (10 : ℚ) ^ e.natAbs := by
        rw [← zpow_natCast, Int.natAbs_of_nonneg hpos]
      rw [hpower] at h
      rw [mul_powerOfTen hx hn he h, if_pos]
      rw [isFinite_iff, magnitude_ofMagnitude false x.magnitude_lt]
      exact (isFinite_iff x).mp hx
    · next hneg =>
      have hpower : (10 : ℚ) ^ e = ((10 : ℚ) ^ e.natAbs)⁻¹ := by
        rw [← zpow_natCast, ← zpow_neg]
        congr 1
        omega
      rw [hpower, ← div_eq_mul_inv] at h
      rw [div_powerOfTen hx hn he h]
  simp only [floatOf, hscale]
  cases hs : x.negative with
  | true =>
    rw [if_pos rfl, neg_ofMagnitude false x.magnitude_lt, Bool.not_false, ← hs,
      ofMagnitude_magnitude]
  | false => rw [if_neg (by simp), ← hs, ofMagnitude_magnitude]

end

/-- A number whose digits fit the significand is rescaled as it stands. -/
theorem asFloat_eq_floatOf {l : Numeral} (h : l.coefficient ≤ maxSignificand) :
    l.asFloat = floatOf l.negative l.coefficient l.power := by
  have hall : appendDigits (appendDigits 0 l.whole) (l.part.getD []) ≤ maxSignificand := by
    rwa [coefficient, appendDigits_append] at h
  have hwhole := absorb_of_le (Nat.le_trans (le_appendDigits _ _) hall)
  have hpart := absorb_of_le hall
  simp only [asFloat, hwhole, hpart, List.length_nil, Nat.sub_zero, coefficient,
    appendDigits_append, power]
  congr 1
  omega

/-! ### Inexact factors -/

/-- A quotient is never too large. -/
theorem isFinite_div_powerOfTen {x : Binary64} (hx : x.isFinite = true) {k : Nat} (hk : 0 < k)
    (hk' : k ≤ 308) : (x.div (powerOfTen k)).isFinite = true := by
  obtain ⟨-, -, hlow⟩ := units_ofNat_bounds (pow_ten_lt hk')
  have hten : 10 * unitsPerOne ≤ 10 ^ k * unitsPerOne :=
    Nat.mul_le_mul_right _ (Nat.pow_le_pow_right (n := 10) (by decide) hk)
  have hone := unitsPerOne_pos
  have hmore : unitsPerOne < (powerOfTen k).units := by
    show unitsPerOne < (ofNat (10 ^ k)).units
    omega
  refine isFinite_nearest_of_lt false ?_
  have hpos : 0 < largestUnits := by decide +kernel
  calc x.units * unitsPerOne ≤ largestUnits * unitsPerOne :=
        Nat.mul_le_mul_right _ (units_le_largestUnits hx)
    _ < largestUnits * (powerOfTen k).units := Nat.mul_lt_mul_of_pos_left hmore hpos

/-- A product is not too large either, unless it stands for one of the three largest floats. -/
theorem isFinite_mul_powerOfTen {x : Binary64} (hx : x.magnitude + 3 < infiniteMagnitude)
    {n k : Nat} (hn : n * unitsPerOne < largestUnits) (hk : k ≤ 308)
    (h : (Interval.around x).Contains (n * (10 : ℚ) ^ k)) :
    ((ofNat n).mul (powerOfTen k)).isFinite = true := by
  obtain ⟨-, ha, -⟩ := units_ofNat_bounds hn
  obtain ⟨-, hp, -⟩ := units_ofNat_bounds (pow_ten_lt hk)
  have hratio : 2 * (n * 10 ^ k * unitsPerOne) ≤ (2 ^ 54 - 7) * topStep :=
    mul_unitsPerOne_le hx (by exact_mod_cast h)
  have hupo := unitsPerOne_pos
  have htop : 0 < topStep := by decide +kernel
  refine isFinite_nearest_of_lt false ?_
  show (ofNat n).units * (ofNat (10 ^ k)).units * unitsPerOne <
    largestUnits * (unitsPerOne * unitsPerOne)
  have hl : 2 * leadingBit - 1 = 2 ^ 53 - 1 := rfl
  rw [largestUnits_eq, hl]
  generalize (ofNat n).units = a at ha ⊢
  generalize (ofNat (10 ^ k)).units = p at hp ⊢
  generalize unitsPerOne = u at *
  generalize topStep = b at *
  -- Both factors and the float's own half step stay below what one step would add.
  have hproduct : 2 ^ 107 * (a * p) ≤ (2 ^ 53 + 1) ^ 2 * (2 ^ 54 - 7) * (b * u) := by
    calc 2 ^ 107 * (a * p) = 2 * ((2 ^ 53 * a) * (2 ^ 53 * p)) := by ring
      _ ≤ 2 * (((2 ^ 53 + 1) * (n * u)) * ((2 ^ 53 + 1) * (10 ^ k * u))) :=
          Nat.mul_le_mul_left 2 (Nat.mul_le_mul ha hp)
      _ = (2 ^ 53 + 1) ^ 2 * (2 * (n * 10 ^ k * u)) * u := by ring
      _ ≤ (2 ^ 53 + 1) ^ 2 * ((2 ^ 54 - 7) * b) * u :=
          Nat.mul_le_mul_right u (Nat.mul_le_mul_left _ hratio)
      _ = (2 ^ 53 + 1) ^ 2 * (2 ^ 54 - 7) * (b * u) := by ring
  have hless : a * p < (2 ^ 53 - 1) * (b * u) := by
    have hbu : 0 < b * u := Nat.mul_pos htop hupo
    omega
  calc a * p * u < (2 ^ 53 - 1) * (b * u) * u := Nat.mul_lt_mul_of_pos_right hless hupo
    _ = (2 ^ 53 - 1) * b * (u * u) := by ring

/-- Dividing goes on until a float is left. -/
theorem exists_scaleByTen_of_neg (fuel : Nat) {x : Binary64} {e : Int} (he : e < 0)
    (hx : x.isFinite = true) (hsign : x.negative = false) :
    ∃ y, scaleByTen fuel x e = some y ∧ y.isFinite = true ∧ y.negative = false := by
  unfold scaleByTen
  split
  · next hsmall =>
    rw [if_neg (by omega)]
    exact ⟨_, rfl, isFinite_div_powerOfTen hx (by omega) hsmall, negative_nearest _ _ _⟩
  · split
    · exact ⟨x, rfl, hx, hsign⟩
    · rw [if_neg (by omega)]
      cases fuel with
      | zero => exact ⟨_, rfl, by decide, by decide⟩
      | succ fuel =>
        exact exists_scaleByTen_of_neg fuel (by omega)
          (isFinite_div_powerOfTen hx (by decide) (Nat.le_refl _)) (negative_nearest _ _ _)

/-- Multiplying gives a float if the number is in the interval of one. -/
theorem exists_scaleByTen_of_nonneg (fuel : Nat) {x : Binary64}
    (hx : x.magnitude + 3 < infiniteMagnitude) {n k : Nat} (hn : n * unitsPerOne < largestUnits)
    (h : (Interval.around x).Contains (n * (10 : ℚ) ^ k)) :
    ∃ y, scaleByTen fuel (ofNat n) k = some y ∧ y.isFinite = true ∧ y.negative = false := by
  obtain ⟨hfin, -, -⟩ := units_ofNat_bounds hn
  unfold scaleByTen
  rw [Int.natAbs_natCast]
  split
  · next hk =>
    have hproduct := isFinite_mul_powerOfTen hx hn hk h
    rw [if_pos (Int.natCast_nonneg k), if_pos hproduct]
    exact ⟨_, rfl, hproduct, negative_nearest _ _ _⟩
  · next hk =>
    -- A number of that size is zero.
    have hzero : n = 0 := by
      by_contra hne
      have hratio : 2 * (n * 10 ^ k * unitsPerOne) ≤ (2 ^ 54 - 7) * topStep :=
        mul_unitsPerOne_le hx (by exact_mod_cast h)
      obtain ⟨t, ht, hlarge⟩ :
          ∃ t < 310, (2 ^ 54 - 7) * topStep < 2 * (10 ^ t * unitsPerOne) := by
        decide +kernel
      have hbig : 10 ^ t * unitsPerOne ≤ n * 10 ^ k * unitsPerOne :=
        Nat.mul_le_mul_right _ (Nat.le_trans (Nat.pow_le_pow_right (by decide) (by omega))
          (Nat.le_mul_of_pos_left _ (Nat.pos_of_ne_zero hne)))
      omega
    subst hzero
    rw [if_pos (by rw [units_ofNat (Nat.zero_le _), Nat.zero_mul])]
    exact ⟨_, rfl, hfin, negative_nearest _ _ _⟩

end Numeral

namespace Binary64

open Numeral

theorem isFinite_neg (x : Binary64) : x.neg.isFinite = x.isFinite := by
  rw [Bool.eq_iff_iff, isFinite_iff, isFinite_iff, neg, magnitude_ofMagnitude _ x.magnitude_lt]

theorem negative_neg (x : Binary64) : x.neg.negative = !x.negative :=
  negative_ofMagnitude _ x.magnitude_lt

/-! ### The number of a float -/

/-- **What a finite float is read as**: its numeral stands for a number of its interval, and
the significand of that number is rescaled. -/
theorem exists_rescaled {x : Binary64} (hx : x.isFinite = true) :
    ∃ m, Numeral.read? (Json.numeral x).toList = some (m, []) ∧ m.negative = x.negative ∧
      x.reread = floatOf x.negative m.coefficient m.power ∧
      m.asFloat = floatOf x.negative m.coefficient m.power ∧
      m.coefficient ≤ 10 ^ 18 ∧
      (Interval.around x).Contains (m.coefficient * (10 : ℚ) ^ m.power) := by
  obtain ⟨m, hm, hf, htext, hsign, hd⟩ := exists_decimal hx
  have hread := Numeral.read?_text hm Numeral.ends_nil
  rw [List.append_nil, htext] at hread
  have hcontains : (Interval.around x).Contains m.toDecimal.toRat := by
    have hshortest := Decimal.contains_shortest .toEven x
    rcases hd with hd | ⟨he, -, hd⟩
    · rwa [hd]
    · rwa [hd, Decimal.toRat_withPoint he]
  have hcoefficient : m.coefficient ≤ 10 ^ 18 := by
    have hshortest := Decimal.coefficient_shortest_le .toEven x
    set d := Decimal.shortest .toEven x with hshort
    rcases hd with hd | ⟨he, hlength, hd⟩
    · rwa [← hd] at hshortest
    · have hmcoefficient : m.coefficient = d.coefficient * 10 ^ (d.exponent.toNat + 1) :=
        congrArg Decimal.coefficient hd
      have hdigits := (lt_pow_digitCount d.coefficient).le
      rw [hmcoefficient]
      calc d.coefficient * 10 ^ (d.exponent.toNat + 1)
          ≤ 10 ^ digitCount d.coefficient * 10 ^ (d.exponent.toNat + 1) :=
            Nat.mul_le_mul_right _ hdigits
        _ = 10 ^ (digitCount d.coefficient + (d.exponent.toNat + 1)) := (Nat.pow_add _ _ _).symm
        _ ≤ 10 ^ 18 := Nat.pow_le_pow_right (by decide) (by omega)
  have hfloat := asFloat_eq_floatOf (l := m) (Nat.le_trans hcoefficient (by decide))
  rw [hsign] at hfloat
  refine ⟨m, hread, hsign, ?_, hfloat, hcoefficient, hcontains⟩
  rw [reread_of_text hm htext, Numeral.value_eq_asFloat hf, hfloat]

/-- The numeral of a float has few enough digits, and its exponent is small enough, to be
rescaled by exact factors. -/
def Short (x : Binary64) : Prop :=
  ∀ m, Numeral.read? (Json.numeral x).toList = some (m, []) →
    m.coefficient ≤ 2 ^ 53 ∧ m.power.natAbs ≤ 22

instance : DecidablePred Short := fun x =>
  match h : Numeral.read? (Json.numeral x).toList with
  | some (m, []) => decidable_of_iff (m.coefficient ≤ 2 ^ 53 ∧ m.power.natAbs ≤ 22)
    ⟨fun hm l hl => by cases h.symm.trans hl; exact hm, fun hx => hx m h⟩
  | some (_, _ :: _) => isTrue fun l hl => by cases h.symm.trans hl
  | none => isTrue fun l hl => by cases h.symm.trans hl

/-- **A float with a short numeral reads back.** -/
theorem ReadsBack.of_short {x : Binary64} (hx : x.isFinite = true) (h : x.Short) :
    x.ReadsBack := by
  obtain ⟨m, hread, -, -, hfloat, -, hcontains⟩ := exists_rescaled hx
  intro l hl
  obtain rfl : m = l := (Prod.mk.inj (Option.some.inj (hread.symm.trans hl))).1
  obtain ⟨hn, he⟩ := h m hread
  rw [hfloat, floatOf_of_contains hx hn he hcontains]

/-- A finite float reads back exactly if what is read is that float. -/
theorem readsBack_iff_reread {x : Binary64} (hx : x.isFinite = true) :
    x.ReadsBack ↔ x.reread = .float x := by
  constructor
  · exact fun h => h.reread hx
  · intro h l hl
    obtain ⟨m, hread, hm⟩ := reread_eq_asFloat hx
    obtain rfl : m = l := (Prod.mk.inj (Option.some.inj (hread.symm.trans hl))).1
    rw [← hm, h]

/-- Of the three largest floats the second is read as the largest. -/
theorem reread_largest : ∀ k < 3, ∀ negative,
    (ofMagnitude negative (infiniteMagnitude - (k + 1))).reread =
      .float (ofMagnitude negative (infiniteMagnitude - if k = 1 then 1 else k + 1)) := by
  decide +kernel

/-- **A finite float is always read as some finite float of its sign.** -/
theorem exists_reread {x : Binary64} (hx : x.isFinite = true) :
    ∃ y, x.reread = .float y ∧ y.isFinite = true ∧ y.negative = x.negative := by
  have hmagnitude := (isFinite_iff x).mp hx
  by_cases htop : x.magnitude + 3 < infiniteMagnitude
  · obtain ⟨m, -, -, hm, -, hcoefficient, hcontains⟩ := exists_rescaled hx
    have hn : m.coefficient * unitsPerOne < largestUnits :=
      Nat.lt_of_le_of_lt (Nat.mul_le_mul_right _ hcoefficient) (by decide +kernel)
    obtain ⟨hfin, -, -⟩ := units_ofNat_bounds hn
    obtain ⟨y, hy, hyfin, hypos⟩ : ∃ y, scaleByTen 3 (ofNat m.coefficient) m.power = some y ∧
        y.isFinite = true ∧ y.negative = false := by
      rcases Int.lt_or_le m.power 0 with hneg | hpos
      · exact exists_scaleByTen_of_neg 3 hneg hfin (negative_nearest _ _ _)
      · obtain ⟨k, hk⟩ := Int.eq_ofNat_of_zero_le hpos
        rw [hk] at hcontains ⊢
        rw [zpow_natCast] at hcontains
        exact exists_scaleByTen_of_nonneg 3 htop hn hcontains
    simp only [floatOf, hy] at hm
    refine ⟨_, hm, ?_, ?_⟩
    · cases x.negative <;> simp [isFinite_neg, hyfin]
    · cases x.negative <;> simp [negative_neg, hypos]
  · obtain ⟨k, hk, hmag⟩ : ∃ k < 3, x.magnitude = infiniteMagnitude - (k + 1) :=
      ⟨infiniteMagnitude - 1 - x.magnitude, by omega, by omega⟩
    have hlt : infiniteMagnitude - (if k = 1 then 1 else k + 1) < infiniteMagnitude :=
      Nat.sub_lt (by decide) (by split <;> omega)
    have hsign : infiniteMagnitude < signBit := by decide
    have hm := reread_largest k hk x.negative
    rw [← hmag, ofMagnitude_magnitude] at hm
    refine ⟨_, hm, ?_, negative_ofMagnitude _ (Nat.lt_trans hlt hsign)⟩
    rw [isFinite_iff, magnitude_ofMagnitude _ (Nat.lt_trans hlt hsign)]
    exact hlt

end Binary64
end JobParameters
