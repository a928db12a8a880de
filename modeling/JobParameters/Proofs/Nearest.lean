/-
# The float nearest to a ratio

A finite float has an interval of ratios around it (`Interval.Contains`), and every ratio of
the interval, its ends included where they belong to it, has that float nearest to it
(`Binary64.nearestMagnitude_of_contains`). The scale at which a ratio is rounded is that of
the float, but for the ratios just below a power of two, which are rounded at the scale below
and carry into the next.

A float that is the ratio exactly is in its own interval. So naturals up to `2 ^ 53` and the
first powers of ten are floats themselves (`Binary64.units_ofNat`,
`Binary64.units_powerOfTen`). Every other ratio that is not too small is rounded to a float
that is off by at most its part in `2 ^ 53` (`Binary64.units_nearest_bounds`).
-/
import JobParameters.Decimal.Shortest
import JobParameters.Json.Numeral
import JobParameters.Proofs.Rounding

namespace JobParameters

namespace Interval

/-- The ratio lies in the interval. -/
def Contains (i : Interval) (q : ℚ) : Prop :=
  if i.closed then i.low ≤ q * i.unit ∧ q * i.unit ≤ i.high
  else i.low < q * i.unit ∧ q * i.unit < i.high

theorem contains_natCast {i : Interval} {n : Nat} : i.Contains n ↔ i.holds n = true := by
  unfold Contains holds
  split
  · rw [Bool.and_eq_true, decide_eq_true_eq, decide_eq_true_eq]
    exact_mod_cast Iff.rfl
  · rw [Bool.and_eq_true, decide_eq_true_eq, decide_eq_true_eq]
    exact_mod_cast Iff.rfl

end Interval

namespace Binary64

/-! ### The parts of a float -/

theorem magnitude_eq (x : Binary64) :
    x.magnitude = x.scale * leadingBit + x.significand := by
  have hl : leadingBit = 4503599627370496 := rfl
  unfold scale significand
  split
  · next h =>
    simp only [exponentField, hl] at h
    simp only [exponentField, fraction, hl]
    omega
  · next h =>
    simp only [exponentField, hl] at h
    simp only [exponentField, fraction, hl]
    omega

theorem significand_lt (x : Binary64) : x.significand < 2 * leadingBit := by
  have hl : leadingBit = 4503599627370496 := rfl
  simp only [significand, fraction, hl]
  split <;> omega

/-- Above the least scale the significand has its leading bit; it has no other where the
fraction is zero. -/
theorem significand_of_scale {x : Binary64} (h : 0 < x.scale) :
    1 < x.exponentField ∧ x.significand = leadingBit + x.fraction := by
  have he : 1 < x.exponentField := by
    unfold scale at h
    omega
  refine ⟨he, ?_⟩
  unfold significand
  rw [if_neg (by omega)]

/-! ### Rounding -/

/-- A quotient rounds to a natural that is no more than half away, and to an even one of two
that are. -/
theorem roundQuotient_eq {n num den : Nat} (hden : 0 < den) (hlow : 2 * (n * den) ≤ 2 * num + den)
    (hhigh : 2 * num ≤ 2 * (n * den) + den)
    (htie : n % 2 = 1 → 2 * (n * den) < 2 * num + den ∧ 2 * num < 2 * (n * den) + den) :
    roundQuotient num den = n := by
  by_cases hle : n * den ≤ num
  · -- The quotient is `n` itself, with a remainder of at most a half.
    have hdiv : num / den = n := by
      rw [Nat.div_eq_iff hden]
      omega
    have hmod : num % den = num - n * den := by
      have := Nat.div_add_mod num den
      rw [hdiv, Nat.mul_comm] at this
      omega
    simp only [roundQuotient, hdiv, hmod]
    rw [if_neg]
    omega
  · -- The quotient is the natural below `n`, with a remainder of at least a half.
    obtain ⟨m, rfl⟩ : ∃ m, n = m + 1 := ⟨n - 1, by
      have : n ≠ 0 := by
        rintro rfl
        simp at hle
      omega⟩
    have hmul : (m + 1) * den = m * den + den := Nat.succ_mul m den
    rw [hmul] at hlow hhigh htie hle
    have hdiv : num / den = m := by
      rw [Nat.div_eq_iff hden]
      omega
    have hmod : num % den = num - m * den := by
      have := Nat.div_add_mod num den
      rw [hdiv, Nat.mul_comm] at this
      omega
    simp only [roundQuotient, hdiv, hmod]
    rw [if_pos]
    omega

/-- The scale at which a ratio with that whole part is rounded. -/
theorem roundingScale_eq {whole k : Nat} (hlow : k = 0 ∨ 2 ^ (52 + k) ≤ whole)
    (hhigh : whole < 2 ^ (53 + k)) :
    (if whole < 2 * leadingBit then 0 else Nat.log2 whole - 52) = k := by
  have hl : 2 * leadingBit = 2 ^ 53 := rfl
  rcases Nat.eq_zero_or_pos k with rfl | hk
  · rw [if_pos (by omega)]
  · have hlow : 2 ^ (52 + k) ≤ whole := by
      rcases hlow with h | h
      · omega
      · exact h
    have h53 : 2 ^ 53 ≤ 2 ^ (52 + k) := Nat.pow_le_pow_right (by decide) (by omega)
    have hlog : Nat.log2 whole = 52 + k := by
      have h0 : whole ≠ 0 := by
        have : 0 < 2 ^ 53 := by positivity
        omega
      rw [Nat.log2_eq_iff h0]
      exact ⟨hlow, by rwa [show 52 + k + 1 = 53 + k by omega]⟩
    rw [if_neg (by omega), hlog]
    omega

theorem nearestMagnitude_eq {num den k n : Nat}
    (hk : k = 0 ∨ leadingBit * (den <<< k) ≤ num * unitsPerOne) (hden : 0 < den)
    (hk' : num * unitsPerOne < 2 * leadingBit * (den <<< k))
    (hn : roundQuotient (num * unitsPerOne) (den <<< k) = n)
    (hfin : k * leadingBit + n < infiniteMagnitude) :
    nearestMagnitude num den = k * leadingBit + n := by
  have hl : leadingBit = 2 ^ 52 := rfl
  have hscale : (if num * unitsPerOne / den < 2 * leadingBit then 0
      else Nat.log2 (num * unitsPerOne / den) - 52) = k := by
    refine roundingScale_eq (hk.imp_right fun h => ?_) ?_
    · rw [Nat.le_div_iff_mul_le hden, Nat.pow_add, ← hl, Nat.mul_assoc, Nat.mul_comm (2 ^ k),
        ← Nat.shiftLeft_eq]
      exact h
    · rw [Nat.div_lt_iff_lt_mul hden, show 53 + k = 1 + 52 + k by omega, Nat.pow_add, Nat.pow_add,
        ← hl, Nat.mul_assoc, Nat.mul_comm (2 ^ k), ← Nat.shiftLeft_eq]
      exact hk'
  simp only [nearestMagnitude, hscale, hn]
  exact Nat.min_eq_right (Nat.le_of_lt hfin)

/-- What it means for a ratio to be in the interval, at the scale of the float. -/
theorem bounds_of_contains {x : Binary64} {num den : Nat} (hden : 0 < den)
    (h : (Interval.around x).Contains (num / den)) :
    let d := den <<< x.scale
    let gap := if x.fraction = 0 ∧ 1 < x.exponentField then 1 else 2
    4 * (x.significand * d) ≤ 4 * (num * unitsPerOne) + gap * d ∧
      4 * (num * unitsPerOne) ≤ 4 * (x.significand * d) + 2 * d ∧
      (x.significand % 2 = 1 → 4 * (x.significand * d) < 4 * (num * unitsPerOne) + gap * d ∧
        4 * (num * unitsPerOne) < 4 * (x.significand * d) + 2 * d) := by
  intro d gap
  have hden' : (0 : ℚ) < den := by exact_mod_cast hden
  have hd : d = 2 ^ x.scale * den := by
    rw [Nat.mul_comm]
    exact Nat.shiftLeft_eq _ _
  have hunits : x.units = x.significand * 2 ^ x.scale := Nat.shiftLeft_eq _ _
  have hlow : 4 * (x.significand * d) ≤ (Interval.around x).low * den + gap * d := by
    have hsub : 4 * x.units ≤ (Interval.around x).low + gap * 2 ^ x.scale := by
      rw [← Nat.shiftLeft_eq]
      show _ ≤ 4 * x.units - gap <<< x.scale + gap <<< x.scale
      omega
    have hmul := Nat.mul_le_mul_right den hsub
    rw [hunits] at hmul
    rw [hd]
    linarith
  have hhigh : (Interval.around x).high * den = 4 * (x.significand * d) + 2 * d := by
    show (4 * x.units + 2 <<< x.scale) * den = _
    rw [hunits, hd, Nat.shiftLeft_eq]
    ring
  have hcross : (num / den : ℚ) * (Interval.around x).unit * den =
      ((4 * (num * unitsPerOne) : Nat) : ℚ) := by
    show (num / den : ℚ) * ((4 * unitsPerOne : Nat) : ℚ) * den = _
    push_cast
    field_simp
  unfold Interval.Contains at h
  split at h
  · next hclosed =>
    have heven : x.significand % 2 = 0 := by simpa [Interval.around] using hclosed
    obtain ⟨h1, h2⟩ := h
    have h1 := mul_le_mul_of_nonneg_right h1 hden'.le
    have h2 := mul_le_mul_of_nonneg_right h2 hden'.le
    rw [hcross] at h1 h2
    have h1 : (Interval.around x).low * den ≤ 4 * (num * unitsPerOne) := by exact_mod_cast h1
    have h2 : 4 * (num * unitsPerOne) ≤ (Interval.around x).high * den := by exact_mod_cast h2
    refine ⟨by omega, by omega, fun hodd => ?_⟩
    omega
  · obtain ⟨h1, h2⟩ := h
    have h1 := mul_lt_mul_of_pos_right h1 hden'
    have h2 := mul_lt_mul_of_pos_right h2 hden'
    rw [hcross] at h1 h2
    have h1 : (Interval.around x).low * den < 4 * (num * unitsPerOne) := by exact_mod_cast h1
    have h2 : 4 * (num * unitsPerOne) < (Interval.around x).high * den := by exact_mod_cast h2
    exact ⟨by omega, by omega, fun _ => ⟨by omega, by omega⟩⟩

/-- **The ratios in the interval of a float have it nearest to them.** -/
theorem nearestMagnitude_of_contains {x : Binary64} (hx : x.isFinite = true) {num den : Nat}
    (hden : 0 < den) (h : (Interval.around x).Contains (num / den)) :
    nearestMagnitude num den = x.magnitude := by
  have hfin := (isFinite_iff x).mp hx
  have hlt := x.significand_lt
  obtain ⟨hlow, hhigh, hodd⟩ := bounds_of_contains hden h
  rw [magnitude_eq] at hfin ⊢
  set d := den <<< x.scale with hd
  have hdpos : 0 < d := by
    rw [hd, Nat.shiftLeft_eq]
    positivity
  have hbelow : x.significand * d + d ≤ 2 * leadingBit * d := by
    rw [← Nat.succ_mul]
    exact Nat.mul_le_mul_right d hlt
  have hgap : (if x.fraction = 0 ∧ 1 < x.exponentField then 1 else 2) * d ≤ 2 * d :=
    Nat.mul_le_mul_right d (by split <;> decide)
  by_cases hcarry : 0 < x.scale ∧ num * unitsPerOne < leadingBit * d
  · -- Just below a power of two: the scale below, and a carry.
    obtain ⟨hpos, hless⟩ := hcarry
    obtain ⟨he, hsig⟩ := significand_of_scale hpos
    have hfraction : x.fraction = 0 := by
      by_contra hne
      have hmore : (leadingBit + 1) * d ≤ x.significand * d :=
        Nat.mul_le_mul_right d (by omega)
      rw [Nat.succ_mul] at hmore
      omega
    rw [if_pos ⟨hfraction, he⟩] at hlow
    rw [hsig, hfraction, Nat.add_zero] at hlow hhigh hfin ⊢
    obtain ⟨k, hk⟩ : ∃ k, x.scale = k + 1 := ⟨x.scale - 1, by omega⟩
    have hhalf : d = 2 * (den <<< k) := by
      rw [hd, hk, Nat.shiftLeft_eq, Nat.shiftLeft_eq, Nat.pow_succ]
      ring
    have hround : roundQuotient (num * unitsPerOne) (den <<< k) = 2 * leadingBit := by
      refine roundQuotient_eq (by omega) ?_ ?_ (fun h => absurd h (by decide))
      · rw [hhalf] at hlow
        linarith
      · rw [hhalf] at hless
        linarith
    rw [hk] at hfin ⊢
    have hsum : (k + 1) * leadingBit + leadingBit = k * leadingBit + 2 * leadingBit := by ring
    rw [hsum] at hfin ⊢
    refine nearestMagnitude_eq (Or.inr ?_) hden ?_ hround hfin
    · rw [hhalf] at hlow
      have : 0 < leadingBit * (den <<< k) := Nat.mul_pos (by decide) (by omega)
      have hl : leadingBit = 4503599627370496 := rfl
      rw [hl] at hlow ⊢
      omega
    · rw [hhalf] at hless
      linarith
  · -- At the scale of the float itself.
    have hround : roundQuotient (num * unitsPerOne) d = x.significand := by
      refine roundQuotient_eq hdpos (by omega) (by omega) fun h => ?_
      obtain ⟨h1, h2⟩ := hodd h
      omega
    have habove : num * unitsPerOne < 2 * leadingBit * d := by omega
    refine nearestMagnitude_eq ?_ hden habove hround hfin
    rcases Nat.eq_zero_or_pos x.scale with h0 | hpos
    · exact Or.inl h0
    · exact Or.inr (Nat.le_of_not_lt fun hless => hcarry ⟨hpos, hless⟩)

/-! ### Floats that are a ratio exactly -/

/-- The float with that scale and significand. -/
theorem parts_ofMagnitude (negative : Bool) {k n : Nat} (hn : n < 2 * leadingBit)
    (hk : k = 0 ∨ leadingBit ≤ n) (hfin : k * leadingBit + n < infiniteMagnitude) :
    (ofMagnitude negative (k * leadingBit + n)).magnitude = k * leadingBit + n ∧
      (ofMagnitude negative (k * leadingBit + n)).units = n * 2 ^ k := by
  have hl : leadingBit = 4503599627370496 := rfl
  have hmag : (ofMagnitude negative (k * leadingBit + n)).magnitude = k * leadingBit + n :=
    magnitude_ofMagnitude negative (Nat.lt_trans hfin (by decide))
  refine ⟨hmag, ?_⟩
  have hscale : (ofMagnitude negative (k * leadingBit + n)).scale = k := by
    rw [scale, exponentField, hmag]
    rw [hl] at hn hk ⊢
    omega
  have hsig : (ofMagnitude negative (k * leadingBit + n)).significand = n := by
    have hparts := magnitude_eq (ofMagnitude negative (k * leadingBit + n))
    rw [hmag, hscale] at hparts
    omega
  rw [units, hscale, hsig, Nat.shiftLeft_eq]

/-- A float is in its own interval. -/
theorem contains_self {x : Binary64} {q : ℚ}
    (h : q * (Interval.around x).unit = ((4 * x.units : Nat) : ℚ)) :
    (Interval.around x).Contains q := by
  have hhigh : 4 * x.units < (Interval.around x).high := by
    show 4 * x.units < 4 * x.units + 2 <<< x.scale
    rw [Nat.shiftLeft_eq]
    have : 0 < 2 * 2 ^ x.scale := by positivity
    omega
  have hlow : (Interval.around x).low ≤ 4 * x.units := Nat.sub_le _ _
  unfold Interval.Contains
  rw [h]
  split
  · exact ⟨by exact_mod_cast hlow, by exact_mod_cast hhigh.le⟩
  · next hopen =>
    refine ⟨?_, by exact_mod_cast hhigh⟩
    have hpos : 0 < 4 * x.units := by
      have hodd : x.significand ≠ 0 := by
        intro h0
        exact hopen (by simp [Interval.around, h0])
      rw [units, Nat.shiftLeft_eq]
      positivity
    have hlow : (Interval.around x).low < 4 * x.units := by
      show 4 * x.units - _ <<< x.scale < 4 * x.units
      refine Nat.sub_lt hpos ?_
      rw [Nat.shiftLeft_eq]
      split <;> positivity
    exact_mod_cast hlow

/-- A ratio that a float is exactly is nearest to that float. -/
theorem nearestMagnitude_of_exact {x : Binary64} (hx : x.isFinite = true) {num den : Nat}
    (hden : 0 < den) (h : num * unitsPerOne = x.units * den) :
    nearestMagnitude num den = x.magnitude := by
  refine nearestMagnitude_of_contains hx hden (contains_self ?_)
  have hden' : (den : ℚ) ≠ 0 := by exact_mod_cast hden.ne'
  have h' : (num * unitsPerOne : ℚ) = x.units * den := by exact_mod_cast h
  show (num / den : ℚ) * ((4 * unitsPerOne : Nat) : ℚ) = _
  push_cast
  field_simp
  linarith

/-- **Naturals up to `2 ^ 53` are floats.** -/
theorem units_ofNat {n : Nat} (h : n ≤ 2 ^ 53) : (ofNat n).units = n * unitsPerOne := by
  have hl : leadingBit = 2 ^ 52 := rfl
  rcases Nat.eq_zero_or_pos n with rfl | hpos
  · decide +kernel
  rcases h.eq_or_lt with rfl | hlt
  · decide +kernel
  -- Its significand is the natural with zeros appended up to 53 bits.
  set k := Nat.log2 n with hk
  have hk52 : k ≤ 52 := by
    have := (Nat.log2_lt hpos.ne').mpr hlt
    omega
  have hlow : 2 ^ k ≤ n := Nat.log2_self_le hpos.ne'
  have hhigh : n < 2 ^ (k + 1) := Nat.lt_log2_self
  have hsig : leadingBit ≤ n * 2 ^ (52 - k) ∧ n * 2 ^ (52 - k) < 2 * leadingBit := by
    have h52 : 2 ^ k * 2 ^ (52 - k) = leadingBit := by
      rw [← Nat.pow_add, hl]
      congr 1
      omega
    rw [Nat.pow_succ] at hhigh
    constructor
    · rw [← h52]
      exact Nat.mul_le_mul_right _ hlow
    · calc n * 2 ^ (52 - k) < 2 ^ k * 2 * 2 ^ (52 - k) :=
            Nat.mul_lt_mul_of_pos_right hhigh (Nat.two_pow_pos _)
        _ = 2 * leadingBit := by rw [← h52]; ring
  have hfin : (k + 1022) * leadingBit + n * 2 ^ (52 - k) < infiniteMagnitude := by
    have hi : infiniteMagnitude = 2047 * leadingBit := rfl
    have := Nat.mul_le_mul_right leadingBit (show k + 1022 ≤ 1074 by omega)
    rw [hi]
    omega
  obtain ⟨hmag, hunits⟩ := parts_ofMagnitude false hsig.2 (Or.inr hsig.1) hfin
  have hexact : n * 2 ^ (52 - k) * 2 ^ (k + 1022) = n * unitsPerOne := by
    have hsum : 52 - k + (k + 1022) = 1074 := by omega
    rw [Nat.mul_assoc, ← Nat.pow_add, hsum, unitsPerOne, Nat.one_shiftLeft]
  rw [hexact] at hunits
  have hisfinite :
      (ofMagnitude false ((k + 1022) * leadingBit + n * 2 ^ (52 - k))).isFinite = true := by
    rw [isFinite_iff, hmag]
    exact hfin
  have hnear := nearestMagnitude_of_exact hisfinite Nat.one_pos
    (hunits.symm.trans (Nat.mul_one _).symm)
  rw [ofNat, nearest, ← hunits, hnear, hmag]

/-- **So are the powers of ten up to `10 ^ 22`.** -/
theorem units_powerOfTen {k : Nat} (h : k ≤ 22) :
    (Numeral.powerOfTen k).units = 10 ^ k * unitsPerOne := by
  have hall : ∀ k < 23, (Numeral.powerOfTen k).units = 10 ^ k * unitsPerOne := by
    decide +kernel
  exact hall k (by omega)

/-! ### How far rounding goes -/

theorem roundQuotient_bounds (num : Nat) {den : Nat} (hden : 0 < den) :
    num / den ≤ roundQuotient num den ∧
      2 * (roundQuotient num den * den) ≤ 2 * num + den ∧
      2 * num ≤ 2 * (roundQuotient num den * den) + den := by
  have hdiv := Nat.div_add_mod num den
  have hmod := Nat.mod_lt num hden
  rw [Nat.mul_comm] at hdiv
  simp only [roundQuotient]
  split
  · rw [Nat.succ_mul (num / den)]
    omega
  · omega

/-- A ratio that is not below the least normal float is rounded at a scale that leaves it all
its bits. -/
theorem leadingBit_mul_le {num den : Nat}
    (h : leadingBit * den ≤ num * unitsPerOne) :
    let whole := num * unitsPerOne / den
    leadingBit * (den <<< (if whole < 2 * leadingBit then 0 else Nat.log2 whole - 52)) ≤
      num * unitsPerOne := by
  intro whole
  split
  · exact h
  · next hge =>
    have hl : leadingBit = 2 ^ 52 := rfl
    have h0 : whole ≠ 0 := by
      intro h0
      rw [h0] at hge
      exact hge (by decide)
    have hlog : 53 ≤ Nat.log2 whole := (Nat.le_log2 h0).mpr (by omega)
    have hpow : leadingBit * 2 ^ (Nat.log2 whole - 52) ≤ whole := by
      rw [hl, ← Nat.pow_add, show 52 + (Nat.log2 whole - 52) = Nat.log2 whole by omega]
      exact Nat.log2_self_le h0
    calc leadingBit * (den <<< (Nat.log2 whole - 52))
        = leadingBit * 2 ^ (Nat.log2 whole - 52) * den := by rw [Nat.shiftLeft_eq]; ring
      _ ≤ whole * den := Nat.mul_le_mul_right den hpow
      _ ≤ num * unitsPerOne := Nat.div_mul_le_self _ _

theorem nearestMagnitude_lt (num den : Nat) : nearestMagnitude num den < signBit := by
  have hle : nearestMagnitude num den ≤ infiniteMagnitude := Nat.min_le_left _ _
  have hlt : infiniteMagnitude < signBit := by decide
  exact Nat.lt_of_le_of_lt hle hlt

/-- A ratio rounds to zero exactly if it is at most half of the least float. -/
theorem nearestMagnitude_eq_zero_iff {num den : Nat} (hden : 0 < den) :
    nearestMagnitude num den = 0 ↔ 2 * (num * unitsPerOne) ≤ den := by
  have hl : leadingBit = 4503599627370496 := rfl
  have hi : infiniteMagnitude = 2047 * leadingBit := rfl
  constructor
  · intro h
    simp only [nearestMagnitude] at h
    generalize hs : (if num * unitsPerOne / den < 2 * leadingBit then 0
      else Nat.log2 (num * unitsPerOne / den) - 52) = s at h
    have hsum : s = 0 ∧ roundQuotient (num * unitsPerOne) (den <<< s) = 0 := by
      rw [hl] at hi h
      omega
    obtain ⟨rfl, hround⟩ := hsum
    obtain ⟨-, -, hhigh⟩ := roundQuotient_bounds (num * unitsPerOne) hden
    rw [Nat.shiftLeft_zero] at hround
    rw [hround, Nat.zero_mul] at hhigh
    omega
  · intro h
    have hwhole : num * unitsPerOne / den = 0 := Nat.div_eq_of_lt (by omega)
    have hmod : num * unitsPerOne % den = num * unitsPerOne := Nat.mod_eq_of_lt (by omega)
    have hround : roundQuotient (num * unitsPerOne) den = 0 := by
      simp only [roundQuotient, hwhole, hmod]
      rw [if_neg (by omega)]
    have hscale : (0 : Nat) < 2 * leadingBit := by omega
    simp only [nearestMagnitude, hwhole, if_pos hscale, Nat.shiftLeft_zero, hround]
    omega

/-- **A rounded ratio is off by at most its part in `2 ^ 53`.** -/
theorem units_nearest_bounds (negative : Bool) {num den : Nat} (hden : 0 < den)
    (h : leadingBit * den ≤ num * unitsPerOne)
    (hfin : (nearest negative num den).isFinite = true) :
    2 ^ 53 * ((nearest negative num den).units * den) ≤ (2 ^ 53 + 1) * (num * unitsPerOne) ∧
      (2 ^ 53 - 1) * (num * unitsPerOne) ≤ 2 ^ 53 * ((nearest negative num den).units * den) := by
  have hl : leadingBit = 2 ^ 52 := rfl
  have hscale := leadingBit_mul_le h
  have hbits := scaled_div_lt (num * unitsPerOne / den)
  set s := if num * unitsPerOne / den < 2 * leadingBit then 0
    else Nat.log2 (num * unitsPerOne / den) - 52 with hs
  set d := den <<< s with hd
  have hdeq : d = 2 ^ s * den := by
    rw [hd, Nat.shiftLeft_eq, Nat.mul_comm]
  have hdpos : 0 < d := by
    rw [hdeq]
    positivity
  obtain ⟨hfloor, hhigh, hlow⟩ := roundQuotient_bounds (num * unitsPerOne) hdpos
  have hceil : roundQuotient (num * unitsPerOne) d ≤ 2 * leadingBit := by
    have := roundQuotient_le (num * unitsPerOne) d
    rw [Nat.div_div_eq_div_mul, Nat.mul_comm den, ← hdeq] at hbits
    omega
  have hleast : leadingBit ≤ roundQuotient (num * unitsPerOne) d :=
    Nat.le_trans ((Nat.le_div_iff_mul_le hdpos).mpr hscale) hfloor
  set q := roundQuotient (num * unitsPerOne) d with hq
  -- The units are those of the rounded significand, also if it carries into the exponent.
  have hmin : nearestMagnitude num den = min infiniteMagnitude (s * leadingBit + q) := rfl
  have hinf : s * leadingBit + q < infiniteMagnitude := by
    rw [isFinite_iff, nearest, magnitude_ofMagnitude negative (nearestMagnitude_lt num den),
      hmin] at hfin
    exact (min_lt_iff.mp hfin).resolve_left (Nat.lt_irrefl _)
  have hmag : nearestMagnitude num den = s * leadingBit + q := by
    rw [hmin, Nat.min_eq_right hinf.le]
  have hunits : (ofMagnitude negative (s * leadingBit + q)).units = q * 2 ^ s := by
    rcases hceil.lt_or_eq with hless | heq
    · exact (parts_ofMagnitude negative hless (Or.inr hleast) hinf).2
    · have hcarry : s * leadingBit + q = (s + 1) * leadingBit + leadingBit := by
        rw [heq]
        ring
      rw [hcarry] at hinf ⊢
      rw [(parts_ofMagnitude negative (by decide) (Or.inr (Nat.le_refl _)) hinf).2, heq,
        Nat.pow_succ]
      ring
  have hproduct : (nearest negative num den).units * den = q * d := by
    rw [nearest, hmag, hunits, hdeq, Nat.mul_assoc]
  have hpart : 2 ^ 52 * d ≤ num * unitsPerOne := by
    rw [← hl]
    exact hscale
  rw [hproduct]
  constructor
  · omega
  · omega

end Binary64
end JobParameters
