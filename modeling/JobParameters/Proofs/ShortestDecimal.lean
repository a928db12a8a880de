/-
# The shortest decimal of a float rounds to it

The search for the shortest decimal goes through grids, each ten times finer than the one
before, and takes a point of the interval around the float as soon as there is one. The
interval is wider than the number over `2 ^ 53`, so the grid of seventeen digits, whose steps
are at most the number over `10 ^ 16`, has a point in it; what the search gives lies in the
interval (`Decimal.contains_search`), and so does the shortest decimal
(`Decimal.contains_shortest`). A grid has one digit more than the one before at most, so the
shortest decimal fits 64 bits (`Decimal.coefficient_shortest_le`).
-/
import JobParameters.Proofs.Nearest
import JobParameters.Proofs.Numerals

namespace JobParameters
namespace Interval

variable {i : Interval}

/-! ### Finer grids -/

theorem contains_timesTen {q : ℚ} : i.timesTen.Contains q ↔ i.Contains (q / 10) := by
  have hends (a : Nat) : ((10 * a : Nat) : ℚ) = a * 10 := by
    push_cast
    ring
  have hq : q / 10 * i.unit = q * i.unit / 10 := by ring
  simp only [Contains, timesTen, hends, hq, le_div_iff₀, div_le_iff₀, lt_div_iff₀, div_lt_iff₀,
    Nat.ofNat_pos]

theorem contains_scaled {k : Int} {q : ℚ} :
    (i.scaled k).Contains q ↔ i.Contains (q * (10 : ℚ) ^ k) := by
  cases k with
  | ofNat k =>
    have hunit : q * ((i.unit * Nat.pow 10 k : Nat) : ℚ) =
        q * (10 : ℚ) ^ (Int.ofNat k) * i.unit := by
      rw [Nat.pow_eq, Int.ofNat_eq_natCast, zpow_natCast]
      push_cast
      ring
    simp only [Contains, scaled, hunit]
  | negSucc k =>
    have hpow : (0 : ℚ) < (10 : ℚ) ^ (k + 1) := by positivity
    have hends (a : Nat) : ((a * Nat.pow 10 (k + 1) : Nat) : ℚ) = a * (10 : ℚ) ^ (k + 1) := by
      rw [Nat.pow_eq]
      push_cast
      rfl
    have hq : q * (10 : ℚ) ^ (Int.negSucc k) * i.unit = q * i.unit / (10 : ℚ) ^ (k + 1) := by
      rw [zpow_negSucc]
      ring
    simp only [Contains, scaled, hends, hq, le_div_iff₀ hpow, div_le_iff₀ hpow, lt_div_iff₀ hpow,
      div_lt_iff₀ hpow]

/-! ### Points of a grid -/

/-- The number of the interval lies between its ends. -/
structure Inner (i : Interval) : Prop where
  low : i.low < i.value
  high : i.value < i.high

theorem Inner.timesTen (h : i.Inner) : i.timesTen.Inner :=
  ⟨Nat.mul_lt_mul_of_pos_left h.low (by decide), Nat.mul_lt_mul_of_pos_left h.high (by decide)⟩

theorem Inner.scaled (h : i.Inner) (k : Int) : (i.scaled k).Inner := by
  cases k with
  | ofNat k => exact ⟨h.low, h.high⟩
  | negSucc k =>
    have hpow : 0 < Nat.pow 10 (k + 1) := Nat.pow_pos (by decide)
    exact ⟨Nat.mul_lt_mul_of_pos_right h.low hpow, Nat.mul_lt_mul_of_pos_right h.high hpow⟩

theorem holds_of_nearestWhole? {tie : Tie} {n : Nat} (h : i.nearestWhole? tie = some n) :
    i.holds n = true := by
  unfold nearestWhole? at h
  dsimp only at h
  split at h
  · cases h
  · next h1 _ =>
    cases h
    exact h1
  · next _ h2 =>
    cases h
    exact h2
  · next h1 h2 => grind

theorem nearestWhole?_le {tie : Tie} {n : Nat} (h : i.nearestWhole? tie = some n) :
    n ≤ i.value / i.unit + 1 := by
  unfold nearestWhole? at h
  simp only at h
  grind

/-- An interval that is wider than a step has one of the two neighbours of its number. -/
theorem exists_nearestWhole? (hi : i.Inner) (hu : 0 < i.unit) (hw : i.low + i.unit < i.high)
    (tie : Tie) : ∃ n, i.nearestWhole? tie = some n := by
  set n := i.value / i.unit with hn
  have hbelow : n * i.unit ≤ i.value := Nat.div_mul_le_self _ _
  have habove : i.value < n * i.unit + i.unit := by
    rw [← Nat.succ_mul]
    exact Nat.lt_mul_of_div_lt (Nat.lt_succ_self _) hu
  have hor : i.holds n = true ∨ i.holds (n + 1) = true := by
    have hlow := hi.low
    have hhigh := hi.high
    simp only [holds, Nat.succ_mul]
    by_cases hfits : i.low < n * i.unit
    · refine Or.inl ?_
      split <;> simp <;> omega
    · refine Or.inr ?_
      split <;> simp <;> omega
  rw [← Option.isSome_iff_exists]
  unfold nearestWhole?
  simp only [← hn]
  grind

/-! ### The interval of a float -/

/-- The interval is wider than its number over `2 ^ 53`. -/
def Wide (i : Interval) : Prop :=
  i.value + 2 ^ 53 * i.low < 2 ^ 53 * i.high

theorem Wide.scaled (h : i.Wide) (k : Int) : (i.scaled k).Wide := by
  cases k with
  | ofNat k => exact h
  | negSucc k =>
    have hmul := Nat.mul_lt_mul_of_pos_right h (Nat.pow_pos (a := 10) (n := k + 1) (by decide))
    show i.value * Nat.pow 10 (k + 1) + 2 ^ 53 * (i.low * Nat.pow 10 (k + 1)) <
      2 ^ 53 * (i.high * Nat.pow 10 (k + 1))
    rw [Nat.pow_eq]
    linarith

theorem inner_around {x : Binary64} (hx : x.units ≠ 0) : (around x).Inner := by
  have hstep (n : Nat) (hn : 0 < n) : 0 < n <<< x.scale := by
    rw [Nat.shiftLeft_eq]
    positivity
  constructor
  · show 4 * x.units - _ <<< x.scale < 4 * x.units
    exact Nat.sub_lt (by omega) (hstep _ (by split <;> decide))
  · show 4 * x.units < 4 * x.units + 2 <<< x.scale
    exact Nat.lt_add_of_pos_right (hstep 2 (by decide))

theorem wide_around (x : Binary64) : (around x).Wide := by
  have hl : Binary64.leadingBit = 2 ^ 52 := rfl
  have hlt := x.significand_lt
  show 4 * x.units + 2 ^ 53 * (4 * x.units -
      (if x.fraction = 0 ∧ 1 < x.exponentField then 1 else 2) <<< x.scale) <
    2 ^ 53 * (4 * x.units + 2 <<< x.scale)
  rw [Binary64.units, Nat.shiftLeft_eq, Nat.shiftLeft_eq, Nat.shiftLeft_eq]
  have hstep : 0 < 2 ^ x.scale := Nat.two_pow_pos _
  generalize 2 ^ x.scale = step at hstep ⊢
  split
  · next hpower =>
    -- Just at a power of two the significand is only half of what it can be.
    have hsig : x.significand = 2 ^ 52 := by
      unfold Binary64.significand
      rw [if_neg (by omega), hpower.1, hl, Nat.add_zero]
    rw [hsig]
    omega
  · have hmul := Nat.mul_lt_mul_of_pos_right hlt hstep
    rw [hl] at hmul
    omega

end Interval

namespace Decimal

/-- A point that the search finds is in the interval if the last of its grids is fine enough. -/
theorem contains_search {i : Interval} (hi : i.Inner) (hu : 0 < i.unit) (tie : Tie) (fuel : Nat)
    (hw : 10 ^ fuel * i.low + i.unit < 10 ^ fuel * i.high) (k : Int) :
    i.Contains ((search tie (fuel + 1) k i).toRat * (10 : ℚ) ^ (-k)) := by
  have hfound {j : Interval} {n : Nat} (k : Int) (hn : j.nearestWhole? tie = some n) :
      j.Contains ((Decimal.mk n k).toRat * (10 : ℚ) ^ (-k)) := by
    have hcancel : (10 : ℚ) ^ k * (10 : ℚ) ^ (-k) = 1 := by
      rw [← zpow_add₀ (by norm_num), Int.add_right_neg, zpow_zero]
    rw [toRat, mul_assoc, hcancel, mul_one]
    exact Interval.contains_natCast.mpr (Interval.holds_of_nearestWhole? hn)
  induction fuel generalizing k i with
  | zero =>
    obtain ⟨n, hn⟩ := Interval.exists_nearestWhole? hi hu (by simpa using hw) tie
    rw [search, hn]
    exact hfound k hn
  | succ fuel ih =>
    rw [search]
    split
    · next n hn => exact hfound k hn
    · have hw' : 10 ^ fuel * i.timesTen.low + i.timesTen.unit < 10 ^ fuel * i.timesTen.high := by
        show 10 ^ fuel * (10 * i.low) + i.unit < 10 ^ fuel * (10 * i.high)
        rw [Nat.pow_succ] at hw
        linarith
      have hnext := Interval.contains_timesTen.mp (ih hi.timesTen hu hw' (k - 1))
      have hpow : (10 : ℚ) ^ (-(k - 1)) / 10 = (10 : ℚ) ^ (-k) := by
        rw [show -(k - 1) = -k + 1 by omega, zpow_add₀ (by norm_num), zpow_one,
          mul_div_cancel_right₀ _ (by norm_num)]
      rwa [mul_div_assoc, hpow] at hnext

theorem toRat_normal (d : Decimal) : d.normal.toRat = d.toRat := by
  fun_induction normal d with
  | case1 d hd ih =>
    rw [ih]
    have hten : (d.coefficient : ℚ) = (d.coefficient / 10 : Nat) * 10 := by
      exact_mod_cast (show d.coefficient = d.coefficient / 10 * 10 by omega)
    simp only [toRat]
    rw [zpow_add₀ (by norm_num), zpow_one, hten]
    ring
  | case2 => rfl

/-- A grid that is ten times finer has at most one digit more. -/
theorem coefficient_search_le (tie : Tie) (fuel : Nat) (k : Int) {i : Interval} {n : Nat}
    (hu : 0 < i.unit) (hn : i.value < n * i.unit) :
    (search tie fuel k i).coefficient ≤ n * 10 ^ fuel := by
  induction fuel generalizing k i n with
  | zero =>
    rw [Nat.pow_zero, Nat.mul_one]
    exact Nat.le_of_lt ((Nat.div_lt_iff_lt_mul hu).mpr hn)
  | succ fuel ih =>
    rw [search]
    split
    · next m hm =>
      have hdiv : i.value / i.unit < n := (Nat.div_lt_iff_lt_mul hu).mpr hn
      have hle : m ≤ n := Nat.le_trans (Interval.nearestWhole?_le hm) hdiv
      exact Nat.le_trans hle (Nat.le_mul_of_pos_right n (Nat.pow_pos (by decide)))
    · have hnext : i.timesTen.value < n * 10 * i.timesTen.unit := by
        show 10 * i.value < n * 10 * i.unit
        linarith
      have h := ih (k - 1) (i := i.timesTen) hu hnext
      rwa [Nat.mul_assoc, ← Nat.pow_succ'] at h

theorem coefficient_normal_le (d : Decimal) : d.normal.coefficient ≤ d.coefficient := by
  fun_induction normal d with
  | case1 d hd ih => exact Nat.le_trans ih (Nat.div_le_self _ _)
  | case2 => exact Nat.le_refl _

/-- The shortest decimal of a float has at most eighteen digits. -/
theorem coefficient_shortest_le (tie : Tie) (x : Binary64) :
    (shortest tie x).coefficient ≤ 10 ^ 18 := by
  unfold shortest
  split
  · exact Nat.zero_le _
  · next hx =>
    obtain ⟨hstart, hlt⟩ := Interval.bounds_around hx
    exact Nat.le_trans (coefficient_normal_le _)
      (coefficient_search_le tie 17 _ hstart.1 hlt)

/-- **The shortest decimal of a float lies in the interval around it.** -/
theorem contains_shortest (tie : Tie) (x : Binary64) :
    (Interval.around x).Contains (shortest tie x).toRat := by
  unfold shortest
  split
  · next hzero =>
    exact Binary64.contains_self (by simp [toRat, hzero])
  · next hx =>
    obtain ⟨hstart, -⟩ := Interval.bounds_around hx
    set k := floorLog10 (Interval.around x).value (Interval.around x).unit with hk
    set i := (Interval.around x).scaled k with hi
    have hfine : 10 ^ 16 * i.low + i.unit < 10 ^ 16 * i.high := by
      have hwide : i.Wide := (Interval.wide_around x).scaled k
      have hle := hstart.2
      unfold Interval.Wide at hwide
      omega
    have hfound := contains_search ((Interval.inner_around hx).scaled k) hstart.1 tie 16 hfine k
    rw [toRat_normal]
    rw [Interval.contains_scaled, mul_assoc, ← zpow_add₀ (by norm_num), Int.add_left_neg,
      zpow_zero, mul_one] at hfound
    exact hfound

end Decimal
end JobParameters
