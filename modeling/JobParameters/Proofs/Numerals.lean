/-
# Numbers that are written are numerals

A number of a document has a sign, digits without a leading zero, and maybe a point with
digits and an exponent (`Numeral.Proper`); written out (`Numeral.text`) it is read as it
is, whatever follows that is no part of a number (`Numeral.read?_text`). An integer is
written as such a number without a point and an exponent, and 64-bit ones keep their value
(`Numeral.value_ofInt`). A finite float is written with a point or an exponent
(`Binary64.exists_numeral`), so it is never taken for an integer
(`Numeral.value_eq_asFloat`); what it denotes is the decimal that was written
(`Layout.writes_write`).

That the decimal of a float has no leading zero is a fact about the search for the
shortest one: it starts where the number has one digit before the point
(`Interval.bounds_scaled`), and never comes below that (`Decimal.coefficient_search`).
-/
import JobParameters.Json.Numeral
import JobParameters.Proofs.Rounding
import Mathlib

namespace JobParameters

/-! ### Digits -/

theorem isDigit_toDigits {n : Nat} {c : Char} (h : c ∈ Nat.toDigits 10 n) : c.isDigit = true :=
  Nat.isDigit_of_mem_toDigits (by decide) (by decide) h

/-- The digits of a number that is not zero do not start with zero. -/
theorem head?_toDigits {n : Nat} (h : n ≠ 0) : (Nat.toDigits 10 n).head? ≠ some '0' := by
  induction n using Nat.strongRecOn with
  | ind n ih =>
    by_cases hn : n < 10
    · rw [Nat.toDigits_of_lt_base hn]
      simpa using h
    · have hdiv : n / 10 ≠ 0 := by omega
      rw [Nat.toDigits_of_base_le (by decide) (by omega), List.head?_append_of_ne_nil]
      · exact ih (n / 10) (by omega) hdiv
      · exact Nat.toDigits_ne_nil

theorem appendDigits_toDigits (n : Nat) : appendDigits 0 (Nat.toDigits 10 n) = n :=
  Nat.ofDigitChars_ten_toDigits

theorem appendDigits_append (n : Nat) (ds es : List Char) :
    appendDigits n (ds ++ es) = appendDigits (appendDigits n ds) es :=
  List.foldl_append

theorem appendDigits_replicate_zero (n k : Nat) :
    appendDigits n (List.replicate k '0') = n * 10 ^ k := by
  induction k generalizing n with
  | zero => simp [appendDigits]
  | succ k ih =>
    show appendDigits (10 * n + 0) (List.replicate k '0') = _
    rw [ih, Nat.pow_succ]
    ring

/-- Digits are read up to the first character that is none. -/
theorem readDigits_append_of_isDigit {ds rest : List Char} (h : ∀ d ∈ ds, d.isDigit = true)
    (hr : ∀ c ∈ rest.head?, c.isDigit = false) : readDigits (ds ++ rest) = (ds, rest) := by
  have hnone : rest.takeWhile Char.isDigit = [] ∧ rest.dropWhile Char.isDigit = rest := by
    cases rest with
    | nil => exact ⟨rfl, rfl⟩
    | cons c cs =>
      have hc : c.isDigit = false := hr c rfl
      exact ⟨by simp [hc], by simp [hc]⟩
  unfold readDigits
  rw [List.takeWhile_append_of_pos h, List.dropWhile_append_of_pos h, hnone.1, hnone.2,
    List.append_nil]

namespace Decimal

/-- The number that a decimal stands for. -/
def toRat (d : Decimal) : ℚ := d.coefficient * (10 : ℚ) ^ d.exponent

/-- The same whole number with a zero after the point. -/
def withPoint (d : Decimal) : Decimal := ⟨d.coefficient * 10 ^ (d.exponent.toNat + 1), -1⟩

theorem toRat_withPoint {d : Decimal} (h : 0 ≤ d.exponent) : d.withPoint.toRat = d.toRat := by
  obtain ⟨n, e⟩ := d
  obtain ⟨k, rfl⟩ := Int.eq_ofNat_of_zero_le h
  have hpower : (10 : ℚ) ^ (-1 : ℤ) = 1 / 10 := by norm_num
  simp only [toRat, withPoint, Int.toNat_natCast, hpower]
  push_cast
  rw [zpow_natCast, pow_succ]
  ring

end Decimal

namespace Numeral

/-- All digits of a number as one. -/
def coefficient (l : Numeral) : Nat := appendDigits 0 (l.whole ++ l.part.getD [])

/-- The power of ten that counts them. -/
def power (l : Numeral) : Int := l.exponent.getD 0 - (l.part.getD []).length

/-- The decimal that a number denotes, its sign aside. -/
def toDecimal (l : Numeral) : Decimal := ⟨l.coefficient, l.power⟩

/-! ### Written numerals -/

/-- A point with its digits. -/
def partText : Option (List Char) → List Char
  | none => []
  | some ds => '.' :: ds

/-- An exponent with its sign. -/
def exponentText : Option Int → List Char
  | none => []
  | some e => 'e' :: (if e < 0 then '-' else '+') :: Nat.toDigits 10 e.natAbs

/-- A number as it is written. -/
def text (l : Numeral) : List Char :=
  (if l.negative then ['-'] else []) ++ l.whole ++ partText l.part ++ exponentText l.exponent

/-- A number that follows the rules: digits in each part, and no leading zero. -/
structure Proper (l : Numeral) : Prop where
  digits : ∀ d ∈ l.whole, d.isDigit = true
  whole_ne_nil : l.whole ≠ []
  leading : l.whole.head? = some '0' → l.whole.length = 1
  part : ∀ ds, l.part = some ds → ds ≠ [] ∧ ∀ d ∈ ds, d.isDigit = true

/-- What comes next is no part of a number. -/
def Ends (rest : List Char) : Prop :=
  ∀ c ∈ rest.head?, c.isDigit = false ∧ c ≠ '.' ∧ c ≠ 'e' ∧ c ≠ 'E'

theorem ends_nil : Ends [] := nofun

theorem readExponent?_exponentText {e : Option Int} {rest : List Char} (hr : Ends rest) :
    readExponent? (exponentText e ++ rest) = some (e, rest) := by
  cases e with
  | none =>
    cases rest with
    | nil => rfl
    | cons c cs =>
      obtain ⟨-, -, he, hE⟩ := hr c rfl
      simp [exponentText, readExponent?, he, hE]
  | some e =>
    have hds : readDigits (Nat.toDigits 10 e.natAbs ++ rest) = (Nat.toDigits 10 e.natAbs, rest) :=
      readDigits_append_of_isDigit (fun d hd => isDigit_toDigits hd) fun c hc => (hr c hc).1
    have hne : (Nat.toDigits 10 e.natAbs).isEmpty = false := by simp
    by_cases he : e < 0
    · have hsign : readSign ('-' :: (Nat.toDigits 10 e.natAbs ++ rest)) =
          (true, Nat.toDigits 10 e.natAbs ++ rest) := rfl
      have habs : -(e.natAbs : Int) = e := by omega
      simp only [exponentText, if_pos he, List.cons_append, readExponent?, true_or, if_true,
        hsign, hds, hne, Bool.false_eq_true, if_false, appendDigits_toDigits, habs]
    · have hsign : readSign ('+' :: (Nat.toDigits 10 e.natAbs ++ rest)) =
          (false, Nat.toDigits 10 e.natAbs ++ rest) := rfl
      have habs : (e.natAbs : Int) = e := by omega
      simp only [exponentText, if_neg he, List.cons_append, readExponent?, true_or, if_true,
        hsign, hds, hne, Bool.false_eq_true, if_false, appendDigits_toDigits, habs]

/-- What follows the digits of a part does not go on with a digit. -/
theorem isDigit_exponentText {e : Option Int} {rest : List Char} (hr : Ends rest) :
    ∀ c ∈ (exponentText e ++ rest).head?, c.isDigit = false := by
  cases e with
  | none => exact fun c hc => (hr c hc).1
  | some e =>
    intro c hc
    obtain rfl : 'e' = c := by simpa [exponentText] using hc
    rfl

theorem readPart?_partText {p : Option (List Char)} {e : Option Int} {rest : List Char}
    (hp : ∀ ds, p = some ds → ds ≠ [] ∧ ∀ d ∈ ds, d.isDigit = true) (hr : Ends rest) :
    readPart? (partText p ++ (exponentText e ++ rest)) = some (p, exponentText e ++ rest) := by
  cases p with
  | some ds =>
    obtain ⟨hne, hds⟩ := hp ds rfl
    have hread := readDigits_append_of_isDigit hds (isDigit_exponentText (e := e) hr)
    simp [partText, readPart?, hread, hne]
  | none =>
    have hpoint : ∀ c ∈ (exponentText e ++ rest).head?, c ≠ '.' := by
      cases e with
      | none => exact fun c hc => (hr c hc).2.1
      | some e =>
        intro c hc
        obtain rfl : 'e' = c := by simpa [exponentText] using hc
        decide
    cases hcs : exponentText e ++ rest with
    | nil => rfl
    | cons c cs =>
      have hc : c ≠ '.' := hpoint c (by rw [hcs]; rfl)
      simp [partText, readPart?, hc]

theorem isDigit_partText {p : Option (List Char)} {e : Option Int} {rest : List Char}
    (hr : Ends rest) : ∀ c ∈ (partText p ++ (exponentText e ++ rest)).head?, c.isDigit = false := by
  cases p with
  | none => exact isDigit_exponentText hr
  | some ds =>
    intro c hc
    obtain rfl : '.' = c := by simpa [partText] using hc
    rfl

/-- **A number that is written is read as it is.** -/
theorem read?_text {l : Numeral} (h : l.Proper) {rest : List Char} (hr : Ends rest) :
    read? (l.text ++ rest) = some (l, rest) := by
  obtain ⟨negative, whole, part, exponent⟩ := l
  have hdigits := readDigits_append_of_isDigit h.digits
    (isDigit_partText (p := part) (e := exponent) hr)
  have hpart := readPart?_partText (e := exponent) h.part hr
  have hexp := readExponent?_exponentText (e := exponent) hr
  have hlead : (whole.isEmpty || (whole.head? == some '0' && 1 < whole.length)) = false := by
    have hne : whole.isEmpty = false := by simpa using h.whole_ne_nil
    rw [hne, Bool.false_or, Bool.and_eq_false_iff]
    by_cases hz : whole.head? = some '0'
    · have : whole.length = 1 := h.leading hz
      exact Or.inr (by simp [this])
    · exact Or.inl (by simpa using hz)
  cases negative with
  | true =>
    have htext : (Numeral.mk true whole part exponent).text ++ rest =
        '-' :: (whole ++ (partText part ++ (exponentText exponent ++ rest))) := by
      simp [text]
    rw [htext]
    simp only [read?, hdigits, hlead, Bool.false_eq_true, if_false, hpart, hexp,
      Option.bind_eq_bind, Option.bind_some]
  | false =>
    cases hw : whole with
    | nil => exact absurd hw h.whole_ne_nil
    | cons c cs =>
      have hc : c ≠ '-' := by
        rintro rfl
        have := h.digits '-' (by simp [hw])
        cases this
      rw [hw] at hdigits hlead
      simp only [List.cons_append] at hdigits
      simp only [text, Bool.false_eq_true, if_false, List.nil_append, List.append_assoc,
        List.cons_append, read?]
      split
      · next heq => exact absurd (List.cons.inj heq).1 hc
      · simp only [hdigits, hlead, Bool.false_eq_true, if_false, hpart, hexp,
          Option.bind_eq_bind, Option.bind_some]

/-! ### Integers -/

/-- The number of an integer as it is written. -/
def ofInt (n : Int) : Numeral := ⟨decide (n < 0), Nat.toDigits 10 n.natAbs, none, none⟩

theorem text_ofInt (n : Int) : (ofInt n).text = (toString n).toList := by
  cases n with
  | ofNat n =>
    have hn : ¬ (Int.ofNat n < 0) := by simp
    simp [ofInt, text, partText, exponentText, toString, Int.repr, Nat.repr]
  | negSucc n =>
    simp [ofInt, text, partText, exponentText, toString, Int.repr, Nat.repr]

theorem proper_ofInt (n : Int) : (ofInt n).Proper where
  digits _ hd := isDigit_toDigits hd
  whole_ne_nil := Nat.toDigits_ne_nil
  leading h := by
    have hz : n.natAbs = 0 := by
      by_contra hne
      exact head?_toDigits hne h
    simp [ofInt, hz]
  part _ h := by cases h

end Numeral

/-- Digits only make a number greater. -/
theorem le_appendDigits (n : Nat) (ds : List Char) : n ≤ appendDigits n ds := by
  induction ds generalizing n with
  | nil => exact Nat.le_refl n
  | cons d ds ih =>
    have h := ih (10 * n + digitValue d)
    exact Nat.le_trans (by omega) h

namespace Numeral

/-- Digits of a number that fits are all taken. -/
theorem absorb_of_le {n : Nat} {ds : List Char} (h : appendDigits n ds ≤ maxSignificand) :
    absorb n ds = (appendDigits n ds, []) := by
  induction ds generalizing n with
  | nil => rfl
  | cons d ds ih =>
    have hd : 10 * n + digitValue d ≤ maxSignificand :=
      Nat.le_trans (le_appendDigits _ ds) h
    rw [absorb, if_pos hd]
    exact ih h

/-- **An integer of 64 bits is read back as itself.** -/
theorem value_ofInt (n : Int64) : (ofInt n.toInt).value = .integer n.toInt := by
  have hlt := n.toInt_lt
  have hle := n.le_toInt
  have hmax : maxSignificand = 18446744073709551615 := rfl
  have hmin : Int64.minValue.toInt = -9223372036854775808 := rfl
  have habsorb : absorb 0 (Nat.toDigits 10 n.toInt.natAbs) = (n.toInt.natAbs, []) := by
    rw [absorb_of_le (by rw [appendDigits_toDigits]; omega), appendDigits_toDigits]
  by_cases hneg : n.toInt < 0
  · have hval : -(n.toInt.natAbs : Int) = n.toInt := by omega
    have hfit : ¬ (n.toInt.natAbs = 0 ∨ n.toInt < Int64.minValue.toInt) := by omega
    simp only [ofInt, value, habsorb, hneg, wholeOf, hval, hfit, decide_true, Bool.not_true,
      List.isEmpty_nil, if_true, Bool.false_eq_true, if_false]
  · have hval : (n.toInt.natAbs : Int) = n.toInt := by omega
    simp only [ofInt, value, habsorb, hneg, wholeOf, hval, decide_false, Bool.not_false,
      List.isEmpty_nil, if_true]

/-! ### Floats -/

/-- What the number denotes if it is taken for a float. -/
def asFloat (l : Numeral) : Json :=
  let (n, surplus) := absorb 0 l.whole
  let ds := l.part.getD []
  let (m, dropped) := absorb n ds
  floatOf l.negative m (surplus.length - (ds.length - dropped.length : Nat) + l.exponent.getD 0)

/-- Whether the number is written with a point or an exponent. -/
def Fractional (l : Numeral) : Prop :=
  l.part.isSome = true ∨ l.exponent.isSome = true

/-- **A number with a point or an exponent is a float, however whole it is.** -/
theorem value_eq_asFloat {l : Numeral} (h : l.Fractional) : l.value = l.asFloat := by
  obtain ⟨negative, whole, part, exponent⟩ := l
  cases part with
  | some ds => rfl
  | none =>
    cases exponent with
    | some e => rfl
    | none => exact absurd h (by simp [Fractional])

/-- What a float is read as is a float, or beyond every float. -/
theorem asFloat_cases (l : Numeral) :
    (∃ x, l.asFloat = .float x) ∨ l.asFloat = .unrepresentable := by
  simp only [asFloat, floatOf]
  split
  · exact Or.inl ⟨_, rfl⟩
  · exact Or.inr rfl

end Numeral

/-! ### The decimal of a float -/

/-- The first digit of a number that is not zero stands where its size says. -/
theorem pow_digitCount_le {n : Nat} (h : 0 < n) : 10 ^ (digitCount n - 1) ≤ n := by
  rcases Nat.eq_zero_or_pos (digitCount n - 1) with hz | hpos
  · rw [hz]
    exact h
  · by_contra hge
    have hlt : n < 10 ^ (digitCount n - 1) := Nat.lt_of_not_le hge
    have hle := (Nat.length_toDigits_le_iff (b := 10) (by decide) hpos).mpr hlt
    unfold digitCount at hle hpos
    omega

theorem lt_pow_digitCount (n : Nat) : n < 10 ^ digitCount n :=
  (Nat.length_toDigits_le_iff (by decide) Nat.length_toDigits_pos).mp (Nat.le_refl _)

namespace Interval

/-- The interval's number is not below one. -/
def Started (i : Interval) : Prop :=
  0 < i.unit ∧ i.unit ≤ i.value

/-- Over the power of ten that its size says, a number has one digit before the point. -/
theorem bounds_scaled {i : Interval} (hu : 0 < i.unit) (hv : 0 < i.value) :
    let j := i.scaled (floorLog10 i.value i.unit)
    0 < j.unit ∧ j.unit ≤ j.value ∧ j.value < 10 * j.unit := by
  have hpos (n : Nat) : 0 < digitCount n := Nat.length_toDigits_pos
  unfold floorLog10
  split
  -- From one upward the power is that of the digits of the whole part; below one it is the
  -- first that the inverse, rounded up, does not reach.
  · next hle =>
    set n := i.value / i.unit with hn
    obtain ⟨k, hk⟩ : ∃ k, digitCount n = k + 1 := ⟨_, (Nat.succ_pred_eq_of_pos (hpos _)).symm⟩
    have hlow := pow_digitCount_le (Nat.div_pos hle hu)
    have hhigh := lt_pow_digitCount n
    rw [← hn, hk, Nat.add_sub_cancel] at hlow
    rw [hk, Nat.pow_succ] at hhigh
    have hexp : ((digitCount n : Nat) : Int) - 1 = Int.ofNat k := by
      rw [hk]
      simp
    rw [hexp]
    refine ⟨Nat.mul_pos hu (Nat.pow_pos (by decide)), ?_, ?_⟩
    · show i.unit * 10 ^ k ≤ i.value
      calc i.unit * 10 ^ k ≤ i.unit * n := Nat.mul_le_mul_left _ hlow
        _ ≤ i.value := Nat.mul_div_le _ _
    · show i.value < 10 * (i.unit * 10 ^ k)
      calc i.value < 10 ^ k * 10 * i.unit := (Nat.div_lt_iff_lt_mul hu).mp hhigh
        _ = 10 * (i.unit * 10 ^ k) := by ring
  · next hlt =>
    set c := (i.unit + i.value - 1) / i.value with hc
    have hmod := Nat.div_add_mod (i.unit + i.value - 1) i.value
    have hrem := Nat.mod_lt (i.unit + i.value - 1) hv
    rw [← hc] at hmod
    have hc2 : 2 ≤ c := by
      rw [hc, Nat.le_div_iff_mul_le hv]
      omega
    have hpred : i.value * c = i.value * (c - 1) + i.value := by
      rw [← Nat.mul_succ]
      congr 1
      omega
    obtain ⟨k, hk⟩ : ∃ k, digitCount (c - 1) = k + 1 :=
      ⟨_, (Nat.succ_pred_eq_of_pos (hpos _)).symm⟩
    have hlow := pow_digitCount_le (show 0 < c - 1 by omega)
    have hhigh := lt_pow_digitCount (c - 1)
    rw [hk, Nat.add_sub_cancel] at hlow
    rw [hk] at hhigh
    have hexp : -((digitCount (c - 1) : Nat) : Int) = Int.negSucc k := by
      rw [hk]
      simp [Int.negSucc_eq]
    rw [hexp]
    refine ⟨hu, ?_, ?_⟩
    · show i.unit ≤ i.value * 10 ^ (k + 1)
      have hmul := Nat.mul_le_mul_left i.value (show c ≤ 10 ^ (k + 1) by omega)
      omega
    · show i.value * 10 ^ (k + 1) < 10 * i.unit
      have hmul := Nat.mul_le_mul_left i.value hlow
      rw [Nat.pow_succ, ← Nat.mul_assoc]
      omega

/-- The interval of a number that is not zero starts at its first digit. -/
theorem bounds_around {x : Binary64} (hx : x.units ≠ 0) :
    let j := (around x).scaled (floorLog10 (around x).value (around x).unit)
    j.Started ∧ j.value < 10 * j.unit := by
  have hunit : 0 < (around x).unit := Nat.mul_pos (by decide) Binary64.unitsPerOne_pos
  have hvalue : 0 < (around x).value := by
    show 0 < 4 * x.units
    omega
  obtain ⟨hu, hlow, hhigh⟩ := bounds_scaled hunit hvalue
  exact ⟨⟨hu, hlow⟩, hhigh⟩

theorem Started.timesTen {i : Interval} (h : i.Started) : i.timesTen.Started := by
  obtain ⟨hu, hv⟩ := h
  refine ⟨hu, ?_⟩
  show i.unit ≤ 10 * i.value
  omega

theorem Started.div_pos {i : Interval} (h : i.Started) : 0 < i.value / i.unit :=
  Nat.div_pos h.2 h.1

theorem Started.nearestWhole_pos {i : Interval} (h : i.Started) {tie : Tie} {n : Nat}
    (hn : i.nearestWhole? tie = some n) : 0 < n := by
  have hpos := h.div_pos
  unfold nearestWhole? at hn
  simp only at hn
  grind

end Interval

namespace Decimal

/-- **The search for the shortest decimal starts at the first digit and finds no zero.** -/
theorem coefficient_search (tie : Tie) (fuel : Nat) (k : Int) {i : Interval} (h : i.Started) :
    0 < (search tie fuel k i).coefficient := by
  induction fuel generalizing k i with
  | zero => exact h.div_pos
  | succ fuel ih =>
    simp only [search]
    split
    · next n hn => exact h.nearestWhole_pos hn
    · exact ih (k - 1) h.timesTen

theorem coefficient_normal {d : Decimal} (h : 0 < d.coefficient) : 0 < d.normal.coefficient := by
  fun_induction normal d with
  | case1 d hd ih =>
    refine ih ?_
    show 0 < d.coefficient / 10
    omega
  | case2 => exact h

/-- The shortest decimal of a number is zero only as it is written `0`. -/
theorem exponent_shortest {tie : Tie} {x : Binary64} (h : (shortest tie x).coefficient = 0) :
    (shortest tie x).exponent = 0 := by
  unfold shortest at h ⊢
  split
  · rfl
  · next hx =>
    rw [if_neg hx] at h
    have hpos := coefficient_normal (coefficient_search tie 17
      (floorLog10 (Interval.around x).value (Interval.around x).unit)
      (Interval.bounds_around hx).1)
    exact absurd h (Nat.ne_of_gt hpos)

end Decimal

namespace Layout

open Numeral

variable {l : Layout} (negative : Bool) {n : Nat} {e : Int}

/-- The characters after a sign make a number with a point or an exponent, and it denotes
the decimal: as it is, or with a zero after the point where a whole number is written
positionally. -/
def Writes (l : Layout) (d : Decimal) (cs : List Char) : Prop :=
  ∃ m : Numeral, m.Proper ∧ m.Fractional ∧ m.text = (if negative then ['-'] else []) ++ cs ∧
    m.negative = negative ∧
    (m.toDecimal = d ∨ 0 ≤ d.exponent ∧
      l.positional (digitCount d.coefficient + d.exponent) = true ∧ m.toDecimal = d.withPoint)

/-- The digits of a whole number with its zeros have no leading one. -/
theorem proper_whole (part : Option (List Char)) (hz : n = 0 → e = 0)
    (hpart : ∀ ds, part = some ds → ds ≠ [] ∧ ∀ d ∈ ds, d.isDigit = true) :
    (Numeral.mk negative (Nat.toDigits 10 n ++ List.replicate e.toNat '0') part none).Proper := by
  refine ⟨?_, ?_, ?_, hpart⟩
  · intro d hd
    rcases List.mem_append.mp hd with hd | hd
    · exact isDigit_toDigits hd
    · rw [List.eq_of_mem_replicate hd]
      rfl
  · simp
  · intro hhead
    rw [List.head?_append_of_ne_nil _ Nat.toDigits_ne_nil] at hhead
    have hn : n = 0 := by
      by_contra hne
      exact head?_toDigits hne hhead
    simp [hn, hz hn]

/-- A whole number that keeps its point. -/
theorem writes_whole (hl : l.keepsPoint = true) (hz : n = 0 → e = 0) (he : 0 ≤ e)
    (hp : l.positional (digitCount n + e) = true) :
    Writes negative l ⟨n, e⟩ (l.writePositional (Nat.toDigits 10 n) e) := by
  refine ⟨⟨negative, Nat.toDigits 10 n ++ List.replicate e.toNat '0', some ['0'], none⟩,
    proper_whole negative _ hz ?_, Or.inl rfl, ?_, rfl, Or.inr ⟨he, hp, ?_⟩⟩
  · rintro ds ⟨⟩
    simp
  · simp [text, partText, exponentText, writePositional, he, hl]
  · have hcoefficient : appendDigits 0 (Nat.toDigits 10 n ++ List.replicate e.toNat '0' ++ ['0']) =
        n * 10 ^ (e.toNat + 1) := by
      rw [appendDigits_append, appendDigits_append, appendDigits_toDigits,
        appendDigits_replicate_zero, Nat.pow_succ]
      show 10 * (n * 10 ^ e.toNat) + 0 = _
      ring
    simp only [toDecimal, coefficient, power, Decimal.withPoint, Option.getD_some, Option.getD_none,
      hcoefficient, List.length_singleton, Nat.cast_one, zero_sub]

/-- A number that is not whole and has digits before the point. -/
theorem writes_pointed (hn : n ≠ 0) (he : e < 0)
    (hp : 0 < ((Nat.toDigits 10 n).length : Int) + e) :
    Writes negative l ⟨n, e⟩ (l.writePositional (Nat.toDigits 10 n) e) := by
  set ds := Nat.toDigits 10 n with hds
  set p := ((ds.length : Int) + e).toNat with hpdef
  have hp0 : p ≠ 0 := by omega
  have hlt : p < ds.length := by omega
  refine ⟨⟨negative, ds.take p, some (ds.drop p), none⟩, ⟨?_, ?_, ?_, ?_⟩, Or.inl rfl, ?_, rfl,
    Or.inl ?_⟩
  · exact fun d hd => isDigit_toDigits (List.mem_of_mem_take hd)
  · simp [hp0, hds]
  · intro hhead
    rw [List.head?_take, if_neg hp0] at hhead
    exact absurd hhead (head?_toDigits hn)
  · rintro _ ⟨⟩
    refine ⟨by simpa using hlt, fun d hd => isDigit_toDigits (List.mem_of_mem_drop hd)⟩
  · simp [text, partText, exponentText, writePositional, not_le.mpr he, hp, ← hpdef]
  · have hpower : (0 : Int) - (ds.drop p).length = e := by
      rw [List.length_drop]
      omega
    simp only [toDecimal, coefficient, power, Option.getD_some, Option.getD_none,
      List.take_append_drop, hds, appendDigits_toDigits]
    rw [← hds, hpower]

/-- A number below one. -/
theorem writes_small (he : e < 0) (hp : ¬ 0 < ((Nat.toDigits 10 n).length : Int) + e) :
    Writes negative l ⟨n, e⟩ (l.writePositional (Nat.toDigits 10 n) e) := by
  set ds := Nat.toDigits 10 n with hds
  set k := (-((ds.length : Int) + e)).toNat with hk
  set zeros := List.replicate k '0' with hzeros
  refine ⟨⟨negative, ['0'], some (zeros ++ ds), none⟩, ⟨?_, ?_, ?_, ?_⟩, Or.inl rfl, ?_, rfl,
    Or.inl ?_⟩
  · simp
  · simp
  · simp
  · rintro _ ⟨⟩
    refine ⟨by simp [hds], fun d hd => ?_⟩
    rcases List.mem_append.mp hd with hd | hd
    · rw [List.eq_of_mem_replicate hd]
      rfl
    · exact isDigit_toDigits hd
  · simp only [text, partText, exponentText, writePositional, not_le.mpr he, hp, if_false,
      List.append_assoc, List.append_nil, List.cons_append, List.nil_append, ← hk, ← hzeros]
  · have hcoefficient : appendDigits 0 (['0'] ++ (zeros ++ ds)) = n := by
      rw [appendDigits_append, appendDigits_append, hzeros]
      show appendDigits (appendDigits 0 (List.replicate k '0')) ds = n
      rw [appendDigits_replicate_zero, Nat.zero_mul, hds, appendDigits_toDigits]
    have hpower : (0 : Int) - (zeros ++ ds).length = e := by
      rw [List.length_append, hzeros, List.length_replicate]
      omega
    simp only [toDecimal, coefficient, power, Option.getD_some, Option.getD_none, hcoefficient,
      hpower]

/-- A number with an exponent. -/
theorem writes_exponential (hl : l.signsExponent = true) :
    Writes negative l ⟨n, e⟩ (l.writeExponential (Nat.toDigits 10 n) e) := by
  set ds := Nat.toDigits 10 n with hds
  have hne : ds ≠ [] := Nat.toDigits_ne_nil
  have hlength := List.length_pos_iff.mpr hne
  refine ⟨⟨negative, ds.take 1, if ds.length ≤ 1 then none else some (ds.drop 1),
    some ((ds.length : Int) + e - 1)⟩, ⟨?_, ?_, ?_, ?_⟩, Or.inr rfl, ?_, rfl, Or.inl ?_⟩
  · exact fun d hd => isDigit_toDigits (List.mem_of_mem_take hd)
  · simp [hne]
  · intro _
    simp only [List.length_take]
    omega
  · intro part hpart
    split at hpart
    · cases hpart
    · next hlen =>
      obtain rfl := Option.some.inj hpart
      refine ⟨?_, fun d hd => isDigit_toDigits (List.mem_of_mem_drop hd)⟩
      rw [Ne, List.drop_eq_nil_iff]
      exact hlen
  · have hsign (i : Int) : exponentText (some i) =
        ['e'] ++ (if i < 0 then ['-'] else ['+']) ++ Nat.toDigits 10 i.natAbs := by
      simp only [exponentText]
      split <;> rfl
    simp only [text, hsign, writeExponential, hl, if_true]
    by_cases hlen : ds.length ≤ 1
    · have hdrop : ds.drop 1 = [] := List.drop_eq_nil_of_le hlen
      rw [if_pos hlen, if_pos hlen, hdrop]
      simp [partText]
    · rw [if_neg hlen, if_neg hlen]
      simp [partText]
  · have hpart : (if ds.length ≤ 1 then none else some (ds.drop 1)).getD [] = ds.drop 1 := by
      split
      · next hlen => exact (List.drop_eq_nil_of_le hlen).symm
      · rfl
    have hpower : (ds.length : Int) + e - 1 - (ds.drop 1).length = e := by
      rw [List.length_drop]
      omega
    simp only [toDecimal, coefficient, power, hpart, Option.getD_some, List.take_append_drop,
      hpower]
    rw [hds, appendDigits_toDigits]

/-- **A decimal in a layout that keeps points and signs exponents is a number with a point
or an exponent**, and denotes what it did. -/
theorem writes_write (hk : l.keepsPoint = true) (hs : l.signsExponent = true)
    {d : Decimal} (hz : d.coefficient = 0 → d.exponent = 0) :
    Writes negative l d (l.write d) := by
  by_cases hpos : l.positional (digitCount d.coefficient + d.exponent) = true
  · have hwrite : l.write d = l.writePositional (Nat.toDigits 10 d.coefficient) d.exponent :=
      if_pos hpos
    rw [hwrite]
    by_cases he : 0 ≤ d.exponent
    · exact writes_whole negative hk hz he hpos
    · have hn : d.coefficient ≠ 0 := fun h => he (by rw [hz h])
      by_cases hp : 0 < ((Nat.toDigits 10 d.coefficient).length : Int) + d.exponent
      · exact writes_pointed negative hn (by omega) hp
      · exact writes_small negative (by omega) hp
  · have hwrite : l.write d = l.writeExponential (Nat.toDigits 10 d.coefficient) d.exponent :=
      if_neg hpos
    rw [hwrite]
    exact writes_exponential negative hs

end Layout

namespace Binary64

theorem toList_numeral {x : Binary64} (h : x.isFinite = true) : (Json.numeral x).toList =
    (if x.negative then ['-'] else []) ++
      Layout.interchange.write (Decimal.shortest .toEven x) := by
  have hnan : x.isNaN = false := not_isNaN_of_isFinite h
  simp [Json.numeral, h, written, hnan, Layout.interchange]

/-- A finite float is written as a number that denotes its shortest decimal, with a zero
after the point where that is a whole number of up to sixteen digits. -/
theorem exists_decimal {x : Binary64} (h : x.isFinite = true) :
    let d := Decimal.shortest .toEven x
    ∃ m : Numeral, m.Proper ∧ m.Fractional ∧ m.text = (Json.numeral x).toList ∧
      m.negative = x.negative ∧ (m.toDecimal = d ∨ 0 ≤ d.exponent ∧
        digitCount d.coefficient + d.exponent ≤ 16 ∧ m.toDecimal = d.withPoint) := by
  intro d
  obtain ⟨m, hm, hf, htext, hsign, hd⟩ := Layout.writes_write (l := .interchange) x.negative rfl
    rfl (d := d) Decimal.exponent_shortest
  refine ⟨m, hm, hf, htext.trans (toList_numeral h).symm, hsign, hd.imp_right ?_⟩
  rintro ⟨he, hp, hd⟩
  refine ⟨he, ?_, hd⟩
  simp only [Layout.interchange, Bool.and_eq_true, decide_eq_true_eq] at hp
  exact hp.2

/-- **A finite float is written as a number with a point or an exponent.** -/
theorem exists_numeral {x : Binary64} (h : x.isFinite = true) :
    ∃ m : Numeral, m.Proper ∧ m.Fractional ∧ m.text = (Json.numeral x).toList := by
  obtain ⟨m, hm, hf, htext, -⟩ := exists_decimal h
  exact ⟨m, hm, hf, htext⟩

/-- The number written for a float denotes that float when it is taken for a float. -/
def ReadsBack (x : Binary64) : Prop :=
  ∀ m, Numeral.read? (Json.numeral x).toList = some (m, []) → m.asFloat = .float x

instance (j : Json) (x : Binary64) : Decidable (j = .float x) :=
  match j with
  | .float y => decidable_of_iff (y = x) (by simp)
  | .null | .bool _ | .integer _ | .string _ | .array _ | .object _ | .unrepresentable =>
    isFalse nofun

instance : DecidablePred ReadsBack := fun x =>
  match h : Numeral.read? (Json.numeral x).toList with
  | some (m, []) => decidable_of_iff (m.asFloat = .float x)
    ⟨fun hm l hl => by cases h.symm.trans hl; exact hm, fun hx => hx m h⟩
  | some (_, _ :: _) => isTrue fun l hl => by cases h.symm.trans hl
  | none => isTrue fun l hl => by cases h.symm.trans hl

end Binary64
end JobParameters
