/-
# Plain text reads back

A number is shown as plain text, positionally and without a point where it is whole. Read as
people write numbers, the text gives the number again: an integer by its digits
(`readInteger?_toString`), and a float because the shortest decimal lies in the interval around
it, whose decimals all have that float nearest to them (`Binary64.ofDecimal_of_contains`). The
two guards before the arithmetic do not get in the way: no decimal of the interval is taken for
infinity, and one that is taken for zero is nearest to zero.

Such a text has no blanks at its ends, so the blanks around it are all that is trimmed, and a
finite value is coerced from its text (`Value.toType?_display`). On the command line, where
every value is a text, it can therefore be supplied as its text
(`CommandLine.text_stands_for_value`).
-/
import JobParameters.Proofs.Assignments
import JobParameters.Proofs.Coercing
import JobParameters.Proofs.Rescaling

namespace JobParameters

/-! ### Signs and digits -/

theorem toLower_of_isDigit {c : Char} (hc : c.isDigit = true) : c.toLower = c := by
  refine Char.toLower_eq_of_not_isUpper ?_
  have hdigit : c.toNat ≤ '9'.toNat := (Char.isDigit_iff_toNat.mp hc).2
  simp only [Char.isUpper, decide_eq_true_eq, ge_iff_le, UInt32.le_iff_toNat_le]
  rintro ⟨hupper, -⟩
  exact absurd (hupper.trans hdigit) (by decide)

namespace Numeral

/-- The characters of a number after its sign. -/
def unsigned (l : Numeral) : List Char :=
  l.whole ++ partText l.part ++ exponentText l.exponent

theorem text_eq (l : Numeral) : l.text = (if l.negative then ['-'] else []) ++ l.unsigned := by
  simp [text, unsigned]

/-- A number that follows the rules starts with a digit. -/
theorem unsigned_eq_cons {l : Numeral} (h : l.Proper) :
    ∃ c cs, l.unsigned = c :: cs ∧ c.isDigit = true := by
  obtain ⟨c, cs, hw⟩ := List.exists_cons_of_ne_nil h.whole_ne_nil
  refine ⟨c, cs ++ partText l.part ++ exponentText l.exponent, by simp [unsigned, hw], ?_⟩
  exact h.digits c (hw ▸ List.mem_cons_self)

theorem readSign_of_isDigit {c : Char} (hc : c.isDigit = true) (cs : List Char) :
    readSign (c :: cs) = (false, c :: cs) := by
  unfold readSign
  split
  · next heq =>
    cases (List.cons.inj heq).1
    cases hc
  · next heq =>
    cases (List.cons.inj heq).1
    cases hc
  · rfl

theorem readSign_text {l : Numeral} (h : l.Proper) :
    readSign l.text = (l.negative, l.unsigned) := by
  obtain ⟨c, cs, hcs, hc⟩ := unsigned_eq_cons h
  rw [text_eq, hcs]
  cases l.negative with
  | true => rfl
  | false => exact readSign_of_isDigit hc cs

end Numeral

/-- A sign and digits are an integer. -/
theorem readInteger?_of_readSign {cs : List Char} {negative : Bool} {n : Nat}
    (h : readSign cs = (negative, Nat.toDigits 10 n)) :
    readInteger? cs = some (if negative then -(n : Int) else n) := by
  have hdigits : (Nat.toDigits 10 n).all Char.isDigit = true :=
    List.all_eq_true.mpr fun _ hd => isDigit_toDigits hd
  have hne : (Nat.toDigits 10 n).isEmpty = false := by simp
  simp only [readInteger?, h, hne, hdigits, Bool.not_true, Bool.or_false, Bool.false_eq_true,
    if_false, appendDigits_toDigits]

/-- **An integer that is written is read as it is.** -/
theorem readInteger?_toString (n : Int) : readInteger? (toString n).toList = some n := by
  have hsign := Numeral.readSign_text (Numeral.proper_ofInt n)
  have hunsigned : (Numeral.ofInt n).unsigned = Nat.toDigits 10 n.natAbs := by
    simp [Numeral.unsigned, Numeral.ofInt, Numeral.partText, Numeral.exponentText]
  rw [Numeral.text_ofInt, hunsigned] at hsign
  rw [readInteger?_of_readSign hsign, Numeral.ofInt]
  congr 1
  simp only [decide_eq_true_eq]
  split <;> omega

/-! ### Decimals -/

/-- The exponent of a number is read as it is. -/
theorem readExponent?_exponentText (e : Option Int) :
    readExponent? (Numeral.exponentText e) = some (e.getD 0) := by
  cases e with
  | none => rfl
  | some e =>
    have hsign : readSign ((if e < 0 then '-' else '+') :: Nat.toDigits 10 e.natAbs) =
        (decide (e < 0), Nat.toDigits 10 e.natAbs) := by
      by_cases he : e < 0 <;> simp [he, readSign]
    show readInteger? _ = _
    rw [readInteger?_of_readSign hsign]
    congr 1
    simp only [decide_eq_true_eq, Option.getD_some]
    split <;> omega

/-- The digits of a document's number are also those of a decimal. -/
theorem Decimal.read?_unsigned {l : Numeral} (h : l.Proper) :
    Decimal.read? l.unsigned = some l.toDecimal := by
  have hwhole := readDigits_append_of_isDigit h.digits
    (Numeral.isDigit_partText (p := l.part) (e := l.exponent) Numeral.ends_nil)
  have hexponent := readExponent?_exponentText l.exponent
  have hne : l.whole.isEmpty = false := by simpa using h.whole_ne_nil
  have hstop := Numeral.isDigit_exponentText (e := l.exponent) Numeral.ends_nil
  rw [List.append_nil] at hwhole hstop
  rw [Numeral.unsigned, List.append_assoc, Decimal.read?, hwhole]
  cases hp : l.part with
  | some ds =>
    obtain ⟨-, hds⟩ := h.part ds hp
    have hpart := readDigits_append_of_isDigit hds hstop
    simp only [Numeral.partText, List.cons_append, hpart, hne, Bool.false_and, Bool.false_eq_true,
      if_false, hexponent, Option.map_some, Numeral.toDecimal, Numeral.coefficient, Numeral.power,
      hp, Option.getD_some]
  | none =>
    -- Without a point the exponent follows, which starts with a letter if it is there.
    cases he : l.exponent with
    | none =>
      simp [Numeral.partText, Numeral.exponentText, readExponent?, hne, Numeral.toDecimal,
        Numeral.coefficient, Numeral.power, hp, he]
    | some e =>
      rw [he] at hexponent
      simp only [Numeral.partText, List.nil_append, Numeral.exponentText] at hexponent ⊢
      simp [hne, hexponent, Numeral.toDecimal, Numeral.coefficient, Numeral.power, hp, he]

/-- A number of a document is no word, so it is read as the float nearest to what it denotes. -/
theorem Binary64.read?_text {l : Numeral} (h : l.Proper) :
    Binary64.read? l.text = some (Binary64.ofDecimal l.negative l.toDecimal) := by
  obtain ⟨c, cs, hcs, hc⟩ := Numeral.unsigned_eq_cons h
  have hword (w : String) (hw : w.toList.head?.any Char.isDigit = false) :
      String.ofList (l.unsigned.map Char.toLower) ≠ w := by
    rintro rfl
    rw [String.toList_ofList, hcs, List.map_cons, toLower_of_isDigit hc] at hw
    exact absurd hc (by simpa using hw)
  have hread := Decimal.read?_unsigned h
  simp only [Binary64.read?, Numeral.readSign_text h, hword "inf" (by decide),
    hword "infinity" (by decide), hword "nan" (by decide), or_self, if_false, hread,
    Option.map_some]

/-! ### The decimal of a plain text -/

namespace Layout

open Numeral

/-- A whole number without a point. -/
theorem writes_plain_whole (negative : Bool) {n : Nat} {e : Int} (hz : n = 0 → e = 0)
    (he : 0 ≤ e) : ∃ m : Numeral, m.Proper ∧ m.negative = negative ∧
      m.text = (if negative then ['-'] else []) ++
        plain.writePositional (Nat.toDigits 10 n) e ∧
      m.toDecimal.toRat = (Decimal.mk n e).toRat := by
  refine ⟨⟨negative, Nat.toDigits 10 n ++ List.replicate e.toNat '0', none, none⟩,
    proper_whole negative none hz nofun, rfl, ?_, ?_⟩
  · simp [text, partText, exponentText, writePositional, he, plain]
  · obtain ⟨k, rfl⟩ := Int.eq_ofNat_of_zero_le he
    have hcoefficient :
        appendDigits 0 (Nat.toDigits 10 n ++ List.replicate k '0' ++ []) = n * 10 ^ k := by
      rw [List.append_nil, appendDigits_append, appendDigits_toDigits,
        appendDigits_replicate_zero]
    simp only [toDecimal, coefficient, power, Int.toNat_natCast, Option.getD_none, hcoefficient,
      Decimal.toRat, List.length_nil, Nat.cast_zero, sub_zero, zpow_zero, mul_one, zpow_natCast]
    push_cast
    rfl

/-- A decimal as plain text is a number that denotes it. -/
theorem writes_plain (negative : Bool) {d : Decimal} (hz : d.coefficient = 0 → d.exponent = 0) :
    ∃ m : Numeral, m.Proper ∧ m.negative = negative ∧
      m.text = (if negative then ['-'] else []) ++ plain.write d ∧
      m.toDecimal.toRat = d.toRat := by
  obtain ⟨n, e⟩ := d
  have hwrite : plain.write ⟨n, e⟩ = plain.writePositional (Nat.toDigits 10 n) e := rfl
  rw [hwrite]
  rcases Int.lt_or_le e 0 with he | he
  · have hpointed : Writes negative plain ⟨n, e⟩
        (plain.writePositional (Nat.toDigits 10 n) e) := by
      by_cases hp : 0 < ((Nat.toDigits 10 n).length : Int) + e
      · exact writes_pointed negative (fun hn => absurd (hz hn) he.ne) he hp
      · exact writes_small negative he hp
    obtain ⟨m, hm, -, htext, hsign, hd⟩ := hpointed
    have hd : m.toDecimal = ⟨n, e⟩ := hd.resolve_right fun h => absurd h.1 (not_le.mpr he)
    exact ⟨m, hm, hsign, htext, by rw [hd]⟩
  · exact writes_plain_whole negative hz he

end Layout

namespace Interval

theorem Contains.le_high {i : Interval} {q : ℚ} (h : i.Contains q) : q * i.unit ≤ i.high := by
  unfold Contains at h
  split at h
  · exact h.2
  · exact h.2.le

end Interval

namespace Binary64

/-- A finite float is plain text as a number that denotes its shortest decimal. -/
theorem exists_plain {x : Binary64} (hx : x.isFinite = true) :
    ∃ m : Numeral, m.Proper ∧ m.negative = x.negative ∧ m.text = (x.written .plain).toList ∧
      m.toDecimal.toRat = (Decimal.shortest .away x).toRat := by
  obtain ⟨m, hm, hsign, htext, hd⟩ := Layout.writes_plain x.negative
    (d := Decimal.shortest .away x) Decimal.exponent_shortest
  refine ⟨m, hm, hsign, htext.trans ?_, hd⟩
  have hnan : x.isNaN = false := not_isNaN_of_isFinite hx
  simp [written, hx, hnan, Layout.plain]

/-! ### Decimals of the interval around a float -/

variable {x : Binary64}

/-- A ratio of the interval is rounded to the float. -/
theorem nearest_of_contains (hx : x.isFinite = true) {num den : Nat} (hden : 0 < den)
    (h : (Interval.around x).Contains (num / den)) : nearest x.negative num den = x := by
  rw [nearest, nearestMagnitude_of_contains hx hden h, ofMagnitude_magnitude]

/-- No decimal of the interval is taken for infinity. -/
theorem point_le_of_contains (hx : x.isFinite = true) {d : Decimal}
    (h : (Interval.around x).Contains d.toRat) (hd : d.coefficient ≠ 0) :
    digitCount d.coefficient + d.exponent ≤ 400 := by
  by_contra hlarge
  have hcount : 0 < digitCount d.coefficient := Nat.length_toDigits_pos
  have hbelow : (10 : ℚ) ^ 400 ≤ d.toRat := by
    have hdigits : ((10 ^ (digitCount d.coefficient - 1) : Nat) : ℚ) ≤ d.coefficient :=
      Nat.cast_le.mpr (pow_digitCount_le (Nat.pos_of_ne_zero hd))
    have hpower : (0 : ℚ) < (10 : ℚ) ^ d.exponent := by positivity
    calc (10 : ℚ) ^ 400
        ≤ (10 : ℚ) ^ (((digitCount d.coefficient - 1 : Nat) : ℤ) + d.exponent) := by
          rw [← zpow_ofNat]
          exact zpow_le_zpow_right₀ (by norm_num) (by omega)
      _ = ((10 ^ (digitCount d.coefficient - 1) : Nat) : ℚ) * (10 : ℚ) ^ d.exponent := by
          rw [zpow_add₀ (by norm_num), zpow_natCast, Nat.cast_pow, Nat.cast_ofNat]
      _ ≤ d.toRat := mul_le_mul_of_nonneg_right hdigits hpower.le
  have habove : (10 : ℚ) ^ 400 * (Interval.around x).unit ≤ (Interval.around x).high :=
    (mul_le_mul_of_nonneg_right hbelow (Nat.cast_nonneg _)).trans h.le_high
  have habove : 10 ^ 400 * (4 * unitsPerOne) ≤ (Interval.around x).high := by
    exact_mod_cast habove
  have hhigh : (Interval.around x).high ≤ 4 * largestUnits + 2 * topStep :=
    Nat.add_le_add (Nat.mul_le_mul_left 4 (units_le_largestUnits hx))
      (shiftLeft_le_topStep 2 (scale_le hx))
  have hbound : 4 * largestUnits + 2 * topStep < 10 ^ 400 * (4 * unitsPerOne) := by
    decide +kernel
  exact absurd (habove.trans hhigh) (not_le.mpr hbound)

/-- A ratio that is four hundred places below one is not half of the least float. -/
theorem units_le_of_digitCount {n k : Nat} (h : digitCount n + 401 ≤ k) :
    2 * (n * unitsPerOne) ≤ 10 ^ k := by
  obtain ⟨t, ht, hunits⟩ : ∃ t, t ≤ 401 ∧ 2 * unitsPerOne ≤ 10 ^ t :=
    ⟨401, Nat.le_refl _, by decide +kernel⟩
  calc 2 * (n * unitsPerOne)
      = n * (2 * unitsPerOne) := Nat.mul_left_comm 2 n unitsPerOne
    _ ≤ 10 ^ digitCount n * 10 ^ t := Nat.mul_le_mul (lt_pow_digitCount n).le hunits
    _ = 10 ^ (digitCount n + t) := (Nat.pow_add _ _ _).symm
    _ ≤ 10 ^ k := Nat.pow_le_pow_right (by decide) (by omega)

/-- A decimal is rounded as the ratio that it is, unless one of the guards decides, and one that
is taken for zero is not more than half of the least float. -/
theorem exists_ratio (negative : Bool) (d : Decimal) : ∃ num den : Nat, 0 < den ∧
    d.toRat = num / den ∧
    (d.coefficient = 0 ∨ digitCount d.coefficient + d.exponent < -400 →
      2 * (num * unitsPerOne) ≤ den) ∧
    ofDecimal negative d =
      if d.coefficient = 0 ∨ digitCount d.coefficient + d.exponent < -400 then zero negative
      else if 400 < digitCount d.coefficient + d.exponent then infinity negative
      else nearest negative num den := by
  obtain ⟨n, e⟩ := d
  cases e with
  | ofNat k =>
    refine ⟨n * 10 ^ k, 1, Nat.one_pos, ?_, ?_, rfl⟩
    · rw [Decimal.toRat, Int.ofNat_eq_natCast, zpow_natCast]
      push_cast
      rw [div_one]
    · rintro (rfl | hless)
      · simp
      · simp only [Int.ofNat_eq_natCast] at hless
        omega
  | negSucc k =>
    refine ⟨n, 10 ^ (k + 1), Nat.pow_pos (by decide), ?_, ?_, rfl⟩
    · rw [Decimal.toRat, zpow_negSucc, ← div_eq_mul_inv]
      push_cast
      rfl
    · rintro (rfl | hless)
      · simp
      · simp only [Int.negSucc_eq] at hless
        exact units_le_of_digitCount (by omega)

/-- **Every decimal of the interval around a float is read as that float.** -/
theorem ofDecimal_of_contains (hx : x.isFinite = true) {d : Decimal}
    (h : (Interval.around x).Contains d.toRat) : ofDecimal x.negative d = x := by
  have hlarge := point_le_of_contains hx h
  obtain ⟨num, den, hden, hratio, hzero, hof⟩ := exists_ratio x.negative d
  rw [hratio] at h
  rw [hof]
  split
  · next hguard =>
    -- What is taken for zero is nearest to zero, so the interval is that of zero.
    refine (eq_zero_of_magnitude ?_).symm
    rw [← nearestMagnitude_of_contains hx hden h]
    exact (nearestMagnitude_eq_zero_iff hden).mpr (hzero hguard)
  · next hguard =>
    rw [if_neg (not_lt.mpr (hlarge fun hn => hguard (Or.inl hn)))]
    exact nearest_of_contains hx hden h

/-- **A finite float that is written as plain text is read as it is.** -/
theorem read?_written (hx : x.isFinite = true) :
    Binary64.read? (x.written .plain).toList = some x := by
  obtain ⟨m, hm, hsign, htext, hd⟩ := exists_plain hx
  have hcontains : (Interval.around x).Contains m.toDecimal.toRat := by
    rw [hd]
    exact Decimal.contains_shortest .away x
  rw [← htext, read?_text hm, hsign, ofDecimal_of_contains hx hcontains]

end Binary64

/-! ### Texts with blanks around them -/

namespace Text

theorem isBlank_of_isDigit {c : Char} (hc : c.isDigit = true) : isBlank c = false := by
  obtain ⟨hlow, hhigh⟩ : 48 ≤ c.toNat ∧ c.toNat ≤ 57 := Char.isDigit_iff_toNat.mp hc
  simp only [isBlank, Bool.or_eq_false_iff, Bool.and_eq_false_iff, decide_eq_false_iff_not,
    beq_eq_false_iff_ne]
  omega

theorem unpadded_of_forall {cs : List Char} (h : ∀ c ∈ cs, isBlank c = false) : Unpadded cs :=
  ⟨fun c hc => h c (List.mem_of_mem_head? hc), fun c hc => h c (List.mem_of_mem_getLast? hc)⟩

end Text

/-- No character of a number is blank. -/
theorem Numeral.isBlank_text {l : Numeral} (h : l.Proper) :
    ∀ c ∈ l.text, Text.isBlank c = false := by
  have hexponent : ∀ c ∈ exponentText l.exponent, Text.isBlank c = false := by
    intro c hc
    cases he : l.exponent with
    | none =>
      rw [he] at hc
      cases hc
    | some e =>
      simp only [he, exponentText, List.mem_cons] at hc
      rcases hc with rfl | rfl | hc
      · rfl
      · split <;> rfl
      · exact Text.isBlank_of_isDigit (isDigit_toDigits hc)
  have hpart : ∀ c ∈ partText l.part, Text.isBlank c = false := by
    intro c hc
    cases hp : l.part with
    | none =>
      rw [hp] at hc
      cases hc
    | some ds =>
      rw [hp] at hc
      rcases List.mem_cons.mp hc with rfl | hc
      · rfl
      · exact Text.isBlank_of_isDigit ((h.part ds hp).2 c hc)
  intro c hc
  rw [text_eq, unsigned] at hc
  simp only [List.mem_append] at hc
  rcases hc with hc | (hc | hc) | hc
  · split at hc
    · obtain rfl := List.mem_singleton.mp hc
      rfl
    · cases hc
  · exact Text.isBlank_of_isDigit (h.digits c hc)
  · exact hpart c hc
  · exact hexponent c hc

namespace Value

variable {v : Value}

/-- The text of a finite value that is no text has no blanks at its ends. -/
theorem unpadded_display (hv : v.isFinite = true) (ht : v.type ≠ .string) :
    Text.Unpadded v.display.toList := by
  cases v with
  | boolean b =>
    refine Text.unpadded_of_forall fun c hc => ?_
    have hwords : ("true".toList ++ "false".toList).all (fun c => !Text.isBlank c) = true := by
      decide
    have hmem : c ∈ "true".toList ++ "false".toList := by
      cases b
      · exact List.mem_append_right _ hc
      · exact List.mem_append_left _ hc
    simpa using List.all_eq_true.mp hwords c hmem
  | integer n =>
    show Text.Unpadded (toString n.toInt).toList
    rw [← Numeral.text_ofInt]
    exact Text.unpadded_of_forall (Numeral.isBlank_text (Numeral.proper_ofInt _))
  | float x =>
    obtain ⟨m, hm, -, htext, -⟩ := Binary64.exists_plain (x := x) hv
    show Text.Unpadded (x.written .plain).toList
    rw [← htext]
    exact Text.unpadded_of_forall (Numeral.isBlank_text hm)
  | string s => exact absurd rfl ht

/-- **The text of a finite value, with blanks around it, is coerced to the value.** -/
theorem toType?_display (hv : v.isFinite = true) (ht : v.type ≠ .string) {a b : String}
    (ha : Text.isBlankText a = true) (hb : Text.isBlankText b = true) :
    (string (a ++ v.display ++ b)).toType? v.type = some v := by
  have htrim : Text.trim (a ++ v.display ++ b).toList = v.display.toList := by
    rw [String.toList_append, String.toList_append]
    exact Text.trim_around ha hb (unpadded_display hv ht)
  cases v with
  | boolean flag =>
    simp only [type, toType?, toBoolean?, htrim]
    cases flag <;> decide
  | integer n =>
    simp only [type, toType?, toInteger?, htrim]
    have hread : readInteger? (integer n).display.toList = some n.toInt :=
      readInteger?_toString n.toInt
    rw [hread, Option.bind_some, integerOfInt?_toInt]
    rfl
  | float x =>
    simp only [type, toType?, toFloat?, htrim]
    have hread : Binary64.read? (float x).display.toList = some x := Binary64.read?_written hv
    have hfinite : x.isFinite = true := hv
    rw [hread, Option.filter_some, if_pos hfinite]
    rfl
  | string s => exact absurd rfl ht

end Value

namespace CommandLine

/-- **A value can be supplied as its text.** Blanks around the text of a finite integer, truth
value or float do not matter: it is coerced to that very value, and a text is left as it is, with
its blanks. So for a declared name that is assignable, the text of a value of its type is an
override with which every configuration is bound as it is with the value. -/
theorem text_stands_for_value {v : Value} (hv : v.isFinite = true) :
    (v.type ≠ .string → ∀ (name a b : String), Text.isBlankText a = true →
      Text.isBlankText b = true → coerce name (.string (a ++ v.display ++ b)) v.type = .ok v) ∧
    (∀ name text : String, coerce name (.string text) .string = .ok (.string text)) ∧
    ∀ (r : Registry) (s : ParameterSpec), r.Reachable → s ∈ r.specs → Assignable s.name →
      s.type = v.type → override? (assignment s.name v.display) = .ok (s.name, .string v.display) ∧
        ∀ (strict : Bool) (now : Timestamp) (c : Config),
          r.bind strict now (c.set s.name (.string v.display)) =
            r.bind strict now (c.set s.name v) := by
  refine ⟨fun ht name a b ha hb => coerce_eq_ok.mpr (Value.toType?_display hv ht ha hb),
    fun name text => rfl, fun r s hr hs hname ht => ⟨?_, fun strict now c => ?_⟩⟩
  · exact override?_assignment hname (hr.sound s hs).name_ne_empty v.display
  · refine Registry.bind_set_congr hs ?_
    have hself : coerce s.name v s.type = .ok v := by
      rw [ht]
      exact coerce_eq_ok.mpr (Value.toType?_self hv)
    rw [hself, coerce_eq_ok, ht]
    by_cases htext : v.type = .string
    · cases v with
      | string s => rfl
      | _ => cases htext
    · have h := Value.toType?_display hv htext (a := "") (b := "") rfl rfl
      rwa [String.empty_append, String.append_empty] at h

/-- The least integer, as a text between blanks and as an override. -/
theorem text_stands_for_value_least :
    let v : Value := .integer Int64.minValue
    let raw := "width=-9223372036854775808"
    coerce "width" (.string ("\u3000" ++ v.display ++ "\n")) .integer = .ok v ∧
      override? raw = .ok ("width", .string v.display) ∧
      ∀ strict now (c : Config),
        threeNamed.registry.bind strict now (c.set "width" (.string v.display)) =
          threeNamed.registry.bind strict now (c.set "width" v) := by
  intro v raw
  have hr : threeNamed.registry.Reachable :=
    (Topology.reachable_ofManifest (m := ofThreeNames) rfl).1
  have hs : (⟨"width", .integer, none, none⟩ : ParameterSpec) ∈ threeNamed.registry.specs := by
    decide
  obtain ⟨hcoerce, -, hoverride⟩ := text_stands_for_value (v := v) rfl
  obtain ⟨hraw, hbind⟩ := hoverride _ _ hr hs (by decide) rfl
  exact ⟨hcoerce nofun "width" "\u3000" "\n" (by decide) (by decide), hraw, hbind⟩

end CommandLine
end JobParameters
