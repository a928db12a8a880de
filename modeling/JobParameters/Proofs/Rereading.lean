/-
# A written document is read back

The compact form of a JSON value is always a document, and reading it gives the value
back but for its numbers (`Json.parse?_compact`): a string comes back character by
character, whatever it holds, an array item by item and an object member by member, in
their order. What a number comes back as is `Json.reread`: an integer as what its digits
denote, which is the same integer where it fits 64 bits, and a float as what its numeral
denotes, which is a float or nothing. A float that is not finite comes back as null.

Key definitions: `Json.reread`, `Binary64.reread`.
Key theorems: `Json.readString_writeString`, `Json.readValue_writeCompact`,
`Json.parse?_compact`, `Binary64.reread_eq_asFloat`.
-/
import JobParameters.Documents.Json
import JobParameters.Proofs.Keyed
import JobParameters.Proofs.Numerals

namespace JobParameters

/-- What the number written for a float is read as. -/
def Binary64.reread (x : Binary64) : Json :=
  match Numeral.read? (Json.numeral x).toList with
  | some (l, _) => l.value
  | none => .null

namespace Json

/-! ### Strings -/

theorem hexPadded_control {n : Nat} (h : n < 0x20) :
    Text.hexPadded 4 n = ['0', '0', (n / 16).digitChar, (n % 16).digitChar] := by
  revert n
  decide

theorem hexValue?_digitChar {d : Nat} (h : d < 16) : hexValue? d.digitChar = some d := by
  revert d
  decide

/-- A control character is read from its code. -/
theorem readUnit?_hexPadded {n : Nat} (h : n < 0x20) (rest : List Char) :
    readUnit? (Text.hexPadded 4 n ++ rest) = some (n, rest) := by
  have hz : hexValue? '0' = some 0 := by decide
  have hhigh := hexValue?_digitChar (d := n / 16) (by omega)
  have hlow := hexValue?_digitChar (d := n % 16) (by omega)
  have hn : ((0 * 16 + 0) * 16 + n / 16) * 16 + n % 16 = n := by omega
  rw [hexPadded_control h]
  simp only [List.cons_append, List.nil_append, readUnit?, hz, hhigh, hlow, Option.bind_eq_bind,
    Option.bind_some, hn]

/-- **A character is read back from what stands for it in a string.** -/
theorem readPiece?_escapeChar (c : Char) (rest : List Char) :
    readPiece? (escapeChar c ++ rest) = some (some (.char c), rest) := by
  unfold escapeChar
  split
  · next h => rcases h with rfl | rfl <;> rfl
  · next hplain =>
    -- The five control characters that have a letter.
    split
    · next h => subst h; rfl
    split
    · next h => subst h; rfl
    split
    · next h => subst h; rfl
    split
    · next h => subst h; rfl
    split
    · next h => subst h; rfl
    split
    · next hcontrol =>
      have hunit : Piece.ofUnit c.toNat = .char c := by
        rw [Piece.ofUnit, if_neg (by omega), Char.ofNat_toNat]
      simp only [List.cons_append, List.nil_append, readPiece?, readUnit?_hexPadded hcontrol,
        Option.map_some, hunit]
    · next hprintable =>
      obtain ⟨hquote, hslash⟩ := not_or.mp hplain
      show readPiece? (c :: rest) = some (some (.char c), rest)
      unfold readPiece?
      split
      · next heq => cases heq
      · next heq => exact absurd (List.cons.inj heq).1 hquote
      · next heq => exact absurd (List.cons.inj heq).1 hslash
      · next heq => exact absurd (List.cons.inj heq).1 hslash
      · next heq =>
        obtain ⟨rfl, rfl⟩ := List.cons.inj heq
        rw [if_neg hprintable]

theorem readPieces_flatMap_escapeChar {cs : List Char} {fuel : Nat} (rest : List Char)
    (h : (cs.flatMap escapeChar).length < fuel) :
    readPieces fuel (cs.flatMap escapeChar ++ '"' :: rest) = some (cs.map .char, rest) := by
  induction cs generalizing fuel with
  | nil =>
    obtain ⟨fuel, rfl⟩ : ∃ m, fuel = m + 1 := ⟨fuel - 1, by omega⟩
    rfl
  | cons c cs ih =>
    have hc : 0 < (escapeChar c).length := by
      unfold escapeChar
      split_ifs <;> simp
    simp only [List.flatMap_cons, List.length_append] at h
    obtain ⟨fuel, rfl⟩ : ∃ m, fuel = m + 1 := ⟨fuel - 1, by omega⟩
    have hcs := ih (show (cs.flatMap escapeChar).length < fuel by omega)
    simp only [List.flatMap_cons, List.append_assoc, readPieces, readPiece?_escapeChar,
      Option.bind_eq_bind, Option.bind_some, hcs, List.map_cons]

theorem assemble?_map_char (cs : List Char) : assemble? (cs.map .char) = some cs := by
  induction cs with
  | nil => rfl
  | cons c cs ih => simp [assemble?, ih]

/-- **A string is read back, whatever its characters are.** -/
theorem readString_writeString (s : String) (rest : List Char) :
    readString (s.toList.flatMap escapeChar ++ '"' :: rest) = some (some s, rest) := by
  have hlen : (s.toList.flatMap escapeChar).length <
      (s.toList.flatMap escapeChar ++ '"' :: rest).length + 1 := by
    simp only [List.length_append]
    omega
  rw [readString, readPieces_flatMap_escapeChar rest hlen]
  simp [assemble?_map_char]

/-! ### Values -/

/-- The first character of a value: no blank, and no closing bracket. -/
def Opens (c : Char) : Prop :=
  c ≠ ' ' ∧ c ≠ '\n' ∧ c ≠ '\t' ∧ c ≠ '\r' ∧ c ≠ ']' ∧ c ≠ '\x7d'

instance : DecidablePred Opens := fun c => by unfold Opens; infer_instance

theorem skipBlanks_of_opens {c : Char} (h : Opens c) (cs : List Char) :
    skipBlanks (c :: cs) = c :: cs := by
  obtain ⟨h1, h2, h3, h4, -, -⟩ := h
  simp [skipBlanks, h1, h2, h3, h4]

/-- A number starts with a minus or a digit. -/
theorem text_eq_cons {l : Numeral} (h : l.Proper) :
    ∃ c cs, l.text = c :: cs ∧ (c = '-' ∨ c.isDigit = true) := by
  obtain ⟨c, cs, hw⟩ := List.exists_cons_of_ne_nil h.whole_ne_nil
  cases hn : l.negative with
  | true => exact ⟨'-', _, by simp [Numeral.text, hn]; rfl, Or.inl rfl⟩
  | false => exact ⟨c, _, by simp [Numeral.text, hn, hw]; rfl, Or.inr (h.digits c (by simp [hw]))⟩

/-- Which no other value does. -/
theorem ne_of_starts {c d : Char} (hc : c = '-' ∨ c.isDigit = true) (hd : d ≠ '-')
    (hd' : d.isDigit = false) : c ≠ d := by
  rintro rfl
  rcases hc with hc | hc
  · exact hd hc
  · rw [hd'] at hc
    cases hc

theorem opens_of_starts {c : Char} (hc : c = '-' ∨ c.isDigit = true) : Opens c :=
  ⟨ne_of_starts hc (by decide) (by decide), ne_of_starts hc (by decide) (by decide),
    ne_of_starts hc (by decide) (by decide), ne_of_starts hc (by decide) (by decide),
    ne_of_starts hc (by decide) (by decide), ne_of_starts hc (by decide) (by decide)⟩

/-- A number that is written is read as a value. -/
theorem readValue_text {l : Numeral} (h : l.Proper) {rest : List Char} (hr : Numeral.Ends rest)
    (fuel : Nat) : readValue (fuel + 1) (l.text ++ rest) = some (l.value, rest) := by
  have hread := Numeral.read?_text h hr
  obtain ⟨c, cs, htext, hc⟩ := text_eq_cons h
  rw [htext, List.cons_append] at hread ⊢
  rw [readValue, skipBlanks_of_opens (opens_of_starts hc)]
  have hne (d : Char) (hd : d ≠ '-') (hd' : d.isDigit = false) {ds : List Char} :
      c :: (cs ++ rest) ≠ d :: ds :=
    fun heq => ne_of_starts hc hd hd' (List.cons.inj heq).1
  split
  · next heq => exact absurd heq (hne '"' (by decide) (by decide))
  · next heq => exact absurd heq (hne '[' (by decide) (by decide))
  · next heq => exact absurd heq (hne '\x7b' (by decide) (by decide))
  · next heq => exact absurd heq (hne 'n' (by decide) (by decide))
  · next heq => exact absurd heq (hne 't' (by decide) (by decide))
  · next heq => exact absurd heq (hne 'f' (by decide) (by decide))
  · rw [hread]
    rfl

end Json

/-- A finite float is read as what its number denotes. -/
theorem Binary64.reread_of_text {x : Binary64} {m : Numeral} (hm : m.Proper)
    (htext : m.text = (Json.numeral x).toList) : x.reread = m.value := by
  have hread := Numeral.read?_text hm Numeral.ends_nil
  rw [List.append_nil, htext] at hread
  rw [reread, hread]

theorem Json.numeral_of_not_finite {x : Binary64} (h : x.isFinite = false) :
    numeral x = "null" := by
  simp [numeral, h]

theorem Binary64.reread_of_not_finite {x : Binary64} (h : x.isFinite = false) :
    x.reread = .null := by
  have hread : Numeral.read? "null".toList = none := by decide
  rw [reread, Json.numeral_of_not_finite h, hread]

namespace Json

mutual

/-- What a value that is written is read as: the same value but for its numbers. -/
def reread : Json → Json
  | null => null
  | bool b => bool b
  | integer n => (Numeral.ofInt n).value
  | float x => x.reread
  | string s => string s
  | array items => array (rereadItems items)
  | object members => object (rereadMembers members)
  | unrepresentable => null

def rereadItems : List Json → List Json
  | [] => []
  | j :: js => reread j :: rereadItems js

def rereadMembers : List (String × Json) → List (String × Json)
  | [] => []
  | (name, j) :: ms => (name, reread j) :: rereadMembers ms

end

theorem writeString_eq (s : String) :
    writeString s = '"' :: (s.toList.flatMap escapeChar ++ ['"']) := rfl

/-- A float that is not finite is written as null. -/
theorem writeCompact_of_not_finite {x : Binary64} (h : x.isFinite = false) :
    writeCompact (.float x) = writeCompact .null := by
  rw [writeCompact, writeCompact, numeral_of_not_finite h]

theorem exists_cons_text {m : Numeral} (hm : m.Proper) {cs : List Char} (h : m.text = cs) :
    ∃ c ds, cs = c :: ds ∧ Opens c := by
  obtain ⟨c, ds, htext, hc⟩ := text_eq_cons hm
  exact ⟨c, ds, h ▸ htext, opens_of_starts hc⟩

/-- A value that is written starts like a value. -/
theorem exists_cons_writeCompact (j : Json) : ∃ c ds, writeCompact j = c :: ds ∧ Opens c := by
  cases j with
  | null => exact ⟨'n', _, rfl, by decide⟩
  | bool b =>
    cases b with
    | true => exact ⟨'t', _, rfl, by decide⟩
    | false => exact ⟨'f', _, rfl, by decide⟩
  | integer n => exact exists_cons_text (Numeral.proper_ofInt n) (Numeral.text_ofInt n)
  | float x =>
    cases hx : x.isFinite with
    | true =>
      obtain ⟨m, hm, -, htext⟩ := Binary64.exists_numeral hx
      exact exists_cons_text hm htext
    | false => exact ⟨'n', _, writeCompact_of_not_finite hx, by decide⟩
  | string s => exact ⟨'"', _, rfl, by decide⟩
  | array items => exact ⟨'[', _, rfl, by decide⟩
  | object members => exact ⟨'\x7b', _, rfl, by decide⟩
  | unrepresentable => exact ⟨'n', _, rfl, by decide⟩

theorem exists_cons_writeItems (j : Json) (js : List Json) :
    ∃ c ds, writeItems (j :: js) = c :: ds ∧ Opens c := by
  obtain ⟨c, ds, hc, hopens⟩ := exists_cons_writeCompact j
  cases js with
  | nil => exact ⟨c, ds, hc, hopens⟩
  | cons k js => exact ⟨c, _, by rw [writeItems, hc]; rfl; simp, hopens⟩

theorem exists_cons_writeMembers (m : String × Json) (ms : List (String × Json)) :
    ∃ ds, writeMembers (m :: ms) = '"' :: ds := by
  cases ms with
  | nil => exact ⟨_, rfl⟩
  | cons k ms => exact ⟨_, rfl⟩

theorem ends_cons {c : Char} (h : c = ',' ∨ c = ']' ∨ c = '\x7d') (cs : List Char) :
    Numeral.Ends (c :: cs) := by
  rintro _ ⟨⟩
  rcases h with rfl | rfl | rfl <;> decide

/-! ### One step of the reader -/

section Steps

variable {fuel : Nat} {cs rest rest' : List Char} {j : Json} {name : Option String}

theorem readValue_bracket {c : Char} (h : Opens c) :
    readValue (fuel + 1) ('[' :: c :: cs) =
      (readItems fuel (c :: cs)).map fun (items, rest) => (.array items, rest) := by
  have hclose : c ≠ ']' := h.2.2.2.2.1
  rw [readValue, skipBlanks_of_opens (by decide)]
  simp only [skipBlanks_of_opens h]
  split
  · next heq => exact absurd (List.cons.inj heq).1 hclose
  · rfl

theorem readValue_brace :
    readValue (fuel + 1) ('\x7b' :: '"' :: cs) =
      (readMembers fuel ('"' :: cs)).map fun (members, rest) =>
        (((namedMembers? members).map Json.object).getD .unrepresentable, rest) := rfl

theorem readItems_last (h : readValue fuel cs = some (j, ']' :: rest)) :
    readItems (fuel + 1) cs = some ([j], rest) := by
  rw [readItems, h]
  rfl

theorem readItems_comma (h : readValue fuel cs = some (j, ',' :: rest)) :
    readItems (fuel + 1) cs = (readItems fuel rest).map fun (js, rest) => (j :: js, rest) := by
  rw [readItems, h]
  rfl

theorem readMembers_last (hname : readString cs = some (name, ':' :: rest))
    (h : readValue fuel rest = some (j, '\x7d' :: rest')) :
    readMembers (fuel + 1) ('"' :: cs) = some ([(name, j)], rest') := by
  have hquote : skipBlanks ('"' :: cs) = '"' :: cs := rfl
  have hcolon : skipBlanks (':' :: rest) = ':' :: rest := rfl
  have hclose : skipBlanks ('\x7d' :: rest') = '\x7d' :: rest' := rfl
  simp only [readMembers, hquote, hname, hcolon, h, hclose]

theorem readMembers_comma (hname : readString cs = some (name, ':' :: rest))
    (h : readValue fuel rest = some (j, ',' :: rest')) :
    readMembers (fuel + 1) ('"' :: cs) =
      (readMembers fuel rest').map fun (ms, rest) => ((name, j) :: ms, rest) := by
  have hquote : skipBlanks ('"' :: cs) = '"' :: cs := rfl
  have hcolon : skipBlanks (':' :: rest) = ':' :: rest := rfl
  have hcomma : skipBlanks (',' :: rest') = ',' :: rest' := rfl
  simp only [readMembers, hquote, hname, hcolon, h, hcomma]

end Steps

/-- Names that were written have a value. -/
theorem namedMembers?_map_some (ms : List (String × Json)) :
    namedMembers? (ms.map fun m => (some m.1, m.2)) = some ms := by
  induction ms with
  | nil => rfl
  | cons m ms ih => simp [namedMembers?, ih]

/-! ### Whole values -/

-- By recursion on the value, with whatever follows it. A list of items or members is
-- shorter than its value by two brackets, which is the fuel that the reader of the list
-- spends before it comes to the first of them.
mutual

/-- **A value that is written is read back but for its numbers.** -/
theorem readValue_writeCompact (j : Json) (fuel : Nat) (rest : List Char)
    (hr : Numeral.Ends rest) (h : (writeCompact j).length < fuel) :
    readValue fuel (writeCompact j ++ rest) = some (j.reread, rest) := by
  obtain ⟨fuel, rfl⟩ : ∃ m, fuel = m + 1 := ⟨fuel - 1, by omega⟩
  match j with
  | null => rfl
  | bool b => cases b <;> rfl
  | integer n =>
    rw [writeCompact, ← Numeral.text_ofInt, readValue_text (Numeral.proper_ofInt n) hr]
    rfl
  | float x =>
    cases hx : x.isFinite with
    | true =>
      obtain ⟨m, hm, -, htext⟩ := Binary64.exists_numeral hx
      rw [writeCompact, ← htext, readValue_text hm hr, reread, Binary64.reread_of_text hm htext]
    | false =>
      rw [writeCompact_of_not_finite hx, reread, Binary64.reread_of_not_finite hx]
      rfl
  | string s =>
    have hread := readString_writeString s rest
    rw [writeCompact, writeString_eq, List.cons_append, List.append_assoc, List.singleton_append,
      readValue, skipBlanks_of_opens (by decide)]
    simp only [hread]
    rfl
  | array [] => rfl
  | array (j :: js) =>
    have hlen : (writeItems (j :: js)).length + 1 < fuel := by
      simp only [writeCompact, List.length_append, List.length_cons, List.length_nil] at h
      omega
    have hread := readItems_writeItems (j :: js) (by simp) fuel rest hlen
    obtain ⟨c, ds, hc, hopens⟩ := exists_cons_writeItems j js
    have htext : writeCompact (array (j :: js)) ++ rest = '[' :: c :: (ds ++ ']' :: rest) := by
      simp [writeCompact, hc]
    rw [hc, List.cons_append] at hread
    rw [htext, readValue_bracket hopens, hread]
    rfl
  | object [] => rfl
  | object (m :: ms) =>
    have hlen : (writeMembers (m :: ms)).length + 1 < fuel := by
      simp only [writeCompact, List.length_append, List.length_cons, List.length_nil] at h
      omega
    have hread := readMembers_writeMembers (m :: ms) (by simp) fuel rest hlen
    obtain ⟨ds, hc⟩ := exists_cons_writeMembers m ms
    have htext : writeCompact (object (m :: ms)) ++ rest =
        '\x7b' :: '"' :: (ds ++ '\x7d' :: rest) := by
      simp [writeCompact, hc]
    rw [hc, List.cons_append] at hread
    rw [htext, readValue_brace, hread]
    simp only [Option.map_some, namedMembers?_map_some]
    rfl
  | unrepresentable => rfl

theorem readItems_writeItems (items : List Json) (hne : items ≠ []) (fuel : Nat)
    (rest : List Char) (h : (writeItems items).length + 1 < fuel) :
    readItems fuel (writeItems items ++ ']' :: rest) = some (rereadItems items, rest) := by
  obtain ⟨fuel, rfl⟩ : ∃ m, fuel = m + 1 := ⟨fuel - 1, by omega⟩
  match items with
  | [] => exact absurd rfl hne
  | [j] =>
    simp only [writeItems] at h
    exact readItems_last
      (readValue_writeCompact j fuel (']' :: rest) (ends_cons (by simp) rest) (by omega))
  | j :: k :: js =>
    simp only [writeItems, List.length_append, List.length_cons, List.length_nil] at h
    have htext : writeItems (j :: k :: js) ++ ']' :: rest =
        writeCompact j ++ ',' :: (writeItems (k :: js) ++ ']' :: rest) := by
      simp [writeItems]
    have hj := readValue_writeCompact j fuel (',' :: (writeItems (k :: js) ++ ']' :: rest))
      (ends_cons (by simp) _) (by omega)
    have hjs := readItems_writeItems (k :: js) (by simp) fuel rest (by omega)
    rw [htext, readItems_comma hj, hjs]
    rfl

theorem readMembers_writeMembers (members : List (String × Json)) (hne : members ≠ [])
    (fuel : Nat) (rest : List Char) (h : (writeMembers members).length + 1 < fuel) :
    readMembers fuel (writeMembers members ++ '\x7d' :: rest) =
      some ((rereadMembers members).map fun m => (some m.1, m.2), rest) := by
  obtain ⟨fuel, rfl⟩ : ∃ m, fuel = m + 1 := ⟨fuel - 1, by omega⟩
  match members with
  | [] => exact absurd rfl hne
  | [(name, j)] =>
    simp only [writeMembers, List.length_append, List.length_cons, List.length_nil] at h
    have htext : writeMembers [(name, j)] ++ '\x7d' :: rest =
        '"' :: (name.toList.flatMap escapeChar ++
          '"' :: ':' :: (writeCompact j ++ '\x7d' :: rest)) := by
      simp [writeMembers, writeString_eq]
    have hj := readValue_writeCompact j fuel ('\x7d' :: rest) (ends_cons (by simp) _) (by omega)
    rw [htext, readMembers_last (readString_writeString name _) hj]
    rfl
  | (name, j) :: m :: ms =>
    simp only [writeMembers, List.length_append, List.length_cons, List.length_nil] at h
    have htext : writeMembers ((name, j) :: m :: ms) ++ '\x7d' :: rest =
        '"' :: (name.toList.flatMap escapeChar ++
          '"' :: ':' :: (writeCompact j ++
            ',' :: (writeMembers (m :: ms) ++ '\x7d' :: rest))) := by
      simp [writeMembers, writeString_eq]
    have hj := readValue_writeCompact j fuel (',' :: (writeMembers (m :: ms) ++ '\x7d' :: rest))
      (ends_cons (by simp) _) (by omega)
    have hms := readMembers_writeMembers (m :: ms) (by simp) fuel rest (by omega)
    rw [htext, readMembers_comma (readString_writeString name _) hj, hms]
    rfl

end

/-- **The compact form of every value is a document, and it is read back but for its numbers.** -/
theorem parse?_compact (j : Json) : parse? j.compact = some j.reread := by
  have hread := readValue_writeCompact j (2 * (writeCompact j).length + 2) []
    Numeral.ends_nil (by omega)
  rw [List.append_nil] at hread
  simp only [parse?, compact, String.toList_ofList, hread]
  rfl

end Json

open Json

/-! ### Parameter values -/

theorem integerOfInt?_toInt (n : Int64) : integerOfInt? n.toInt = some n := by
  have hmin : Int64.minValue.toInt = -9223372036854775808 := rfl
  have hmax : Int64.maxValue.toInt = 9223372036854775807 := rfl
  have hlt := n.toInt_lt
  have hle := n.le_toInt
  rw [integerOfInt?, if_pos (by omega), Int64.ofInt_toInt]

namespace Binary64

/-- A finite float is read as what its numeral denotes when taken for a float. -/
theorem reread_eq_asFloat {x : Binary64} (h : x.isFinite = true) :
    ∃ m, Numeral.read? (numeral x).toList = some (m, []) ∧ x.reread = m.asFloat := by
  obtain ⟨m, hm, hf, htext⟩ := exists_numeral h
  have hread := Numeral.read?_text hm Numeral.ends_nil
  rw [List.append_nil, htext] at hread
  exact ⟨m, hread, by rw [reread_of_text hm htext, Numeral.value_eq_asFloat hf]⟩

theorem ReadsBack.reread {x : Binary64} (hx : x.ReadsBack) (h : x.isFinite = true) :
    x.reread = .float x := by
  obtain ⟨m, hread, hm⟩ := reread_eq_asFloat h
  rw [hm, hx m hread]

end Binary64

namespace Value

/-- The value that is decoded where a value was encoded. -/
def returned? (v : Value) : Option Value := ofJson? v.toJson.reread

/-- The same value, or a float in place of a float. -/
def Recalls (v w : Value) : Prop :=
  w = v ∨ ∃ x y, v = float x ∧ w = float y

/-- A value whose float, if it is one, is read back from its numeral. -/
def ReadsBack (v : Value) : Prop :=
  ∀ x, v = float x → x.ReadsBack

instance : DecidablePred ReadsBack := fun v =>
  match v with
  | float x => decidable_of_iff x.ReadsBack (by simp [ReadsBack])
  | boolean _ | integer _ | string _ => isTrue nofun

theorem returned?_integer (n : Int64) : (integer n).returned? = some (integer n) := by
  rw [returned?, toJson, reread, Numeral.value_ofInt, ofJson?, ofInt, integerOfInt?_toInt]

/-- A value that is not finite makes the document one without a value. -/
theorem returned?_of_not_finite {v : Value} (h : v.isFinite = false) : v.returned? = none := by
  cases v with
  | float x =>
    have hx : x.isFinite = false := h
    simp [returned?, toJson, hx, reread, ofJson?]
  | _ => cases h

/-- A value comes back as it was, or as a float if it was one. -/
theorem recalls_of_returned? {v w : Value} (h : v.returned? = some w) : v.Recalls w := by
  cases v with
  | boolean b =>
    cases h
    exact Or.inl rfl
  | string s =>
    cases h
    exact Or.inl rfl
  | integer n =>
    rw [returned?_integer] at h
    cases h
    exact Or.inl rfl
  | float x =>
    cases hx : x.isFinite with
    | false =>
      rw [returned?_of_not_finite (v := float x) hx] at h
      cases h
    | true =>
      obtain ⟨m, -, hm⟩ := Binary64.reread_eq_asFloat hx
      rw [returned?, toJson, if_pos hx, reread, hm] at h
      rcases m.asFloat_cases with ⟨y, hy⟩ | hy
      · rw [hy] at h
        cases h
        exact Or.inr ⟨x, y, rfl, rfl⟩
      · rw [hy] at h
        cases h

/-- A finite value comes back as it was, for floats if their numeral does. -/
theorem returned?_eq_self {v : Value} (h : v.isFinite = true) (hv : v.ReadsBack) :
    v.returned? = some v := by
  cases v with
  | boolean b => rfl
  | string s => rfl
  | integer n => exact returned?_integer n
  | float x =>
    have hx : x.isFinite = true := h
    rw [returned?, toJson, if_pos hx, Json.reread, (hv x rfl).reread hx]
    rfl

end Value

/-! ### Maps and optional texts -/

/-- A list of optional results is there exactly if every result is. -/
theorem mapM_eq_some_iff_forall₂ {α β : Type} {f : α → Option β} {as : List α} {bs : List β} :
    as.mapM f = some bs ↔ List.Forall₂ (fun a b => f a = some b) as bs := by
  induction as generalizing bs with
  | nil => cases bs <;> simp
  | cons a as ih =>
    rw [List.mapM_cons, List.forall₂_cons_left_iff]
    cases ha : f a with
    | none => simp
    | some b => cases has : as.mapM f <;> simp [← ih, has, eq_comm]

namespace OrderedMap

variable {α β : Type}

/-- **A map that is read back has its names in their order, each with what its value is
read as.** -/
theorem mapOf?_reread_toJson_eq_some_iff {f : α → Json} {g : Json → Option β}
    {m : OrderedMap α} {m' : OrderedMap β} : mapOf? g (m.toJson f).reread = some m' ↔
      List.Forall₂ (fun e e' => e'.1 = e.1 ∧ g (f e.2).reread = some e'.2)
        m.entries m'.entries := by
  have hmembers (es : List (String × α)) : rereadMembers (es.map fun e => (e.1, f e.2)) =
      es.map fun e => (e.1, (f e.2).reread) := by
    induction es with
    | nil => rfl
    | cons e es ih => simp [rereadMembers, ih]
  have hentry (e : String × α) (e' : String × β) :
      ((g (f e.2).reread).map fun b => (e.1, b)) = some e' ↔
        e'.1 = e.1 ∧ g (f e.2).reread = some e'.2 := by
    rw [Option.map_eq_some_iff]
    constructor
    · rintro ⟨b, hb, rfl⟩
      exact ⟨rfl, hb⟩
    · rintro ⟨hn, hb⟩
      exact ⟨e'.2, hb, Prod.ext hn.symm rfl⟩
  have hread : mapOf? g (m.toJson f).reread = (m.entries.mapM fun e : String × α =>
      (g (f e.2).reread).map fun b => (e.1, b)).map ofList := by
    rw [toJson, mapValues, reread, hmembers, mapOf?, List.mapM_map]
    rfl
  simp only [hread, Option.map_eq_some_iff, mapM_eq_some_iff_forall₂, hentry]
  constructor
  · rintro ⟨es, hes, rfl⟩
    have hnames : m.entries.map Prod.fst = es.map Prod.fst := by
      rw [← List.forall₂_eq_eq_eq, List.forall₂_map_left_iff, List.forall₂_map_right_iff]
      exact hes.imp fun _ _ h => h.1.symm
    rw [entries_ofList (hnames ▸ m.distinct)]
    exact hes
  · intro h
    exact ⟨m'.entries, h, m'.ofList_entries⟩

end OrderedMap

theorem absentOr?_string_nullOr (s : Option String) :
    absentOr? string? (some (nullOr Json.string s).reread) = some s := by
  cases s <;> rfl

end JobParameters
