/-
# Blank characters

Which characters count as white space (the Unicode property `White_Space`), and
texts without the blanks around them. A parameter name is blank when nothing is
left of it, and numbers and truth values are read after `trim`.

Key definitions: `isBlank`, `trim`, `isBlankText`.
Key theorems: `trimStart_append_blank`, `trimStart_eq_self`.
-/
namespace JobParameters.Text

/-- The Unicode property `White_Space`. -/
def isBlank (c : Char) : Bool :=
  let n := c.toNat
  (9 ≤ n && n ≤ 13) || n == 0x20 || n == 0x85 || n == 0xA0 || n == 0x1680 ||
    (0x2000 ≤ n && n ≤ 0x200A) || n == 0x2028 || n == 0x2029 || n == 0x202F ||
    n == 0x205F || n == 0x3000

/-- A text without its leading blanks. -/
def trimStart (cs : List Char) : List Char :=
  cs.dropWhile isBlank

/-- A text without its trailing blanks. -/
def trimEnd (cs : List Char) : List Char :=
  (trimStart cs.reverse).reverse

/-- A text without the blanks around it. -/
def trim (cs : List Char) : List Char :=
  trimEnd (trimStart cs)

/-- Nothing but blanks. -/
def isBlankText (s : String) : Bool :=
  s.toList.all isBlank

/-- Leading blanks are all dropped. -/
theorem trimStart_append_blank : ∀ (bs cs : List Char), bs.all isBlank = true →
    trimStart (bs ++ cs) = trimStart cs
  | [], _, _ => rfl
  | b :: bs, cs, h => by
    simp only [List.all_cons, Bool.and_eq_true] at h
    have := trimStart_append_blank bs cs h.2
    simpa [trimStart, h.1] using this

/-- A text that starts with no blank is left alone. -/
theorem trimStart_eq_self (c : Char) (cs : List Char) (h : isBlank c = false) :
    trimStart (c :: cs) = c :: cs := by
  simp [trimStart, h]

end JobParameters.Text
