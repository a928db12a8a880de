/-
# Reading numbers

Integers and decimals as people write them. An integer is an optional sign and
digits; a decimal may also have a point and an exponent, or be one of the words
`inf`, `infinity` and `nan` in any case. A decimal is read as the double nearest
to the exact number.

Key definitions: `readInteger?`, `readDigits`, `Decimal.read?`,
`Binary64.ofDecimal`, `Binary64.read?`.
-/
import JobParameters.Decimal.Shortest

namespace JobParameters

/-- The value of a decimal digit. -/
def digitValue (c : Char) : Nat :=
  c.toNat - 48

/-- The number that a run of digits continues: `n` followed by the digits. -/
def appendDigits (n : Nat) (ds : List Char) : Nat :=
  ds.foldl (fun n d => 10 * n + digitValue d) n

/-- The leading digits of a text, and what follows them. -/
def readDigits (cs : List Char) : List Char × List Char :=
  (cs.takeWhile Char.isDigit, cs.dropWhile Char.isDigit)

/-- An optional sign: whether it is a minus, and the rest. -/
def readSign : List Char → Bool × List Char
  | '-' :: cs => (true, cs)
  | '+' :: cs => (false, cs)
  | cs => (false, cs)

/-- An integer: an optional sign and at least one digit. -/
def readInteger? (cs : List Char) : Option Int :=
  let (negative, ds) := readSign cs
  if ds.isEmpty || !ds.all Char.isDigit then none
  else
    let n := (appendDigits 0 ds : Int)
    some (if negative then -n else n)

/-- The exponent part of a decimal, absent or `e`, an optional sign and digits,
and nothing after it. -/
def readExponent? : List Char → Option Int
  | [] => some 0
  | c :: cs => if c = 'e' ∨ c = 'E' then readInteger? cs else none

/-- An unsigned decimal: digits, a point with digits, or both, and an exponent. -/
def Decimal.read? (cs : List Char) : Option Decimal :=
  let (whole, rest) := readDigits cs
  let (part, rest) := match rest with
    | '.' :: more => readDigits more
    | _ => ([], rest)
  if whole.isEmpty && part.isEmpty then none
  else (readExponent? rest).map fun e => ⟨appendDigits 0 (whole ++ part), e - part.length⟩

/-- The double nearest to a decimal. Decimals far beyond the largest double or far
below the least one need no arithmetic. -/
def Binary64.ofDecimal (negative : Bool) (d : Decimal) : Binary64 :=
  let point := digitCount d.coefficient + d.exponent
  if d.coefficient = 0 ∨ point < -400 then Binary64.zero negative
  else if 400 < point then Binary64.infinity negative
  else match d.exponent with
    | .ofNat e => Binary64.nearest negative (d.coefficient * Nat.pow 10 e) 1
    | .negSucc e => Binary64.nearest negative d.coefficient (Nat.pow 10 (e + 1))

/-- A decimal number or one of the words for infinity and not-a-number. -/
def Binary64.read? (cs : List Char) : Option Binary64 :=
  let (negative, rest) := readSign cs
  let word := String.ofList (rest.map Char.toLower)
  if word = "inf" ∨ word = "infinity" then some (Binary64.infinity negative)
  else if word = "nan" then some Binary64.nan
  else (Decimal.read? rest).map (Binary64.ofDecimal negative)

end JobParameters
