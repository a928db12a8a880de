/-
# Numbers of JSON documents

A `Numeral` is a JSON number as written: a sign, digits, digits after a point,
an exponent. Its value is found in one pass over the digits with a 64-bit
significand: an integer that fits is kept exactly; otherwise the digits that fit
give a significand, the digits after them only move the point (or, after the
point, are dropped), and the significand is scaled by powers of ten in double
precision. The outcome is at most a few units in the last place off the nearest
double, and a result beyond every double is refused.

Key definitions: `Numeral`, `Numeral.read?`, `absorb`, `scaleByTen`,
`Numeral.value`.
-/
import JobParameters.Decimal.Read
import JobParameters.Json

namespace JobParameters

/-- A JSON number as written. -/
structure Numeral where
  negative : Bool
  whole : List Char
  part : Option (List Char)
  exponent : Option Int

namespace Numeral

/-- The digits after the point, if a point comes next. -/
def readPart? : List Char → Option (Option (List Char) × List Char)
  | '.' :: cs =>
    let (ds, rest) := readDigits cs
    if ds.isEmpty then none else some (some ds, rest)
  | cs => some (none, cs)

/-- The exponent, if an `e` comes next. -/
def readExponent? : List Char → Option (Option Int × List Char)
  | c :: cs =>
    if c = 'e' ∨ c = 'E' then
      let (negative, cs) := readSign cs
      let (ds, rest) := readDigits cs
      if ds.isEmpty then none
      else
        let n := (appendDigits 0 ds : Int)
        some (some (if negative then -n else n), rest)
    else some (none, c :: cs)
  | [] => some (none, [])

/-- A number at the start of a text, and the rest: no leading zeros, and at least
one digit in each part that is there. -/
def read? (cs : List Char) : Option (Numeral × List Char) :=
  let (negative, cs) := match cs with
    | '-' :: rest => (true, rest)
    | _ => (false, cs)
  let (whole, rest) := readDigits cs
  if whole.isEmpty || (whole.head? == some '0' && 1 < whole.length) then none
  else do
    let (part, rest) ← readPart? rest
    let (exponent, rest) ← readExponent? rest
    some (⟨negative, whole, part, exponent⟩, rest)

/-- The largest unsigned 64-bit number. -/
def maxSignificand : Nat := UInt64.size - 1

/-- Takes digits into a significand as long as it fits 64 bits: the significand and
the digits left over. -/
def absorb : Nat → List Char → Nat × List Char
  | n, [] => (n, [])
  | n, d :: ds =>
    if 10 * n + digitValue d ≤ maxSignificand then absorb (10 * n + digitValue d) ds
    else (n, d :: ds)

/-- The double nearest to a power of ten. -/
def powerOfTen (k : Nat) : Binary64 :=
  Binary64.ofNat (Nat.pow 10 k)

/-- Multiplies or divides by a power of ten, in steps of `10 ^ 308` downward; nothing
if the result is beyond every double. Three such steps take any significand to zero. -/
def scaleByTen : Nat → Binary64 → Int → Option Binary64
  | fuel, x, e =>
    if e.natAbs ≤ 308 then
      if 0 ≤ e then
        let y := x.mul (powerOfTen e.natAbs)
        if y.isFinite then some y else none
      else some (x.div (powerOfTen e.natAbs))
    else if x.units = 0 then some x
    else if 0 ≤ e then none
    else match fuel with
      | 0 => some (Binary64.zero false)
      | fuel + 1 => scaleByTen fuel (x.div (powerOfTen 308)) (e + 308)

/-- The double of a significand and a power of ten, with a sign. -/
def floatOf (negative : Bool) (significand : Nat) (exponent : Int) : Json :=
  match scaleByTen 3 (Binary64.ofNat significand) exponent with
  | some x => .float (if negative then x.neg else x)
  | none => .unrepresentable

/-- A whole number: an integer where one of 64 bits has that value; minus zero is a float. -/
def wholeOf (negative : Bool) (n : Nat) : Json :=
  if !negative then .integer n
  else if n = 0 ∨ -(n : Int) < Int64.minValue.toInt then .float (Binary64.ofNat n).neg
  else .integer (-(n : Int))

/-- What a number denotes. -/
def value (l : Numeral) : Json :=
  let (n, surplus) := absorb 0 l.whole
  match l.part, l.exponent with
  | none, none =>
    if surplus.isEmpty then wholeOf l.negative n else floatOf l.negative n surplus.length
  | part, exponent =>
    let ds := part.getD []
    let (m, dropped) := absorb n ds
    floatOf l.negative m (surplus.length - (ds.length - dropped.length : Nat) + exponent.getD 0)

end Numeral
end JobParameters
