/-
# Written numbers

A `Layout` is a way to write a decimal: up to which places positionally, where
whole numbers keep a `.0`, and how an exponent is marked. The three layouts of
the library differ only in these decisions.

Key definitions: `Layout`, `Layout.write`, `Binary64.written`, `Layout.plain`,
`Layout.exact`, `Layout.interchange`.
-/
import JobParameters.Decimal.Shortest

namespace JobParameters

/-- The decisions by which a decimal is written. -/
structure Layout where
  /-- Whether a number whose point stands after that many digits is written positionally. -/
  positional : Int → Bool
  /-- Whether a whole number in positional form ends in `.0`. -/
  keepsPoint : Bool
  /-- Whether a positive exponent has a sign. -/
  signsExponent : Bool
  /-- Which of two equally near digits is taken. -/
  tie : Tie

namespace Layout

/-- Every number positionally, whole ones without a point. -/
def plain : Layout := ⟨fun _ => true, false, false, .away⟩

/-- Positionally from `1e-4` up to below `1e16`, and always with a point or an exponent. -/
def exact : Layout := ⟨fun p => -4 < p && p ≤ 16, true, false, .away⟩

/-- Positionally from `1e-5` up to below `1e16`, and always with a point or a
signed exponent: the form of numbers in documents. -/
def interchange : Layout := ⟨fun p => -5 < p && p ≤ 16, true, true, .toEven⟩

/-- The digits of a decimal with a point where it belongs. -/
def writePositional (l : Layout) (ds : List Char) (exponent : Int) : List Char :=
  let point := (ds.length : Int) + exponent
  if 0 ≤ exponent then
    ds ++ List.replicate exponent.toNat '0' ++ (if l.keepsPoint then ['.', '0'] else [])
  else if 0 < point then ds.take point.toNat ++ ['.'] ++ ds.drop point.toNat
  else ['0', '.'] ++ List.replicate (-point).toNat '0' ++ ds

/-- The digits of a decimal with the point after the first, and an exponent. -/
def writeExponential (l : Layout) (ds : List Char) (exponent : Int) : List Char :=
  let e := (ds.length : Int) + exponent - 1
  let sign := if e < 0 then ['-'] else if l.signsExponent then ['+'] else []
  let point := if ds.length ≤ 1 then [] else ['.']
  ds.take 1 ++ point ++ ds.drop 1 ++ ['e'] ++ sign ++ Nat.toDigits 10 e.natAbs

/-- A decimal in the layout. -/
def write (l : Layout) (d : Decimal) : List Char :=
  let ds := Nat.toDigits 10 d.coefficient
  if l.positional (ds.length + d.exponent) then l.writePositional ds d.exponent
  else l.writeExponential ds d.exponent

end Layout

/-- A number in a layout: `NaN`, `inf`, or the shortest decimal that reads back. -/
def Binary64.written (l : Layout) (x : Binary64) : String :=
  let sign := if x.negative then ['-'] else []
  if x.isNaN then "NaN"
  else if x.isFinite then String.ofList (sign ++ l.write (Decimal.shortest l.tie x))
  else String.ofList (sign ++ ['i', 'n', 'f'])

end JobParameters
