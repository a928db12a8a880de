/-
# What plain scalars mean

The core schema: which plain scalars are null, truth values and numbers. All
others are texts, and so are digits after a leading zero.

Key definitions: `Yaml.isNull`, `Yaml.boolean?`, `Yaml.integer?`, `Yaml.float?`.
-/
import JobParameters.Decimal.Read
import JobParameters.Json.Reader

namespace JobParameters.Yaml

/-- The words for nothing. -/
def isNull (text : String) : Bool :=
  ["null", "Null", "NULL", "~"].contains text

/-- The words for truth values. -/
def boolean? (text : String) : Option Bool :=
  if ["true", "True", "TRUE"].contains text then some true
  else if ["false", "False", "FALSE"].contains text then some false
  else none

/-- The natural that digits of a base make up, if there are any. -/
def digitsIn? (base : Nat) (cs : List Char) : Option Nat :=
  if cs.isEmpty then none
  else (cs.mapM fun c => (Json.hexValue? c).filter (· < base)).map fun ds =>
    ds.foldl (fun n d => base * n + d) 0

/-- Several digits, the first of them a zero. -/
def isPadded (cs : List Char) : Bool :=
  1 < cs.length && cs.head? == some '0' && cs.all Char.isDigit

/-- A natural in decimal, or with `0x`, `0o` or `0b` before its digits. -/
def natural? : List Char → Option Nat
  | '0' :: 'x' :: cs => digitsIn? 16 cs
  | '0' :: 'o' :: cs => digitsIn? 8 cs
  | '0' :: 'b' :: cs => digitsIn? 2 cs
  | cs => if isPadded cs then none else digitsIn? 10 cs

/-- An integer: a natural, perhaps with a sign. -/
def integer? : List Char → Option Int
  | '+' :: cs => (natural? cs).map fun n => n
  | '-' :: cs => (natural? cs).map fun n => -n
  | cs => (natural? cs).map fun n => n

/-- Infinity without a sign. -/
def isInfinity (cs : List Char) : Bool :=
  [".inf", ".Inf", ".INF"].contains (String.ofList cs)

/-- A finite float after its sign, if that is a plus. -/
def finite? (cs : List Char) : Option Binary64 :=
  (Binary64.read? cs).filter Binary64.isFinite

/-- A float: a numeral that is not too large, an infinity, or no number. -/
def float? : List Char → Option Binary64
  | '+' :: cs =>
    if cs.head? = some '+' ∨ cs.head? = some '-' then none
    else if isInfinity cs then some (Binary64.infinity false)
    else finite? cs
  | '-' :: cs => if isInfinity cs then some (Binary64.infinity true) else finite? ('-' :: cs)
  | cs =>
    if isInfinity cs then some (Binary64.infinity false)
    else if [".nan", ".NaN", ".NAN"].contains (String.ofList cs) then some Binary64.nan
    else finite? cs

/-- A float, unless it is written as several digits of which the first is a zero. -/
def unpaddedFloat? (cs : List Char) : Option Binary64 :=
  let digits := if cs.head? = some '+' ∨ cs.head? = some '-' then cs.drop 1 else cs
  if isPadded digits then none else float? cs

end JobParameters.Yaml
