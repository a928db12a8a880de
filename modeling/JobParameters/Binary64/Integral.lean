/-
# Floats that are integers

A finite float without a fractional part is a 64-bit integer if it is in range, and
that is told among floats. The least of those integers is a float itself. The
greatest is not: the float nearest to it is the first number out of range, so that
end is open. The cast alone would drop a fractional part and stop at the ends of the
range.

Key definitions: `Binary64.le`, `Binary64.lt`, `Binary64.fract`,
`Binary64.toInt64`, `Binary64.toInt64?`.
-/
import JobParameters.Binary64

namespace JobParameters
namespace Binary64

/-- The place of a number among all numbers, where the two zeros share one. -/
def rank (x : Binary64) : Int :=
  if x.negative then -(x.magnitude : Int) else (x.magnitude : Int)

/-- Numeric order. A NaN is in no order with any number. -/
def le (x y : Binary64) : Bool :=
  !x.isNaN && !y.isNaN && x.rank ≤ y.rank

/-- Strict numeric order. -/
def lt (x y : Binary64) : Bool :=
  !x.isNaN && !y.isNaN && x.rank < y.rank

/-- The fractional part of a finite number, with its sign. That of a whole number is zero
without a sign. -/
def fract (x : Binary64) : Binary64 :=
  let part := x.units % unitsPerOne
  nearest (x.negative && part != 0) part unitsPerOne

/-- The number without its fractional part. -/
def truncated (x : Binary64) : Int :=
  if x.negative then -((x.units / unitsPerOne : Nat) : Int)
  else ((x.units / unitsPerOne : Nat) : Int)

/-- The number cast to a 64-bit integer: without its fractional part, and no farther than
the ends of the range. A NaN is cast to zero. -/
def toInt64 (x : Binary64) : Int64 :=
  if x.isNaN then 0
  else Int64.ofInt (max Int64.minValue.toInt (min x.truncated Int64.maxValue.toInt))

/-- The 64-bit integer a number is, if it is one. -/
def toInt64? (x : Binary64) : Option Int64 :=
  if x.isFinite && x.fract.sameNumber (zero false) && (ofInt Int64.minValue.toInt).le x &&
      x.lt (ofInt Int64.maxValue.toInt) then
    some x.toInt64
  else none

end Binary64
end JobParameters
