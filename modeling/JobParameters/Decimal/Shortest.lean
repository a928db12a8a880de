/-
# The shortest decimal that reads back

A finite nonzero double is the number nearest to every real of an interval
around it; the ends belong to it when the significand is even. `shortest` picks,
of all decimals in that interval, one with the fewest digits, and of those the
nearest to the number. It tries one digit, then two, and so on: on the grid of
the decimals with that many digits only the two neighbours of the number need to
be looked at, and seventeen digits always suffice.

Key definitions: `Decimal`, `floorLog10`, `Interval`, `Decimal.shortest`.
-/
import JobParameters.Binary64

namespace JobParameters

/-- The number `coefficient * 10 ^ exponent`. -/
structure Decimal where
  coefficient : Nat
  exponent : Int
deriving DecidableEq

/-- Which neighbour is taken when a number lies halfway between two. -/
inductive Tie where
  /-- The one farther from zero. -/
  | away
  /-- The one whose last digit is even. -/
  | toEven
deriving DecidableEq

/-- How many decimal digits a natural has. -/
def digitCount (n : Nat) : Nat :=
  (Nat.toDigits 10 n).length

/-- The greatest `k` with `10 ^ k ≤ num / den`, for a positive ratio. -/
def floorLog10 (num den : Nat) : Int :=
  if den ≤ num then (digitCount (num / den) : Int) - 1
  else -((digitCount ((den + num - 1) / num - 1) : Nat) : Int)

/-- A number `value / unit` with the ends of the interval of reals that round to it. -/
structure Interval where
  low : Nat
  value : Nat
  high : Nat
  unit : Nat
  /-- Whether the ends round to the number too. -/
  closed : Bool

namespace Interval

/-- Whether the whole number `n` lies in the interval. -/
def holds (i : Interval) (n : Nat) : Bool :=
  if i.closed then i.low ≤ n * i.unit && n * i.unit ≤ i.high
  else i.low < n * i.unit && n * i.unit < i.high

/-- The interval of the tenfold number. -/
def timesTen (i : Interval) : Interval :=
  { i with low := 10 * i.low, value := 10 * i.value, high := 10 * i.high }

/-- The interval of the reals that round to a finite nonzero number. Below a power
of two the next number is only half as far away. -/
def around (x : Binary64) : Interval where
  low := 4 * x.units - (if x.fraction = 0 ∧ 1 < x.exponentField then 1 else 2) <<< x.scale
  value := 4 * x.units
  high := 4 * x.units + 2 <<< x.scale
  unit := 4 * Binary64.unitsPerOne
  closed := x.significand % 2 == 0

/-- The interval of the number over `10 ^ k`. -/
def scaled (i : Interval) (k : Int) : Interval :=
  match k with
  | .ofNat k => { i with unit := i.unit * Nat.pow 10 k }
  | .negSucc k =>
    { i with
      low := i.low * Nat.pow 10 (k + 1)
      value := i.value * Nat.pow 10 (k + 1)
      high := i.high * Nat.pow 10 (k + 1) }

/-- The whole number nearest to the interval's number among its two neighbours
that lie in the interval, if one does. -/
def nearestWhole? (tie : Tie) (i : Interval) : Option Nat :=
  let n := i.value / i.unit
  let r := i.value % i.unit
  match i.holds n, i.holds (n + 1) with
  | false, false => none
  | true, false => some n
  | false, true => some (n + 1)
  | true, true =>
    if 2 * r < i.unit then some n
    else if i.unit < 2 * r then some (n + 1)
    else match tie with
      | .away => some (n + 1)
      | .toEven => some (if n % 2 = 0 then n else n + 1)

end Interval

namespace Decimal

/-- Tries finer and finer grids, `10 ^ k` apart at first; the last one always has a hit. -/
def search (tie : Tie) : Nat → Int → Interval → Decimal
  | 0, k, i => ⟨i.value / i.unit, k⟩
  | fuel + 1, k, i =>
    match i.nearestWhole? tie with
    | some n => ⟨n, k⟩
    | none => search tie fuel (k - 1) i.timesTen

/-- The same number without trailing zeros in its coefficient. -/
def normal (d : Decimal) : Decimal :=
  if h : d.coefficient ≠ 0 ∧ d.coefficient % 10 = 0 then
    normal ⟨d.coefficient / 10, d.exponent + 1⟩
  else d
termination_by d.coefficient
decreasing_by
  have := h.1
  omega

/-- The shortest decimal that rounds to a finite number, its sign aside. -/
def shortest (tie : Tie) (x : Binary64) : Decimal :=
  if x.units = 0 then ⟨0, 0⟩
  else
    let i := Interval.around x
    let k := floorLog10 i.value i.unit
    (search tie 17 k (i.scaled k)).normal

end Decimal
end JobParameters
