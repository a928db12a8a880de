/-
# Double precision numbers

A `Binary64` is the 64-bit word of the IEEE 754 interchange format. Everything
about it is computed from the word in exact integer arithmetic: a finite number
is a whole count of `2 ^ -1074`, its `units`, with a sign. Rounding goes the
other way, from a ratio of two naturals to the nearest word, a tie to the even
one; sums of digits, products and quotients are all rounded through it.

Key definitions: `Binary64`, `Binary64.units`, `Binary64.sameNumber`,
`Binary64.nearest`, `Binary64.mul`, `Binary64.div`.
Key theorems: `Binary64.sameNumber_comm`, `Binary64.sameNumber_self`.
-/
namespace JobParameters

/-- A double precision number, as its word. -/
structure Binary64 where
  bits : UInt64
deriving DecidableEq

namespace Binary64

/-- How many `units` make one: the least positive number is `2 ^ -1074`. -/
def unitsPerOne : Nat := 1 <<< 1074

/-- The weight of the sign bit in the word. -/
def signBit : Nat := 1 <<< 63

/-- The weight of the last exponent bit in the word, and of the leading bit of a
significand. -/
def leadingBit : Nat := 1 <<< 52

/-- The word of infinity without its sign. -/
def infiniteMagnitude : Nat := 2047 * leadingBit

/-- The word without its sign. -/
def magnitude (x : Binary64) : Nat :=
  x.bits.toNat % signBit

/-- The sign bit. -/
def negative (x : Binary64) : Bool :=
  signBit ≤ x.bits.toNat

/-- The eleven exponent bits. -/
def exponentField (x : Binary64) : Nat :=
  x.magnitude / leadingBit

/-- The fifty-two fraction bits. -/
def fraction (x : Binary64) : Nat :=
  x.magnitude % leadingBit

/-- Neither an infinity nor a NaN. -/
def isFinite (x : Binary64) : Bool :=
  x.exponentField < 2047

/-- The number that is not one. -/
def isNaN (x : Binary64) : Bool :=
  infiniteMagnitude < x.magnitude

/-- The whole significand, its leading bit included. -/
def significand (x : Binary64) : Nat :=
  if x.exponentField = 0 then x.fraction else leadingBit + x.fraction

/-- The power of two a unit of the significand stands for, counted from `2 ^ -1074`. -/
def scale (x : Binary64) : Nat :=
  x.exponentField - 1

/-- The absolute value of a finite number, in units of `2 ^ -1074`. -/
def units (x : Binary64) : Nat :=
  x.significand <<< x.scale

/-- The number with the given sign and magnitude word. -/
def ofMagnitude (negative : Bool) (magnitude : Nat) : Binary64 :=
  ⟨UInt64.ofNat (if negative then signBit + magnitude else magnitude)⟩

/-- Zero with a sign. -/
def zero (negative : Bool) : Binary64 :=
  ofMagnitude negative 0

/-- Infinity with a sign. -/
def infinity (negative : Bool) : Binary64 :=
  ofMagnitude negative infiniteMagnitude

/-- A quiet NaN. -/
def nan : Binary64 :=
  ofMagnitude false (infiniteMagnitude + leadingBit / 2)

/-- The same number with the sign turned. -/
def neg (x : Binary64) : Binary64 :=
  ofMagnitude (!x.negative) x.magnitude

/-- Numeric equality: a NaN equals nothing, and the two zeros are one number. -/
def sameNumber (x y : Binary64) : Bool :=
  !x.isNaN && !y.isNaN && (x.bits == y.bits || (x.magnitude == 0 && y.magnitude == 0))

/-- A quotient rounded to the nearest natural, a tie to the even one. -/
def roundQuotient (num den : Nat) : Nat :=
  let q := num / den
  let r := num % den
  if den < 2 * r ∨ (2 * r = den ∧ q % 2 = 1) then q + 1 else q

/-- The magnitude word nearest to `num / den`: the significand is the quotient
rounded at the last of its 53 bits, and a carry out of it runs into the exponent. -/
def nearestMagnitude (num den : Nat) : Nat :=
  let scaled := num * unitsPerOne
  let whole := scaled / den
  let s := if whole < 2 * leadingBit then 0 else Nat.log2 whole - 52
  min infiniteMagnitude (s * leadingBit + roundQuotient scaled (den <<< s))

/-- The number nearest to a signed ratio. -/
def nearest (negative : Bool) (num den : Nat) : Binary64 :=
  ofMagnitude negative (nearestMagnitude num den)

/-- The number nearest to a natural. -/
def ofNat (n : Nat) : Binary64 :=
  nearest false n 1

/-- The number nearest to an integer. -/
def ofInt (n : Int) : Binary64 :=
  nearest (n < 0) n.natAbs 1

/-- The rounded product of two finite numbers, its sign aside. -/
def mul (x y : Binary64) : Binary64 :=
  nearest false (x.units * y.units) (unitsPerOne * unitsPerOne)

/-- The rounded quotient of two finite numbers, its sign aside; the divisor is not zero. -/
def div (x y : Binary64) : Binary64 :=
  nearest false x.units y.units

/-- Numeric equality is symmetric. -/
theorem sameNumber_comm (x y : Binary64) : x.sameNumber y = y.sameNumber x := by
  unfold sameNumber
  rw [BEq.comm (a := x.bits), Bool.and_comm (!x.isNaN), Bool.and_comm (x.magnitude == 0)]

/-- A number equals itself unless it is a NaN. -/
theorem sameNumber_self (x : Binary64) : x.sameNumber x = !x.isNaN := by
  simp [sameNumber]

end Binary64
end JobParameters
