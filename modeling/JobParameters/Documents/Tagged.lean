/-
# Values in JSON, bit for bit

A second JSON form of values, in which nothing is lost: a float is an object
that gives its word in hexadecimal, so that NaNs and infinities can be written
and no digit is rounded. Every NaN is written alike.

Key definitions: `Binary64.hex`, `Value.toTagged`, `Value.ofTagged?`.
-/
import JobParameters.Coerce
import JobParameters.Json.Reader
import JobParameters.OrderedMap

namespace JobParameters

/-- The word of a number in sixteen hexadecimal digits. -/
def Binary64.hex (x : Binary64) : String :=
  if x.isNaN then "nan" else String.ofList (Text.hexPadded 16 x.bits.toNat)

/-- The number of a word in hexadecimal digits. -/
def Binary64.ofHex? (s : String) : Option Binary64 :=
  if s = "nan" then some nan
  else (s.toList.mapM Json.hexValue?).map fun ds =>
    ⟨UInt64.ofNat (ds.foldl (fun n d => 16 * n + d) 0)⟩

namespace Value

/-- A value with the bits of its float. -/
def toTagged : Value → Json
  | boolean b => .bool b
  | integer n => .integer n.toInt
  | float x => .object [("f", .string x.hex)]
  | string s => .string s

/-- The value of such a form. -/
def ofTagged? : Json → Option Value
  | .bool b => some (boolean b)
  | .integer n => (integerOfInt? n).map integer
  | .object [("f", .string s)] => (Binary64.ofHex? s).map float
  | .string s => some (string s)
  | _ => none

end Value

/-- A map of values as a list of pairs. -/
def OrderedMap.toTagged (m : OrderedMap Value) : Json :=
  .array (m.entries.map fun (n, v) => .array [.string n, v.toTagged])

end JobParameters
