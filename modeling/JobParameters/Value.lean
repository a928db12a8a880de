/-
# Parameter values

A `Value` is a text, a 64-bit integer, a double or a truth value. Two values are
the same (`Value.same`) when they are of one type and equal there; a NaN is then
the same as nothing, and the two zeros are one float.

Key definitions: `Value`, `Value.type`, `Value.same`, `Value.display`,
`Value.shown`, `ParamType.Carrier`, `ParamType.extract?`, `ParamType.inject`.
Key theorems: `Value.same_comm`, `Value.type_eq_of_same`,
`ParamType.extract?_eq_some`, `ParamType.isSome_extract?`.
-/
import JobParameters.Decimal.Layout
import JobParameters.ParamType
import JobParameters.Text.Quoted

namespace JobParameters

/-- A parameter value. -/
inductive Value where
  | boolean (b : Bool)
  | integer (n : Int64)
  | float (x : Binary64)
  | string (s : String)
deriving DecidableEq

namespace Value

/-- The type a value carries. -/
def type : Value → ParamType
  | boolean _ => .boolean
  | integer _ => .integer
  | float _ => .float
  | string _ => .string

/-- Equality of values, that of numbers for floats. -/
def same : Value → Value → Bool
  | boolean a, boolean b => a == b
  | integer a, integer b => a == b
  | float a, float b => a.sameNumber b
  | string a, string b => a == b
  | _, _ => false

/-- A value as plain text. -/
def display : Value → String
  | boolean b => if b then "true" else "false"
  | integer n => toString n.toInt
  | float x => x.written .plain
  | string s => s

/-- The payload of a value as it is shown beside the name of its type. -/
def shownPayload : Value → String
  | boolean b => if b then "true" else "false"
  | integer n => toString n.toInt
  | float x => x.written .exact
  | string s => Text.quoted s

/-- A value shown with its type, as in `Integer(7)`. -/
def shown (v : Value) : String :=
  v.type.title ++ "(" ++ v.shownPayload ++ ")"

/-- Neither a NaN nor an infinity. -/
def isFinite : Value → Bool
  | float x => x.isFinite
  | _ => true

/-- Sameness is symmetric. -/
theorem same_comm (v w : Value) : v.same w = w.same v := by
  cases v <;> cases w <;> simp [same, BEq.comm, Binary64.sameNumber_comm]

theorem type_eq_of_same {v w : Value} (h : v.same w = true) : v.type = w.type := by
  cases v <;> cases w <;> simp_all [same, type]

end Value

namespace ParamType

/-- What the values of a type consist of. -/
def Carrier : ParamType → Type
  | string => String
  | integer => Int64
  | float => Binary64
  | boolean => Bool

/-- The value made of such a payload. -/
def inject : (t : ParamType) → t.Carrier → Value
  | string, s => .string s
  | integer, n => .integer n
  | float, x => .float x
  | boolean, b => .boolean b

/-- The payload of a value of that very type. -/
def extract? : (t : ParamType) → Value → Option t.Carrier
  | string, .string s => some s
  | integer, .integer n => some n
  | float, .float x => some x
  | boolean, .boolean b => some b
  | _, _ => none

/-- A payload is extracted exactly from the value that is made of it. -/
theorem extract?_eq_some {t : ParamType} {v : Value} {a : t.Carrier} :
    t.extract? v = some a ↔ v = t.inject a := by
  cases t <;> cases v <;> constructor <;> intro h <;> cases h <;> rfl

/-- A payload can be extracted exactly from the values of the type. -/
theorem isSome_extract? (t : ParamType) (v : Value) :
    (t.extract? v).isSome = decide (v.type = t) := by
  cases t <;> cases v <;> rfl

end ParamType
end JobParameters
