/-
# Declared parameters

A `ParameterSpec` is what a topology declares of one parameter: its name, its
type, the default used when a submission supplies nothing, and a description,
which is no part of its identity.

Key definitions: `ParameterSpec`, `ParameterSpec.isRequired`,
`ParameterSpec.sameDeclaration`, `ParameterSpec.declare`.
-/
import JobParameters.ParameterError
import JobParameters.Text.Blank

namespace JobParameters

/-- The declaration of a parameter. -/
structure ParameterSpec where
  name : String
  type : ParamType
  default : Option Value
  description : Option String
deriving DecidableEq

/-- Equality of values that may be absent. -/
def sameOption (a b : Option Value) : Bool :=
  match a, b with
  | none, none => true
  | some v, some w => v.same w
  | _, _ => false

namespace ParameterSpec

/-- Whether every submission has to supply a value. -/
def isRequired (s : ParameterSpec) : Bool :=
  s.default.isNone

/-- The same name, type and default. -/
def sameDeclaration (s t : ParameterSpec) : Bool :=
  s.name == t.name && s.type == t.type && sameOption s.default t.default

/-- The same declaration with the same description. -/
def same (s t : ParameterSpec) : Bool :=
  s.sameDeclaration t && s.description == t.description

/-- A declaration from its parts. The type is the declared one, else that of the
default, else string; a default must be of the declared type. -/
def declare (name : String) (default : Option Value) (type : Option ParamType)
    (description : Option String) : Except ParameterError ParameterSpec :=
  if Text.isBlankText name then .error (.conflict name .blankName)
  else match default, type with
    | none, t => .ok ⟨name, t.getD .string, none, description⟩
    | some v, t =>
      if v.isFinite then
        match t with
        | none => .ok ⟨name, v.type, some v, description⟩
        | some t =>
          if v.type = t then .ok ⟨name, t, some v, description⟩
          else .error (.conflict name (.defaultType v t))
      else .error (.conflict name .nonFiniteDefault)

end ParameterSpec
end JobParameters
