/-
# Types of parameters

A parameter is a string, an integer, a float or a boolean. `ParamType.name` is
how a type is written in documents and messages; `ParamType.ofText?` also takes
the usual other names of a type, in any case and with blanks around them.

Key definitions: `ParamType`, `ParamType.name`, `ParamType.ofName?`,
`ParamType.ofText?`.
-/
import JobParameters.Text.Blank

namespace JobParameters

/-- The type of a parameter. -/
inductive ParamType where
  | string
  | integer
  | float
  | boolean
deriving DecidableEq

namespace ParamType

/-- The name of a type in documents and messages. -/
def name : ParamType → String
  | string => "string"
  | integer => "integer"
  | float => "float"
  | boolean => "boolean"

/-- The name of a type where values are shown with their type. -/
def title : ParamType → String
  | string => "String"
  | integer => "Integer"
  | float => "Float"
  | boolean => "Boolean"

/-- The type with exactly that name. -/
def ofName? (s : String) : Option ParamType :=
  [string, integer, float, boolean].find? fun t => t.name == s

/-- The names a type goes by. -/
def aliases : ParamType → List String
  | string => ["string", "str", "rstring"]
  | integer => ["integer", "int", "int64"]
  | float => ["float", "float64", "double"]
  | boolean => ["boolean", "bool"]

/-- The type that a text names, blanks around it and the case of ASCII letters aside. -/
def ofText? (s : String) : Option ParamType :=
  let word := String.ofList ((Text.trim s.toList).map Char.toLower)
  [string, integer, float, boolean].find? fun t => t.aliases.contains word

/-- What is said of a text that names no type. -/
def unnamedMessage : String :=
  "invalid parameter type (expected string, integer, float or boolean)"

end ParamType
end JobParameters
