/-
# The JSON documents

The JSON form of every record that travels or is stored: values, declarations,
binding sets, startup payloads, job configurations and manifests. Each has a
writer (`toJson`) and a reader (`ofJson?`). A value is written bare, so a reader
finds its type in the shape of the text; a float that is not finite has no
numeral and becomes null, which no reader takes for a value.

Key definitions: `Value.toJson`, `Value.ofJson?`, `Payload.encode`,
`Payload.decode?`, and `toJson` and `ofJson?` of the records.
-/
import JobParameters.Binding
import JobParameters.Coerce
import JobParameters.Config
import JobParameters.Json.Printer
import JobParameters.Json.Reader
import JobParameters.Json.Record
import JobParameters.Manifest
import JobParameters.Spec

namespace JobParameters

open Json

namespace Value

/-- A value as it is written bare. -/
def toJson : Value → Json
  | boolean b => .bool b
  | integer n => .integer n.toInt
  | float x => if x.isFinite then .float x else .null
  | string s => .string s

/-- A number that is written as an integer; one that fits no 64-bit integer is a float. -/
def ofInt (n : Int) : Value :=
  match integerOfInt? n with
  | some n => integer n
  | none => float (Binary64.ofInt n)

/-- A truth value, a number or a string. -/
def ofJson? : Json → Option Value
  | .bool b => some (boolean b)
  | .integer n => some (ofInt n)
  | .float x => some (float x)
  | .string s => some (string s)
  | _ => none

end Value

/-- A map of things as an object. -/
def OrderedMap.toJson {α : Type} (f : α → Json) (m : OrderedMap α) : Json :=
  .object (m.mapValues f).entries

namespace ParamType

def toJson (t : ParamType) : Json := .string t.name

def ofJson? : Json → Option ParamType := constant? ofName?

end ParamType

namespace Origin

def toJson (o : Origin) : Json := .string o.name

def ofJson? : Json → Option Origin :=
  constant? fun s => [override, default].find? fun o => o.name == s

end Origin

namespace ParameterSpec

/-- The default is always written, the description only where there is one. -/
def toJson (s : ParameterSpec) : Json :=
  .object ([("name", .string s.name), ("type", s.type.toJson),
    ("default", nullOr Value.toJson s.default)] ++
    (s.description.map fun d => ("description", Json.string d)).toList)

def ofJson? (j : Json) : Option ParameterSpec := do
  match ← j.fields? ["name", "type", "default", "description"] with
  | [name, type, default, description] =>
    some {
      name := ← required? string? name
      type := ← required? ParamType.ofJson? type
      default := ← absentOr? Value.ofJson? default
      description := ← absentOr? string? description }
  | _ => none

end ParameterSpec

namespace Timestamp

def toJson (t : Timestamp) : Json := .string t.displayZulu

def ofJson? (j : Json) : Option Timestamp := j.string?.bind parse?

end Timestamp

namespace Binding

def toJson (b : Binding) : Json :=
  .object [("name", .string b.name), ("type", b.type.toJson), ("value", b.value.toJson),
    ("origin", b.origin.toJson), ("resolved_at", b.resolvedAt.toJson)]

def ofJson? (j : Json) : Option Binding := do
  match ← j.fields? ["name", "type", "value", "origin", "resolved_at"] with
  | [name, type, value, origin, resolvedAt] =>
    some {
      name := ← required? string? name
      type := ← required? ParamType.ofJson? type
      value := ← required? Value.ofJson? value
      origin := ← required? Origin.ofJson? origin
      resolvedAt := ← required? Timestamp.ofJson? resolvedAt }
  | _ => none

end Binding

namespace BindingSet

def toJson (s : BindingSet) : Json :=
  .object [("job_name", nullOr Json.string s.jobName), ("resolved_at", s.resolvedAt.toJson),
    ("bindings", s.bindings.toJson Binding.toJson)]

def ofJson? (j : Json) : Option BindingSet := do
  match ← j.fields? ["job_name", "resolved_at", "bindings"] with
  | [jobName, resolvedAt, bindings] =>
    some {
      jobName := ← absentOr? string? jobName
      resolvedAt := ← required? Timestamp.ofJson? resolvedAt
      bindings := ← required? (mapOf? Binding.ofJson?) bindings }
  | _ => none

end BindingSet

/-- A field that may be absent but not null. -/
def orDefault? {α : Type} (f : Json → Option α) (a : α) : Option Json → Option α
  | none => some a
  | some j => f j

namespace Payload

def toJson (p : Payload) : Json :=
  .object [("job_name", nullOr Json.string p.jobName), ("values", p.values.toJson Value.toJson)]

def ofJson? (j : Json) : Option Payload := do
  match ← j.fields? ["job_name", "values"] with
  | [jobName, values] =>
    some {
      jobName := ← absentOr? string? jobName
      values := ← orDefault? (mapOf? Value.ofJson?) OrderedMap.empty values }
  | _ => none

/-- The text that workers receive. -/
def encode (p : Payload) : String := p.toJson.compact

/-- The payload of a text that workers received. -/
def decode? (text : String) : Option Payload := (parse? text).bind ofJson?

end Payload

namespace Config

def toJson (c : Config) : Json :=
  .object [("job_name", nullOr Json.string c.jobName),
    ("submission_parameters", c.parameters.toJson Value.toJson)]

def ofJson? (j : Json) : Option Config := do
  match ← j.fields? ["job_name", "submission_parameters"] with
  | [jobName, parameters] =>
    some {
      jobName := ← absentOr? string? jobName
      parameters := ← orDefault? (mapOf? Value.ofJson?) OrderedMap.empty parameters }
  | _ => none

end Config

namespace Declaration

def toJson (d : Declaration) : Json :=
  .object [("type", nullOr ParamType.toJson d.type), ("default", nullOr Value.toJson d.default),
    ("description", nullOr Json.string d.description)]

def ofJson? (j : Json) : Option Declaration := do
  match ← j.fields? ["type", "default", "description"] with
  | [type, default, description] =>
    some {
      type := ← absentOr? ParamType.ofJson? type
      default := ← absentOr? Value.ofJson? default
      description := ← absentOr? string? description }
  | _ => none

end Declaration

namespace Manifest

def toJson (m : Manifest) : Json :=
  .object [("topology", nullOr Json.string m.topology),
    ("parameters", m.parameters.toJson Declaration.toJson)]

def ofJson? (j : Json) : Option Manifest := do
  match ← j.fields? ["topology", "parameters"] with
  | [topology, parameters] =>
    some {
      topology := ← absentOr? string? topology
      parameters := ← orDefault? (mapOf? Declaration.ofJson?) OrderedMap.empty parameters }
  | _ => none

end Manifest
end JobParameters
