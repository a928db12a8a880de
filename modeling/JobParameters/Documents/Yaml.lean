/-
# The YAML documents

Job configurations and manifests as YAML. A record is a mapping with an entry
for each field; where nothing is written all fields are absent. A text may be
written as any scalar. The value of a parameter is found in its tag or, if it is
plain, in its shape; nothing at all is no value, nor is anything with a tag of
the application's own, unless that tag has no text.

Key definitions: `Yaml.Node.fields?`, `Value.ofYaml?`, `Config.ofYaml?`,
`Manifest.ofYaml?`.
-/
import JobParameters.Documents.Json
import JobParameters.Yaml.CoreSchema
import JobParameters.Yaml.Node.Compose
import JobParameters.Yaml.Node.Reference

namespace JobParameters

namespace Yaml.Node

variable (document : Node)

/-- The text of a scalar. -/
def text? (n : Node) : Option String :=
  match document.target? n with
  | some (scalar _ _ s) => some s
  | _ => none

/-- Whether a scalar is written plain and as nothing, or with one of the words for it. -/
def isNothing (plain : Bool) (s : String) : Bool :=
  plain && (s.isEmpty || isNull s)

/-- The nodes under a name. -/
def entriesOf (name : String) (es : List (String × Node)) : List Node :=
  (es.filter fun e => e.1 == name).map Prod.snd

/-- The only node given for a field, if one is; nothing if there are several. -/
def onlyOne? : List Node → Option (Option Node)
  | [] => some none
  | [n] => some (some n)
  | _ => none

/-- The entries of a mapping under the texts of their keys. -/
def named? (es : List (Node × Node)) : Option (List (String × Node)) :=
  es.mapM fun (k, v) => (text? document k).map fun name => (name, v)

/-- What a record gives for each of its fields. -/
def fields? (names : List String) (n : Node) : Option (List (Option Node)) :=
  match document.target? n with
  | some (mapping _ es) => do
    let es ← named? document es
    names.mapM fun name => onlyOne? (entriesOf name es)
  | some (scalar _ true "") => some (names.map fun _ => none)
  | _ => none

/-- A field that may be absent or empty. The tag of nothing stands only before its words. -/
def absentOr? {α : Type} (f : Node → Option α) : Option Node → Option (Option α)
  | none => some none
  | some n =>
    match document.target? n with
    | some (scalar none plain s) => if isNothing plain s then some none else (f n).map some
    | some (scalar (some (.shared (some "tag:yaml.org,2002:null"))) true s) =>
      if isNull s then some none else none
    | _ => (f n).map some

/-- A map under the texts of its keys; it may be absent, and where nothing is written it
is empty. -/
def mapOf? {α : Type} (f : Node → Option α) : Option Node → Option (OrderedMap α)
  | none => some OrderedMap.empty
  | some n =>
    match document.target? n with
    | some (mapping _ es) => do
      let es ← named? document es
      let es ← es.mapM fun (name, v) => (f v).map fun a => (name, a)
      some (OrderedMap.ofList es)
    | some (scalar _ true "") => some OrderedMap.empty
    | _ => none

end Yaml.Node

namespace Value

/-- An integer. Of those that fit no 64 bits, signed or not, the ones that fit 128 are
refused. -/
def ofYamlInteger? (n : Int) : Option Value :=
  if Int64.minValue.toInt ≤ n ∧ n < UInt64.size then some (ofInt n) else none

/-- Whether an integer fits 128 bits, signed or not. -/
def isWide (n : Int) : Bool :=
  -0x80000000000000000000000000000000 ≤ n ∧ n ≤ 0xffffffffffffffffffffffffffffffff

/-- The value of a plain scalar without a tag. -/
def ofPlain? (s : String) : Option Value :=
  if s.isEmpty || Yaml.isNull s then none
  else
    let cs := s.toList
    match Yaml.boolean? s, (Yaml.integer? cs).filter isWide, Yaml.unpaddedFloat? cs with
    | some b, _, _ => some (boolean b)
    | none, some n, _ => ofYamlInteger? n
    | none, none, some x => some (float x)
    | none, none, none => some (string s)

/-- The value of a scalar: by its tag, by its shape if it is plain, and else its text. -/
def ofScalar? (tag : Option Yaml.Tag) (plain : Bool) (s : String) : Option Value :=
  match tag with
  | none | some (.own none) => if plain then ofPlain? s else some (string s)
  | some (.own (some _)) => none
  | some (.shared name) =>
    match name with
    | some "tag:yaml.org,2002:bool" => (Yaml.boolean? s).map boolean
    | some "tag:yaml.org,2002:int" => (Yaml.integer? s.toList).bind ofYamlInteger?
    | some "tag:yaml.org,2002:float" => (Yaml.float? s.toList).map float
    | some "tag:yaml.org,2002:null" => none
    | _ => some (string s)

/-- A scalar that is a value. -/
def ofYaml? (document n : Yaml.Node) : Option Value :=
  match document.target? n with
  | some (.scalar tag plain s) => ofScalar? tag plain s
  | _ => none

end Value

/-- A type by its name, or by a tag of its name before nothing. -/
def ParamType.ofYaml? (document n : Yaml.Node) : Option ParamType :=
  match document.target? n with
  | some (.scalar tag plain s) =>
    match tag with
    | some (.own (some name)) => if Yaml.Node.isNothing plain s then ofName? name else none
    | _ => ofName? s
  | _ => none

open Yaml.Node

namespace Config

/-- How many references are followed in a job configuration. -/
def references (document n : Yaml.Node) : Nat :=
  referencesOfRecord document
    [("job_name", Yaml.Node.references),
      ("submission_parameters", referencesOfMap document Yaml.Node.references)] n

/-- A job configuration. -/
def ofYaml? (document n : Yaml.Node) : Option Config := do
  match ← fields? document ["job_name", "submission_parameters"] n with
  | [jobName, parameters] =>
    some {
      jobName := ← absentOr? document (text? document) jobName
      parameters := ← mapOf? document (Value.ofYaml? document) parameters }
  | _ => none

end Config

namespace Declaration

/-- How many references are followed in what a manifest says of one parameter. -/
def references (document n : Yaml.Node) : Nat :=
  referencesOfRecord document
    [("type", Yaml.Node.references), ("default", Yaml.Node.references),
      ("description", Yaml.Node.references)] n

/-- What a manifest says of one parameter. -/
def ofYaml? (document n : Yaml.Node) : Option Declaration := do
  match ← fields? document ["type", "default", "description"] n with
  | [type, default, description] =>
    some {
      type := ← absentOr? document (ParamType.ofYaml? document) type
      default := ← absentOr? document (Value.ofYaml? document) default
      description := ← absentOr? document (text? document) description }
  | _ => none

end Declaration

namespace Manifest

/-- How many references are followed in a manifest. -/
def references (document n : Yaml.Node) : Nat :=
  referencesOfRecord document
    [("topology", Yaml.Node.references),
      ("parameters", referencesOfMap document (Declaration.references document))] n

/-- A manifest. -/
def ofYaml? (document n : Yaml.Node) : Option Manifest := do
  match ← fields? document ["topology", "parameters"] n with
  | [topology, parameters] =>
    some {
      topology := ← absentOr? document (text? document) topology
      parameters := ← mapOf? document (Declaration.ofYaml? document) parameters }
  | _ => none

end Manifest

/-- What a text says, read as one document in which not too many references are followed.
A text with nothing in it is as good as one where nothing is written. -/
def Yaml.read? {α : Type} (references : Yaml.Node → Yaml.Node → Nat)
    (ofYaml? : Yaml.Node → Yaml.Node → Option α) (text : String) : Option α := do
  let document := (← Yaml.document? text).getD .empty
  if document.isTame (references document document) then ofYaml? document document else none

end JobParameters
