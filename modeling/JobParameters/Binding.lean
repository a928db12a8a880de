/-
# Bindings

A `Binding` is the value a job has for one parameter, with where it came from. A
`BindingSet` is all of them, under the names by which they are looked up; a set
made from bindings (`BindingSet.ofBindings`) lists each under its own name, while
one that was read from a document may list it under another. A `Payload` is the
part of a set that workers receive: names and values.

Key definitions: `Binding`, `BindingSet`, `BindingSet.ofBindings`, `Payload`,
`BindingSet.payload`.
-/
import JobParameters.OrderedMap
import JobParameters.Timestamp
import JobParameters.Value

namespace JobParameters

/-- Where a bound value came from. -/
inductive Origin where
  /-- The job configuration. -/
  | override
  /-- The declared default. -/
  | default
deriving DecidableEq

/-- The name of an origin in documents. -/
def Origin.name : Origin → String
  | override => "override"
  | default => "default"

/-- The value of one parameter for one job. -/
structure Binding where
  name : String
  type : ParamType
  value : Value
  origin : Origin
  resolvedAt : Timestamp
deriving DecidableEq

/-- The bindings of one job. -/
structure BindingSet where
  jobName : Option String
  resolvedAt : Timestamp
  bindings : OrderedMap Binding

/-- What workers receive of a binding set. -/
structure Payload where
  jobName : Option String
  values : OrderedMap Value

namespace BindingSet

/-- The set of a list of bindings, each under its own name. -/
def ofBindings (jobName : Option String) (resolvedAt : Timestamp) (bs : List Binding) :
    BindingSet :=
  ⟨jobName, resolvedAt, OrderedMap.ofList (bs.map fun b => (b.name, b))⟩

/-- The set of values that a caller supplies: each binding has the type of its value. -/
def ofValues (jobName : Option String) (resolvedAt : Timestamp) (vs : List (String × Value)) :
    BindingSet :=
  ofBindings jobName resolvedAt
    (vs.map fun (n, v) => ⟨n, v.type, v, .override, resolvedAt⟩)

/-- The bindings in order. -/
def toList (s : BindingSet) : List Binding := s.bindings.values

/-- The binding listed under a name. -/
def get? (s : BindingSet) (name : String) : Option Binding := s.bindings.find? name

/-- The value listed under a name. -/
def value? (s : BindingSet) (name : String) : Option Value := (s.get? name).map Binding.value

/-- Whether a binding is listed under a name. -/
def contains (s : BindingSet) (name : String) : Bool := s.bindings.contains name

/-- The number of bindings. -/
def size (s : BindingSet) : Nat := s.bindings.size

/-- The names and values that workers receive. -/
def payload (s : BindingSet) : Payload :=
  ⟨s.jobName, s.bindings.mapValues Binding.value⟩

end BindingSet
end JobParameters
