/-
# Parameter manifests

A `Manifest` lists the parameters of a topology without the topology itself:
each name with a declared type, a default and a description, any of which may be
absent.

Key definitions: `Declaration`, `Manifest`, `Manifest.topologyName`.
-/
import JobParameters.OrderedMap
import JobParameters.Value

namespace JobParameters

/-- What a manifest says of one parameter. -/
structure Declaration where
  type : Option ParamType
  default : Option Value
  description : Option String
deriving DecidableEq

/-- The parameters of a topology. -/
structure Manifest where
  topology : Option String
  parameters : OrderedMap Declaration

/-- A manifest that says nothing. -/
def Manifest.empty : Manifest := ⟨none, OrderedMap.empty⟩

/-- The name of the topology that a manifest describes. -/
def Manifest.topologyName (m : Manifest) : String :=
  m.topology.getD "default"

end JobParameters
