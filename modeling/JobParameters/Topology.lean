/-
# Topologies

A `Topology` owns the parameters of one graph and a rule for submissions. To
submit a configuration is to bind it (`preflight`) and to commit the bindings; a
caller that has more to check does so in between.

Key definitions: `Topology`, `Topology.ofManifest`, `Topology.preflight`,
`Topology.commit`, `Topology.submit`, `Submission`.
Key theorem: `Topology.submit_eq`.
-/
import JobParameters.Bind

namespace JobParameters

/-- The parameters of a graph, and whether submissions may name others. -/
structure Topology where
  name : String
  strict : Bool
  registry : Registry

/-- An accepted submission. -/
structure Submission where
  topology : String
  bindings : BindingSet

namespace Topology

/-- A topology without parameters. -/
def empty (name : String) (strict : Bool) : Topology := ⟨name, strict, Registry.empty⟩

/-- The topology that a manifest describes. -/
def ofManifest (m : Manifest) : Except ParameterError Topology :=
  (Registry.empty.registerAll m.parameters.entries).map fun r => ⟨m.topologyName, false, r⟩

/-- Declares a parameter: the topology with it, and its declaration there. -/
def declare (t : Topology) (name : String) (default : Option Value) (type : Option ParamType) :
    Except ParameterError (Topology × ParameterSpec) :=
  match ParameterSpec.declare name default type none with
  | .error e => .error e
  | .ok s => (t.registry.register s).map fun (r, s) => ({ t with registry := r }, s)

/-- The bindings of a configuration, none of them committed. -/
def preflight (t : Topology) (now : Timestamp) (c : Config) : Except ParameterError BindingSet :=
  t.registry.bind t.strict now c

/-- Commits bindings: the topology with its parameters bound, and the submission. -/
def commit (t : Topology) (b : BindingSet) : Except ParameterError (Topology × Submission) :=
  (t.registry.commit b).map fun r => ({ t with registry := r }, ⟨t.name, b⟩)

/-- Binds a configuration and commits the bindings. -/
def submit (t : Topology) (now : Timestamp) (c : Config) :
    Except ParameterError (Topology × Submission) :=
  match t.preflight now c with
  | .error e => .error e
  | .ok b => t.commit b

/-- A submission is a preflight and then a commit of its bindings. -/
theorem submit_eq (t : Topology) (now : Timestamp) (c : Config) :
    t.submit now c = t.preflight now c >>= t.commit := by
  unfold submit
  cases t.preflight now c <;> rfl

end Topology
end JobParameters
