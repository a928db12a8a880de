/-
# Topologies and their handles

A `Store` holds the topologies of a process and the handles minted for their
parameters. Handles of one parameter share its slot and have a cache each. All
that changes in a store is that topologies and handles are added, slots are
filled, and caches are filled by reads.

Key definitions: `Store`, `Store.mint`, `Store.read`, `Store.bound?`,
`Reading`, `Reading.value?`, `Reading.require`.
-/
import JobParameters.Handle
import JobParameters.Topology

namespace JobParameters

/-- Topologies by number, and handles by number. -/
structure Store where
  topologies : List Topology
  handles : List Handle

/-- A handle that was read, and the answer. -/
structure Reading where
  spec : ParameterSpec
  answer : Lookup

namespace Reading

/-- The value of a reading, the default standing in where a context lacks the name. -/
def value? (r : Reading) : Option Value :=
  r.answer.value? r.spec.default

/-- The value of a reading, or why there is none. -/
def require (r : Reading) : Except ParameterError Value :=
  r.answer.require r.spec.name

/-- The payload of a reading's value as one of the given type. -/
def requireAs (r : Reading) (t : ParamType) : Except ParameterError t.Carrier :=
  match r.require with
  | .error e => .error e
  | .ok v => typed r.spec.name v t

/-- The same, where a value that is not of the type counts as none. -/
def valueAs? (r : Reading) (t : ParamType) : Option t.Carrier :=
  match r.value? with
  | none => none
  | some v => (typed r.spec.name v t).toOption

/-- A scope of a reading's value. -/
def scope (r : Reading) : Except ParameterError Scope :=
  r.require.map fun v => ⟨r.spec.name, v⟩

end Reading

namespace Store

/-- No topologies. -/
def empty : Store := ⟨[], []⟩

/-- Adds a topology under the next number. -/
def addTopology (s : Store) (t : Topology) : Store × Nat :=
  ({ s with topologies := s.topologies ++ [t] }, s.topologies.length)

/-- The topology of a number after a change. -/
def setTopology (s : Store) (i : Nat) (t : Topology) : Store :=
  { s with topologies := s.topologies.set i t }

/-- Adds a handle under the next number. -/
def mint (s : Store) (h : Handle) : Store × Nat :=
  ({ s with handles := s.handles ++ [h] }, s.handles.length)

/-- The value that a handle's parameter is bound to. -/
def bound? (s : Store) (h : Handle) : Option Value :=
  (s.topologies[h.topology]?).bind fun t => t.registry.bound? h.spec.name

/-- Reads a handle under a context: the store with its cache, and the answer. -/
def read (s : Store) (current : Option ExecutionContext) (i : Nat) : Store × Option Reading :=
  match s.handles[i]? with
  | none => (s, none)
  | some h =>
    let answer := h.lookup current (s.bound? h)
    ({ s with handles := s.handles.set i (h.keep answer) }, some ⟨h.spec, answer⟩)

/-- Reading binds nothing. -/
theorem topologies_read (s : Store) (current : Option ExecutionContext) (i : Nat) :
    (s.read current i).1.topologies = s.topologies := by
  unfold read
  split <;> rfl

end Store
end JobParameters
