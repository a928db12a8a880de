/-
# Execution contexts

An `ExecutionContext` is what a worker knows of its job: the bound values, the
name of the job, and where in the graph the worker stands. A `Thread` has at
most one installed. Installing gives a `Guard` that remembers what was installed
before; dropping the guard puts that back, in whatever order guards are dropped.

Key definitions: `ExecutionContext`, `Thread`, `Guard`, `Thread.install`,
`Thread.drop`.
Key theorem: `Thread.drop_install`.
-/
import JobParameters.Documents.Json

namespace JobParameters

/-- The channel of a region that a worker runs. -/
structure Station where
  region : String
  channel : Nat
deriving DecidableEq

/-- What a worker knows of its job. -/
structure ExecutionContext where
  jobName : Option String
  station : Option Station
  values : OrderedMap Value

namespace ExecutionContext

/-- The context of a payload, nowhere in particular. -/
def ofPayload (p : Payload) : ExecutionContext := ⟨p.jobName, none, p.values⟩

/-- The context of an encoded payload. -/
def decode? (text : String) : Option ExecutionContext := (Payload.decode? text).map ofPayload

/-- The context at a place in the graph. -/
def stationed (c : ExecutionContext) (s : Station) : ExecutionContext :=
  { c with station := some s }

/-- The value of a name. -/
def value? (c : ExecutionContext) (name : String) : Option Value := c.values.find? name

/-- Whether a name has a value. -/
def contains (c : ExecutionContext) (name : String) : Bool := c.values.contains name

end ExecutionContext

/-- A thread, as far as contexts are concerned. -/
structure Thread where
  current : Option ExecutionContext

/-- What is installed again when the guard is dropped. -/
structure Guard where
  previous : Option ExecutionContext

namespace Thread

/-- A thread outside of any worker. -/
def idle : Thread := ⟨none⟩

/-- Installs a context over what is installed. -/
def install (t : Thread) (c : ExecutionContext) : Thread × Guard := (⟨some c⟩, ⟨t.current⟩)

/-- Installs what the guard remembers. -/
def drop (_ : Thread) (g : Guard) : Thread := ⟨g.previous⟩

/-- Dropping a guard at once undoes its installation. -/
theorem drop_install (t : Thread) (c : ExecutionContext) :
    (t.install c).1.drop (t.install c).2 = t := rfl

end Thread
end JobParameters
