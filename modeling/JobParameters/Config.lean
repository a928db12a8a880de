/-
# Job configurations

A `Config` is what is supplied when a topology is submitted: a job name and
values for parameters. Configurations are layered by `Config.add`, where the
later one wins. `choosePath` says which configuration file is meant.

Key definitions: `Config`, `Config.set`, `Config.add`, `choosePath`.
Key theorem: `Config.add_empty`.
-/
import JobParameters.OrderedMap
import JobParameters.Text.Blank
import JobParameters.Value

namespace JobParameters

/-- A job name and values for parameters. -/
structure Config where
  jobName : Option String
  parameters : OrderedMap Value

namespace Config

/-- Nothing supplied. -/
def empty : Config := ⟨none, OrderedMap.empty⟩

/-- Supplies a value for a parameter, instead of an earlier one. -/
def set (c : Config) (name : String) (v : Value) : Config :=
  { c with parameters := c.parameters.insert name v }

/-- Supplies values for parameters one after the other. -/
def setAll (c : Config) (vs : List (String × Value)) : Config :=
  vs.foldl (fun c v => c.set v.1 v.2) c

/-- Names the job. -/
def named (c : Config) (jobName : String) : Config :=
  { c with jobName := some jobName }

/-- One configuration and then another over it. -/
def add (c d : Config) : Config :=
  { c with jobName := d.jobName.or c.jobName }.setAll d.parameters.entries

/-- A configuration that supplies nothing changes nothing. -/
theorem add_empty (c : Config) : c.add empty = c := by
  cases c
  rfl

end Config

/-- The configuration file to use: the one asked for, else the one the environment
names, unless that is blank. -/
def choosePath (explicit environment : Option String) : Option String :=
  explicit.or (environment.filter fun path => !Text.isBlankText path)

end JobParameters
