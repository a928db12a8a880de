/-
# Binding a submission

`Registry.bind` resolves every declared parameter for a job: the value supplied
for it, coerced to the declared type, or the default. A value that cannot be
coerced ends the search at once; parameters that have neither are all named
together. A strict registry refuses values supplied for names that are not
declared; otherwise they are ignored.

Key definitions: `Resolution`, `ParameterSpec.resolve`, `Resolution.collect`,
`Registry.bind`.
-/
import JobParameters.Coerce
import JobParameters.Config
import JobParameters.Registry

namespace JobParameters

/-- How one parameter fares in a submission. -/
inductive Resolution where
  | bound (b : Binding)
  /-- Nothing is supplied and there is no default. -/
  | missing (name : String)
  | refused (e : ParameterError)

/-- Resolves one parameter at a moment. -/
def ParameterSpec.resolve (s : ParameterSpec) (now : Timestamp) (supplied : OrderedMap Value) :
    Resolution :=
  match supplied.find? s.name, s.default with
  | some v, _ =>
    match coerce s.name v s.type with
    | .ok w => .bound ⟨s.name, s.type, w, .override, now⟩
    | .error e => .refused e
  | none, some v => .bound ⟨s.name, s.type, v, .default, now⟩
  | none, none => .missing s.name

/-- The first refusal, else the bindings and the names of the missing parameters. -/
def Resolution.collect : List Resolution → Except ParameterError (List Binding × List String)
  | [] => .ok ([], [])
  | .refused e :: _ => .error e
  | .bound b :: rs => (collect rs).map fun (bs, ns) => (b :: bs, ns)
  | .missing n :: rs => (collect rs).map fun (bs, ns) => (bs, n :: ns)

namespace Registry

/-- The first name that a strict registry refuses. -/
def firstForeign? (r : Registry) (strict : Bool) (supplied : OrderedMap Value) : Option String :=
  if strict then supplied.keys.find? fun n => !r.contains n else none

/-- The bindings of all declared parameters for a job. -/
def bind (r : Registry) (strict : Bool) (now : Timestamp) (c : Config) :
    Except ParameterError BindingSet :=
  match r.firstForeign? strict c.parameters with
  | some n => .error (.unknown n)
  | none =>
    match Resolution.collect (r.specs.map fun s => s.resolve now c.parameters) with
    | .error e => .error e
    | .ok (bs, []) => .ok (BindingSet.ofBindings c.jobName now bs)
    | .ok (_, n :: ns) => .error (.missing (n :: ns))

/-- The bindings of all declared parameters for a job without a name. -/
def bindOverrides (r : Registry) (strict : Bool) (now : Timestamp) (supplied : OrderedMap Value) :
    Except ParameterError BindingSet :=
  r.bind strict now ⟨none, supplied⟩

end Registry
end JobParameters
