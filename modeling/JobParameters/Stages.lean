/-
# A stock of stages

Stages that read parameters in every way there is: filters, maps and operators
whose code takes values from a `Source`, which is a fixed value, a captured
handle or a name. A session builds its pipelines of them. Handles are written as
whatever stands for them, by name in a description and by number in code.

Key definitions: `Source`, `Source.code`, `Stages.divisible`, `Stages.valueOf`,
`Stages.OperatorKind`, `Stages.OperatorKind.operator`.
-/
import JobParameters.Documents.Tagged
import JobParameters.Operator

namespace JobParameters

/-- Where code takes a value from. -/
inductive Source (H : Type) where
  | literal (v : Value)
  | require (handle : H)
  | requireAs (handle : H) (type : ParamType)
  /-- A read that may give nothing. -/
  | get (handle : H)
  | resolve (name : String) (type : Option ParamType)
  | resolveAs (name : String) (type : ParamType)

/-- The same source with its handle written in another way. -/
def Source.traverse {H K : Type} {m : Type → Type} [Monad m] (f : H → m K) :
    Source H → m (Source K)
  | literal v => pure (literal v)
  | require h => do return require (← f h)
  | requireAs h t => do return requireAs (← f h) t
  | get h => do return get (← f h)
  | resolve n t => pure (resolve n t)
  | resolveAs n t => pure (resolveAs n t)

/-- The code that takes the value. -/
def Source.code : Source Nat → Code Failure (Option Value)
  | literal v => .done (some v)
  | require h => .read h fun r => .ofExcept (r.require.map some)
  | requireAs h t => .read h fun r => .ofExcept ((r.requireAs t).map fun a => some (t.inject a))
  | get h => .read h fun r => .done r.value?
  | resolve n t => .look fun th => .ofExcept ((th.resolve n t).map some)
  | resolveAs n t => .look fun th => .ofExcept ((th.resolveAs n t).map fun a => some (t.inject a))

namespace Stages

/-- Keeps every tuple, or none. -/
def keep (b : Bool) : Json → Code Failure Bool := fun _ => .done b

/-- Leaves every tuple as it is. -/
def identity : Json → Code Failure Json := .done

/-- Whether the tuple is a multiple of the divisor, and whether that is wanted. The
divisor zero panics. -/
def isMultiple (n d : Int64) (wanted : Bool) : Code Failure Bool :=
  if d = 0 then .panic
  else .done ((n.toInt % d.toInt == 0) == wanted)

/-- Keeps the multiples of a divisor, or the others. -/
def divisible (divisor wanted : Source Nat) (tuple : Json) : Code Failure Bool := do
  match ← divisor.code with
  | some (.integer d) =>
    match ← wanted.code with
    | some (.boolean b) =>
      match tuple with
      | .integer n =>
        match integerOfInt? n with
        | some n => isMultiple n d b
        | none => .fail (.stated "expected an integer tuple")
      | _ => .fail (.stated "expected an integer tuple")
    | _ => .fail (.stated "expected a boolean")
  | _ => .fail (.stated "divisor is not an integer")

/-- Pairs each tuple with a value. -/
def valueOf (source : Source Nat) (tuple : Json) : Code Failure Json := do
  let v ← source.code
  return .array [tuple, (v.map Value.toTagged).getD .null]

/-- Pairs each tuple with what the installed context says of the job and the worker. -/
def context (tuple : Json) : Code Failure Json :=
  .look fun t =>
    let c := t.current
    let station := c.bind ExecutionContext.station
    .done (.array [tuple,
      ((c.bind ExecutionContext.jobName).map Json.string).getD .null,
      (station.map fun s => Json.string s.region).getD .null,
      (station.map fun s => Json.integer s.channel).getD .null])

/-- Fails at a tuple. -/
def failOn (on : Json) (message : String) (tuple : Json) : Code Failure Json :=
  if tuple.same on then .fail (.stated message) else .done tuple

/-- Panics at a tuple. -/
def panicOn (on : Json) (tuple : Json) : Code Failure Json :=
  if tuple.same on then .panic else .done tuple

/-- What an operator instance has at hand: its parameters and the scope it opened. -/
structure OperatorState where
  params : OrderedMap Value
  scope : Option Scope
deriving Inhabited

/-- The kinds of operators. -/
inductive OperatorKind (H : Type) where
  /-- Lets every tuple pass. -/
  | pass
  /-- Pairs each tuple with the operator parameters. -/
  | params
  /-- Gives each tuple as often as the parameter `n` says. -/
  | repeats
  /-- Cannot be opened. -/
  | refuses (message : String)
  /-- Opens a scope by name, and pairs each tuple with its value. -/
  | scope (name : String) (type : Option ParamType)
  /-- Opens a scope of a handle, and pairs each tuple with its value. -/
  | handleScope (handle : H)

/-- A tuple with the value of the open scope. -/
def withScope (s : OperatorState) (tuple : Json) : Json :=
  .array [tuple, (s.scope.map fun c => c.value.toTagged).getD .null]

namespace OperatorKind

/-- The same kind with its handle written in another way. -/
def traverse {H K : Type} {m : Type → Type} [Monad m] (f : H → m K) :
    OperatorKind H → m (OperatorKind K)
  | pass => pure pass
  | params => pure params
  | repeats => pure repeats
  | refuses message => pure (refuses message)
  | scope n t => pure (scope n t)
  | handleScope h => do return handleScope (← f h)

/-- What opening an instance does. -/
def start (k : OperatorKind Nat) (s : OperatorState) : Code Failure OperatorState :=
  match k with
  | refuses message => .fail (.stated message)
  | scope n t => .look fun th =>
    .ofExcept ((th.resolveScope n t).map fun c => { s with scope := some c })
  | handleScope h => .read h fun r =>
    .ofExcept (r.scope.map fun c => { s with scope := some c })
  | _ => .done s

/-- What an instance gives for a tuple. -/
def process (k : OperatorKind Nat) (s : OperatorState) (tuple : Json) : Code Failure (List Json) :=
  match k with
  | params => .done [.array [tuple, s.params.toTagged]]
  | repeats =>
    match s.params.find? "n" with
    | some (.integer n) => .done (List.replicate n.toInt.toNat tuple)
    | _ => .fail (.stated "n is not an integer")
  | scope .. => .done [withScope s tuple]
  | handleScope .. => .done [withScope s tuple]
  | _ => .done [tuple]

/-- The operator of a kind. -/
def operator (k : OperatorKind Nat) : Operator OperatorState where
  create ps := .done ⟨ps, none⟩
  start s := (k.start s).mapFail fun f => (f, s)
  process s tuple := do
    let out ← (k.process s tuple).mapFail fun f => (f, s)
    return (s, out)
  close _ := .done ()

end OperatorKind
end Stages
end JobParameters
