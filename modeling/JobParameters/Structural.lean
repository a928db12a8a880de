/-
# Structural values

The width of a parallel region and the parameters of an operator are fixed in
the graph or stand for a parameter. Either way they are known before anything
runs: they are read off the bindings of the job and nothing else. A width is a
positive number of 32 bits.

Key definitions: `Structural`, `Width`, `BindingSet.resolveWidth`,
`BindingSet.resolveParams`.
-/
import JobParameters.Handle

namespace JobParameters

/-- A value that is fixed in the graph, or that of a parameter. -/
inductive Structural (α : Type) where
  | literal (a : α)
  | parameter (h : Handle)

/-- How many channels a region has; a fixed number is not checked beforehand. -/
abbrev Width := Structural Nat

/-- What an operator is given for one of its parameters. -/
abbrev OperatorParam := Structural Value

/-- The name of the parameter a structural value stands for. -/
def Structural.parameterName {α : Type} : Structural α → Option String
  | literal _ => none
  | parameter h => some h.spec.name

namespace BindingSet

/-- The bound value of a handle's parameter. -/
def boundValue (b : BindingSet) (h : Handle) : Except ParameterError Value :=
  match b.value? h.spec.name with
  | some v => .ok v
  | none => .error (.structural h.spec.name .unbound)

/-- A number of channels, or an error that names what the number was for. -/
def checkWidth (name : String) (n : Int) : Except ParameterError Nat :=
  if 0 < n ∧ n < UInt32.size then .ok n.toNat else .error (.structural name (.notPositive n))

/-- The number of channels that a width comes to. -/
def resolveWidth (b : BindingSet) : Width → Except ParameterError Nat
  | .literal n => checkWidth "<literal width>" n
  | .parameter h =>
    match b.boundValue h with
    | .error e => .error e
    | .ok (.integer n) => checkWidth h.spec.name n.toInt
    | .ok v => .error (.structural h.spec.name (.notInteger v))

/-- The value that an operator parameter comes to. -/
def resolveParam (b : BindingSet) : OperatorParam → Except ParameterError Value
  | .literal v => .ok v
  | .parameter h => b.boundValue h

/-- The values of operator parameters, or the first error. -/
def resolveEntries (b : BindingSet) :
    List (String × OperatorParam) → Except ParameterError (List (String × Value))
  | [] => .ok []
  | (name, p) :: ps =>
    match b.resolveParam p with
    | .error e => .error e
    | .ok v => (b.resolveEntries ps).map fun vs => (name, v) :: vs

/-- The values of all parameters of an operator, in their order. -/
def resolveParams (b : BindingSet) (ps : OrderedMap OperatorParam) :
    Except ParameterError (OrderedMap Value) :=
  (b.resolveEntries ps.entries).map OrderedMap.ofList

end BindingSet
end JobParameters
