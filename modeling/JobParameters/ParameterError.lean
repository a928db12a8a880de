/-
# What can go wrong with parameters

One constructor for each cause, with what is needed to say what happened;
`ParameterError.message` is the only place that words it. Conflicts and
structural errors have a reason of their own, which may also be given in words.
What goes on with a result passes an error on, so whoever has what came of it can
say what was there before.

Key definitions: `ConflictReason`, `StructuralReason`, `Found`,
`ParameterError`, `ParameterError.message`.
Key theorems: `map_eq_ok_iff`, `map_eq_error_iff`.
-/
import JobParameters.Value

namespace JobParameters

/-- Why a declaration is refused. -/
inductive ConflictReason where
  | blankName
  | nonFiniteDefault
  /-- The default is not of the declared type. -/
  | defaultType (default : Value) (declared : ParamType)
  /-- The name is taken by a parameter of that type and default. -/
  | taken (type : ParamType) (default : Option Value)
  /-- A reason in words. -/
  | stated (text : String)
deriving DecidableEq

/-- Why a structural value cannot be used. -/
inductive StructuralReason where
  /-- The job binds no value for the parameter. -/
  | unbound
  /-- A width that is not an integer. -/
  | notInteger (value : Value)
  /-- A width that is no positive 32-bit number. -/
  | notPositive (width : Int)
  /-- A reason in words. -/
  | stated (text : String)
deriving DecidableEq

/-- What was found where a value of another type was needed. -/
inductive Found where
  | value (v : Value)
  | stated (text : String)
deriving DecidableEq

/-- The errors of declaring, binding and reading parameters. -/
inductive ParameterError where
  | conflict (name : String) (reason : ConflictReason)
  /-- Parameters without a default for which nothing is supplied. -/
  | missing (names : List String)
  | typeMismatch (name : String) (expected : ParamType) (found : Found)
  | structural (name : String) (reason : StructuralReason)
  | unknown (name : String)
  | unresolved (name : String)
  /-- The parameter holds a different value already. -/
  | alreadyBound (name : String)
  | noExecutionContext (name : String)
deriving DecidableEq

namespace ConflictReason

def message : ConflictReason → String
  | blankName => "parameter name must not be blank"
  | nonFiniteDefault => "float default must be finite"
  | defaultType v t =>
    "default " ++ v.display ++ " is " ++ v.type.name ++ " but the declared type is " ++ t.name
  | taken t d =>
    "already registered as " ++ t.name ++ " with default " ++ (d.map Value.shown).getD "none"
  | stated text => text

end ConflictReason

namespace StructuralReason

def message : StructuralReason → String
  | unbound => "structural parameter must be bound before its graph region is instantiated"
  | notInteger v => "parallel width must be an integer, got " ++ v.type.name ++ " " ++ v.display
  | notPositive w => "parallel width must be a positive integer, got " ++ toString w
  | stated text => text

end StructuralReason

namespace Found

/-- A value is described by its type and text, a string between quotes. -/
def message : Found → String
  | value (.string s) => "string " ++ Text.quoted s
  | value v => v.type.name ++ " " ++ v.display
  | stated text => text

end Found

namespace ParameterError

/-- An error in words. -/
def message : ParameterError → String
  | conflict n r =>
    "parameter '" ++ n ++ "' conflicts with an existing registration: " ++ r.message
  | missing ns =>
    "missing submission parameter(s) with no default: " ++ ", ".intercalate ns
  | typeMismatch n t f =>
    "submission parameter '" ++ n ++ "' cannot be coerced to " ++ t.name ++ ": " ++ f.message
  | structural n r => "structural parameter '" ++ n ++ "' is invalid: " ++ r.message
  | unknown n => "unknown submission parameter '" ++ n ++ "'"
  | unresolved n => "submission parameter '" ++ n ++ "' has not been resolved"
  | alreadyBound n => "submission parameter '" ++ n ++ "' is already bound to a different value"
  | noExecutionContext n =>
    "no worker execution context is installed on this thread (looking up '" ++ n ++ "')"

end ParameterError

/-! ### What came of a result -/

section

variable {ε α β : Type} {f : α → β} {x : Except ε α}

theorem map_eq_ok_iff {b : β} : x.map f = .ok b ↔ ∃ a, x = .ok a ∧ f a = b := by
  cases x <;> simp [Except.map]

theorem toOption_map_eq_some_iff {b : β} :
    x.toOption.map f = some b ↔ ∃ a, x = .ok a ∧ f a = b := by
  cases x <;> simp [Except.toOption]

theorem map_eq_error_iff {e : ε} : x.map f = .error e ↔ x = .error e := by
  cases x <;> simp [Except.map]

end

end JobParameters
