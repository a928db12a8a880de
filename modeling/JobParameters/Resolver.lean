/-
# Reading by name

Inside a worker a parameter can be read by its name alone. The value comes from
the execution context, coerced if a type is asked for; a name that the job never
bound is an error, and so is reading where no context is installed. A `Scope`
keeps a value that was read once.

Key definitions: `Scope`, `ExecutionContext.resolve`, `Thread.context`,
`Thread.resolve`, `Thread.resolveScope`.
-/
import JobParameters.Context

namespace JobParameters

/-- A value that was read once, with the name of its parameter. -/
structure Scope where
  name : String
  value : Value
deriving DecidableEq

/-- The payload of a scope's value as one of the given type. -/
def Scope.readAs (s : Scope) (t : ParamType) : Except ParameterError t.Carrier :=
  typed s.name s.value t

namespace ExecutionContext

/-- The value of a name, coerced if a type is given. -/
def resolve (c : ExecutionContext) (name : String) (t : Option ParamType) :
    Except ParameterError Value :=
  match c.value? name, t with
  | none, _ => .error (.unknown name)
  | some v, none => .ok v
  | some v, some t => coerce name v t

/-- The payload of a name's value as one of the given type. -/
def resolveAs (c : ExecutionContext) (name : String) (t : ParamType) :
    Except ParameterError t.Carrier :=
  match c.resolve name none with
  | .error e => .error e
  | .ok v => typed name v t

/-- A scope of a name's value, coerced if a type is given. -/
def resolveScope (c : ExecutionContext) (name : String) (t : Option ParamType) :
    Except ParameterError Scope :=
  (c.resolve name t).map fun v => ⟨name, v⟩

end ExecutionContext

namespace Thread

/-- The installed context; the name is only for the error without one. -/
def context (t : Thread) (name : String) : Except ParameterError ExecutionContext :=
  match t.current with
  | some c => .ok c
  | none => .error (.noExecutionContext name)

/-- The value of a name in the installed context. -/
def resolve (t : Thread) (name : String) (type : Option ParamType) :
    Except ParameterError Value :=
  match t.context name with
  | .error e => .error e
  | .ok c => c.resolve name type

/-- The payload of a name's value in the installed context. -/
def resolveAs (t : Thread) (name : String) (type : ParamType) :
    Except ParameterError type.Carrier :=
  match t.context name with
  | .error e => .error e
  | .ok c => c.resolveAs name type

/-- A scope of a name's value in the installed context. -/
def resolveScope (t : Thread) (name : String) (type : Option ParamType) :
    Except ParameterError Scope :=
  match t.context name with
  | .error e => .error e
  | .ok c => c.resolveScope name type

end Thread
end JobParameters
