/-
# Commands of a session

A session is a script of commands on topologies, handles, bindings, contexts and
pipelines. What a command makes is kept under a name, and later commands refer
to it by that name. Here is what can be commanded and what can be replied;
`Session.step` says what happens.

Key definitions: `Session.Command`, `Session.Reply`, `Session.Refusal`,
`Session.StageText`.
-/
import JobParameters.Run
import JobParameters.Stages

namespace JobParameters.Session

/-- A fixed value, or the name of a handle that stands for one. -/
inductive Given (α : Type) where
  | literal (a : α)
  | handle (name : String)

/-- A stage as a command describes it; handles are given by name. -/
inductive StageText where
  | parallel (width : Given Nat)
  | serial
  | keep (b : Bool)
  | identity
  | divisible (divisor wanted : Source String)
  | valueOf (source : Source String)
  | context
  | failOn (on : Json) (message : String)
  | panicOn (on : Json)
  | operator (name : String) (kind : Stages.OperatorKind String)
      (params : List (String × Given Value))

/-- What a context is made of. -/
inductive ContextText where
  /-- An encoded payload. -/
  | encoded (text : String)
  /-- The payload of a submission of that name. -/
  | ofSubmission (name : String)
  | ofValues (jobName : Option String) (values : List (String × Value))

/-- A command. The name `keep` is what its product is kept under. -/
inductive Command where
  | newTopology (keep : Option String) (name : String) (strict : Bool)
  | topologyOfManifest (keep : Option String) (manifest : Manifest)
  | topologyInfo (topology : String)
  | register (keep : Option String) (topology name : String) (default : Option Value)
      (type : Option ParamType)
  | handleOf (keep : Option String) (topology name : String)
  | specOf (topology name : String)
  | copyHandle (keep : Option String) (handle : String)
  | handleInfo (handle : String)
  | get (handle : String)
  | getAs (handle : String) (type : ParamType)
  | require (handle : String)
  | requireAs (handle : String) (type : ParamType)
  | scopeOf (keep : Option String) (handle : String)
  | scopeInfo (scope : String)
  | scopeAs (scope : String) (type : ParamType)
  | scopeValue (scope : String)
  | bind (keep : Option String) (topology : String) (strict : Bool) (config : Config)
  | bindOverrides (keep : Option String) (topology : String) (strict : Bool)
      (values : List (String × Value))
  | bindingsOf (keep : Option String) (jobName : Option String) (values : List (String × Value))
  | bindingOf (bindings name : String)
  | preflight (keep : Option String) (topology : String) (config : Config)
  | submit (keep : Option String) (topology : String) (config : Config)
  | commit (keep : Option String) (topology bindings : String)
  | commitRegistry (topology bindings : String)
  | install (keep : Option String) (context : ContextText) (station : Option Station)
  | uninstall (guardName : String)
  | current
  | contextValue (name : String)
  | resolve (name : String) (type : Option ParamType)
  | resolveAs (name : String) (type : ParamType)
  | resolveScope (keep : Option String) (name : String) (type : Option ParamType)
  | resolverOfCurrent (keep : Option String) (name : String)
  | resolverOf (keep : Option String) (context : ContextText) (station : Option Station)
  | resolverResolve (resolver name : String) (type : Option ParamType)
  | resolverResolveAs (resolver name : String) (type : ParamType)
  | resolverScope (keep : Option String) (resolver name : String) (type : Option ParamType)
  | width (bindings : String) (width : Given Nat)
  | operatorParams (bindings : String) (params : List (String × Given Value))
  | pipeline (keep : Option String) (source : List Json) (stages : List StageText)
  | run (pipeline submission : String)
  | submitAndRun (pipeline topology : String) (config : Config)

/-- What a command that succeeds replies. -/
inductive Reply where
  | done
  | topologyName (name : String)
  | topology (t : Topology)
  /-- A handle, and the value its parameter is bound to. -/
  | handle (h : Handle) (bound : Option Value)
  | noHandle
  | spec (s : Option ParameterSpec) (declared : Bool)
  | value (v : Option Value)
  | scope (s : Scope)
  | bindings (b : BindingSet)
  | binding (b : Option Binding)
  | submission (s : Submission)
  | context (c : Option ExecutionContext)
  | contextValue (c : Option ExecutionContext) (name : String)
  | width (parameter : Option String) (channels : Except ParameterError Nat)
  | params (ps : OrderedMap Value)
  /-- A pipeline by the number of its tuples and of its parallel regions, and in full. -/
  | pipeline (tuples regions : Nat) (shown : String)
  | ran (result : Except RunError Report) (tally : Tally)

/-- Why a command has no reply. -/
inductive Refusal where
  | parameter (e : ParameterError)
  /-- The text of a payload is not one. -/
  | undecodable
  /-- Nothing is kept under the name. -/
  | unnamed (name : String)

end JobParameters.Session
