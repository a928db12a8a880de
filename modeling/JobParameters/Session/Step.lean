/-
# What a session does

A `Session` is a store, one thread, and everything that was kept, by kind and by
name. `Session.step` obeys one command and `Session.runAll` a script of them. A
command that is refused keeps nothing under a name; all the same, the caches it
filled and the slots it bound before stay as they are.

Key definitions: `Session`, `Session.step`, `Session.runAll`.
Key theorem: `Session.length_runAll`.
-/
import JobParameters.Session.Command

namespace JobParameters

/-- A store, a thread, and what was kept under names. -/
structure Session where
  store : Store
  thread : Thread
  topologies : OrderedMap Nat
  handles : OrderedMap Nat
  scopes : OrderedMap Scope
  bindings : OrderedMap BindingSet
  submissions : OrderedMap Submission
  guards : OrderedMap Guard
  resolvers : OrderedMap ExecutionContext
  pipelines : OrderedMap (Pipeline Stages.OperatorState)

namespace Session

/-- A session in which nothing has happened. -/
def start : Session where
  store := Store.empty
  thread := Thread.idle
  topologies := OrderedMap.empty
  handles := OrderedMap.empty
  scopes := OrderedMap.empty
  bindings := OrderedMap.empty
  submissions := OrderedMap.empty
  guards := OrderedMap.empty
  resolvers := OrderedMap.empty
  pipelines := OrderedMap.empty

/-- Part of a command: it may be refused, and what it changed before stays changed. -/
abbrev Action (α : Type) := ExceptT Refusal (StateM Session) α

/-- The result of something that may be refused. -/
def orRefuse {α : Type} : Except ParameterError α → Action α
  | .ok a => pure a
  | .error e => throw (.parameter e)

/-- What is kept under a name. -/
def named {α : Type} (table : Session → OrderedMap α) (name : String) : Action α := do
  match (table (← get)).find? name with
  | some a => pure a
  | none => throw (.unnamed name)

/-- A table with one more entry, if there is a name for it. -/
def kept {α : Type} (keep : Option String) (a : α) (m : OrderedMap α) : OrderedMap α :=
  match keep with
  | some name => m.insert name a
  | none => m

/-- Something found by number; the numbers in the tables are all in range. -/
def numbered {α : Type} (name : String) : Option α → Action α
  | some a => pure a
  | none => throw (.unnamed name)

/-- The topology of a name, and its number. -/
def topologyOf (name : String) : Action (Nat × Topology) := do
  let i ← named topologies name
  return (i, ← numbered name ((← get).store.topologies[i]?))

/-- The handle of a name. -/
def handleOf (name : String) : Action Handle := do
  let i ← named handles name
  numbered name ((← get).store.handles[i]?)

/-- A handle with what its parameter is bound to. -/
def replyHandle (h : Handle) : Action Reply := do
  return .handle h ((← get).store.bound? h)

/-- Keeps a topology. -/
def addTopology (keep : Option String) (t : Topology) : Action Unit :=
  modify fun s =>
    let (store, i) := s.store.addTopology t
    { s with store := store, topologies := kept keep i s.topologies }

/-- Puts a changed topology in its place. -/
def setTopology (i : Nat) (t : Topology) : Action Unit :=
  modify fun s => { s with store := s.store.setTopology i t }

/-- Keeps a handle. -/
def addHandle (keep : Option String) (h : Handle) : Action Reply := do
  modify fun s =>
    let (store, i) := s.store.mint h
    { s with store := store, handles := kept keep i s.handles }
  replyHandle h

/-- Reads the handle of a name. -/
def read (name : String) : Action Reading := do
  let i ← named handles name
  let s ← get
  let (store, r) := s.store.read s.thread.current i
  set { s with store := store }
  numbered name r

/-- Keeps a scope. -/
def addScope (keep : Option String) (c : Scope) : Action Reply := do
  modify fun s => { s with scopes := kept keep c s.scopes }
  return .scope c

/-- Keeps bindings. -/
def addBindings (keep : Option String) (b : BindingSet) : Action Reply := do
  modify fun s => { s with bindings := kept keep b s.bindings }
  return .bindings b

/-- Keeps a submission. -/
def addSubmission (keep : Option String) (b : Submission) : Action Reply := do
  modify fun s => { s with submissions := kept keep b s.submissions }
  return .submission b

/-- Keeps a resolver. -/
def addResolver (keep : Option String) (c : ExecutionContext) : Action Reply := do
  modify fun s => { s with resolvers := kept keep c s.resolvers }
  return .context c

/-- The context that a command describes. -/
def contextOf (text : ContextText) (station : Option Station) : Action ExecutionContext := do
  let c ← match text with
    | .encoded text =>
      match ExecutionContext.decode? text with
      | some c => pure c
      | none => throw .undecodable
    | .ofSubmission name =>
      (fun s => ExecutionContext.ofPayload s.bindings.payload) <$> named submissions name
    | .ofValues jobName values =>
      pure (ExecutionContext.ofPayload ⟨jobName, OrderedMap.ofList values⟩)
  return (station.map c.stationed).getD c

/-- Installs a context. The guard that was kept under the same name is dropped. -/
def install (keep : Option String) (c : ExecutionContext) : Action Unit :=
  modify fun s =>
    let (thread, guard) := s.thread.install c
    let former := match keep with
      | some name => s.guards.find? name
      | none => some guard
    { s with
      thread := (former.map thread.drop).getD thread
      guards := kept keep guard s.guards }

/-- A structural value; a handle in it is a copy. -/
def structural {α : Type} : Given α → Action (Structural α)
  | .literal a => pure (.literal a)
  | .handle name => do return .parameter (← handleOf name).copy

/-- Operator parameters, of a repeated name the last. -/
def structuralParams (ps : List (String × Given Value)) : Action (OrderedMap OperatorParam) := do
  return OrderedMap.ofList (← ps.mapM fun (name, p) => do return (name, ← structural p))

/-- The step of building a pipeline that a stage is. -/
def stepOf : StageText → Action (Pipeline.Step Stages.OperatorState)
  | .parallel width => do return .parallel (← structural width)
  | .serial => pure .serial
  | .keep b => pure (.filter (Stages.keep b))
  | .identity => pure (.map Stages.identity)
  | .divisible divisor wanted => do
    let divisor ← divisor.traverse (named handles)
    let wanted ← wanted.traverse (named handles)
    return .filter (Stages.divisible divisor wanted)
  | .valueOf source => do return .map (Stages.valueOf (← source.traverse (named handles)))
  | .context => pure (.map Stages.context)
  | .failOn on message => pure (.map (Stages.failOn on message))
  | .panicOn on => pure (.map (Stages.panicOn on))
  | .operator name kind params => do
    let kind ← kind.traverse (named handles)
    return .operator name (← structuralParams params) kind.operator

/-- Keeps what a run leaves behind. -/
def replyRan (r : Ran Report) : Action Reply := do
  modify fun s => { s with store := r.store }
  return .ran r.result (Tally.ofCalls r.calls)

/-- Obeys a command. -/
def obey (now : Timestamp) : Command → Action Reply
  | .newTopology keep name strict => do
    addTopology keep (Topology.empty name strict)
    return .topologyName name
  | .topologyOfManifest keep m => do
    let t ← orRefuse (Topology.ofManifest m)
    addTopology keep t
    return .topology t
  | .topologyInfo name => do return .topology (← topologyOf name).2
  | .register keep topology name default type => do
    let (i, t) ← topologyOf topology
    let (t, spec) ← orRefuse (t.declare name default type)
    setTopology i t
    addHandle keep (Handle.fresh i spec)
  | .handleOf keep topology name => do
    let (i, t) ← topologyOf topology
    match t.registry.spec? name with
    | some spec => addHandle keep (Handle.fresh i spec)
    | none => return .noHandle
  | .specOf topology name => do
    let (_, t) ← topologyOf topology
    return .spec (t.registry.spec? name) (t.registry.contains name)
  | .copyHandle keep handle => do addHandle keep (← handleOf handle).copy
  | .handleInfo handle => do replyHandle (← handleOf handle)
  | .get handle => do return .value (← read handle).value?
  | .getAs handle type => do
    return .value (((← read handle).valueAs? type).map type.inject)
  | .require handle => do return .value (← orRefuse (← read handle).require)
  | .requireAs handle type => do
    return .value (type.inject (← orRefuse ((← read handle).requireAs type)))
  | .scopeOf keep handle => do addScope keep (← orRefuse (← read handle).scope)
  | .scopeInfo scope => do return .scope (← named scopes scope)
  | .scopeAs scope type => do
    return .value (type.inject (← orRefuse ((← named scopes scope).readAs type)))
  | .scopeValue scope => do return .value (← named scopes scope).value
  | .bind keep topology strict config => do
    let (_, t) ← topologyOf topology
    addBindings keep (← orRefuse (t.registry.bind strict now config))
  | .bindOverrides keep topology strict values => do
    let (_, t) ← topologyOf topology
    addBindings keep
      (← orRefuse (t.registry.bindOverrides strict now (OrderedMap.ofList values)))
  | .bindingsOf keep jobName values =>
    addBindings keep (BindingSet.ofValues jobName now values)
  | .bindingOf b name => do return .binding ((← named bindings b).get? name)
  | .preflight keep topology config => do
    let (_, t) ← topologyOf topology
    addBindings keep (← orRefuse (t.preflight now config))
  | .submit keep topology config => do
    let (i, t) ← topologyOf topology
    let (t, s) ← orRefuse (t.submit now config)
    setTopology i t
    addSubmission keep s
  | .commit keep topology b => do
    let (i, t) ← topologyOf topology
    let (t, s) ← orRefuse (t.commit (← named bindings b))
    setTopology i t
    addSubmission keep s
  | .commitRegistry topology b => do
    let (i, t) ← topologyOf topology
    let r ← orRefuse (t.registry.commit (← named bindings b))
    setTopology i { t with registry := r }
    return .done
  | .install keep text station => do
    let c ← contextOf text station
    install keep c
    return .context c
  | .uninstall name => do
    let g ← named guards name
    modify fun s => { s with thread := s.thread.drop g, guards := s.guards.erase name }
    return .context (← get).thread.current
  | .current => do return .context (← get).thread.current
  | .contextValue name => do return .contextValue (← get).thread.current name
  | .resolve name type => do
    return .value (← orRefuse ((← get).thread.resolve name type))
  | .resolveAs name type => do
    return .value (type.inject (← orRefuse ((← get).thread.resolveAs name type)))
  | .resolveScope keep name type => do
    addScope keep (← orRefuse ((← get).thread.resolveScope name type))
  | .resolverOfCurrent keep name => do
    addResolver keep (← orRefuse ((← get).thread.context name))
  | .resolverOf keep text station => do addResolver keep (← contextOf text station)
  | .resolverResolve resolver name type => do
    return .value (← orRefuse ((← named resolvers resolver).resolve name type))
  | .resolverResolveAs resolver name type => do
    return .value (type.inject (← orRefuse ((← named resolvers resolver).resolveAs name type)))
  | .resolverScope keep resolver name type => do
    addScope keep (← orRefuse ((← named resolvers resolver).resolveScope name type))
  | .width b width => do
    let width ← structural width
    return .width width.parameterName ((← named bindings b).resolveWidth width)
  | .operatorParams b params => do
    let params ← structuralParams params
    return .params (← orRefuse ((← named bindings b).resolveParams params))
  | .pipeline keep source stages => do
    let p := Pipeline.build (source.map Json.canonical) (← stages.mapM stepOf)
    modify fun s => { s with pipelines := kept keep p s.pipelines }
    return .pipeline p.source.length p.parallelRegions (p.shown (← get).store.bound?)
  | .run pipeline submission => do
    let p ← named pipelines pipeline
    let b := (← named submissions submission).bindings
    replyRan (p.run b (← get).store)
  | .submitAndRun pipeline topology config => do
    let p ← named pipelines pipeline
    let (i, t) ← topologyOf topology
    replyRan ((← get).store.submitAndRun i t now p config)

/-- Obeys one command: the reply or why there is none, and the session after it. -/
def step (now : Timestamp) (s : Session) (c : Command) : Except Refusal Reply × Session :=
  (obey now c).run.run s

/-- Obeys commands one after the other. -/
def runAll (now : Timestamp) : Session → List Command → List (Except Refusal Reply)
  | _, [] => []
  | s, c :: cs =>
    let (reply, s) := s.step now c
    reply :: runAll now s cs

/-- Every command has its reply. -/
theorem length_runAll (now : Timestamp) : ∀ (s : Session) (cs : List Command),
    (s.runAll now cs).length = cs.length
  | _, [] => rfl
  | s, c :: cs => by simp [runAll, length_runAll now _ cs]

end Session
end JobParameters
