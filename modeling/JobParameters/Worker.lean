/-
# Workers

A worker runs the stages of a region over its share of the tuples. It decodes
the startup payload, installs the context with its place in the graph, makes an
instance of every operator, opens them in order, takes one tuple after the other
through all of them, and at last closes them, also when something failed. A call
that panics is the last one the worker makes. The run of a worker keeps the calls
it made.

Key definitions: `Call`, `Fault`, `Work`, `makeAll`, `openAll`, `through`,
`drive`, `closeAll`, `workStages`, `runWorker`.
-/
import JobParameters.Plan

namespace JobParameters

/-- What is called of an operator. -/
inductive Action where
  | create (params : OrderedMap Value)
  | start
  | process (tuple : Json)
  | close

/-- A call of an instance, by the place of its stage in the region. -/
structure Call where
  stage : Nat
  kind : StageKind
  action : Action

/-- Why a worker fails. -/
inductive Fault where
  /-- The startup payload is not one. -/
  | undecodable
  | opening (operator : String) (cause : Failure)
  | processing (operator : String) (cause : Failure)

namespace Fault

/-- A fault in words, what was going on first. -/
def message : Fault → String
  | undecodable => "failed to decode startup payload"
  | opening n f => "operator '" ++ n ++ "' failed to open: " ++ f.message
  | processing n f => "operator '" ++ n ++ "' failed to process a tuple: " ++ f.message

/-- The parameter error behind a fault. -/
def parameterError? : Fault → Option ParameterError
  | opening _ (.parameter e) => some e
  | processing _ (.parameter e) => some e
  | _ => none

end Fault

/-- Work that makes calls: how it ends, the calls it made, and the store after them. -/
def Work (ε α : Type) : Type := Store → Outcome ε α × List Call × Store

namespace Work

variable {ε δ α β γ : Type}

/-- No work. -/
protected def pure (a : α) : Work ε α := fun s => (.done a, [], s)

/-- Calls and then others; nothing is copied where there are no others. -/
def andThen (cs : List Call) : List Call → List Call
  | [] => cs
  | d :: ds => cs ++ d :: ds

theorem andThen_eq_append (cs ds : List Call) : andThen cs ds = cs ++ ds := by
  cases ds <;> simp [andThen]

/-- One piece of work after the other. -/
protected def bind (w : Work ε α) (k : α → Work ε β) : Work ε β := fun s =>
  match w s with
  | (.done a, cs, s) =>
    let (e, ds, s) := k a s
    (e, andThen cs ds, s)
  | (.failed e, cs, s) => (.failed e, cs, s)
  | (.panicked, cs, s) => (.panicked, cs, s)

instance : Monad (Work ε) where
  pure := Work.pure
  bind := Work.bind

/-- Makes one call on a thread; a failure is told by what was going on. -/
def call (t : Thread) (c : Call) (fault : ε → δ) (code : Code ε α) : Work δ α := fun s =>
  match code.run t s with
  | (.done a, s) => (.done a, [c], s)
  | (.failed e, s) => (.failed (fault e), [c], s)
  | (.panicked, s) => (.panicked, [c], s)

/-- The same work, which leaves something else where it fails. -/
def mapFail (f : ε → δ) (w : Work ε α) : Work δ α := fun s =>
  match w s with
  | (.done a, cs, s) => (.done a, cs, s)
  | (.failed e, cs, s) => (.failed (f e), cs, s)
  | (.panicked, cs, s) => (.panicked, cs, s)

/-- Work that leaves a `γ` either way. It goes on after a failure, which is kept. -/
def attempt (w : Work (ε × γ) (γ × α)) : Work ε (γ × Except ε α) := fun s =>
  match w s with
  | (.done (c, a), cs, s) => (.done (c, .ok a), cs, s)
  | (.failed (e, c), cs, s) => (.done (c, .error e), cs, s)
  | (.panicked, cs, s) => (.panicked, cs, s)

/-- No work, or a failure that was kept. -/
def ofExcept : Except ε α → Work ε α
  | .ok a => fun s => (.done a, [], s)
  | .error e => fun s => (.failed e, [], s)

end Work

/-- An operator instance: its stage, the place of the stage, and its state. -/
structure Instance (σ : Type) where
  place : Nat
  stage : PlannedStage σ
  state : σ

namespace Instance

variable {σ : Type}

/-- A call of the instance. -/
def calling (i : Instance σ) (a : Action) : Call := ⟨i.place, i.stage.kind, a⟩

/-- Opens the instance. -/
def start (t : Thread) (i : Instance σ) : Work (Fault × Instance σ) (Instance σ) := do
  let s ← Work.call t (i.calling .start)
    (fun (f, s) => (.opening i.stage.name f, { i with state := s }))
    (i.stage.operator.start i.state)
  return { i with state := s }

/-- Gives the instance a tuple. -/
def process (t : Thread) (i : Instance σ) (tuple : Json) :
    Work (Fault × Instance σ) (Instance σ × List Json) := do
  let (s, out) ← Work.call t (i.calling (.process tuple))
    (fun (f, s) => (.processing i.stage.name f, { i with state := s }))
    (i.stage.operator.process i.state tuple)
  return ({ i with state := s }, out)

/-- Gives the instance tuples one after the other. -/
def processAll (t : Thread) :
    Instance σ → List Json → Work (Fault × Instance σ) (Instance σ × List Json)
  | i, [] => pure (i, [])
  | i, tuple :: tuples => do
    let (i, out) ← i.process t tuple
    let (i, outs) ← i.processAll t tuples
    return (i, out ++ outs)

/-- Closes the instance. -/
def close (t : Thread) (i : Instance σ) : Work Empty Unit :=
  Work.call t (i.calling .close) id (i.stage.operator.close i.state)

end Instance

section

variable {σ : Type}

/-- An instance of the stage at a place. -/
def PlannedStage.make (t : Thread) (k : Nat) (p : PlannedStage σ) : Work Empty (Instance σ) := do
  let s ← Work.call t ⟨k, p.kind, .create p.params⟩ id (p.operator.create p.params)
  return ⟨k, p, s⟩

/-- An instance of every stage in order, the first of which is at the given place. -/
def makeAll (t : Thread) : Nat → List (PlannedStage σ) → Work Empty (List (Instance σ))
  | _, [] => pure []
  | k, p :: ps => do
    let i ← p.make t k
    let is ← makeAll t (k + 1) ps
    return i :: is

/-- Opens instances in order. -/
def openAll (t : Thread) :
    List (Instance σ) → Work (Fault × List (Instance σ)) (List (Instance σ))
  | [] => pure []
  | i :: is => do
    let i ← (i.start t).mapFail fun (f, i) => (f, i :: is)
    let is ← (openAll t is).mapFail fun (f, is) => (f, i :: is)
    return i :: is

/-- Takes tuples through instances: all of them through the first, what comes out
through the next, and so on. -/
def through (t : Thread) : List (Instance σ) → List Json →
    Work (Fault × List (Instance σ)) (List (Instance σ) × List Json)
  | [], tuples => pure ([], tuples)
  | i :: is, tuples => do
    let (i, out) ← (i.processAll t tuples).mapFail fun (f, i) => (f, i :: is)
    let (is, out) ← (through t is out).mapFail fun (f, is) => (f, i :: is)
    return (i :: is, out)

/-- Takes tuples through instances one at a time. -/
def throughEach (t : Thread) : List (Instance σ) → List Json →
    Work (Fault × List (Instance σ)) (List (Instance σ) × List Json)
  | is, [] => pure (is, [])
  | is, tuple :: tuples => do
    let (is, out) ← through t is [tuple]
    let (is, outs) ← throughEach t is tuples
    return (is, out ++ outs)

/-- Opens instances and takes tuples through them one at a time. -/
def drive (t : Thread) (is : List (Instance σ)) (batch : List Json) :
    Work (Fault × List (Instance σ)) (List (Instance σ) × List Json) := do
  let is ← openAll t is
  throughEach t is batch

/-- Closes instances in order. -/
def closeAll (t : Thread) : List (Instance σ) → Work Empty Unit
  | [] => pure ()
  | i :: is => do
    i.close t
    closeAll t is

/-- Drives instances over a batch and closes them, also after a failure. -/
def driveAndClose (t : Thread) (is : List (Instance σ)) (batch : List Json) :
    Work Fault (List Json) := do
  let (is, result) ← (drive t is batch).attempt
  (closeAll t is).mapFail Empty.elim
  Work.ofExcept result

/-- All that a worker does on its thread: makes an instance of every operator, drives them,
and closes them. -/
def workStages (t : Thread) (stages : List (PlannedStage σ)) (batch : List Json) :
    Work Fault (List Json) := do
  let is ← (makeAll t 0 stages).mapFail Empty.elim
  driveAndClose t is batch

/-- A worker that has run: what came out of it, the calls it made, its thread
afterwards, and the store. -/
structure WorkerRun where
  ended : Outcome Fault (List Json)
  calls : List Call
  thread : Thread
  store : Store

/-- Runs a worker of a region on a thread, over a batch of tuples. -/
def runWorker (r : Region σ) (channel : Nat) (payload : String) (home : Thread)
    (batch : List Json) (s : Store) : WorkerRun :=
  match ExecutionContext.decode? payload with
  | none => ⟨.failed .undecodable, [], home, s⟩
  | some c =>
    let (t, g) := home.install (c.stationed ⟨r.label, channel⟩)
    let (ended, calls, s) := workStages t r.stages batch s
    ⟨ended, calls, t.drop g, s⟩

end
end JobParameters
