/-
# Running a job

A region deals its tuples to its channels in turn and runs a worker for each;
all of them run to their end, and then the first channel that failed decides.
The outputs of the channels, in their order, are the tuples of the next region.
A job is submitted and run in one go by `Store.submitAndRun`, which plans the
pipeline between binding and committing, so that a refused job leaves no trace.

A thread can always be started for a worker: that the operating system refuses
one is no part of the model, and neither is the error a job would end with then.

Key definitions: `deal`, `Region.run`, `runRegions`, `Pipeline.run`,
`Store.submitAndRun`, `Report`, `RunError`.
Key theorem: `length_deal`.
-/
import JobParameters.Worker

namespace JobParameters

/-- Every `w`-th item, the first included. -/
def everyNth {α : Type} (w : Nat) : List α → List α
  | [] => []
  | x :: xs => x :: everyNth w (xs.drop (w - 1))
termination_by xs => xs.length
decreasing_by
  simp only [List.length_drop, List.length_cons]
  omega

/-- Deals items to `w` channels in turn. -/
def deal {α : Type} (w : Nat) (xs : List α) : List (List α) :=
  (List.range w).map fun c => everyNth w (xs.drop c)

theorem length_deal {α : Type} (w : Nat) (xs : List α) : (deal w xs).length = w := by
  simp [deal]

/-- What a region did. -/
structure RegionReport where
  label : String
  channels : Nat
  tuplesIn : Nat
  tuplesOut : Nat
deriving DecidableEq

/-- What a job did. -/
structure Report where
  jobName : Option String
  outputs : List Json
  regions : List RegionReport

/-- The region of a label. -/
def Report.region? (r : Report) (label : String) : Option RegionReport :=
  r.regions.find? fun g => g.label == label

/-- Why a job does not run to its end. -/
inductive RunError where
  /-- The submission is refused. -/
  | parameter (e : ParameterError)
  | workerFailed (station : Station) (fault : Fault)
  | workerPanicked (station : Station)

namespace RunError

/-- An error in words. -/
def message : RunError → String
  | parameter e => e.message
  | workerFailed s f =>
    "worker " ++ toString s.channel ++ " of region '" ++ s.region ++ "' failed: " ++ f.message
  | workerPanicked s =>
    "worker " ++ toString s.channel ++ " of region '" ++ s.region ++ "' panicked"

/-- The parameter error behind an error, from the submission or from a worker. -/
def parameterError? : RunError → Option ParameterError
  | parameter e => some e
  | workerFailed _ f => f.parameterError?
  | workerPanicked _ => none

/-- Where the worker stood that decided. -/
def station? : RunError → Option Station
  | parameter _ => none
  | workerFailed s _ => some s
  | workerPanicked s => some s

end RunError

/-- A run that has ended: what came of it, all calls that were made, and the store. -/
structure Ran (α : Type) where
  result : Except RunError α
  calls : List Call
  store : Store

section

variable {σ : Type}

/-- Runs workers on the channels from the given one on, a batch for each. -/
def runWorkers (r : Region σ) (payload : String) :
    Nat → List (List Json) → Store → List WorkerRun × Store
  | _, [], s => ([], s)
  | c, b :: bs, s =>
    let w := runWorker r c payload Thread.idle b s
    let (ws, s) := runWorkers r payload (c + 1) bs w.store
    (w :: ws, s)

/-- The outputs of workers in order, or the first that failed. -/
def gather (label : String) : Nat → List WorkerRun → Except RunError (List Json)
  | _, [] => .ok []
  | c, w :: ws =>
    match w.ended with
    | .done out => (gather label (c + 1) ws).map fun outs => out ++ outs
    | .failed f => .error (.workerFailed ⟨label, c⟩ f)
    | .panicked => .error (.workerPanicked ⟨label, c⟩)

/-- Runs a region over tuples. -/
def Region.run (r : Region σ) (payload : String) (tuples : List Json) (s : Store) :
    Ran (List Json) :=
  let (ws, s) := runWorkers r payload 0 (deal r.channels tuples) s
  ⟨gather r.label 0 ws, ws.flatMap WorkerRun.calls, s⟩

/-- Runs regions one after the other: the last outputs and the reports. -/
def runRegions (payload : String) :
    List (Region σ) → List Json → Store → Ran (List Json × List RegionReport)
  | [], tuples, s => ⟨.ok (tuples, []), [], s⟩
  | r :: rs, tuples, s =>
    let ran := r.run payload tuples s
    match ran.result with
    | .error e => ⟨.error e, ran.calls, ran.store⟩
    | .ok out =>
      let rest := runRegions payload rs out ran.store
      ⟨rest.result.map fun (outs, gs) =>
          (outs, ⟨r.label, r.channels, tuples.length, out.length⟩ :: gs),
        ran.calls ++ rest.calls, rest.store⟩

/-- Runs a planned job on a source of tuples. -/
def execute (source : List Json) (b : BindingSet) (rs : List (Region σ)) (s : Store) :
    Ran Report :=
  let ran := runRegions b.payload.encode rs source s
  ⟨ran.result.map fun (outs, gs) => ⟨b.jobName, outs, gs⟩, ran.calls, ran.store⟩

/-- Plans and runs a pipeline for bindings that were accepted. -/
def Pipeline.run (p : Pipeline σ) (b : BindingSet) (s : Store) : Ran Report :=
  match p.plan b with
  | .error e => ⟨.error (.parameter e), [], s⟩
  | .ok rs => execute p.source b rs s

/-- Submits a configuration to the topology of a number and runs a pipeline: binds,
plans, commits, and only then runs. -/
def Store.submitAndRun (s : Store) (i : Nat) (t : Topology) (now : Timestamp)
    (p : Pipeline σ) (c : Config) : Ran Report :=
  match t.preflight now c with
  | .error e => ⟨.error (.parameter e), [], s⟩
  | .ok b =>
    match p.plan b with
    | .error e => ⟨.error (.parameter e), [], s⟩
    | .ok rs =>
      match t.commit b with
      | .error e => ⟨.error (.parameter e), [], s⟩
      | .ok (t, _) => execute p.source b rs (s.setTopology i t)

end

/-- How often the instances of operators were made, opened, given a tuple and closed. -/
structure Tally where
  created : Nat
  started : Nat
  processed : Nat
  closed : Nat
deriving DecidableEq

/-- The tally of calls; filters and maps do not count. -/
def Tally.ofCalls (cs : List Call) : Tally :=
  let ops := cs.filter fun c => c.kind == .operator
  ⟨ops.countP fun c => match c.action with | .create _ => true | _ => false,
    ops.countP fun c => match c.action with | .start => true | _ => false,
    ops.countP fun c => match c.action with | .process _ => true | _ => false,
    ops.countP fun c => match c.action with | .close => true | _ => false⟩

end JobParameters
