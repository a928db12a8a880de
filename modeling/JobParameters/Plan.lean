/-
# Plans

Before anything runs, a pipeline is planned for the bindings of a job: every
segment that has a width or a stage becomes a `Region` with its number of
channels and its operator parameters resolved. The first structural value that
cannot be resolved, in the order of the pipeline, refuses the plan.

Key definitions: `PlannedStage`, `Region`, `Segment.plan`, `Pipeline.plan`.
-/
import JobParameters.Pipeline

namespace JobParameters

/-- A stage whose parameters are known. -/
structure PlannedStage (σ : Type) where
  name : String
  kind : StageKind
  params : OrderedMap Value
  operator : Operator σ

/-- Stages that run on a known number of channels. -/
structure Region (σ : Type) where
  label : String
  channels : Nat
  stages : List (PlannedStage σ)

variable {σ : Type}

/-- Resolves the parameters of a stage. -/
def Stage.plan (b : BindingSet) (s : Stage σ) : Except ParameterError (PlannedStage σ) :=
  (b.resolveParams s.params).map fun ps => ⟨s.name, s.kind, ps, s.operator⟩

/-- Resolves the parameters of stages in order. -/
def planStages (b : BindingSet) : List (Stage σ) → Except ParameterError (List (PlannedStage σ))
  | [] => .ok []
  | s :: ss =>
    match s.plan b with
    | .error e => .error e
    | .ok p => (planStages b ss).map fun ps => p :: ps

/-- The region of the segment at a place in the pipeline, if it has anything to run. -/
def Segment.plan (b : BindingSet) (i : Nat) (s : Segment σ) :
    Except ParameterError (Option (Region σ)) :=
  match s.width, s.stages with
  | some w, ss =>
    match b.resolveWidth w with
    | .error e => .error e
    | .ok n => (planStages b ss).map fun ps => some ⟨"parallel-" ++ toString i, n, ps⟩
  | none, [] => .ok none
  | none, ss => (planStages b ss).map fun ps => some ⟨"serial-" ++ toString i, 1, ps⟩

/-- The regions of segments, the first of which is at the given place. -/
def planSegments (b : BindingSet) : Nat → List (Segment σ) → Except ParameterError (List (Region σ))
  | _, [] => .ok []
  | i, s :: ss =>
    match s.plan b i with
    | .error e => .error e
    | .ok r => (planSegments b (i + 1) ss).map fun rs => r.toList ++ rs

/-- The regions of a pipeline for the bindings of a job. -/
def Pipeline.plan (p : Pipeline σ) (b : BindingSet) : Except ParameterError (List (Region σ)) :=
  planSegments b 0 p.segments

end JobParameters
