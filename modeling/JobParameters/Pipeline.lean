/-
# Pipelines

A `Pipeline` is a finite source of tuples and a list of segments, each a run of
stages with a width or without. It is built one step after the other: a stage
goes into the last segment, and opening or ending a parallel region starts a new
one. There is always a last segment, so no stage is ever lost.

Key definitions: `Stage`, `Segment`, `Pipeline`, `Pipeline.Step`,
`Pipeline.apply`, `Pipeline.build`.
Key theorem: `Pipeline.stages_add`.
-/
import JobParameters.Operator
import JobParameters.Structural

namespace JobParameters

/-- How a stage was added. -/
inductive StageKind where
  | filter
  | map
  | operator
deriving DecidableEq

/-- An operator in a graph, under a name. -/
structure Stage (σ : Type) where
  name : String
  kind : StageKind
  params : OrderedMap OperatorParam
  operator : Operator σ

/-- Stages that run together: on one channel, or on as many as the width says. -/
structure Segment (σ : Type) where
  width : Option Width
  stages : List (Stage σ)

/-- A source of tuples and segments of stages, the last of which still grows. -/
structure Pipeline (σ : Type) where
  source : List Json
  settled : List (Segment σ)
  last : Segment σ

namespace Pipeline

variable {σ : Type}

/-- A step of building a pipeline. -/
inductive Step (σ : Type) where
  | filter (test : Json → Code Failure Bool)
  | map (f : Json → Code Failure Json)
  | operator (name : String) (params : OrderedMap OperatorParam) (op : Operator σ)
  /-- Opens a parallel region. -/
  | parallel (width : Width)
  /-- Ends it. -/
  | serial

/-- A pipeline without stages. -/
def ofSource (source : List Json) : Pipeline σ := ⟨source, [], ⟨none, []⟩⟩

/-- The segments in order. -/
def segments (p : Pipeline σ) : List (Segment σ) := p.settled ++ [p.last]

/-- The stages in order. -/
def stages (p : Pipeline σ) : List (Stage σ) := p.segments.flatMap Segment.stages

/-- The number of parallel regions. -/
def parallelRegions (p : Pipeline σ) : Nat := p.segments.countP fun s => s.width.isSome

/-- Adds a stage to the last segment. -/
def add (p : Pipeline σ) (s : Stage σ) : Pipeline σ :=
  { p with last := { p.last with stages := p.last.stages ++ [s] } }

/-- Starts a segment. -/
def begin (p : Pipeline σ) (width : Option Width) : Pipeline σ :=
  { p with settled := p.segments, last := ⟨width, []⟩ }

/-- The name of a stage that is given none: what it is and how many come before it. -/
def numbered (p : Pipeline σ) (word : String) : String :=
  word ++ "-" ++ toString p.stages.length

/-- Takes a step. -/
def apply [Inhabited σ] (p : Pipeline σ) : Step σ → Pipeline σ
  | .filter test => p.add ⟨p.numbered "filter", .filter, OrderedMap.empty, .filter test⟩
  | .map f => p.add ⟨p.numbered "map", .map, OrderedMap.empty, .map f⟩
  | .operator name params op => p.add ⟨name, .operator, params, op⟩
  | .parallel width => p.begin (some width)
  | .serial => p.begin none

/-- The pipeline that a list of steps builds. -/
def build [Inhabited σ] (source : List Json) (steps : List (Step σ)) : Pipeline σ :=
  steps.foldl apply (ofSource source)

/-- A stage that is added comes last. -/
theorem stages_add (p : Pipeline σ) (s : Stage σ) : (p.add s).stages = p.stages ++ [s] := by
  simp [stages, segments, add]

/-- A new segment has no stages yet. -/
theorem stages_begin (p : Pipeline σ) (w : Option Width) : (p.begin w).stages = p.stages := by
  simp [stages, segments, begin]

end Pipeline

section Shown

/-- A structural value with what is known of its parameter. -/
def Structural.shown {α : Type} (literal : α → String) (bound? : Handle → Option Value) :
    Structural α → String
  | .literal a => "Literal(" ++ literal a ++ ")"
  | .parameter h => "Parameter(" ++ h.shown (bound? h) ++ ")"

variable {σ : Type} (bound? : Handle → Option Value)

/-- A stage by its name and parameters. -/
def Stage.shown (s : Stage σ) : String :=
  "Stage \x7b name: " ++ Text.quoted s.name ++ ", params: \x7b" ++
    ", ".intercalate (s.params.entries.map fun (n, p) =>
      Text.quoted n ++ ": " ++ p.shown Value.shown bound?) ++ "\x7d, .. \x7d"

/-- A segment with its width and stages. -/
def Segment.shown (s : Segment σ) : String :=
  "Segment \x7b width: " ++ (match s.width with
      | some w => "Some(" ++ w.shown toString bound? ++ ")"
      | none => "None") ++
    ", stages: [" ++ ", ".intercalate (s.stages.map (Stage.shown bound?)) ++ "] \x7d"

/-- A pipeline in full, given what parameters are bound to. -/
def Pipeline.shown (p : Pipeline σ) : String :=
  "Pipeline \x7b source: [" ++ ", ".intercalate (p.source.map Json.shown) ++ "], segments: [" ++
    ", ".intercalate (p.segments.map (Segment.shown bound?)) ++ "] \x7d"

end Shown
end JobParameters
