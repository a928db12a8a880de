/-
# Where stages come to stand

A pipeline is built by one step after the other. A step adds a stage, or it is a boundary: it
opens a parallel region or ends one, and a segment begins. What a pipeline is made of can be read
off the steps alone (`Pipeline.BuiltBy`). What holds all along is `Pipeline.After`: its stages are
those that the steps added so far, and its last segment is the one that the last boundary began.
So a stage stands in the segment of the last boundary before it, and stays there
(`getElem?_placed_build`). The names of filters and maps tell their numbers, so they differ
(`nodup_numbered`).

A list of segments that grows in the same way could be empty, and a stage put into no segment
would be lost. It starts with a segment and keeps what it has, so it comes to the segments of the
pipeline (`segments_build`), and there is always one for the next stage (`growAll_ne_nil`).

Key definitions: `added`, `Pipeline.placed`, `Pipeline.After`, `growAll`, `Pipeline.BuiltBy`.
-/
import JobParameters.Proofs.Reports

namespace JobParameters

variable {σ : Type}

/-! ### What steps add -/

section Steps

open Pipeline

/-- The step begins a segment. -/
def Pipeline.Step.isBoundary : Step σ → Bool
  | .parallel _ => true
  | .serial => true
  | _ => false

/-- The last of the steps that begins a segment. -/
def lastBoundary? (steps : List (Step σ)) : Option (Step σ) :=
  (steps.filter Step.isBoundary).getLast?

variable [Inhabited σ]

/-- The stage that a step adds, for the number of stages before it. -/
def Pipeline.Step.stage? : Step σ → Option (Nat → Stage σ)
  | .filter test => some fun k => ⟨"filter-" ++ toString k, .filter, .empty, .filter test⟩
  | .map f => some fun k => ⟨"map-" ++ toString k, .map, .empty, .map f⟩
  | .operator name params op => some fun _ => ⟨name, .operator, params, op⟩
  | .parallel _ => none
  | .serial => none

/-- The stages that steps add, one after the other. -/
def added (steps : List (Step σ)) : List (Stage σ) :=
  (steps.filterMap Step.stage?).mapIdx fun k make => make k

theorem added_concat (steps : List (Step σ)) (step : Step σ) :
    added (steps ++ [step]) =
      added steps ++ (step.stage?.map fun make => make (added steps).length).toList := by
  rw [added, added, List.filterMap_append]
  cases h : step.stage? with
  | none => simp [h]
  | some make => simp [h, List.mapIdx_concat]

end Steps

/-! ### Where stages stand -/

/-- A stage, with the place and the width of its segment. -/
structure Placed (σ : Type) where
  segment : Nat
  width : Option Width
  stage : Stage σ

namespace Pipeline

/-- The stages of all segments in order, each with its segment. -/
def placed (p : Pipeline σ) : List (Placed σ) :=
  p.segments.zipIdx.flatMap fun (g, j) => g.stages.map (Placed.mk j g.width)

theorem map_stage_placed (p : Pipeline σ) : p.placed.map Placed.stage = p.stages := by
  have hstages (gs : List (Segment σ)) (n : Nat) :
      (gs.zipIdx n).flatMap (fun gj => gj.1.stages) = gs.flatMap Segment.stages := by
    rw [← List.flatMap_map, List.zipIdx_map_fst]
  rw [placed, List.map_flatMap, stages, ← hstages p.segments 0]
  simp [Function.comp_def]

/-- A stage stands in a segment, with its width. -/
theorem segment_of_placed {p : Pipeline σ} {k j : Nat} {w : Option Width} {s : Stage σ}
    (h : p.placed[k]? = some ⟨j, w, s⟩) :
    ∃ g, p.segments[j]? = some g ∧ g.width = w ∧ s ∈ g.stages := by
  obtain ⟨⟨g, j'⟩, hg, hs⟩ := List.mem_flatMap.mp (List.mem_of_getElem? h)
  obtain ⟨s', hs', heq⟩ := List.mem_map.mp hs
  cases heq
  exact ⟨g, List.mk_mem_zipIdx_iff_getElem?.mp hg, rfl, hs'⟩

/-- A stage that is added stands last, in the last segment. -/
theorem placed_add (p : Pipeline σ) (s : Stage σ) :
    (p.add s).placed = p.placed ++ [⟨p.settled.length, p.last.width, s⟩] := by
  simp [placed, segments, add, List.zipIdx_append]

/-- No stage moves when a segment begins. -/
theorem placed_begin (p : Pipeline σ) (w : Option Width) : (p.begin w).placed = p.placed := by
  simp [placed, segments, begin, List.zipIdx_append]

variable [Inhabited σ]

/-- A step adds the stage it should, or begins a segment: with a width if it opens a region. -/
theorem apply_cases (p : Pipeline σ) (step : Step σ) :
    (∃ make, step.stage? = some make ∧ step.isBoundary = false ∧
      p.apply step = p.add (make p.stages.length)) ∨
    (∃ w, step.stage? = none ∧ step.isBoundary = true ∧ p.apply step = p.begin w ∧
      ∀ w', w = some w' ↔ step = .parallel w') := by
  cases step with
  | filter | map | operator => exact .inl ⟨_, rfl, rfl, rfl⟩
  | parallel w => exact .inr ⟨some w, rfl, rfl, rfl, fun w' => by simp⟩
  | serial => exact .inr ⟨none, rfl, rfl, rfl, fun w' => by simp⟩

/-- What steps leave behind: their stages, a settled segment for each boundary, and a last one
that has a width if the last boundary gave it one. -/
structure After (p : Pipeline σ) (steps : List (Step σ)) : Prop where
  stages : p.stages = added steps
  settled : p.settled.length = steps.countP Step.isBoundary
  last : ∀ w, p.last.width = some w ↔ lastBoundary? steps = some (.parallel w)

theorem after_ofSource (source : List Json) : (ofSource source : Pipeline σ).After [] :=
  ⟨rfl, rfl, fun _ => by simp [ofSource, lastBoundary?]⟩

/-- One more step: what the steps say changes as the pipeline does. -/
theorem After.apply {p : Pipeline σ} {steps : List (Step σ)} (h : p.After steps) (step : Step σ) :
    (p.apply step).After (steps ++ [step]) := by
  rcases p.apply_cases step with ⟨make, hmake, hinner, heq⟩ | ⟨w, hmake, hboundary, heq, hw⟩
  · have hlast : lastBoundary? (steps ++ [step]) = lastBoundary? steps := by
      simp [lastBoundary?, hinner]
    refine ⟨?_, ?_, ?_⟩
    · rw [heq, stages_add, added_concat, hmake, h.stages]
      rfl
    · rw [heq, List.countP_append]
      simpa [hinner, add] using h.settled
    · rw [heq, hlast]
      exact h.last
  · have hlast : lastBoundary? (steps ++ [step]) = some step := by
      simp [lastBoundary?, hboundary]
    refine ⟨?_, ?_, fun w' => ?_⟩
    · rw [heq, stages_begin, added_concat, hmake, h.stages]
      exact (List.append_nil _).symm
    · rw [heq, List.countP_append, ← h.settled]
      simp [hboundary, begin, segments]
    · rw [heq, hlast, Option.some.injEq]
      exact hw w'

theorem build_append (source : List Json) (before after : List (Step σ)) :
    build source (before ++ after) = after.foldl Pipeline.apply (build source before) :=
  List.foldl_append

/-- **What a pipeline is after steps, the steps say.** -/
theorem after_build (source : List Json) (steps : List (Step σ)) :
    (build source steps).After steps := by
  induction steps using List.reverseRecOn with
  | nil => exact after_ofSource source
  | append_singleton steps step ih =>
    rw [build_append]
    exact ih.apply step

theorem placed_prefix_apply (p : Pipeline σ) (step : Step σ) :
    p.placed <+: (p.apply step).placed := by
  rcases p.apply_cases step with ⟨make, -, -, heq⟩ | ⟨w, -, -, heq, -⟩
  · rw [heq, placed_add]
    exact List.prefix_append _ _
  · rw [heq, placed_begin]

/-- Stages stay where they are. -/
theorem placed_prefix_foldl (p : Pipeline σ) (steps : List (Step σ)) :
    p.placed <+: (steps.foldl apply p).placed := by
  induction steps generalizing p with
  | nil => exact List.prefix_rfl
  | cons step steps ih => exact (p.placed_prefix_apply step).trans (ih (p.apply step))

/-- **A stage stands in the segment that was last begun before it was added**, after the stages
that were added before it. -/
theorem getElem?_placed_build (source : List Json) {steps before after : List (Step σ)}
    {step : Step σ} {make : Nat → Stage σ} (hsteps : steps = before ++ step :: after)
    (hmake : step.stage? = some make) :
    (build source steps).placed[(added before).length]? =
      some ⟨before.countP Step.isBoundary, (build source before).last.width,
        make (added before).length⟩ := by
  have hafter := after_build source before
  have hlength : (build source before).placed.length = (added before).length := by
    rw [← hafter.stages, ← map_stage_placed, List.length_map]
  have hplaced : ((build source before).apply step).placed = (build source before).placed ++
      [⟨before.countP Step.isBoundary, (build source before).last.width,
        make (added before).length⟩] := by
    rcases (build source before).apply_cases step with ⟨make', hmake', -, heq⟩ | ⟨w, hmake', -⟩
    · obtain rfl : make = make' := Option.some.inj (hmake.symm.trans hmake')
      rw [heq, placed_add, hafter.settled, hafter.stages]
    · cases hmake.symm.trans hmake'
  -- The steps after it move nothing.
  have hprefix : ((build source before).apply step).placed <+: (build source steps).placed := by
    rw [hsteps, build_append, List.foldl_cons]
    exact placed_prefix_foldl _ after
  obtain ⟨rest, hrest⟩ := hprefix
  rw [← hrest, hplaced, ← hlength, List.append_assoc, List.getElem?_append_right (le_refl _),
    Nat.sub_self]
  rfl

end Pipeline

/-! ### Names that are given by number -/

section Names

/-- A filter or a map is named for what it is and for its number. -/
structure Stage.Numbered (s : Stage σ) (k : Nat) : Prop where
  filter : s.kind = .filter → s.name = "filter-" ++ toString k
  map : s.kind = .map → s.name = "map-" ++ toString k

/-- Such a name is a word without digits and the number. -/
theorem Stage.Numbered.exists_word {s : Stage σ} {k : Nat} (h : s.Numbered k)
    (hkind : s.kind ≠ .operator) :
    ∃ word : String, (∀ c ∈ word.toList, c.isDigit = false) ∧ s.name = word ++ toString k := by
  cases hk : s.kind with
  | filter => exact ⟨"filter-", by simp, h.filter hk⟩
  | map => exact ⟨"map-", by simp, h.map hk⟩
  | operator => exact absurd hk hkind

/-- It tells the number. -/
theorem Stage.Numbered.number_inj {s t : Stage σ} {i j : Nat} (hs : s.Numbered i)
    (ht : t.Numbered j) (hkind : s.kind ≠ .operator) (hkind' : t.kind ≠ .operator)
    (hname : s.name = t.name) : i = j := by
  obtain ⟨a, ha, hsname⟩ := hs.exists_word hkind
  obtain ⟨b, hb, htname⟩ := ht.exists_word hkind'
  rw [hsname, htname] at hname
  exact number_inj_of_words ha hb hname

/-- **Stages named by their numbers have different names.** -/
theorem nodup_numbered {ss : List (Stage σ)}
    (h : ∀ (k : Nat) (s : Stage σ), ss[k]? = some s → s.Numbered k) :
    ((ss.filter fun s => s.kind ≠ .operator).map Stage.name).Nodup := by
  rw [List.Nodup, List.pairwise_map, List.pairwise_filter, List.pairwise_iff_getElem]
  intro i j hi hj hij hkind hkind' hname
  have hnumber : i = j :=
    (h i _ (List.getElem?_eq_getElem hi)).number_inj (h j _ (List.getElem?_eq_getElem hj))
      (of_decide_eq_true hkind) (of_decide_eq_true hkind') hname
  omega

variable [Inhabited σ]

theorem Pipeline.Step.numbered_stage {step : Step σ} {make : Nat → Stage σ}
    (h : step.stage? = some make) (k : Nat) : (make k).Numbered k := by
  cases step with
  | parallel | serial => cases h
  | filter | map | operator =>
    cases h
    exact ⟨by simp, by simp⟩

/-- A stage that steps add has its number among them. -/
theorem numbered_added {steps : List (Pipeline.Step σ)} {k : Nat} {s : Stage σ}
    (h : (added steps)[k]? = some s) : s.Numbered k := by
  rw [added, List.getElem?_mapIdx, Option.map_eq_some_iff] at h
  obtain ⟨make, hmake, rfl⟩ := h
  obtain ⟨step, -, hstep⟩ := List.mem_filterMap.mp (List.mem_of_getElem? hmake)
  exact Pipeline.Step.numbered_stage hstep k

end Names

/-! ### A list of segments that grows -/

section Growing

open Pipeline

/-- Puts a stage into the last of the segments. Where there is no segment, the stage is lost. -/
def putLast (gs : List (Segment σ)) (s : Stage σ) : List (Segment σ) :=
  match gs.getLast? with
  | some g => gs.dropLast ++ [{ g with stages := g.stages ++ [s] }]
  | none => gs

theorem putLast_segments (p : Pipeline σ) (s : Stage σ) :
    putLast p.segments s = (p.add s).segments := by
  simp [putLast, segments, add]

/-- The number of stages in segments. -/
def stageCount (gs : List (Segment σ)) : Nat := (gs.map fun g => g.stages.length).sum

theorem stageCount_segments (p : Pipeline σ) : stageCount p.segments = p.stages.length := by
  rw [stageCount, stages, List.length_flatMap]

variable [Inhabited σ]

/-- A step on a list of segments, which may be empty. -/
def grow (gs : List (Segment σ)) : Step σ → List (Segment σ)
  | .filter test =>
    putLast gs ⟨"filter-" ++ toString (stageCount gs), .filter, .empty, .filter test⟩
  | .map f => putLast gs ⟨"map-" ++ toString (stageCount gs), .map, .empty, .map f⟩
  | .operator name params op => putLast gs ⟨name, .operator, params, op⟩
  | .parallel width => gs ++ [⟨some width, []⟩]
  | .serial => gs ++ [⟨none, []⟩]

/-- The segments that steps leave, where there is one without a width and a stage at first. -/
def growAll (steps : List (Step σ)) : List (Segment σ) := steps.foldl grow [⟨none, []⟩]

/-- A step does to the segments of a pipeline what it does to the pipeline. -/
theorem grow_segments (p : Pipeline σ) (step : Step σ) :
    grow p.segments step = (p.apply step).segments := by
  cases step with
  | filter | map =>
    rw [grow, putLast_segments, stageCount_segments]
    rfl
  | operator => exact putLast_segments p _
  | parallel | serial => rfl

/-- **The list that grows is the segments of the pipeline.** -/
theorem segments_build (source : List Json) (steps : List (Step σ)) :
    (build source steps).segments = growAll steps :=
  (List.foldl_hom segments grow_segments).symm

/-- There is always a segment for the next stage. -/
theorem growAll_ne_nil (steps : List (Step σ)) : growAll steps ≠ [] := by
  rw [← segments_build []]
  exact List.concat_ne_nil _ _

end Growing

/-! ### The whole pipeline -/

section Whole

variable [Inhabited σ]

/-- The pipeline is what the steps should make of it. -/
structure Pipeline.BuiltBy (p : Pipeline σ) (steps : List (Step σ)) : Prop where
  /-- The stages of all segments, in order, are those that the steps add, in their order. -/
  stages : p.stages = added steps
  /-- The stage that a step adds stands in the segment that the last boundary before it began,
  which has the width of that boundary if it opened a region, and none if it did not. -/
  placed : ∀ before step after make, steps = before ++ step :: after →
    step.stage? = some make →
    ∃ g, p.segments[before.countP Step.isBoundary]? = some g ∧
      make (added before).length ∈ g.stages ∧
      p.placed[(added before).length]? =
        some ⟨before.countP Step.isBoundary, g.width, make (added before).length⟩ ∧
      ∀ w, g.width = some w ↔ lastBoundary? before = some (.parallel w)
  /-- A filter or a map has the number of stages before it in its name. -/
  numbered : ∀ (k : Nat) (s : Stage σ), p.stages[k]? = some s → s.Numbered k
  /-- So these names differ. -/
  distinct : ((p.stages.filter fun s => s.kind ≠ .operator).map Stage.name).Nodup
  /-- A list of segments that grows with the steps, and loses a stage where it has no segment
  for it, comes to the same. -/
  grown : growAll steps = p.segments
  /-- It has a segment before each of the steps, so no stage is lost. -/
  room : ∀ before step after, steps = before ++ step :: after →
    (growAll before).getLast?.isSome

/-- **No stage is lost or moved.** Whatever steps build a pipeline, its stages are those they
add, in their order; each stands in the segment of the last boundary before it, and filters and
maps have names by their numbers. -/
theorem Pipeline.builtBy_build (source : List Json) (steps : List (Step σ)) :
    (build source steps).BuiltBy steps := by
  have hstages := (after_build source steps).stages
  have hnumbered (k : Nat) (s : Stage σ) (hs : (build source steps).stages[k]? = some s) :
      s.Numbered k := by
    rw [hstages] at hs
    exact numbered_added hs
  refine ⟨hstages, fun before step after make hsteps hmake => ?_, hnumbered,
    nodup_numbered hnumbered, (segments_build source steps).symm, fun before _ _ _ => ?_⟩
  · have hplaced := getElem?_placed_build source hsteps hmake
    obtain ⟨g, hg, hwidth, hmem⟩ := segment_of_placed hplaced
    rw [← hwidth] at hplaced
    refine ⟨g, hg, hmem, hplaced, fun w => ?_⟩
    rw [hwidth]
    exact (after_build source before).last w
  · exact List.getLast?_isSome.mpr (growAll_ne_nil before)

end Whole

/-- Steps that open a region within a region, and give an operator the name of a map. -/
def crossed : List (Pipeline.Step Unit) :=
  [.map .done, .parallel (.literal 2), .parallel (.literal 3), .filter fun _ => .done true,
    .operator "map-0" .empty (.map .done), .serial, .map .done]

/-- The region that is opened first is left without a stage, and the second has the filter and
the operator. The operator has the name of another stage; the filter and the maps differ. -/
theorem Pipeline.builtBy_build_crossed :
    let p := Pipeline.build [] crossed
    (p.segments.map fun g => (g.width.isSome, g.stages.map Stage.name)) =
      [(false, ["map-0"]), (true, []), (true, ["filter-1", "map-0"]), (false, ["map-3"])] ∧
    (∃ g, p.segments[2]? = some g ∧ g.width = some (.literal 3) ∧
      "filter-1" ∈ g.stages.map Stage.name) ∧
    (∃ g, p.segments[3]? = some g ∧ g.width = none ∧ "map-3" ∈ g.stages.map Stage.name) ∧
    ["map-0", "filter-1", "map-3"].Nodup ∧
    growAll crossed = p.segments := by
  intro p
  have h : p.BuiltBy crossed := Pipeline.builtBy_build [] crossed
  have hnames : (p.stages.filter fun s => s.kind ≠ .operator).map Stage.name =
      ["map-0", "filter-1", "map-3"] := by decide +kernel
  obtain ⟨g, hg, hmem, -, hwidth⟩ := h.placed (crossed.take 3) _ (crossed.drop 4) _ rfl rfl
  obtain ⟨g', hg', hmem', -, hwidth'⟩ := h.placed (crossed.take 6) _ [] _ rfl rfl
  refine ⟨by decide +kernel, ⟨g, hg, (hwidth _).mpr rfl, List.mem_map_of_mem hmem⟩,
    ⟨g', hg', ?_, List.mem_map_of_mem hmem'⟩, hnames ▸ h.distinct, h.grown⟩
  refine Option.eq_none_iff_forall_ne_some.mpr fun w hw => ?_
  cases (hwidth' w).mp hw

end JobParameters
