/-
# What a report says of a pipeline

A run reports on the regions of its plan, and the plan has one region for each segment with a
width or a stage. So a report lists these segments in order (`Segment.Reported`), with labels
that differ in the place of the segment, even where segments in between are passed over. The
tuples that one region lets out are those that go into the next (`Flows`). How a pipeline was
built shows in its source and its widths only: each step that opens a region is one width
(`Pipeline.widths_build`), whatever stands between the steps.

Key definitions: `Segment.Reported`, `Flows`, `Report.Describes`.
-/
import JobParameters.Proofs.Planning
import JobParameters.Proofs.Rejection

namespace JobParameters

/-! ### Widths of a pipeline that is built -/

namespace Pipeline

variable {σ : Type}

/-- The width of a region that a step opens. -/
def Step.width? : Step σ → Option Width
  | .parallel width => some width
  | _ => none

/-- The widths of the parallel regions, in order. -/
def widths (p : Pipeline σ) : List Width := p.segments.filterMap Segment.width

theorem parallelRegions_eq (p : Pipeline σ) : p.parallelRegions = p.widths.length := by
  rw [parallelRegions, widths, List.length_filterMap_eq_countP]

theorem widths_add (p : Pipeline σ) (s : Stage σ) : (p.add s).widths = p.widths := by
  simp [widths, segments, add, List.filterMap_cons]

theorem widths_begin (p : Pipeline σ) (w : Option Width) :
    (p.begin w).widths = p.widths ++ w.toList := by
  have hsegments : (p.begin w).segments = p.segments ++ [⟨w, []⟩] := rfl
  rw [widths, hsegments, List.filterMap_append, widths]
  cases w <;> rfl

theorem widths_apply [Inhabited σ] (p : Pipeline σ) (step : Step σ) :
    (p.apply step).widths = p.widths ++ step.width?.toList := by
  cases step with
  | parallel width => exact widths_begin p (some width)
  | serial => exact widths_begin p none
  | filter | map | operator =>
    rw [apply, widths_add]
    exact (List.append_nil _).symm

theorem source_apply [Inhabited σ] (p : Pipeline σ) (step : Step σ) :
    (p.apply step).source = p.source := by
  cases step <;> rfl

/-- **A pipeline has the widths that its steps open regions with.** -/
theorem widths_build [Inhabited σ] (source : List Json) (steps : List (Step σ)) :
    (build source steps).widths = steps.filterMap Step.width? := by
  induction steps using List.reverseRecOn with
  | nil => rfl
  | append_singleton steps step ih =>
    rw [build, List.foldl_append, List.filterMap_append, ← ih]
    exact (widths_apply _ step).trans (congrArg _ (by cases step <;> rfl))

theorem source_build [Inhabited σ] (source : List Json) (steps : List (Step σ)) :
    (build source steps).source = source := by
  induction steps using List.reverseRecOn with
  | nil => rfl
  | append_singleton steps step ih =>
    rw [build, List.foldl_append]
    exact (source_apply _ step).trans ih

end Pipeline

/-! ### Words with a number -/

/-- A word without a digit ends where the number behind it starts. -/
theorem dropWhile_word {word : String} (h : ∀ c ∈ word.toList, c.isDigit = false) (i : Nat) :
    (word ++ toString i).toList.dropWhile (fun c => !c.isDigit) = (toString i).toList := by
  have hword : ∀ c ∈ word.toList, (!c.isDigit) = true := fun c hc => by rw [h c hc]; rfl
  rw [String.toList_append, List.dropWhile_append_of_pos hword, List.dropWhile_eq_self_iff]
  intro hpos hfirst
  have hdigit : ((toString i).toList[0]).isDigit = true := by
    have hmem : (toString i).toList[0] ∈ Nat.toDigits 10 i :=
      Nat.toList_repr (n := i) ▸ List.getElem_mem hpos
    exact Nat.isDigit_of_mem_toDigits (by decide) (by decide) hmem
  rw [hdigit] at hfirst
  cases hfirst

/-- Where words have no digits, a text tells the number behind its word. -/
theorem number_inj_of_words {a b : String} {i j : Nat} (ha : ∀ c ∈ a.toList, c.isDigit = false)
    (hb : ∀ c ∈ b.toList, c.isDigit = false) (h : a ++ toString i = b ++ toString j) : i = j := by
  have hchars := congrArg (fun t : String => t.toList.dropWhile fun c => !c.isDigit) h
  rw [dropWhile_word ha, dropWhile_word hb] at hchars
  exact Nat.repr_inj.mp (String.toList_inj.mp hchars)

/-! ### Reports of segments -/

/-- The label of the segment at a place. -/
def Segment.label {σ : Type} (g : Segment σ) (i : Nat) : String :=
  (if g.width.isSome then "parallel-" else "serial-") ++ toString i

/-- The label of the region is that of a parallel one. -/
def RegionReport.isParallel (q : RegionReport) : Bool :=
  "parallel-".toList.isPrefixOf q.label.toList

/-- The report is on the segment at that place. -/
structure Segment.Reported {σ : Type} (b : BindingSet) (g : Segment σ) (i : Nat)
    (q : RegionReport) : Prop where
  label : q.label = g.label i
  serial : g.width = none → q.channels = 1
  parallel : ∀ w, g.width = some w → b.Channels w q.channels

section

variable {σ : Type} {b : BindingSet} {g g' : Segment σ} {i j : Nat} {q : RegionReport}

theorem Segment.toList_label (g : Segment σ) (i : Nat) : (g.label i).toList =
    (if g.width.isSome then "parallel-".toList else "serial-".toList) ++ (toString i).toList := by
  rw [label, String.toList_append]
  split <;> rfl

/-- A label tells the place of its segment. -/
theorem Segment.label_inj (h : g.label i = g'.label j) : i = j := by
  have hword (g : Segment σ) : ∀ c ∈ (if g.width.isSome then "parallel-" else "serial-").toList,
      c.isDigit = false := by
    split <;> simp
  exact number_inj_of_words (hword g) (hword g') h

theorem Segment.Reported.isParallel (h : g.Reported b i q) : q.isParallel = g.width.isSome := by
  rw [RegionReport.isParallel, h.label, g.toList_label]
  cases hw : g.width with
  | none => rfl
  | some w => rfl

end

/-! ### Tuples from region to region -/

/-- The tuples go in, from each region into the next, and out. -/
inductive Flows : List Json → List RegionReport → List Json → Prop
  | nil {xs : List Json} : Flows xs [] xs
  | cons {xs ys zs : List Json} {q : RegionReport} {qs : List RegionReport} :
      q.tuplesIn = xs.length → q.tuplesOut = ys.length → Flows ys qs zs → Flows xs (q :: qs) zs

namespace Flows

variable {xs ys : List Json} {qs : List RegionReport}

theorem first (h : Flows xs qs ys) : ∀ q ∈ qs.head?, q.tuplesIn = xs.length := by
  cases h with
  | nil => exact nofun
  | cons hin _ _ =>
    rintro q ⟨⟩
    exact hin

/-- What one region lets out goes into the next. -/
theorem chain (h : Flows xs qs ys) : qs.IsChain fun q q' => q'.tuplesIn = q.tuplesOut := by
  induction h with
  | nil => exact .nil
  | cons _ hout hrest ih =>
    exact List.isChain_cons.mpr ⟨fun q' hq' => (hrest.first q' hq').trans hout.symm, ih⟩

theorem last (h : Flows xs qs ys) : ∀ q ∈ qs.getLast?, q.tuplesOut = ys.length := by
  induction h with
  | nil => exact nofun
  | @cons xs ys zs q qs _ hout hrest ih =>
    cases hrest with
    | nil =>
      rintro q ⟨⟩
      exact hout
    | cons => exact ih

theorem eq_of_nil (h : Flows xs [] ys) : ys = xs := by
  cases h
  rfl

end Flows

/-! ### Reports of pipelines -/

section

variable {σ : Type} {b : BindingSet} {p : Pipeline σ} {gis : List (Segment σ × Nat)}
  {qs : List RegionReport} {r : Report}

/-- The number of channels that a width stands for is what it is resolved to. -/
theorem BindingSet.Channels.resolveWidth {w : Width} {n : Nat} (h : b.Channels w n) :
    b.resolveWidth w = .ok n := by
  rcases b.resolveWidth_cases w with ⟨n', hn', h'⟩ | ⟨name, why, -, hrefused⟩
  · rw [hn', h.unique h']
  · exact absurd ⟨n, h⟩ hrefused.not_met

/-- A run of regions reports on each of them, and its tuples flow through them. -/
theorem reports_runRegions {payload : String} {rs : List (Region σ)} {xs ys : List Json}
    {s : Store} (h : (runRegions payload rs xs s).result = .ok (ys, qs)) :
    List.Forall₂ (fun r q => q.label = r.label ∧ q.channels = r.channels) rs qs ∧
      Flows xs qs ys := by
  induction rs generalizing xs s qs with
  | nil =>
    cases h
    exact ⟨.nil, .nil⟩
  | cons r rs ih =>
    unfold runRegions at h
    dsimp only at h
    split at h
    · cases h
    · next out hout =>
      obtain ⟨⟨zs, gs⟩, hrest, heq⟩ := map_eq_ok_iff.mp h
      cases heq
      obtain ⟨hreports, hflows⟩ := ih hrest
      exact ⟨.cons ⟨rfl, rfl⟩ hreports, .cons rfl rfl hflows⟩

/-- A report on a planned region is on its segment. -/
theorem reported_of_planned {rs : List (Region σ)}
    (hp : List.Forall₂ (fun gi r => gi.1.Planned b gi.2 r) gis rs)
    (hq : List.Forall₂ (fun r q => q.label = r.label ∧ q.channels = r.channels) rs qs) :
    List.Forall₂ (fun gi q => gi.1.Reported b gi.2 q) gis qs := by
  induction hp generalizing qs with
  | nil =>
    cases hq
    exact .nil
  | cons hg _ ih =>
    cases hq with
    | cons hq hqs =>
      obtain ⟨hlabel, hchannels⟩ := hq
      refine .cons ⟨hlabel.trans hg.label, fun hw => hchannels.trans (hg.serial hw), ?_⟩ (ih hqs)
      rw [hchannels]
      exact hg.parallel

/-- The segments that are run stand at different places. -/
theorem Pipeline.nodup_places (p : Pipeline σ) :
    ((p.segments.zipIdx.filter fun gi => gi.1.runs).map Prod.snd).Nodup := by
  refine (List.filter_sublist.map Prod.snd).nodup ?_
  rw [List.zipIdx_map_snd]
  exact List.nodup_range'

/-- All widths are among those of the segments that are run. -/
theorem Pipeline.widths_of_run (p : Pipeline σ) :
    (p.segments.zipIdx.filter fun gi => gi.1.runs).filterMap (fun gi => gi.1.width) =
      p.widths := by
  have hruns : (fun gi : Segment σ × Nat => if gi.1.runs = true then gi.1.width else none) =
      fun gi => gi.1.width := by
    funext gi
    split
    · rfl
    · next h =>
      cases hw : gi.1.width with
      | none => rfl
      | some w => exact absurd (by simp [Segment.runs, hw]) h
  have hfst : p.segments.zipIdx.map Prod.fst = p.segments := List.zipIdx_map_fst 0 p.segments
  rw [List.filterMap_filter, hruns, widths]
  conv_rhs => rw [← hfst, List.filterMap_map]
  rfl

/-- Reports on segments at different places have different labels. -/
theorem nodup_labels (h : List.Forall₂ (fun gi q => gi.1.Reported b gi.2 q) gis qs)
    (hplaces : (gis.map Prod.snd).Nodup) : (qs.map RegionReport.label).Nodup := by
  have hlabels : qs.map RegionReport.label = gis.map fun gi => gi.1.label gi.2 := by
    clear hplaces
    induction h with
    | nil => rfl
    | cons hq _ ih => rw [List.map_cons, List.map_cons, hq.label, ih]
  rw [hlabels, List.Nodup, List.pairwise_map]
  rw [List.Nodup, List.pairwise_map] at hplaces
  exact hplaces.imp fun hne heq => hne (Segment.label_inj heq)

/-- The parallel ones among the reports are those on segments with a width. -/
theorem widths_of_reported (h : List.Forall₂ (fun gi q => gi.1.Reported b gi.2 q) gis qs) :
    List.Forall₂ (fun w q => b.resolveWidth w = .ok q.channels)
      (gis.filterMap fun gi => gi.1.width) (qs.filter RegionReport.isParallel) := by
  induction h with
  | nil => exact .nil
  | @cons gi q gis qs hq _ ih =>
    rw [List.filterMap_cons, List.filter_cons, hq.isParallel]
    cases hw : gi.1.width with
    | none => exact ih
    | some w => exact .cons (hq.parallel w hw).resolveWidth ih

/-- The report tells the truth about a run of the pipeline for those bindings. -/
structure Report.Describes (b : BindingSet) (p : Pipeline σ) (r : Report) : Prop where
  /-- It reports on the segments that are run, in order. -/
  regions : List.Forall₂ (fun gi q => gi.1.Reported b gi.2 q)
    (p.segments.zipIdx.filter fun gi => gi.1.runs) r.regions
  /-- Their labels differ. -/
  distinct : (r.regions.map RegionReport.label).Nodup
  /-- By its label each of the reports is found. -/
  found : ∀ q ∈ r.regions, r.region? q.label = some q
  /-- There is a parallel one for each parallel region. -/
  count : r.regions.countP RegionReport.isParallel = p.parallelRegions
  /-- They have the numbers of channels that the widths are resolved to. -/
  channels : List.Forall₂ (fun w q => b.resolveWidth w = .ok q.channels) p.widths
    (r.regions.filter RegionReport.isParallel)
  /-- The source goes into the first region. -/
  first : ∀ q ∈ r.regions.head?, q.tuplesIn = p.source.length
  /-- What one region lets out goes into the next. -/
  chain : r.regions.IsChain fun q q' => q'.tuplesIn = q.tuplesOut
  /-- What the last one lets out is what comes out. -/
  last : ∀ q ∈ r.regions.getLast?, q.tuplesOut = r.outputs.length
  /-- Without a region the source comes out. -/
  idle : r.regions = [] → r.outputs = p.source

/-- A planned pipeline that runs to its end is described. -/
theorem describes_of_execute {rs : List (Region σ)} {s : Store} (hp : p.Planned b rs)
    (h : (execute p.source b rs s).result = .ok r) : r.Describes b p := by
  obtain ⟨⟨ys, qs⟩, hrun, rfl⟩ := map_eq_ok_iff.mp h
  obtain ⟨hreports, hflows⟩ := reports_runRegions hrun
  have hregions := reported_of_planned hp hreports
  have hdistinct := nodup_labels hregions p.nodup_places
  have hchannels := widths_of_reported hregions
  rw [p.widths_of_run] at hchannels
  refine ⟨hregions, hdistinct, fun q hq => ?_, ?_, hchannels, hflows.first, hflows.chain,
    hflows.last, ?_⟩
  · exact (find?_key_eq_some_iff hdistinct).mpr ⟨hq, rfl⟩
  · rw [p.parallelRegions_eq, hchannels.length_eq, List.countP_eq_length_filter]
  · rintro (rfl : qs = [])
    exact hflows.eq_of_nil

/-- A pipeline that is planned has the regions it should have. -/
theorem planned_of_plan {rs : List (Region σ)} (h : p.plan b = .ok rs) : p.Planned b rs := by
  have hsettled : Settled b p.demands (p.plan b) (p.Planned b) :=
    settled_planSegments b p.segments 0
  exact ((hsettled.eq_ok_iff fun _ _ h h' => h.unique h').mp h).2

theorem describes_of_run {s : Store} (h : (p.run b s).result = .ok r) : r.Describes b p := by
  unfold Pipeline.run at h
  split at h
  · cases h
  · next rs hrs => exact describes_of_execute (planned_of_plan hrs) h

theorem describes_of_submitAndRun {s : Store} {i : Nat} {t : Topology} {now : Timestamp}
    {c : Config} (h : (s.submitAndRun i t now p c).result = .ok r) :
    ∃ b, t.preflight now c = .ok b ∧ r.Describes b p := by
  rcases submitAndRun_cases s i t now p c with
    ⟨_, -, hs⟩ | ⟨_, _, -, -, hs⟩ | ⟨_, _, _, -, -, -, hs⟩ | ⟨b, rs, _, hb, hrs, -, hs⟩
  · rw [hs] at h
    cases h
  · rw [hs] at h
    cases h
  · rw [hs] at h
    cases h
  · rw [hs] at h
    exact ⟨b, hb, describes_of_execute (planned_of_plan hrs) h⟩

/-- **A report describes the pipeline.** Whatever steps build it, a pipeline has the given
source, and as many parallel regions as steps that open one, with their widths in order. What
a run of it that ends reports, whether it was submitted before or with the run, is true of the
pipeline and of the bindings of the job. -/
theorem Pipeline.reports_describe [Inhabited σ] (source : List Json)
    (steps : List (Pipeline.Step σ)) :
    let p := Pipeline.build source steps
    (p.source = source ∧ p.widths = steps.filterMap Pipeline.Step.width? ∧
      p.parallelRegions = (steps.filterMap Pipeline.Step.width?).length) ∧
    (∀ (b : BindingSet) (s : Store) (r : Report), (p.run b s).result = .ok r →
      r.Describes b p) ∧
    ∀ (s : Store) (i : Nat) (t : Topology) (now : Timestamp) (c : Config) (r : Report),
      (s.submitAndRun i t now p c).result = .ok r →
        ∃ b, t.preflight now c = .ok b ∧ r.Describes b p := by
  intro p
  have hwidths : p.widths = steps.filterMap Pipeline.Step.width? :=
    Pipeline.widths_build source steps
  refine ⟨⟨Pipeline.source_build source steps, hwidths, ?_⟩, fun b s r h => describes_of_run h,
    fun s i t now c r h => describes_of_submitAndRun h⟩
  rw [p.parallelRegions_eq, hwidths]

end

/-- Steps that leave two regions open, the first of them without a stage, and end one twice. -/
def gaps : List (Pipeline.Step Unit) :=
  [.map .done, .parallel (.parameter (.fresh 0 ⟨"width", .integer, none, none⟩)), .serial, .serial,
    .parallel (.literal 2), .filter fun x => .done (x.compact != "2")]

/-- The two segments without a stage are passed over, and the labels skip their places. -/
theorem Pipeline.reports_describe_gaps :
    let source := [.integer 1, .integer 2, .integer 3]
    let p := Pipeline.build source gaps
    let spec : ParameterSpec := ⟨"width", .integer, none, none⟩
    let t : Topology := ⟨"jobs", false, Registry.empty.append spec rfl⟩
    let s : Store := ⟨[t], [.fresh 0 spec]⟩
    let c := Config.empty.set "width" (.integer 3)
    let rs : List RegionReport :=
      [⟨"serial-0", 1, 3, 3⟩, ⟨"parallel-1", 3, 3, 3⟩, ⟨"parallel-4", 2, 3, 2⟩]
    (∃ r, (p.run threefold s).result = .ok r ∧ r.regions = rs ∧ r.Describes threefold p) ∧
    ∃ r b, (s.submitAndRun 0 t ⟨0, 0, 0⟩ p c).result = .ok r ∧ r.regions = rs ∧
      t.preflight ⟨0, 0, 0⟩ c = .ok b ∧ r.Describes b p := by
  intro source p spec t s c rs
  obtain ⟨-, hrun, hsubmit⟩ := Pipeline.reports_describe source gaps
  obtain ⟨r, hr, hrs⟩ := toOption_map_eq_some_iff.mp
    (show (p.run threefold s).result.toOption.map Report.regions = some rs by decide +kernel)
  let ran := s.submitAndRun 0 t ⟨0, 0, 0⟩ p c
  obtain ⟨r', hr', hrs'⟩ := toOption_map_eq_some_iff.mp
    (show ran.result.toOption.map Report.regions = some rs by decide +kernel)
  obtain ⟨b, hb, hdescribes⟩ := hsubmit s 0 t ⟨0, 0, 0⟩ c r' hr'
  exact ⟨⟨r, hr, hrs, hrun threefold s r hr⟩, r', b, hr', hrs', hb, hdescribes⟩

end JobParameters
