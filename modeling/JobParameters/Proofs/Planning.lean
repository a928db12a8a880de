/-
# What a pipeline asks of the bindings

A pipeline demands of a set of bindings that its widths and operator parameters stand for
something (`Pipeline.demands`): the width of a segment first, and then the parameters of its
stages. What they stand for is read off the names and values of the set
(`BindingSet.Channels`, `BindingSet.Gives`), so that it does not matter what handles have
answered before or where their parameters are bound.

Planning goes through the demands in order. Each part of it settles its own (`Settled`): if
all are met it comes to what it should, and else to the refusal of the first one that is not.
Parts that follow each other settle their demands one after the other (`Settled.next`), so
this is true of a whole pipeline, and as a plan is described completely, it is all that
planning does (`Pipeline.plan_meets_demands`).

Key definitions: `Demand`, `Pipeline.demands`, `Demand.Met`, `Demand.Refused`,
`Pipeline.Planned`, `Settled`.
-/
import Mathlib.Data.List.Forall2
import JobParameters.Proofs.Keyed
import JobParameters.Proofs.Outcome
import JobParameters.Plan

namespace JobParameters

/-! ### Demands -/

/-- There can be so many channels. -/
def Wide (n : Int) : Prop := 1 ≤ n ∧ n ≤ 2 ^ 32 - 1

/-- The width stands for that number of channels in the job. -/
inductive BindingSet.Channels (b : BindingSet) : Width → Nat → Prop
  | literal {n : Nat} : Wide n → Channels b (.literal n) n
  | bound {h : Handle} {n : Int64} : b.value? h.spec.name = some (.integer n) →
      Wide n.toInt → Channels b (.parameter h) n.toInt.toNat

/-- The operator parameter stands for that value in the job. -/
inductive BindingSet.Gives (b : BindingSet) : OperatorParam → Value → Prop
  | literal (v : Value) : Gives b (.literal v) v
  | bound {h : Handle} {v : Value} : b.value? h.spec.name = some v → Gives b (.parameter h) v

/-- A structural value that a pipeline cannot do without. -/
inductive Demand where
  | width (w : Width)
  | param (p : OperatorParam)

namespace Demand

/-- The job has what is demanded. -/
def Met (b : BindingSet) : Demand → Prop
  | width w => ∃ n, b.Channels w n
  | param p => ∃ v, b.Gives p v

/-- The job does not have what is demanded: under which name that is reported, and why. -/
inductive Refused (b : BindingSet) : Demand → String → StructuralReason → Prop
  | literal {n : Nat} : ¬ Wide n →
      Refused b (.width (.literal n)) "<literal width>" (.notPositive n)
  | notPositive {h : Handle} {n : Int64} : b.value? h.spec.name = some (.integer n) →
      ¬ Wide n.toInt → Refused b (.width (.parameter h)) h.spec.name (.notPositive n.toInt)
  | notInteger {h : Handle} {v : Value} : b.value? h.spec.name = some v →
      (∀ n, v ≠ .integer n) → Refused b (.width (.parameter h)) h.spec.name (.notInteger v)
  | width {h : Handle} : b.value? h.spec.name = none →
      Refused b (.width (.parameter h)) h.spec.name .unbound
  | param {h : Handle} : b.value? h.spec.name = none →
      Refused b (.param (.parameter h)) h.spec.name .unbound

end Demand

section

variable {σ : Type}

/-- The demands of a stage, in the order of its parameters. -/
def Stage.demands (s : Stage σ) : List Demand := s.params.entries.map fun e => .param e.2

/-- The demands of a segment: its width first. -/
def Segment.demands (g : Segment σ) : List Demand :=
  g.width.toList.map .width ++ g.stages.flatMap Stage.demands

/-- The demands of a pipeline in order. -/
def Pipeline.demands (p : Pipeline σ) : List Demand := p.segments.flatMap Segment.demands

/-! ### Plans -/

/-- The planned stage is the stage with the values its parameters stand for. -/
structure Stage.Planned (b : BindingSet) (s : Stage σ) (q : PlannedStage σ) : Prop where
  name : q.name = s.name
  kind : q.kind = s.kind
  operator : q.operator = s.operator
  params : List.Forall₂ (fun e e' => e'.1 = e.1 ∧ b.Gives e.2 e'.2) s.params.entries
    q.params.entries

/-- A segment is run if it has a width or a stage. -/
def Segment.runs (g : Segment σ) : Bool := g.width.isSome || !g.stages.isEmpty

/-- The region is that of the segment at that place. -/
structure Segment.Planned (b : BindingSet) (g : Segment σ) (i : Nat) (r : Region σ) : Prop where
  label : r.label = (if g.width.isSome then "parallel-" else "serial-") ++ toString i
  serial : g.width = none → r.channels = 1
  parallel : ∀ w, g.width = some w → b.Channels w r.channels
  stages : List.Forall₂ (Stage.Planned b) g.stages r.stages

/-- The regions are those of the segments that are run, in order. -/
def Pipeline.Planned (b : BindingSet) (p : Pipeline σ) (rs : List (Region σ)) : Prop :=
  List.Forall₂ (fun gi r => gi.1.Planned b gi.2 r)
    (p.segments.zipIdx.filter fun gi => gi.1.runs) rs

end

/-! ### Structural values -/

namespace BindingSet

variable {b : BindingSet}

theorem checkWidth_of_wide {n : Int} (h : Wide n) (name : String) :
    checkWidth name n = .ok n.toNat := by
  obtain ⟨hlow, hhigh⟩ := h
  have hsize : ((UInt32.size : Nat) : Int) = 2 ^ 32 := rfl
  unfold checkWidth
  rw [if_pos (by omega)]

theorem checkWidth_of_not_wide {n : Int} (h : ¬ Wide n) (name : String) :
    checkWidth name n = .error (.structural name (.notPositive n)) := by
  have hsize : ((UInt32.size : Nat) : Int) = 2 ^ 32 := rfl
  unfold Wide at h
  unfold checkWidth
  rw [if_neg (by omega)]

theorem boundValue_of_some {h : Handle} {v : Value} (hv : b.value? h.spec.name = some v) :
    b.boundValue h = .ok v := by
  rw [boundValue, hv]

theorem boundValue_of_none {h : Handle} (hv : b.value? h.spec.name = none) :
    b.boundValue h = .error (.structural h.spec.name .unbound) := by
  rw [boundValue, hv]

/-- A width comes to a number of channels that it stands for, or it is refused. -/
theorem resolveWidth_cases (b : BindingSet) (w : Width) :
    (∃ n, b.resolveWidth w = .ok n ∧ b.Channels w n) ∨
      ∃ name why, b.resolveWidth w = .error (.structural name why) ∧
        (Demand.width w).Refused b name why := by
  cases w with
  | literal n =>
    by_cases h : Wide n
    · exact Or.inl ⟨n, checkWidth_of_wide h _, .literal h⟩
    · exact Or.inr ⟨_, _, checkWidth_of_not_wide h _, .literal h⟩
  | parameter x =>
    cases hv : b.value? x.spec.name with
    | none =>
      rw [resolveWidth, boundValue_of_none hv]
      exact Or.inr ⟨_, _, rfl, .width hv⟩
    | some v =>
      rw [resolveWidth, boundValue_of_some hv]
      cases v with
      | integer n =>
        by_cases h : Wide n.toInt
        · exact Or.inl ⟨_, checkWidth_of_wide h _, .bound hv h⟩
        · exact Or.inr ⟨_, _, checkWidth_of_not_wide h _, .notPositive hv h⟩
      | boolean | float | string => exact Or.inr ⟨_, _, rfl, .notInteger hv nofun⟩

/-- An operator parameter comes to the value that it stands for, or it is refused. -/
theorem resolveParam_cases (b : BindingSet) (p : OperatorParam) :
    (∃ v, b.resolveParam p = .ok v ∧ b.Gives p v) ∨
      ∃ name why, b.resolveParam p = .error (.structural name why) ∧
        (Demand.param p).Refused b name why := by
  cases p with
  | literal v => exact Or.inl ⟨v, rfl, .literal v⟩
  | parameter x =>
    rw [resolveParam]
    cases hv : b.value? x.spec.name with
    | none => exact Or.inr ⟨_, _, boundValue_of_none hv, .param hv⟩
    | some v => exact Or.inl ⟨v, boundValue_of_some hv, .bound hv⟩

theorem Channels.unique {w : Width} {n n' : Nat} (h : b.Channels w n) (h' : b.Channels w n') :
    n = n' := by
  cases h with
  | literal _ =>
    cases h'
    rfl
  | bound hv _ =>
    cases h' with
    | bound hv' _ =>
      rw [hv] at hv'
      cases hv'
      rfl

theorem Gives.unique {p : OperatorParam} {v v' : Value} (h : b.Gives p v) (h' : b.Gives p v') :
    v = v' := by
  cases h with
  | literal _ =>
    cases h'
    rfl
  | bound hv =>
    cases h' with
    | bound hv' =>
      rw [hv] at hv'
      exact Option.some.inj hv'

end BindingSet

namespace Demand

variable {b : BindingSet} {d : Demand} {name : String} {why : StructuralReason}

/-- What is refused is not met. -/
theorem Refused.not_met (h : d.Refused b name why) : ¬ d.Met b := by
  cases h with
  | literal hn =>
    rintro ⟨n, hn'⟩
    cases hn' with
    | literal h => exact hn h
  | notPositive hv hn =>
    rintro ⟨n, hn'⟩
    cases hn' with
    | bound hv' h =>
      rw [hv] at hv'
      cases hv'
      exact hn h
  | notInteger hv hn =>
    rintro ⟨n, hn'⟩
    cases hn' with
    | bound hv' h =>
      rw [hv] at hv'
      exact hn _ (Option.some.inj hv')
  | width hv =>
    rintro ⟨n, hn'⟩
    cases hn' with
    | bound hv' h =>
      rw [hv] at hv'
      cases hv'
  | param hv =>
    rintro ⟨v, hv'⟩
    cases hv' with
    | bound hv' =>
      rw [hv] at hv'
      cases hv'

/-- A demand is refused in one way. -/
theorem Refused.unique {name' : String} {why' : StructuralReason} (h : d.Refused b name why)
    (h' : d.Refused b name' why') : name = name' ∧ why = why' := by
  -- What the parameter is bound to decides which reason it is.
  cases h <;> cases h' <;> grind

end Demand

/-! ### Going through the demands -/

/-- What comes of demands: if all of them are met, a result as the condition says, and else the
refusal of the first one that is not. -/
def Settled {α : Type} (b : BindingSet) (ds : List Demand) (x : Except ParameterError α)
    (R : α → Prop) : Prop :=
  (∃ a, x = .ok a ∧ R a ∧ ∀ d ∈ ds, d.Met b) ∨
    ∃ d name why, x = .error (.structural name why) ∧ FirstIn (fun d => ¬ d.Met b) ds d ∧
      d.Refused b name why

namespace Settled

variable {α β : Type} {b : BindingSet} {ds ds' : List Demand} {x : Except ParameterError α}
  {y : Except ParameterError β} {R : α → Prop} {R' : β → Prop}

theorem ok {a : α} (h : R a) : Settled b [] (.ok a) R := Or.inl ⟨a, rfl, h, by simp⟩

/-- The demands of what comes next are gone through if those before are met. -/
theorem next (h : Settled b ds x R) (hok : ∀ a, x = .ok a → R a → Settled b ds' y R')
    (herror : ∀ e, x = .error e → y = .error e) : Settled b (ds ++ ds') y R' := by
  -- If the first demand that is not met is a later one, those before it include all of `ds`.
  rcases h with ⟨a, ha, hr, hmet⟩ | ⟨d, name, why, he, ⟨before, after, rfl, hd, hb⟩, hwhy⟩
  · rcases hok a ha hr with ⟨a', ha', hr', hmet'⟩ |
      ⟨d, name, why, he, ⟨before, after, rfl, hd, hb⟩, hwhy⟩
    · refine Or.inl ⟨a', ha', hr', fun d hd => ?_⟩
      rcases List.mem_append.mp hd with hd | hd
      · exact hmet d hd
      · exact hmet' d hd
    · refine Or.inr ⟨d, name, why, he, ⟨ds ++ before, after, by simp, hd, fun d' hd' => ?_⟩, hwhy⟩
      rcases List.mem_append.mp hd' with hd' | hd'
      · exact not_not.mpr (hmet d' hd')
      · exact hb d' hd'
  · exact Or.inr ⟨d, name, why, herror _ he, ⟨before, after ++ ds', by simp, hd, hb⟩, hwhy⟩

theorem map {f : α → β} (h : Settled b ds x R) (hr : ∀ a, R a → R' (f a)) :
    Settled b ds (x.map f) R' := by
  rcases h with ⟨a, rfl, ha, hmet⟩ | ⟨d, name, why, rfl, hd, hwhy⟩
  · exact Or.inl ⟨f a, rfl, hr a ha, hmet⟩
  · exact Or.inr ⟨d, name, why, rfl, hd, hwhy⟩

/-- The demand of one structural value. -/
theorem single {d : Demand} (h : (∃ a, x = .ok a ∧ R a) ∨
      ∃ name why, x = .error (.structural name why) ∧ d.Refused b name why)
    (hmet : ∀ a, R a → d.Met b) : Settled b [d] x R := by
  rcases h with ⟨a, ha, hr⟩ | ⟨name, why, he, hwhy⟩
  · exact Or.inl ⟨a, ha, hr, by simpa using hmet a hr⟩
  · exact Or.inr ⟨d, name, why, he, ⟨[], [], rfl, hwhy.not_met, by simp⟩, hwhy⟩

/-- Demands that are settled well are all met. -/
theorem exists_ok_iff (h : Settled b ds x R) : (∃ a, x = .ok a) ↔ ∀ d ∈ ds, d.Met b := by
  rcases h with ⟨a, ha, -, hmet⟩ | ⟨d, name, why, he, hd, -⟩
  · exact iff_of_true ⟨a, ha⟩ hmet
  · refine iff_of_false ?_ fun hmet => hd.mem.2 (hmet d hd.mem.1)
    rintro ⟨a, ha⟩
    rw [he] at ha
    cases ha

theorem eq_ok_iff (h : Settled b ds x R) (hunique : ∀ a a', R a → R a' → a = a') {a : α} :
    x = .ok a ↔ (∀ d ∈ ds, d.Met b) ∧ R a := by
  constructor
  · rintro rfl
    rcases h with ⟨a', ha, hr, hmet⟩ | ⟨d, name, why, he, -, -⟩
    · cases ha
      exact ⟨hmet, hr⟩
    · cases he
  · rintro ⟨hmet, hr⟩
    rcases h with ⟨a', ha, hr', -⟩ | ⟨d, name, why, -, hd, -⟩
    · rw [ha, hunique a a' hr hr']
    · exact absurd (hmet d hd.mem.1) hd.mem.2

theorem eq_error_iff (h : Settled b ds x R) {e : ParameterError} :
    x = .error e ↔ ∃ d name why, FirstIn (fun d => ¬ d.Met b) ds d ∧ d.Refused b name why ∧
      e = .structural name why := by
  constructor
  · rintro rfl
    rcases h with ⟨a, ha, -, -⟩ | ⟨d, name, why, he, hd, hwhy⟩
    · cases ha
    · exact ⟨d, name, why, hd, hwhy, Except.error.inj he⟩
  · rintro ⟨d, name, why, hd, hwhy, rfl⟩
    rcases h with ⟨a, -, -, hmet⟩ | ⟨d', name', why', he, hd', hwhy'⟩
    · exact absurd (hmet d hd.mem.1) hd.mem.2
    · obtain rfl := hd.unique hd'
      obtain ⟨rfl, rfl⟩ := hwhy.unique hwhy'
      exact he

end Settled

section

variable {σ : Type} (b : BindingSet)

theorem settled_resolveEntries (ps : List (String × OperatorParam)) :
    Settled b (ps.map fun e => .param e.2) (b.resolveEntries ps)
      (List.Forall₂ (fun e e' => e'.1 = e.1 ∧ b.Gives e.2 e'.2) ps) := by
  induction ps with
  | nil => exact .ok .nil
  | cons e ps ih =>
    obtain ⟨n, p⟩ := e
    have hparam : Settled b [.param p] (b.resolveParam p) (b.Gives p) :=
      .single (b.resolveParam_cases p) fun v hv => ⟨v, hv⟩
    refine hparam.next (fun v hv hgives => ?_) fun e he => ?_
    · rw [BindingSet.resolveEntries, hv]
      exact ih.map fun vs hvs => .cons ⟨rfl, hgives⟩ hvs
    · rw [BindingSet.resolveEntries, he]

theorem keys_of_forall₂ {α β : Type} {es : List (String × α)} {es' : List (String × β)}
    (h : List.Forall₂ (fun e e' => e'.1 = e.1) es es') :
    es'.map Prod.fst = es.map Prod.fst := by
  induction h with
  | nil => rfl
  | cons h _ ih => rw [List.map_cons, List.map_cons, h, ih]

theorem settled_stage (s : Stage σ) : Settled b s.demands (s.plan b) (s.Planned b) := by
  have hparams : Settled b s.demands (b.resolveParams s.params) fun m =>
      List.Forall₂ (fun e e' => e'.1 = e.1 ∧ b.Gives e.2 e'.2) s.params.entries m.entries := by
    refine (settled_resolveEntries b s.params.entries).map fun vs hvs => ?_
    -- The names are those of the parameters, so that none of them is there twice.
    have hnames := keys_of_forall₂ (hvs.imp fun _ _ h => h.1)
    rw [OrderedMap.entries_ofList (hnames ▸ s.params.distinct)]
    exact hvs
  exact hparams.map fun m hm => ⟨rfl, rfl, rfl, hm⟩

theorem settled_planStages (ss : List (Stage σ)) :
    Settled b (ss.flatMap Stage.demands) (planStages b ss)
      (List.Forall₂ (Stage.Planned b) ss) := by
  induction ss with
  | nil => exact .ok .nil
  | cons s ss ih =>
    refine (settled_stage b s).next (fun q hq hplanned => ?_) fun e he => ?_
    · rw [planStages, hq]
      exact ih.map fun qs hqs => .cons hplanned hqs
    · rw [planStages, he]

/-- A segment that is run has its region, and any other has none. -/
theorem settled_segment (g : Segment σ) (i : Nat) :
    Settled b g.demands (g.plan b i) fun o =>
      List.Forall₂ (fun gi r => gi.1.Planned b gi.2 r) ([(g, i)].filter fun gi => gi.1.runs)
        o.toList := by
  obtain ⟨width, stages⟩ := g
  have hstages := settled_planStages b stages
  cases width with
  | some w =>
    have hwidth : Settled b [.width w] (b.resolveWidth w) (b.Channels w) :=
      .single (b.resolveWidth_cases w) fun n hn => ⟨n, hn⟩
    refine hwidth.next (fun n hn hchannels => ?_) fun e he => ?_
    · simp only [Segment.plan, hn]
      refine hstages.map fun qs hqs => .cons ⟨rfl, nofun, ?_, hqs⟩ .nil
      rintro v ⟨⟩
      exact hchannels
    · simp only [Segment.plan, he]
  | none =>
    cases stages with
    | nil => exact .ok .nil
    | cons s ss =>
      refine hstages.map fun qs hqs => .cons ⟨rfl, fun _ => rfl, ?_, hqs⟩ .nil
      rintro v ⟨⟩

theorem settled_planSegments (gs : List (Segment σ)) (i : Nat) :
    Settled b (gs.flatMap Segment.demands) (planSegments b i gs)
      (List.Forall₂ (fun gi r => gi.1.Planned b gi.2 r)
        ((gs.zipIdx i).filter fun gi => gi.1.runs)) := by
  induction gs generalizing i with
  | nil => exact .ok .nil
  | cons g gs ih =>
    refine (settled_segment b g i).next (fun o ho hplanned => ?_) fun e he => ?_
    · rw [planSegments, ho]
      refine (ih (i + 1)).map fun rs hrs => ?_
      rw [List.zipIdx_cons, ← List.singleton_append, List.filter_append]
      exact List.rel_append hplanned hrs
    · rw [planSegments, he]

end

/-! ### One plan -/

section

variable {σ : Type} {b : BindingSet}

theorem Stage.Planned.unique {s : Stage σ} {q q' : PlannedStage σ} (h : s.Planned b q)
    (h' : s.Planned b q') : q = q' := by
  obtain ⟨name, kind, params, operator⟩ := q
  obtain ⟨name', kind', params', operator'⟩ := q'
  have hparams : params = params' := by
    refine OrderedMap.ext_entries (List.right_unique_forall₂' ?_ h.params h'.params)
    rintro e ⟨n, v⟩ ⟨n', v'⟩ ⟨hn, hv⟩ ⟨hn', hv'⟩
    exact Prod.ext (hn.trans hn'.symm) (hv.unique hv')
  have hname : name = name' := h.name.trans h'.name.symm
  have hkind : kind = kind' := h.kind.trans h'.kind.symm
  have hoperator : operator = operator' := h.operator.trans h'.operator.symm
  rw [hname, hkind, hparams, hoperator]

theorem Segment.Planned.unique {g : Segment σ} {i : Nat} {r r' : Region σ}
    (h : g.Planned b i r) (h' : g.Planned b i r') : r = r' := by
  obtain ⟨label, channels, stages⟩ := r
  obtain ⟨label', channels', stages'⟩ := r'
  have hlabel : label = label' := h.label.trans h'.label.symm
  have hstages : stages = stages' :=
    List.right_unique_forall₂' (fun _ _ _ hq hq' => hq.unique hq') h.stages h'.stages
  have hchannels : channels = channels' := by
    cases hw : g.width with
    | none => exact (h.serial hw).trans (h'.serial hw).symm
    | some w => exact (h.parallel w hw).unique (h'.parallel w hw)
  rw [hlabel, hchannels, hstages]

theorem Pipeline.Planned.unique {p : Pipeline σ} {rs rs' : List (Region σ)}
    (h : p.Planned b rs) (h' : p.Planned b rs') : rs = rs' :=
  List.right_unique_forall₂' (fun _ _ _ hr hr' => hr.unique hr') h h'

end

/-! ### Other handles -/

/-- The same value with another handle for its parameter. -/
def Structural.mapHandle {α : Type} (f : Handle → Handle) : Structural α → Structural α
  | literal a => .literal a
  | parameter h => .parameter (f h)

section

variable {σ : Type} (f : Handle → Handle)

/-- The same stage with other handles. -/
def Stage.mapHandles (s : Stage σ) : Stage σ :=
  { s with params := s.params.mapValues (Structural.mapHandle f) }

/-- The same segment with other handles. -/
def Segment.mapHandles (g : Segment σ) : Segment σ :=
  ⟨g.width.map (Structural.mapHandle f), g.stages.map (Stage.mapHandles f)⟩

/-- The same pipeline with other handles. -/
def Pipeline.mapHandles (p : Pipeline σ) : Pipeline σ :=
  ⟨p.source, p.settled.map (Segment.mapHandles f), p.last.mapHandles f⟩

variable {f} (hf : ∀ h, (f h).spec.name = h.spec.name) (b : BindingSet)

include hf

theorem BindingSet.boundValue_of_name (h : Handle) : b.boundValue (f h) = b.boundValue h := by
  rw [boundValue, boundValue, hf]

theorem BindingSet.resolveWidth_mapHandle (w : Width) :
    b.resolveWidth (w.mapHandle f) = b.resolveWidth w := by
  cases w with
  | literal n => rfl
  | parameter h =>
    rw [Structural.mapHandle, resolveWidth, resolveWidth, hf, b.boundValue_of_name hf]

theorem BindingSet.resolveEntries_mapHandle (ps : List (String × OperatorParam)) :
    b.resolveEntries (ps.map fun e => (e.1, e.2.mapHandle f)) = b.resolveEntries ps := by
  induction ps with
  | nil => rfl
  | cons e ps ih =>
    obtain ⟨n, p⟩ := e
    have hparam : b.resolveParam (p.mapHandle f) = b.resolveParam p := by
      cases p with
      | literal v => rfl
      | parameter h => exact b.boundValue_of_name hf h
    rw [List.map_cons, resolveEntries, resolveEntries, hparam, ih]

theorem planStages_mapHandles (ss : List (Stage σ)) :
    planStages b (ss.map (Stage.mapHandles f)) = planStages b ss := by
  induction ss with
  | nil => rfl
  | cons s ss ih =>
    have hstage : (s.mapHandles f).plan b = s.plan b := by
      unfold Stage.plan BindingSet.resolveParams
      rw [← b.resolveEntries_mapHandle hf s.params.entries]
      rfl
    rw [List.map_cons, planStages, planStages, hstage, ih]

theorem planSegments_mapHandles (gs : List (Segment σ)) (i : Nat) :
    planSegments b i (gs.map (Segment.mapHandles f)) = planSegments b i gs := by
  induction gs generalizing i with
  | nil => rfl
  | cons g gs ih =>
    have hsegment : (g.mapHandles f).plan b i = g.plan b i := by
      obtain ⟨width, stages⟩ := g
      cases width with
      | some w =>
        simp only [Segment.plan, Segment.mapHandles, Option.map_some, b.resolveWidth_mapHandle hf,
          planStages_mapHandles hf]
      | none =>
        cases stages with
        | nil => rfl
        | cons s ss =>
          have hstages := planStages_mapHandles hf b (s :: ss)
          rw [List.map_cons] at hstages
          simp only [Segment.plan, Segment.mapHandles, Option.map_none, List.map_cons, hstages]
    rw [List.map_cons, planSegments, planSegments, hsegment, ih]

/-- A plan depends on the names of the handles only. -/
theorem Pipeline.plan_mapHandles (p : Pipeline σ) : (p.mapHandles f).plan b = p.plan b := by
  have hsegments : (p.mapHandles f).segments = p.segments.map (Segment.mapHandles f) := by
    simp [segments, mapHandles]
  rw [plan, hsegments, planSegments_mapHandles hf, plan]

end

/-- **Planning meets the demands of a pipeline or reports the first that is not met.** A
pipeline is planned exactly if every demand is met, and then the regions are those of its
segments with a width or a stage, in order, with the channels, stages and parameter values
that the pipeline asks for. Else the first demand that is not met is reported, with its name
and the reason. Nothing of a handle matters but the name of its parameter. -/
theorem Pipeline.plan_meets_demands {σ : Type} (p : Pipeline σ) (b : BindingSet) :
    ((∃ rs, p.plan b = .ok rs) ↔ ∀ d ∈ p.demands, d.Met b) ∧
    (∀ rs, p.plan b = .ok rs ↔ (∀ d ∈ p.demands, d.Met b) ∧ p.Planned b rs) ∧
    (∀ e, p.plan b = .error e ↔ ∃ d name why, FirstIn (fun d => ¬ d.Met b) p.demands d ∧
      d.Refused b name why ∧ e = .structural name why) ∧
    ∀ f : Handle → Handle, (∀ h, (f h).spec.name = h.spec.name) →
      (p.mapHandles f).plan b = p.plan b := by
  have hsettled : Settled b p.demands (p.plan b) (p.Planned b) :=
    settled_planSegments b p.segments 0
  have hunique : ∀ rs rs', p.Planned b rs → p.Planned b rs' → rs = rs' :=
    fun _ _ h h' => h.unique h'
  exact ⟨hsettled.exists_ok_iff, fun rs => hsettled.eq_ok_iff hunique,
    fun e => hsettled.eq_error_iff, fun f hf => p.plan_mapHandles hf b⟩

/-- A region as wide as one parameter says, with an operator that is given another, and after
an empty segment a stage that runs on one channel. The handle of the width has answered. -/
def fanned : Pipeline Unit :=
  .build []
    [.parallel (.parameter ⟨0, ⟨"width", .integer, none, none⟩, some (.integer 7)⟩),
      .operator "tag" (.ofList [("label", .parameter (.fresh 0 ⟨"label", .string, none, none⟩)),
        ("quiet", .literal (.boolean true))]) (.map .done),
      .serial, .serial, .map .done]

/-- A job that binds both. -/
def threefold : BindingSet :=
  .ofValues none ⟨0, 0, 0⟩ [("label", .string "run"), ("width", .integer 3)]

/-- The width is that of the job, not the one the handle has answered, and where the job does
not bind it, it is what is reported. -/
theorem Pipeline.plan_meets_demands_fanned :
    (∃ rs, fanned.plan threefold = .ok rs ∧
      rs.map (fun r => (r.label, r.channels)) = [("parallel-1", 3), ("serial-3", 1)] ∧
      fanned.Planned threefold rs ∧
      (fanned.mapHandles fun h => .fresh 1 h.spec).plan threefold = .ok rs) ∧
    let unbound := BindingSet.ofValues none ⟨0, 0, 0⟩ [("label", .string "run")]
    fanned.plan unbound = .error (.structural "width" .unbound) ∧
      ¬ ∀ d ∈ fanned.demands, d.Met unbound := by
  obtain ⟨-, hplanned, -, hhandles⟩ := fanned.plan_meets_demands threefold
  refine ⟨?_, ?_⟩
  · obtain ⟨rs, hrs⟩ : ∃ rs, fanned.plan threefold = .ok rs := ⟨_, rfl⟩
    have hsame := hhandles (fun h => .fresh 1 h.spec) fun _ => rfl
    refine ⟨rs, hrs, ?_, ((hplanned rs).mp hrs).2, hsame.trans hrs⟩
    obtain rfl := Except.ok.inj hrs
    rfl
  · intro unbound
    have herror : fanned.plan unbound = .error (.structural "width" .unbound) := rfl
    refine ⟨herror, fun hmet => ?_⟩
    obtain ⟨hok, -⟩ := fanned.plan_meets_demands unbound
    obtain ⟨rs, hrs⟩ := hok.mpr hmet
    rw [herror] at hrs
    cases hrs

end JobParameters
