/-
# Float parameters in the workers

What an accepted submission sends is always decoded, and each value of it comes out as
`Value.decoded` says: the same value, or for a float some finite float of the same sign
(`Payload.decode?_encode`). So a float parameter has a value in every worker. The numeral
that is sent denotes the bound float, as rounding it once would show
(`Numeral.RoundsTo`), but it is rounded more than once. Where the numeral is short the
workers have the float of the defining process, and else only if the roundings do not add
up (`Topology.floats_of_submit`); they do for a number as plain as
`0.9386973196048719` (`Topology.floats_of_submit_altered`).
-/
import JobParameters.Proofs.Committing
import JobParameters.Proofs.ReadingBack
import JobParameters.Proofs.Rescaling
import JobParameters.Proofs.Startup

namespace JobParameters

/-! ### Decoded values -/

namespace Value

variable {v : Value}

/-- What a finite value is decoded as. -/
def decoded (v : Value) : Value := v.returned?.getD v

/-- A float is decoded as a finite float of its sign. -/
theorem exists_decoded_float {x : Binary64} (hx : x.isFinite = true) :
    ∃ y, (float x).returned? = some (float y) ∧ y.isFinite = true ∧ y.negative = x.negative ∧
      (y = x ↔ x.ReadsBack) := by
  obtain ⟨y, hy, hfin, hsign⟩ := Binary64.exists_reread hx
  refine ⟨y, ?_, hfin, hsign, ?_⟩
  · rw [returned?, toJson, if_pos hx, Json.reread, hy]
    rfl
  · rw [Binary64.readsBack_iff_reread hx, hy, Json.float.injEq]

/-- Every finite value is decoded. -/
theorem returned?_eq_decoded (h : v.isFinite = true) : v.returned? = some v.decoded := by
  have hsome : ∃ w, v.returned? = some w := by
    cases v with
    | float x =>
      obtain ⟨y, hy, -⟩ := exists_decoded_float h
      exact ⟨_, hy⟩
    | boolean b => exact ⟨_, returned?_eq_self h fun x hx => by cases hx⟩
    | integer n => exact ⟨_, returned?_eq_self h fun x hx => by cases hx⟩
    | string s => exact ⟨_, returned?_eq_self h fun x hx => by cases hx⟩
  obtain ⟨w, hw⟩ := hsome
  rw [decoded, hw]
  rfl

end Value

/-- **A finite payload is decoded value by value.** -/
theorem Payload.decode?_encode {p : Payload} (h : p.Finite) :
    decode? p.encode = some ⟨p.jobName, p.values.mapValues Value.decoded⟩ := by
  refine decode?_encode_eq_some_iff.mpr ⟨rfl, ?_⟩
  rw [OrderedMap.mapValues, List.forall₂_map_right_iff, List.forall₂_same]
  intro e he
  exact ⟨rfl, Value.returned?_eq_decoded (h _ (List.mem_map_of_mem he))⟩

/-! ### Floats of a submission -/

/-- The number as it is written is nearest to that float. -/
def Numeral.RoundsTo (m : Numeral) (x : Binary64) : Prop :=
  ∀ num den : Nat, 0 < den → (num / den : ℚ) = m.coefficient * (10 : ℚ) ^ m.power →
    Binary64.nearest m.negative num den = x

/-- A float is written as a number that it is nearest to. -/
theorem Binary64.exists_roundsTo {x : Binary64} (hx : x.isFinite = true) :
    ∃ m, Numeral.read? (Json.numeral x).toList = some (m, []) ∧ m.RoundsTo x := by
  obtain ⟨m, hread, hsign, -, -, -, hcontains⟩ := exists_rescaled hx
  refine ⟨m, hread, fun num den hden hratio => ?_⟩
  rw [← hratio] at hcontains
  rw [nearest, nearestMagnitude_of_contains hx hden hcontains, hsign, ofMagnitude_magnitude]

namespace Topology

variable {t t' : Topology} {now : Timestamp} {c : Config} {x : Submission}

/-- What a declared float is bound to in the payload of an accepted submission, and in the
defining process after it. -/
theorem bound_float_of_submit (ht : t.registry.Reachable) (h : t.submit now c = .ok (t', x))
    {s : ParameterSpec} (hs : s ∈ t.registry.specs) (htype : s.type = .float) :
    ∃ v u, x.bindings.value? s.name = some (.float v) ∧ v.isFinite = true ∧
      t'.registry.bound? s.name = some (.float u) ∧ u.sameNumber v = true ∧
      (t.registry.bound? s.name = none → u = v) := by
  obtain ⟨b, hb, hc⟩ := submit_cases h
  obtain ⟨r, hr, rfl, rfl⟩ := commit_eq_ok_iff.mp hc
  obtain ⟨w, hw, hwtype, hwfin⟩ := Registry.value?_of_bind ht hb hs
  rw [htype] at hwtype
  obtain ⟨v, rfl⟩ : ∃ v, w = .float v := by
    cases w with
    | float v => exact ⟨v, rfl⟩
    | boolean b => cases hwtype
    | integer n => cases hwtype
    | string s => cases hwtype
  have hv : v.isFinite = true := hwfin
  obtain ⟨hsuits, -⟩ := Registry.suits_of_bind ht.sound hb
  have hn : s.name ∈ t.registry.names := by
    rw [Registry.names_eq_map_specs]
    exact List.mem_map_of_mem hs
  obtain ⟨w', hw', hslot⟩ := Registry.bound_of_commit hsuits.ownNames hr hn
  obtain rfl : .float v = w' := Option.some.inj (hw.symm.trans hw')
  rcases hslot with hslot | ⟨u, hu, hslot, hsame⟩
  · refine ⟨v, v, hw, hv, hslot, ?_, fun _ => rfl⟩
    rw [Binary64.sameNumber_self, Binary64.not_isNaN_of_isFinite hv, Bool.not_false]
  · cases u with
    | float u =>
      refine ⟨v, u, hw, hv, hslot, hsame, fun hnone => ?_⟩
      rw [hu] at hnone
      cases hnone
    | boolean b => cases hsame
    | integer n => cases hsame
    | string s => cases hsame

/-- **What the workers have for a float.** The payload of an accepted submission is decoded
by every worker. Each declared float is bound to a finite float, the number that is sent for
it is one that this float is nearest to, and every way to read in a worker finds a finite
float of its sign. That is the bound float, to the last bit, exactly if the float reads
back, and it does if its numeral is short. The defining process has the bound float itself,
unless an earlier submission bound the parameter to the same number. -/
theorem floats_of_submit (ht : t.registry.Reachable) (h : t.submit now c = .ok (t', x))
    (outside : Thread) (place : Option Station) :
    ∃ w, ExecutionContext.decode? x.bindings.payload.encode = some w ∧
      ∀ n d e, ⟨n, .float, d, e⟩ ∈ t.registry.specs → ∃ v y u,
        x.bindings.value? n = some (.float v) ∧ v.isFinite = true ∧
        (∃ m, Numeral.read? (Json.numeral v).toList = some (m, []) ∧ m.RoundsTo v) ∧
        (outside.install { w with station := place }).1.Finds ⟨n, .float, d, e⟩ y ∧
        y.isFinite = true ∧ y.negative = v.negative ∧
        (y = v ↔ v.ReadsBack) ∧ (v.Short → y = v) ∧
        t'.registry.bound? n = some (.float u) ∧ u.sameNumber v = true ∧
        (t.registry.bound? n = none → u = v) := by
  have hdecode := Payload.decode?_encode (finite_of_submit ht h)
  refine ⟨_, by rw [ExecutionContext.decode?, hdecode]; rfl, fun n d e hs => ?_⟩
  obtain ⟨v, u, hv, hfin, hslot, hsame, hfresh⟩ := bound_float_of_submit ht h hs rfl
  obtain ⟨y, hy, hyfin, hsign, hback⟩ := Value.exists_decoded_float hfin
  have hdecoded : (Value.float v).decoded = .float y := by
    rw [Value.decoded, hy]
    rfl
  have hfind : (x.bindings.payload.values.mapValues Value.decoded).find? n =
      some (.float y) := by
    have hsent : x.bindings.payload.values.find? n = some (.float v) :=
      (ExecutionContext.value?_ofPayload x.bindings n).trans hv
    rw [OrderedMap.find?_mapValues, hsent, Option.map_some, hdecoded]
  obtain ⟨a, ha, hfinds⟩ := Thread.finds_of_value? (s := ⟨n, .float, d, e⟩)
    (t := (outside.install ⟨x.bindings.payload.jobName, place,
      x.bindings.payload.values.mapValues Value.decoded⟩).1) rfl hfind rfl hyfin
  obtain rfl : a = y := Value.float.inj ha
  exact ⟨v, a, u, hv, hfin, Binary64.exists_roundsTo hfin, hfinds, hyfin, hsign, hback,
    fun hshort => hback.mpr (.of_short hfin hshort), hslot, hsame, hfresh⟩

/-- A topology with two floats to be supplied. -/
def rated : Topology where
  name := "jobs"
  strict := false
  registry := {
    parameters := [⟨⟨"ratio", .float, none, none⟩, none⟩, ⟨⟨"rate", .float, none, none⟩, none⟩]
    distinct := by decide }

theorem reachable_rated : rated.registry.Reachable :=
  (reachable_ofManifest (m := ⟨some "jobs", .ofList [("ratio", ⟨some .float, none, none⟩),
    ("rate", ⟨some .float, none, none⟩)]⟩) rfl).1

/-- The float `0.9386973196048719`. -/
def longRatio : Binary64 := ⟨0x3fee09cef6117711⟩

/-- A configuration with a ratio of sixteen digits and a rate of one. -/
def rates : Config := (Config.empty.set "ratio" (.float longRatio)).set "rate" (.string "0.1")

/-- The workers do not have the ratio that was bound, but the rate, whose numeral is short. -/
theorem floats_of_submit_twoFloats :
    ∃ t' x w y, rated.submit ⟨0, 0, 0⟩ rates = .ok (t', x) ∧
      ExecutionContext.decode? x.bindings.payload.encode = some w ∧
      let worker := (Thread.idle.install { w with station := some ⟨"parallel-0", 1⟩ }).1
      worker.Finds ⟨"ratio", .float, none, none⟩ y ∧ y ≠ longRatio ∧
      worker.Finds ⟨"rate", .float, none, none⟩ (⟨0x3fb999999999999a⟩ : Binary64) := by
  have haccepted : ((rated.submit ⟨0, 0, 0⟩ rates).map
      fun a => (a.2.bindings.value? "ratio", a.2.bindings.value? "rate")) =
      .ok (some (.float longRatio), some (.float ⟨0x3fb999999999999a⟩)) := by
    decide +kernel
  obtain ⟨⟨t', x⟩, hx, he⟩ := map_eq_ok_iff.mp haccepted
  obtain ⟨hratio, hrate⟩ := Prod.mk.inj he
  obtain ⟨w, hw, hfloats⟩ := floats_of_submit reachable_rated hx Thread.idle
    (some ⟨"parallel-0", 1⟩)
  obtain ⟨v, y, -, hv, -, -, hy, -, -, hback, -⟩ := hfloats "ratio" none none (by decide)
  obtain ⟨v', y', -, hv', -, -, hy', -, -, -, hshort, -⟩ := hfloats "rate" none none (by decide)
  obtain rfl : longRatio = v := Value.float.inj (Option.some.inj (hratio.symm.trans hv))
  obtain rfl : ⟨0x3fb999999999999a⟩ = v' :=
    Value.float.inj (Option.some.inj (hrate.symm.trans hv'))
  obtain rfl : y' = ⟨0x3fb999999999999a⟩ := hshort (by decide +kernel)
  have hlong : ¬ longRatio.ReadsBack := by decide +kernel
  exact ⟨t', x, w, y, hx, hw, hy, fun heq => hlong (hback.mp heq), hy'⟩

/-- **A float that the workers do not have.** A ratio is bound to a parameter that was never
bound. The defining process has it, and every worker the next float above it. -/
theorem floats_of_submit_altered :
    rated.registry.Reachable ∧ rated.registry.bound? "ratio" = none ∧
    ∃ t' x w, rated.submit ⟨0, 0, 0⟩ rates = .ok (t', x) ∧
      x.bindings.value? "ratio" = some (.float longRatio) ∧
      t'.registry.bound? "ratio" = some (.float longRatio) ∧
      ExecutionContext.decode? x.bindings.payload.encode = some w ∧
      (Thread.idle.install w).1.resolve "ratio" none = .ok (.float ⟨longRatio.bits + 1⟩) := by
  have haccepted : ((rated.submit ⟨0, 0, 0⟩ rates).map fun a =>
      (a.2.bindings.value? "ratio", a.1.registry.bound? "ratio",
        (ExecutionContext.decode? a.2.bindings.payload.encode).map fun w => w.value? "ratio")) =
      .ok (some (.float longRatio), some (.float longRatio),
        some (some (.float ⟨longRatio.bits + 1⟩))) := by
    decide +kernel
  obtain ⟨⟨t', x⟩, hx, he⟩ := map_eq_ok_iff.mp haccepted
  obtain ⟨hvalue, he⟩ := Prod.mk.inj he
  obtain ⟨hslot, he⟩ := Prod.mk.inj he
  obtain ⟨w, hw, hratio⟩ := Option.map_eq_some_iff.mp he
  refine ⟨reachable_rated, by decide, t', x, w, hx, hvalue, hslot, hw, ?_⟩
  rw [Thread.resolve_of_current (t := (Thread.idle.install w).1) rfl]
  exact ExecutionContext.resolve_of_value? hratio

end Topology
end JobParameters
