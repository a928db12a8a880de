/-
# Documents come back

A configuration, a manifest and a declared parameter are written as JSON documents and read
from them. What may be absent is written in one of two ways, as null or not at all, and is read
as absent either way (`Json.absentOr?_nullOr_eq_some_iff`); nothing else is read as absent,
and a value keeps its kind, since the number of a float never looks like an integer. So a
document comes back as it was exactly if each value in it comes back by itself, and a value
does exactly if it is finite and, where it is a float, its number is read as that float
(`Value.returned?_eq_self_iff`).

Key definition: `Json.recovered?`.
Key theorems: `Config.recovered?_eq_self_iff`, `Manifest.recovered?_eq_self_iff`,
`ParameterSpec.recovered?_eq_self_iff`.
-/
import JobParameters.Proofs.Rescaling
import JobParameters.Proofs.Startup

namespace JobParameters

open Json

namespace Json

variable {α : Type} {f : α → Json} {g : Json → Option α}

/-- What is read of the compact form of a thing. -/
def recovered? (f : α → Json) (g : Json → Option α) (a : α) : Option α :=
  (parse? (f a).compact).bind g

theorem recovered?_eq (f : α → Json) (g : Json → Option α) (a : α) :
    recovered? f g a = g (f a).reread := by
  rw [recovered?, parse?_compact, Option.bind_some]

/-- **Something or null comes back** if what is there comes back; null is never taken for
something. -/
theorem absentOr?_nullOr_eq_some_iff (hnull : g null = none) (o : Option α) :
    absentOr? g (some (nullOr f o).reread) = some o ↔ ∀ a ∈ o, g (f a).reread = some a := by
  cases o with
  | none => simp [nullOr, reread, absentOr?]
  | some a =>
    have hread : (nullOr f (some a)).reread = (f a).reread := rfl
    rw [hread]
    cases hj : (f a).reread with
    | null => simp [absentOr?, hnull, hj]
    | _ => simp [absentOr?, hj]

end Json

/-- A map comes back if each of its values does. -/
theorem OrderedMap.mapOf?_reread_toJson_self_iff {α : Type} {f : α → Json} {g : Json → Option α}
    {m : OrderedMap α} :
    mapOf? g (m.toJson f).reread = some m ↔ ∀ a ∈ m.values, g (f a).reread = some a := by
  rw [mapOf?_reread_toJson_eq_some_iff, List.forall₂_same, values, List.forall_mem_map]
  simp only [true_and]

/-! ### Values and types -/

/-- **A value comes back** if it is finite and, where it is a float, its number is read as that
float. -/
theorem Value.returned?_eq_self_iff {v : Value} :
    v.returned? = some v ↔ v.isFinite = true ∧ v.ReadsBack := by
  constructor
  · intro h
    have hfinite : v.isFinite = true := by
      by_contra hv
      rw [returned?_of_not_finite (Bool.not_eq_true _ ▸ hv)] at h
      cases h
    refine ⟨hfinite, ?_⟩
    rintro x rfl
    have hx : x.isFinite = true := hfinite
    rw [Binary64.readsBack_iff_reread hx]
    obtain ⟨m, -, hm⟩ := Binary64.reread_eq_asFloat hx
    rw [returned?, toJson, if_pos hx, reread, hm] at h
    rw [hm]
    rcases m.asFloat_cases with ⟨y, hy⟩ | hy
    · rw [hy] at h ⊢
      cases h
      rfl
    · rw [hy] at h
      cases h
  · rintro ⟨hfinite, hv⟩
    exact returned?_eq_self hfinite hv

theorem ParamType.ofJson?_reread_toJson (t : ParamType) : ofJson? t.toJson.reread = some t := by
  cases t <;> decide

theorem ParamType.absentOr?_nullOr (t : Option ParamType) :
    absentOr? ParamType.ofJson? (some (nullOr ParamType.toJson t).reread) = some t :=
  (absentOr?_nullOr_eq_some_iff rfl t).mpr fun t _ => ofJson?_reread_toJson t

/-! ### Records -/

/-- **A configuration comes back** if each of its values does. -/
theorem Config.recovered?_eq_self_iff {c : Config} :
    recovered? Config.toJson Config.ofJson? c = some c ↔
      ∀ v ∈ c.parameters.values, v.returned? = some v := by
  have hfields : c.toJson.reread.fields? ["job_name", "submission_parameters"] =
      some [some (nullOr Json.string c.jobName).reread,
        some (c.parameters.toJson Value.toJson).reread] := by
    simp [toJson, reread, rereadMembers, fields?, membersOf, onlyOne?]
  have hvalues := OrderedMap.mapOf?_reread_toJson_self_iff (f := Value.toJson)
    (g := Value.ofJson?) (m := c.parameters)
  rw [recovered?_eq, ofJson?, hfields]
  simp only [Option.bind_eq_bind, Option.bind_some, absentOr?_string_nullOr, orDefault?]
  refine Iff.trans ?_ hvalues
  obtain ⟨jobName, parameters⟩ := c
  cases mapOf? Value.ofJson? (parameters.toJson Value.toJson).reread <;> simp

/-- A declaration comes back if its default does. -/
theorem Declaration.ofJson?_reread_toJson_iff {d : Declaration} :
    Declaration.ofJson? d.toJson.reread = some d ↔ ∀ v ∈ d.default, v.returned? = some v := by
  have hfields : d.toJson.reread.fields? ["type", "default", "description"] =
      some [some (nullOr ParamType.toJson d.type).reread,
        some (nullOr Value.toJson d.default).reread,
        some (nullOr Json.string d.description).reread] := by
    simp [toJson, reread, rereadMembers, fields?, membersOf, onlyOne?]
  have hdefault := absentOr?_nullOr_eq_some_iff (f := Value.toJson) (g := Value.ofJson?) rfl
    d.default
  rw [ofJson?, hfields]
  simp only [Option.bind_eq_bind, Option.bind_some, absentOr?_string_nullOr,
    ParamType.absentOr?_nullOr]
  refine Iff.trans ?_ hdefault
  obtain ⟨type, default, description⟩ := d
  cases absentOr? Value.ofJson? (some (nullOr Value.toJson default).reread) <;> simp

/-- **A manifest comes back** if each of its defaults does. -/
theorem Manifest.recovered?_eq_self_iff {m : Manifest} :
    recovered? Manifest.toJson Manifest.ofJson? m = some m ↔
      ∀ d ∈ m.parameters.values, ∀ v ∈ d.default, v.returned? = some v := by
  have hfields : m.toJson.reread.fields? ["topology", "parameters"] =
      some [some (nullOr Json.string m.topology).reread,
        some (m.parameters.toJson Declaration.toJson).reread] := by
    simp [toJson, reread, rereadMembers, fields?, membersOf, onlyOne?]
  have hdeclarations := OrderedMap.mapOf?_reread_toJson_self_iff (f := Declaration.toJson)
    (g := Declaration.ofJson?) (m := m.parameters)
  simp only [Declaration.ofJson?_reread_toJson_iff] at hdeclarations
  rw [recovered?_eq, ofJson?, hfields]
  simp only [Option.bind_eq_bind, Option.bind_some, absentOr?_string_nullOr, orDefault?]
  refine Iff.trans ?_ hdeclarations
  obtain ⟨topology, parameters⟩ := m
  cases mapOf? Declaration.ofJson? (parameters.toJson Declaration.toJson).reread <;> simp

/-- **A declared parameter comes back** if its default does, whether a description was written
or not. -/
theorem ParameterSpec.recovered?_eq_self_iff {s : ParameterSpec} :
    recovered? ParameterSpec.toJson ParameterSpec.ofJson? s = some s ↔
      ∀ v ∈ s.default, v.returned? = some v := by
  have hfields : s.toJson.reread.fields? ["name", "type", "default", "description"] =
      some [some (Json.string s.name), some s.type.toJson.reread,
        some (nullOr Value.toJson s.default).reread, s.description.map Json.string] := by
    cases hd : s.description <;>
      simp [toJson, hd, reread, rereadMembers, fields?, membersOf, onlyOne?]
  have hdescription : absentOr? string? (s.description.map Json.string) = some s.description := by
    cases s.description <;> rfl
  have hdefault := absentOr?_nullOr_eq_some_iff (f := Value.toJson) (g := Value.ofJson?) rfl
    s.default
  rw [recovered?_eq, ofJson?, hfields]
  simp only [Option.bind_eq_bind, Option.bind_some, required?, string?,
    ParamType.ofJson?_reread_toJson, hdescription]
  refine Iff.trans ?_ hdefault
  obtain ⟨name, type, default, description⟩ := s
  cases absentOr? Value.ofJson? (some (nullOr Value.toJson default).reread) <;> simp

/-- **Documents come back.** What is read of the compact form of a configuration, of a manifest
or of a declared parameter is that document again, with its entries in their order and with
what is absent in it, exactly if the values in it are finite and the number that is written for
each float is read as that float. -/
theorem documents_come_back :
    (∀ c : Config, recovered? Config.toJson Config.ofJson? c = some c ↔
      ∀ v ∈ c.parameters.values, v.isFinite = true ∧ v.ReadsBack) ∧
    (∀ m : Manifest, recovered? Manifest.toJson Manifest.ofJson? m = some m ↔
      ∀ d ∈ m.parameters.values, ∀ v ∈ d.default, v.isFinite = true ∧ v.ReadsBack) ∧
    ∀ s : ParameterSpec, recovered? ParameterSpec.toJson ParameterSpec.ofJson? s = some s ↔
      ∀ v ∈ s.default, v.isFinite = true ∧ v.ReadsBack := by
  simp only [← Value.returned?_eq_self_iff]
  exact ⟨fun c => Config.recovered?_eq_self_iff, fun m => Manifest.recovered?_eq_self_iff,
    fun s => ParameterSpec.recovered?_eq_self_iff⟩

/-- A declaration that says nothing, one that says all there is to say, and one with a default
that looks like a number. -/
def sparse : Manifest where
  topology := some ""
  parameters := .ofList [("", ⟨none, none, none⟩),
    ("ratio", ⟨some .float, some (.float (Binary64.ofNat 3)), some "a \"share\""⟩),
    ("digits", ⟨none, some (.string "42"), some ""⟩)]

/-- Whatever looks like something else comes back from a configuration without a job name and
from one whose job name is empty, and so do a manifest that says little, and a parameter that
has no description and one whose description is empty. With an infinite default it does not. -/
theorem documents_come_back_lookalikes :
    let c (jobName : Option String) : Config := ⟨jobName, Payload.lookalikes⟩
    let s (default : Option Value) (description : Option String) : ParameterSpec :=
      ⟨"limit", .float, default, description⟩
    recovered? Config.toJson Config.ofJson? (c none) = some (c none) ∧
    recovered? Config.toJson Config.ofJson? (c (some "")) = some (c (some "")) ∧
    recovered? Manifest.toJson Manifest.ofJson? sparse = some sparse ∧
    recovered? ParameterSpec.toJson ParameterSpec.ofJson? (s none none) = some (s none none) ∧
    recovered? ParameterSpec.toJson ParameterSpec.ofJson?
      (s (some (.float (Binary64.zero true))) (some "")) =
        some (s (some (.float (Binary64.zero true))) (some "")) ∧
    recovered? ParameterSpec.toJson ParameterSpec.ofJson?
      (s (some (.float (Binary64.infinity true))) none) ≠
        some (s (some (.float (Binary64.infinity true))) none) := by
  intro c s
  obtain ⟨hconfig, hmanifest, hspec⟩ := documents_come_back
  have hvalues : ∀ v ∈ Payload.lookalikes.values, v.isFinite = true ∧ v.ReadsBack := by
    decide +kernel
  have hdefaults : ∀ d ∈ sparse.parameters.values, ∀ v ∈ d.default,
      v.isFinite = true ∧ v.ReadsBack := by
    decide +kernel
  refine ⟨(hconfig _).mpr hvalues, (hconfig _).mpr hvalues, (hmanifest sparse).mpr hdefaults,
    (hspec _).mpr nofun, (hspec _).mpr ?_, ?_⟩
  · rintro v ⟨⟩
    decide +kernel
  · intro h
    have hfinite := (hspec _).mp h _ rfl
    exact absurd hfinite.1 (by decide)

end JobParameters
