/-
# Manifests and what they describe

A declaration is valid or not by itself (`Declaration.Valid`), and if it is not, there is one
reason that is given (`Declaration.Flawed`). Since a manifest has one declaration for a name,
none of them meets another in the registry that it describes (`Registry.registerAll_eq_ok_iff`):
a manifest is refused for its first declaration that is not valid, and for nothing else.

Conversely, a topology is described by the manifest that lists its parameters, each with its
type (`Topology.manifest`). Whatever is declared in a reachable registry is valid as it stands
(`ParameterSpec.Sound.valid`), and to give the type that would be inferred is to infer it
(`ParameterSpec.toSpec_toDeclaration`), so nothing is lost on the way there and back
(`Topology.manifests_describe_topologies`).

Key definitions: `Declaration.Valid`, `Declaration.Flawed`, `Declaration.toSpec`,
`Topology.manifest`.
-/
import JobParameters.Proofs.Declaring
import JobParameters.Proofs.Overrides

namespace JobParameters

/-- Only a float can fail to be finite. -/
theorem Value.isFinite_eq_true_iff {v : Value} :
    v.isFinite = true ↔ ∀ x, v = .float x → x.isFinite = true := by
  constructor
  · rintro h x rfl
    exact h
  · intro h
    cases v with
    | float x => exact h x rfl
    | _ => rfl

/-! ### One declaration -/

namespace Declaration

variable {name : String} {d : Declaration} {s : ParameterSpec} {e : ParameterError}
  {why : ConflictReason}

/-- What a declaration needs: a name that is not blank, and a default that is of the type that
is given, and neither a NaN nor an infinity. -/
structure Valid (name : String) (d : Declaration) : Prop where
  named : Text.isBlankText name = false
  default_type : ∀ v t, d.default = some v → d.type = some t → v.type = t
  default_finite : ∀ x, d.default = some (.float x) → x.isFinite = true

/-- What a declaration is refused for: of several flaws the first, in this order. -/
inductive Flawed (name : String) (d : Declaration) : ConflictReason → Prop
  | blank : Text.isBlankText name = true → Flawed name d .blankName
  | notFinite {x : Binary64} : Text.isBlankText name = false → d.default = some (.float x) →
      x.isFinite = false → Flawed name d .nonFiniteDefault
  | otherType {v : Value} {t : ParamType} : Text.isBlankText name = false →
      d.default = some v → v.isFinite = true → d.type = some t → v.type ≠ t →
      Flawed name d (.defaultType v t)

/-- What is declared: the type is the one that is given, else that of the default, else
string. -/
def toSpec (name : String) (d : Declaration) : ParameterSpec :=
  ⟨name, d.type.getD ((d.default.map Value.type).getD .string), d.default, d.description⟩

/-- **A valid declaration** declares what it says. -/
theorem declare_eq_ok_iff : ParameterSpec.declare name d.default d.type d.description = .ok s ↔
    d.Valid name ∧ s = d.toSpec name := by
  rw [ParameterSpec.declare_eq_ok_iff]
  constructor
  · rintro ⟨hnamed, hdefault, rfl⟩
    refine ⟨⟨hnamed, fun v t hv ht => (hdefault v hv).2 t ht, fun x hx => ?_⟩, rfl⟩
    exact (hdefault (.float x) hx).1
  · rintro ⟨⟨hnamed, htype, hfinite⟩, rfl⟩
    refine ⟨hnamed, fun v hv => ⟨?_, fun t ht => htype v t hv ht⟩, rfl⟩
    rw [Value.isFinite_eq_true_iff]
    rintro x rfl
    exact hfinite x hv

theorem declare_eq_error_of_flawed (h : d.Flawed name why) :
    ParameterSpec.declare name d.default d.type d.description = .error (.conflict name why) := by
  unfold ParameterSpec.declare
  cases h with
  | blank hn => rw [if_pos hn]
  | notFinite hn hd hx => simp [hn, hd, Value.isFinite, hx]
  | otherType hn hd hv ht hne => simp [hn, hd, hv, ht, hne]

/-- What is not valid is refused, for one reason. -/
theorem flawed_of_not_valid (h : ¬ d.Valid name) : ∃ why, d.Flawed name why := by
  cases hn : Text.isBlankText name with
  | true => exact ⟨_, .blank hn⟩
  | false =>
    cases hd : d.default with
    | none => exact absurd ⟨hn, by simp [hd], by simp [hd]⟩ h
    | some v =>
      by_cases hv : v.isFinite = true
      · have hfinite : ∀ x, d.default = some (.float x) → x.isFinite = true := by
          intro x hx
          rw [hd, Option.some.injEq] at hx
          exact Value.isFinite_eq_true_iff.mp hv x hx
        -- So it can only be the type.
        have htype : ¬ ∀ w t, d.default = some w → d.type = some t → w.type = t :=
          fun htype => h ⟨hn, htype, hfinite⟩
        push Not at htype
        obtain ⟨w, t, hw, ht, hne⟩ := htype
        cases hd.symm.trans hw
        exact ⟨_, .otherType hn hd hv ht hne⟩
      · obtain ⟨x, rfl, hx⟩ : ∃ x, v = .float x ∧ ¬ x.isFinite = true := by
          rw [Value.isFinite_eq_true_iff] at hv
          push Not at hv
          exact hv
        exact ⟨_, .notFinite hn hd (Bool.eq_false_iff.mpr hx)⟩

theorem not_valid_of_flawed (h : d.Flawed name why) : ¬ d.Valid name := by
  intro hvalid
  have herror := declare_eq_error_of_flawed h
  rw [declare_eq_ok_iff.mpr ⟨hvalid, rfl⟩] at herror
  cases herror

/-- There is but one such reason. -/
theorem Flawed.unique {why' : ConflictReason} (h : d.Flawed name why) (h' : d.Flawed name why') :
    why' = why := by
  have herror := declare_eq_error_of_flawed h'
  rw [declare_eq_error_of_flawed h] at herror
  cases herror
  rfl

end Declaration

namespace ParameterSpec

variable {s : ParameterSpec}

/-- The declaration that says it all, the type included. -/
def toDeclaration (s : ParameterSpec) : Declaration := ⟨some s.type, s.default, s.description⟩

/-- The type that is given is the one that is declared. -/
theorem toSpec_toDeclaration (s : ParameterSpec) : s.toDeclaration.toSpec s.name = s := rfl

theorem Sound.valid (hs : s.Sound) : s.toDeclaration.Valid s.name where
  named := hs.named
  default_type v _ hv ht := (hs.type_default v hv).trans (Option.some.inj ht)
  default_finite _ hx := hs.finite_default _ hx

end ParameterSpec

/-! ### All declarations of a manifest -/

namespace Registry

variable {r r' : Registry} {ds : List (String × Declaration)} {name : String} {d : Declaration}
  {e : ParameterError}

/-- A new name is declared as it would be anywhere, or refused as it would be anywhere. -/
theorem registerAll_cons_cases (hdistinct : (r.names ++ ((name, d) :: ds).map Prod.fst).Nodup) :
    (d.Valid name ∧ ∃ r₁ : Registry,
      r₁.parameters = r.parameters ++ [⟨d.toSpec name, none⟩] ∧
      (r₁.names ++ ds.map Prod.fst).Nodup ∧
      r.registerAll ((name, d) :: ds) = r₁.registerAll ds) ∨
    ∃ why, d.Flawed name why ∧
      r.registerAll ((name, d) :: ds) = .error (.conflict name why) := by
  by_cases hd : d.Valid name
  · left
    have hnew : name ∉ r.names := fun hmem =>
      (List.nodup_append.mp hdistinct).2.2 name hmem name List.mem_cons_self rfl
    have hfree : r.find? (d.toSpec name).name = none := by
      cases hfind : r.find? name with
      | none => exact hfind
      | some p =>
        obtain ⟨hp, hname⟩ := find?_eq_some_iff.mp hfind
        exact absurd (List.mem_map.mpr ⟨p, hp, hname⟩) hnew
    let r₁ := r.append (d.toSpec name) (contains_of_find?_eq_none hfree)
    have hnames : r₁.names = r.names ++ [name] := List.map_append
    refine ⟨hd, r₁, rfl, ?_, ?_⟩
    · rw [hnames, List.append_assoc]
      exact hdistinct
    · rw [registerAll, Declaration.declare_eq_ok_iff.mpr ⟨hd, rfl⟩]
      simp only [register_of_find?_eq_none hfree]
      rfl
  · right
    obtain ⟨why, hwhy⟩ := Declaration.flawed_of_not_valid hd
    refine ⟨why, hwhy, ?_⟩
    rw [registerAll, Declaration.declare_eq_error_of_flawed hwhy]

/-- **New names are declared if each declaration is valid**, and are then declared in their
order, after those that are there. -/
theorem registerAll_eq_ok_iff (hdistinct : (r.names ++ ds.map Prod.fst).Nodup) :
    r.registerAll ds = .ok r' ↔ (∀ d ∈ ds, d.2.Valid d.1) ∧
      r'.parameters = r.parameters ++ ds.map fun d => ⟨d.2.toSpec d.1, none⟩ := by
  induction ds generalizing r with
  | nil =>
    constructor
    · intro h
      cases h
      exact ⟨nofun, (List.append_nil _).symm⟩
    · rintro ⟨-, h⟩
      rw [List.map_nil, List.append_nil] at h
      rw [registerAll, ext_parameters h]
  | cons d ds ih =>
    obtain ⟨name, d⟩ := d
    rcases registerAll_cons_cases hdistinct with ⟨hd, r₁, hr₁, hrest, hstep⟩ | ⟨why, hwhy, hstep⟩
    · rw [hstep, ih hrest, hr₁, List.forall_mem_cons, List.append_assoc]
      simp [hd]
    · have hd : ¬ d.Valid name := Declaration.not_valid_of_flawed hwhy
      rw [hstep]
      simp [hd]

/-- **The first declaration that is not valid** decides why nothing comes of the others. -/
theorem registerAll_eq_error_iff (hdistinct : (r.names ++ ds.map Prod.fst).Nodup) :
    r.registerAll ds = .error e ↔ ∃ d why, FirstIn (fun d => ¬ d.2.Valid d.1) ds d ∧
      d.2.Flawed d.1 why ∧ e = .conflict d.1 why := by
  induction ds generalizing r with
  | nil => simp [registerAll, FirstIn]
  | cons d ds ih =>
    obtain ⟨name, d⟩ := d
    rcases registerAll_cons_cases hdistinct with ⟨hd, r₁, hr₁, hrest, hstep⟩ | ⟨why, hwhy, hstep⟩
    · have hlater (d' : String × Declaration) :
          FirstIn (fun d => ¬ d.2.Valid d.1) ((name, d) :: ds) d' ↔
            FirstIn (fun d => ¬ d.2.Valid d.1) ds d' :=
        firstIn_cons_of_neg (not_not.mpr hd)
      rw [hstep, ih hrest]
      simp only [hlater]
    · have hfirst : FirstIn (fun d => ¬ d.2.Valid d.1) ((name, d) :: ds) (name, d) :=
        (firstIn_cons_of_pos (p := fun d : String × Declaration => ¬ d.2.Valid d.1)
          (Declaration.not_valid_of_flawed hwhy)).mpr rfl
      rw [hstep]
      constructor
      · intro h
        cases h
        exact ⟨(name, d), why, hfirst, hwhy, rfl⟩
      · rintro ⟨d', why', hfirst', hwhy', rfl⟩
        obtain rfl := hfirst'.unique hfirst
        rw [hwhy.unique hwhy']

end Registry

/-! ### There and back -/

namespace Topology

variable {m : Manifest} {t : Topology} {e : ParameterError}

theorem distinct_entries (m : Manifest) :
    (Registry.empty.names ++ m.parameters.entries.map Prod.fst).Nodup :=
  m.parameters.distinct

/-- A manifest whose declarations are valid describes a topology with just these. -/
theorem ofManifest_eq_ok_iff : ofManifest m = .ok t ↔
    (∀ e ∈ m.parameters.entries, e.2.Valid e.1) ∧ t.name = m.topologyName ∧ t.strict = false ∧
      t.registry.parameters = m.parameters.entries.map fun e => ⟨e.2.toSpec e.1, none⟩ := by
  rw [ofManifest, map_eq_ok_iff]
  constructor
  · rintro ⟨r, hr, rfl⟩
    obtain ⟨hvalid, hparameters⟩ := (Registry.registerAll_eq_ok_iff (distinct_entries m)).mp hr
    exact ⟨hvalid, rfl, rfl, hparameters⟩
  · obtain ⟨name, strict, r⟩ := t
    rintro ⟨hvalid, rfl, rfl, hparameters⟩
    exact ⟨r, (Registry.registerAll_eq_ok_iff (distinct_entries m)).mpr ⟨hvalid, hparameters⟩, rfl⟩

theorem ofManifest_eq_error_iff : ofManifest m = .error e ↔
    ∃ d why, FirstIn (fun d => ¬ d.2.Valid d.1) m.parameters.entries d ∧ d.2.Flawed d.1 why ∧
      e = .conflict d.1 why := by
  rw [ofManifest, map_eq_error_iff, Registry.registerAll_eq_error_iff (distinct_entries m)]

/-- A manifest describes a topology if each of its declarations is valid. -/
theorem exists_ofManifest_iff :
    (∃ t, ofManifest m = .ok t) ↔ ∀ d ∈ m.parameters.entries, d.2.Valid d.1 := by
  constructor
  · rintro ⟨t, ht⟩
    exact (ofManifest_eq_ok_iff.mp ht).1
  · intro hvalid
    cases hmade : ofManifest m with
    | ok t => exact ⟨t, rfl⟩
    | error e =>
      obtain ⟨d, -, hfirst, -⟩ := ofManifest_eq_error_iff.mp hmade
      exact absurd (hvalid d hfirst.mem.1) hfirst.mem.2

/-- The manifest that lists the parameters of a topology. -/
def manifest (t : Topology) : Manifest where
  topology := some t.name
  parameters :=
    { entries := t.registry.specs.map fun s => (s.name, s.toDeclaration)
      distinct := by
        have hnames : (t.registry.specs.map fun s => (s.name, s.toDeclaration)).map Prod.fst =
            t.registry.names := by
          rw [Registry.names_eq_map_specs, List.map_map]
          rfl
        rw [hnames]
        exact t.registry.distinct }

/-- It describes a topology with the same parameters, none of them bound. -/
theorem ofManifest_manifest (h : t.registry.Reachable) :
    ∃ t', ofManifest t.manifest = .ok t' ∧ t'.name = t.name ∧
      t'.registry.parameters = t.registry.specs.map fun s => ⟨s, none⟩ := by
  have hvalid : ∀ d ∈ t.manifest.parameters.entries, d.2.Valid d.1 := by
    intro d hd
    obtain ⟨s, hs, rfl⟩ := List.mem_map.mp hd
    exact (h.sound s hs).valid
  obtain ⟨t', ht'⟩ := exists_ofManifest_iff.mpr hvalid
  obtain ⟨-, hname, -, hparameters⟩ := ofManifest_eq_ok_iff.mp ht'
  refine ⟨t', ht', hname, ?_⟩
  rw [hparameters]
  simp [manifest, ParameterSpec.toSpec_toDeclaration]

/-- **Manifests and topologies describe each other.** A manifest describes a topology if each
of its declarations is valid by itself: if some are not, the first of them is in conflict, for
what it lacks; else the parameters are those that the declarations say, in their order. The
other way round, the manifest that lists the parameters of a topology describes one of the
same name with the same parameters in the same order, which binds every configuration as it
does, strictly or not; and it is the same registry, as long as nothing is bound there. -/
theorem manifests_describe_topologies :
    (∀ m : Manifest,
      ((∃ t, ofManifest m = .ok t) ↔ ∀ d ∈ m.parameters.entries, d.2.Valid d.1) ∧
      (∀ e, ofManifest m = .error e ↔
        ∃ d why, FirstIn (fun d => ¬ d.2.Valid d.1) m.parameters.entries d ∧
          d.2.Flawed d.1 why ∧ e = .conflict d.1 why) ∧
      (∀ t, ofManifest m = .ok t → t.name = m.topologyName ∧
        t.registry.specs = m.parameters.entries.map fun d => d.2.toSpec d.1)) ∧
    ∀ t : Topology, t.registry.Reachable → ∃ t', ofManifest t.manifest = .ok t' ∧
      t'.name = t.name ∧ t'.registry.specs = t.registry.specs ∧
      (∀ strict now c, t'.registry.bind strict now c = t.registry.bind strict now c) ∧
      ((∀ n, t.registry.bound? n = none) → t'.registry = t.registry) := by
  refine ⟨fun m => ⟨exists_ofManifest_iff, fun e => ofManifest_eq_error_iff, fun t ht => ?_⟩,
    fun t ht => ?_⟩
  · obtain ⟨-, hname, -, hparameters⟩ := ofManifest_eq_ok_iff.mp ht
    refine ⟨hname, ?_⟩
    rw [Registry.specs, hparameters, List.map_map]
    rfl
  · obtain ⟨t', ht', hname, hparameters⟩ := ofManifest_manifest ht
    have hspecs : t'.registry.specs = t.registry.specs := by
      rw [Registry.specs, hparameters, List.map_map]
      exact List.map_id _
    refine ⟨t', ht', hname, hspecs, Registry.bind_of_specs hspecs, fun hunbound => ?_⟩
    refine Registry.ext_parameters ?_
    rw [hparameters, Registry.specs, List.map_map]
    -- A parameter is its declaration and an empty slot.
    have hempty : ∀ p ∈ t.registry.parameters, (⟨p.spec, none⟩ : Parameter) = p := by
      intro p hp
      have hp := (Registry.bound?_of_mem hp).symm.trans (hunbound p.spec.name)
      rw [← hp]
    exact (List.map_congr_left hempty).trans (List.map_id _)

/-- A width, a ratio whose type is that of its default, and a topic, which is a string. -/
def threeDeclared : Manifest where
  topology := some "jobs"
  parameters := .ofList [("width", ⟨some .integer, none, some "channels"⟩),
    ("ratio", ⟨none, some (.float (Binary64.zero true)), none⟩), ("topic", ⟨none, none, none⟩)]

/-- A width, a name that is a blank, with a default that is not of its type, and a ratio that
is not finite. -/
def twoFlawed : Manifest where
  topology := none
  parameters := .ofList [("width", ⟨some .integer, none, none⟩),
    (" ", ⟨some .string, some (.integer 1), none⟩),
    ("ratio", ⟨none, some (.float (.infinity false)), none⟩)]

/-- Types are inferred, and not again when the topology has been described; and a blank name
is what a manifest is refused for, if that comes first. -/
theorem manifests_describe_topologies_three :
    (∃ t, ofManifest threeDeclared = .ok t ∧ t.name = "jobs" ∧
      t.registry.specs = [⟨"width", .integer, none, some "channels"⟩,
        ⟨"ratio", .float, some (.float (Binary64.zero true)), none⟩,
        ⟨"topic", .string, none, none⟩] ∧
      ∃ t', ofManifest t.manifest = .ok t' ∧ t'.registry = t.registry) ∧
    ofManifest twoFlawed = .error (.conflict " " .blankName) := by
  obtain ⟨hmanifests, htopologies⟩ := manifests_describe_topologies
  constructor
  · obtain ⟨hexists, -, hspecs⟩ := hmanifests threeDeclared
    have hvalid : ∀ d ∈ threeDeclared.parameters.entries, d.2.Valid d.1 := by
      have hentries : threeDeclared.parameters.entries =
          [("width", ⟨some .integer, none, some "channels"⟩),
            ("ratio", ⟨none, some (.float (Binary64.zero true)), none⟩),
            ("topic", ⟨none, none, none⟩)] := rfl
      simp only [hentries, List.forall_mem_cons]
      refine ⟨⟨by decide, nofun, nofun⟩, ⟨by decide, nofun, ?_⟩, ⟨by decide, nofun, nofun⟩, nofun⟩
      rintro x ⟨⟩
      decide
    obtain ⟨t, ht⟩ := hexists.mpr hvalid
    obtain ⟨hreachable, hunbound⟩ := reachable_ofManifest ht
    obtain ⟨t', ht', -, -, -, hsame⟩ := htopologies t hreachable
    exact ⟨t, ht, (hspecs t ht).1, (hspecs t ht).2, t', ht', hsame hunbound⟩
  · have hwidth : ¬ ¬ (⟨some .integer, none, none⟩ : Declaration).Valid "width" :=
      not_not.mpr ⟨by decide, nofun, nofun⟩
    have hblank : (⟨some .string, some (.integer 1), none⟩ : Declaration).Flawed " " .blankName :=
      .blank (by decide)
    have hfirst : FirstIn (fun d => ¬ d.2.Valid d.1) twoFlawed.parameters.entries
        (" ", ⟨some .string, some (.integer 1), none⟩) :=
      ⟨[("width", ⟨some .integer, none, none⟩)], _, rfl,
        Declaration.not_valid_of_flawed hblank, by simpa using hwidth⟩
    exact ((hmanifests twoFlawed).2.1 _).mpr ⟨_, _, hfirst, hblank, rfl⟩

end Topology
end JobParameters
