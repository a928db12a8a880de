/-
# What overrides amount to

A registry looks an override up by the name of a declaration, and goes by the order of the
declarations. So it is enough for two configurations to have the same overrides for declared
names: a lenient registry makes the same of both, and so does a strict one if they name
nothing else (`Registry.bind_reads_declared_names`).

A value that was bound is finite and of the declared type, so that it is coerced to itself.
Hence the values of a bound set, supplied again, are bound to that set, where now every value
is supplied (`BindingSet.supplied`). Once the set was committed, every slot holds a value that
is the same as the one in the set, so to commit it again changes nothing
(`Registry.bound_values_bind_again`).

Key definitions: `Config.SameFor`, `BindingSet.supplied`.
-/
import JobParameters.Proofs.Checking
import JobParameters.Proofs.ReadingBack

namespace JobParameters

/-! ### Overrides for declared names -/

theorem OrderedMap.find?_congr {α : Type} {m m' : OrderedMap α} {n : String}
    (h : ∀ a, (n, a) ∈ m.entries ↔ (n, a) ∈ m'.entries) : m.find? n = m'.find? n := by
  ext a
  rw [find?_eq_some_iff, find?_eq_some_iff, h]

/-- The configurations name the same job and have the same overrides for declared names, in
whatever order and with whatever others. -/
structure Config.SameFor (r : Registry) (c c' : Config) : Prop where
  jobName : c.jobName = c'.jobName
  declared : ∀ n ∈ r.names, ∀ v,
    (n, v) ∈ c.parameters.entries ↔ (n, v) ∈ c'.parameters.entries

namespace Registry

variable {r : Registry} {strict : Bool} {now : Timestamp} {c c' : Config} {b : BindingSet}

/-- Configurations that are admitted come to the same if they have the same overrides for
declared names. -/
theorem bind_congr (h : c.SameFor r c') (hc : r.Admits strict c.parameters)
    (hc' : r.Admits strict c'.parameters) : r.bind strict now c = r.bind strict now c' := by
  have hresolve : (r.specs.map fun s => s.resolve now c.parameters) =
      r.specs.map fun s => s.resolve now c'.parameters := by
    refine List.map_congr_left fun s hs => ?_
    have hname : s.name ∈ r.names := by
      rw [names_eq_map_specs]
      exact List.mem_map_of_mem hs
    rw [ParameterSpec.resolve, ParameterSpec.resolve, OrderedMap.find?_congr (h.declared _ hname)]
  unfold bind
  rw [firstForeign?_eq_none_iff.mpr hc, firstForeign?_eq_none_iff.mpr hc', hresolve, h.jobName]

/-- **Only overrides for declared names count.** Whatever else the configurations name and in
whatever order, a lenient registry binds both to the same set, but for the time, or has the
same error for both. So does a strict registry if all overrides are for declared names. -/
theorem bind_reads_declared_names (h : c.SameFor r c') (now later : Timestamp) :
    r.bind false later c' = (r.bind false now c).map (fun b => b.noted later) ∧
    ((∀ n ∈ c.parameters.keys, n ∈ r.names) → (∀ n ∈ c'.parameters.keys, n ∈ r.names) →
      r.bind true later c' = (r.bind true now c).map fun b => b.noted later) := by
  have hlenient : ∀ d : Config, r.Admits false d.parameters := fun _ hstrict => by cases hstrict
  constructor
  · rw [← bind_at, bind_congr h (hlenient c) (hlenient c')]
  · intro hc hc'
    have hadmit : r.Admits true c.parameters := fun _ => hc
    have hadmit' : r.Admits true c'.parameters := fun _ => hc'
    rw [← bind_at, bind_congr h hadmit hadmit']

/-- An extra override that is not declared is passed over, and the flag is refused for its
value whichever override comes first. -/
theorem bind_reads_declared_names_threeParameters :
    let c := ((Config.empty.set "extra" (.integer 1)).set "flag" (.string "maybe")).set "topic"
      (.string "news")
    let c' := (Config.empty.set "topic" (.string "news")).set "flag" (.string "maybe")
    c.SameFor threeParameters c' ∧
      threeParameters.bind false ⟨1, 0, 0⟩ c' =
        (threeParameters.bind false ⟨0, 0, 0⟩ c).map (fun b => b.noted ⟨1, 0, 0⟩) ∧
      threeParameters.bind false ⟨0, 0, 0⟩ c =
        .error (.typeMismatch "flag" .boolean (.value (.string "maybe"))) ∧
      threeParameters.bind true ⟨0, 0, 0⟩ c = .error (.unknown "extra") := by
  intro c c'
  have hsame : c.SameFor threeParameters c' := by
    refine ⟨rfl, fun n hn v => ?_⟩
    have hentries : c.parameters.entries = [("extra", .integer 1), ("flag", .string "maybe"),
        ("topic", .string "news")] := rfl
    have hentries' : c'.parameters.entries = [("topic", .string "news"),
        ("flag", .string "maybe")] := rfl
    have hne : n ≠ "extra" := by
      rintro rfl
      revert hn
      decide
    rw [hentries, hentries']
    simp [hne, or_comm]
  exact ⟨hsame, (bind_reads_declared_names hsame _ _).1, rfl, rfl⟩

end Registry

/-! ### Values that are supplied again -/

/-- The binding with its value supplied at that time. -/
def Binding.supplied (x : Binding) (now : Timestamp) : Binding :=
  { x with origin := .override, resolvedAt := now }

/-- The set with the same names, types and values in the same order, all of them supplied for
a job of that name at that time. -/
def BindingSet.supplied (b : BindingSet) (jobName : Option String) (now : Timestamp) :
    BindingSet :=
  ⟨jobName, now, b.bindings.mapValues fun x => x.supplied now⟩

theorem BindingSet.value?_supplied (b : BindingSet) (jobName : Option String) (now : Timestamp)
    (n : String) : (b.supplied jobName now).value? n = b.value? n := by
  rw [value?, get?, supplied, OrderedMap.find?_mapValues, Option.map_map]
  rfl

theorem BindingSet.OwnNames.supplied {b : BindingSet} (h : b.OwnNames) (jobName : Option String)
    (now : Timestamp) : (b.supplied jobName now).OwnNames := by
  intro n x hx
  obtain ⟨⟨m, y⟩, hy, heq⟩ := List.mem_map.mp hx
  cases heq
  exact h m y hy

theorem BindingSet.keys_supplied (b : BindingSet) (jobName : Option String) (now : Timestamp) :
    (b.supplied jobName now).bindings.keys = b.bindings.keys :=
  OrderedMap.keys_mapValues _ _

/-- A value that a parameter was due is what it is due when it is supplied. -/
theorem ParameterSpec.Due.supplied {s : ParameterSpec} {now later : Timestamp}
    {given given' : OrderedMap Value} {x : Binding} (h : s.Due now given x) (hs : s.Sound)
    (hx : given'.find? s.name = some x.value) : s.Due later given' (x.supplied later) := by
  obtain ⟨htype, hfinite⟩ := h.of_sound hs
  have hself : coerce s.name x.value s.type = .ok x.value := by
    rw [coerce_eq_ok, ← htype]
    exact Value.toType?_self hfinite
  exact ⟨h.name, h.type, rfl, Or.inl ⟨x.value, hx, hself, rfl⟩⟩

namespace Registry

variable {r r' r₁ : Registry} {strict : Bool} {now : Timestamp} {c c' : Config} {b : BindingSet}

/-- The values of a bound set are bound to it again. -/
theorem bind_supplied (hr : r.Reachable) (hb : r.bind strict now c = .ok b)
    (hc' : c'.parameters.entries.Perm b.payload.values.entries) (strict' : Bool)
    (later : Timestamp) :
    r.bind strict' later c' = .ok (b.supplied c'.jobName later) := by
  obtain ⟨-, -, -, hdue⟩ := bind_eq_ok_iff_due.mp hb
  have hentries : b.payload.values.entries = b.bindings.entries.map fun e => (e.1, e.2.value) :=
    rfl
  have hgiven : ∀ e ∈ b.bindings.entries, c'.parameters.find? e.1 = some e.2.value := by
    intro e he
    rw [OrderedMap.find?_eq_some_iff, hc'.mem_iff, hentries]
    exact List.mem_map_of_mem he
  refine bind_eq_ok_iff_due.mpr ⟨fun _ n hn => ?_, rfl, rfl, ?_⟩
  · have hkeys : c'.parameters.keys.Perm b.bindings.keys := by
      have hperm := hc'.map Prod.fst
      rwa [hentries, List.map_map] at hperm
    rw [← keys_of_bind hb]
    exact hkeys.mem_iff.mp hn
  · -- Each declaration is sound, and what it was due is supplied under its name.
    have hsupplied := (List.forall₂_and_left _ _).mpr ⟨hgiven, hdue.flip⟩
    have hsound := (List.forall₂_and_left _ _).mpr ⟨hr.sound, hsupplied.flip⟩
    refine List.forall₂_map_right_iff.mpr (hsound.imp fun s e h => ?_)
    obtain ⟨hs, hvalue, hname, hse⟩ := h
    exact ⟨hname, hse.supplied hs (hname ▸ hvalue)⟩

/-- Where a set that suits was committed, nothing changes when it is committed again with its
values supplied. -/
theorem commit_supplied (hb : b.Suits r) (h : r.commit b = .ok r₁) (jobName : Option String)
    (later : Timestamp) : r₁.commit (b.supplied jobName later) = .ok r₁ := by
  refine commit_of_held (hb.ownNames.supplied jobName later) (fun n => ?_) fun n w hw => ?_
  · rw [BindingSet.keys_supplied]
    exact keys_of_commit hb.ownNames h n
  · rw [BindingSet.value?_supplied] at hw
    obtain ⟨v, hv, hsame⟩ := bound?_of_commit hb h hw
    exact ⟨v, hv, Value.same_symm hsame⟩

/-- To bind a configuration no slot is looked at. -/
theorem bind_of_specs (h : r.specs = r'.specs) (strict : Bool) (now : Timestamp) (c : Config) :
    r.bind strict now c = r'.bind strict now c := by
  have hcontains : r.contains = r'.contains := by
    funext n
    rw [Bool.eq_iff_iff, contains_iff, contains_iff, names_eq_map_specs, names_eq_map_specs, h]
  unfold bind firstForeign?
  rw [h, hcontains]

/-- **Bound values are bound again.** Whatever a reachable registry binds a configuration to,
the values that workers receive of it, supplied in any order, are bound, strictly or not, to
the same names, types and values in the same order, now all of them supplied. Where that set
was committed, the second one is committed too and leaves every slot as it is. -/
theorem bound_values_bind_again (hr : r.Reachable) (hb : r.bind strict now c = .ok b)
    (hc' : c'.parameters.entries.Perm b.payload.values.entries) (strict' : Bool)
    (later : Timestamp) :
    r.bind strict' later c' = .ok (b.supplied c'.jobName later) ∧
    ∀ r' r₁ : Registry, r'.specs = r.specs → r'.commit b = .ok r₁ →
      r₁.bind strict' later c' = .ok (b.supplied c'.jobName later) ∧
      r₁.commit (b.supplied c'.jobName later) = .ok r₁ := by
  have hagain := bind_supplied hr hb hc' strict' later
  refine ⟨hagain, fun r' r₁ hspecs hcommit => ⟨?_, ?_⟩⟩
  · rw [bind_of_specs ((specs_commit hcommit).trans hspecs)]
    exact hagain
  · have hsuits : b.Suits r' := by
      unfold BindingSet.Suits
      rw [hspecs]
      exact (suits_of_bind hr.sound hb).1
    exact commit_supplied hsuits hcommit c'.jobName later

/-- Minus zero and a text of blanks and digits are bound, and their values are supplied again
in the opposite order to a strict registry. -/
theorem bound_values_bind_again_eachType :
    let c := ((Config.empty.set "flag" (.string " TRUE ")).set "ratio" (.string " -0.0 ")).set
      "topic" (.integer 7)
    let c' : Config := ⟨some "again", .ofList [("flag", .boolean true),
      ("ratio", .float (Binary64.zero true)), ("count", .integer 2), ("topic", .string "7")]⟩
    ∃ b r₁, eachType.Reachable ∧ eachType.bind false ⟨0, 0, 0⟩ c = .ok b ∧
      c'.parameters.entries.Perm b.payload.values.entries ∧ eachType.commit b = .ok r₁ ∧
      eachType.bind true ⟨1, 0, 0⟩ c' = .ok (b.supplied (some "again") ⟨1, 0, 0⟩) ∧
      r₁.commit (b.supplied (some "again") ⟨1, 0, 0⟩) = .ok r₁ := by
  intro c c'
  have hall : Registry.empty.registerAll [("topic", ⟨none, none, none⟩),
      ("count", ⟨none, some (.integer 2), none⟩), ("ratio", ⟨some .float, none, none⟩),
      ("flag", ⟨some .boolean, none, none⟩)] = .ok eachType := by
    rfl
  have hr : eachType.Reachable := (reachable_registerAll .empty hall).1
  have hbound : ((eachType.bind false ⟨0, 0, 0⟩ c).map fun b => b.payload.values.entries) =
      .ok [("topic", .string "7"), ("count", .integer 2),
        ("ratio", .float (Binary64.zero true)), ("flag", .boolean true)] := by
    decide +kernel
  obtain ⟨b, hb, he⟩ := map_eq_ok_iff.mp hbound
  have hperm : c'.parameters.entries.Perm b.payload.values.entries := by
    have hreversed : c'.parameters.entries = [("topic", .string "7"), ("count", .integer 2),
        ("ratio", .float (Binary64.zero true)), ("flag", .boolean true)].reverse := rfl
    rw [he, hreversed]
    exact List.reverse_perm _
  have hunbound : ∀ n, eachType.bound? n = none := by
    intro n
    rw [Option.eq_none_iff_forall_ne_some]
    intro v hv
    obtain ⟨p, hp, -, hbound⟩ := bound?_eq_some_iff.mp hv
    have hnone : ∀ p ∈ eachType.parameters, p.bound = none := by decide
    rw [hnone p hp] at hbound
    cases hbound
  have hcommit := commit_of_bind hunbound hb
  obtain ⟨hagain, hcommitted⟩ := bound_values_bind_again hr hb hperm true ⟨1, 0, 0⟩
  exact ⟨b, _, hr, hb, hperm, hcommit, hagain, (hcommitted _ _ rfl hcommit).2⟩

end Registry
end JobParameters
