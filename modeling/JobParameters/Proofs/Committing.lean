/-
# What committing a set comes to

To commit a set has one of four outcomes (`Registry.Verdict`). A foreign name is looked
for first, in the order of the set; then names that the set lacks are told all together,
in the order of declaration; then comes the first name whose slot holds another value. If
none of these is found, the empty slots take the values of the set and the others keep
theirs. For a set whose bindings are listed under their own names, as in every set made
from a list, that is what a commit does and nothing else (`Registry.commit_eq_iff`). It changes
nothing if the slots hold the values of the set already (`Registry.commit_of_held`).

From then on a handle of any of the parameters finds its slot bound, whenever it was
minted and whatever else happens to the store (`Store.Step`, `Store.extends_of_steps`).

A set that came from elsewhere may have values of other types, and a commit does not look
at them: a slot has the type of the value that workers receive
(`Registry.committed_value_is_shipped`).
-/
import JobParameters.Proofs.Agreement
import JobParameters.Proofs.Outcome
import JobParameters.Proofs.Rereading
import JobParameters.Store

namespace JobParameters

namespace BindingSet

/-- A set made from a list lists each binding under its own name. -/
theorem ownNames_ofBindings (j : Option String) (now : Timestamp) (bs : List Binding) :
    (ofBindings j now bs).OwnNames := by
  intro n x hx
  have hf : (ofBindings j now bs).get? n = some x := OrderedMap.find?_eq_some_iff.mpr hx
  rw [get?_ofBindings] at hf
  simpa using List.find?_some hf

variable {b : BindingSet} {n : String} {v : Value}

theorem contains_iff : b.contains n = true ↔ n ∈ b.bindings.keys :=
  OrderedMap.contains_eq_true_iff

theorem mem_keys_iff : n ∈ b.bindings.keys ↔ ∃ v, b.value? n = some v := by
  simp only [value?_eq_some_iff, OrderedMap.keys, List.mem_map, Prod.exists]
  constructor
  · rintro ⟨k, x, hx, rfl⟩
    exact ⟨x.value, x, hx, rfl⟩
  · rintro ⟨v, x, hx, -⟩
    exact ⟨n, x, hx, rfl⟩

end BindingSet

namespace Registry

variable {r r' : Registry} {b : BindingSet}

/-- A registry is its declarations and what their names are bound to. -/
theorem parameters_eq_map_specs (r : Registry) :
    r.parameters = r.specs.map fun s => ⟨s, r.bound? s.name⟩ := by
  rw [specs, List.map_map]
  refine (List.map_id _).symm.trans (List.map_congr_left fun p hp => ?_)
  rw [Function.comp_apply, bound?_of_mem hp]
  rfl

theorem ext_bound? (hs : r.specs = r'.specs)
    (hb : ∀ s ∈ r.specs, r.bound? s.name = r'.bound? s.name) : r = r' := by
  refine ext_parameters ?_
  rw [parameters_eq_map_specs r, parameters_eq_map_specs r', ← hs]
  exact List.map_congr_left fun s hm => by rw [hb s hm]

/-- The declared names that a set does not list, in the order of declaration. -/
def unlisted (r : Registry) (b : BindingSet) : List String :=
  r.names.filter fun n => n ∉ b.bindings.keys

/-- The slot of a name holds another value than the one in the set. -/
def Clashes (r : Registry) (b : BindingSet) (n : String) : Prop :=
  ∃ v w, r.bound? n = some v ∧ b.value? n = some w ∧ v.same w = false

/-- What is to come of committing a set. -/
inductive Verdict (r : Registry) (b : BindingSet) : Except ParameterError Registry → Prop
  /-- The first name of the set that is not declared. -/
  | unknown {n : String} : FirstIn (fun n => n ∉ r.names) b.bindings.keys n →
      Verdict r b (.error (.unknown n))
  /-- All declared names that the set lacks. -/
  | missing : (∀ n ∈ b.bindings.keys, n ∈ r.names) → r.unlisted b ≠ [] →
      Verdict r b (.error (.missing (r.unlisted b)))
  /-- The first name of the set whose slot holds another value. -/
  | alreadyBound {n : String} : (∀ n, n ∈ b.bindings.keys ↔ n ∈ r.names) →
      FirstIn (r.Clashes b) b.bindings.keys n → Verdict r b (.error (.alreadyBound n))
  /-- Slots that held a value hold it, and the others have that of the set. -/
  | filled {r' : Registry} : (∀ n, n ∈ b.bindings.keys ↔ n ∈ r.names) →
      (∀ n, ¬ r.Clashes b n) → r'.specs = r.specs →
      (∀ n ∈ r.names, r'.bound? n = (r.bound? n).or (b.value? n)) → Verdict r b (.ok r')

theorem lacking_eq_unlisted (r : Registry) (b : BindingSet) : r.lacking b = r.unlisted b := by
  unfold lacking unlisted
  refine List.filter_congr fun n _ => ?_
  rw [Bool.eq_iff_iff, Bool.not_eq_true', ← Bool.not_eq_true, BindingSet.contains_iff,
    decide_eq_true_eq]

/-- The first binding with a foreign name is under the first foreign name of the set. -/
theorem find?_foreign_iff (hb : b.OwnNames) {n : String} :
    (∃ x, b.toList.find? (fun x => !r.contains x.name) = some x ∧ x.name = n) ↔
      FirstIn (fun n => n ∉ r.names) b.bindings.keys n := by
  have hp : ∀ x ∈ b.toList, ((!r.contains x.name) = true ↔ x.name ∉ r.names) := by
    intro x _
    rw [← contains_iff]
    simp
  simp only [find?_eq_some_iff_firstIn, FirstIn.congr hp]
  rw [← hb.map_name, firstIn_map_iff]

/-- A binding disagrees with the slot of its name if that clashes with the set. -/
theorem disagrees_iff (hb : b.OwnNames) {x : Binding} (hx : x ∈ b.toList) :
    r.disagrees x = true ↔ r.Clashes b x.name := by
  obtain ⟨n, hn⟩ := BindingSet.mem_toList_iff.mp hx
  obtain rfl := hb n x hn
  have hv : b.value? x.name = some x.value := BindingSet.value?_eq_some_iff.mpr ⟨x, hn, rfl⟩
  unfold disagrees Clashes
  cases r.bound? x.name with
  | none => simp
  | some v => simp [hv]

theorem find?_disagrees_iff (hb : b.OwnNames) {n : String} :
    (∃ x, b.toList.find? r.disagrees = some x ∧ x.name = n) ↔
      FirstIn (r.Clashes b) b.bindings.keys n := by
  have hp : ∀ x ∈ b.toList, (r.disagrees x = true ↔ r.Clashes b x.name) :=
    fun x hx => disagrees_iff hb hx
  simp only [find?_eq_some_iff_firstIn, FirstIn.congr hp]
  rw [← hb.map_name, firstIn_map_iff]

/-- Filling the slots from a set gives the empty ones the values of the set. -/
theorem bound?_fill_toList (hb : b.OwnNames) {n : String} (hn : n ∈ r.names) :
    (r.fill b.toList).bound? n = (r.bound? n).or (b.value? n) := by
  rw [bound?_fill _ hn, hb.find?_toList, BindingSet.value?]

theorem clashes_mem {n : String} (h : r.Clashes b n) : n ∈ b.bindings.keys := by
  obtain ⟨-, w, -, hw, -⟩ := h
  exact BindingSet.mem_keys_iff.mpr ⟨w, hw⟩

/-- What comes of committing a set is what is to come of it. -/
theorem verdict_commit (hb : b.OwnNames) : r.Verdict b (r.commit b) := by
  unfold commit
  split
  · next x hx => exact .unknown ((find?_foreign_iff hb).mp ⟨x, hx, rfl⟩)
  · next hforeign =>
    have hknown : ∀ n ∈ b.bindings.keys, n ∈ r.names := by
      intro n hn
      obtain ⟨x, hx, rfl⟩ := List.mem_map.mp (hb.map_name ▸ hn)
      have := List.find?_eq_none.mp hforeign x hx
      simpa [contains_iff] using this
    rw [lacking_eq_unlisted]
    split
    · next n ns hl =>
      rw [← hl]
      exact .missing hknown (by simp [hl])
    · next hl =>
      have hsame : ∀ n, n ∈ b.bindings.keys ↔ n ∈ r.names := by
        refine fun n => ⟨hknown n, fun hn => ?_⟩
        by_contra hk
        have : n ∈ r.unlisted b := List.mem_filter.mpr ⟨hn, by simpa using hk⟩
        rw [hl] at this
        cases this
      split
      · next x hx => exact .alreadyBound hsame ((find?_disagrees_iff hb).mp ⟨x, hx, rfl⟩)
      · next hagree =>
        refine .filled hsame (fun n hn => ?_) (specs_fill r _)
          fun n hn => bound?_fill_toList hb hn
        obtain ⟨x, hx, rfl⟩ := List.mem_map.mp (hb.map_name ▸ clashes_mem hn)
        exact List.find?_eq_none.mp hagree x hx ((disagrees_iff hb hx).mpr hn)

theorem unlisted_eq_nil (h : ∀ n, n ∈ b.bindings.keys ↔ n ∈ r.names) : r.unlisted b = [] := by
  refine List.filter_eq_nil_iff.mpr fun n hn => ?_
  simpa using (h n).mpr hn

/-- A set has one verdict. -/
theorem Verdict.unique {x y : Except ParameterError Registry} (hx : r.Verdict b x)
    (hy : r.Verdict b y) : x = y := by
  cases hx with
  | unknown hf =>
    obtain ⟨hmem, hn⟩ := hf.mem
    cases hy with
    | unknown hf' => rw [hf.unique hf']
    | missing hk _ => exact absurd (hk _ hmem) hn
    | alreadyBound hk _ => exact absurd ((hk _).mp hmem) hn
    | filled hk _ _ _ => exact absurd ((hk _).mp hmem) hn
  | missing hk hl =>
    cases hy with
    | unknown hf => exact absurd (hk _ hf.mem.1) hf.mem.2
    | missing _ _ => rfl
    | alreadyBound hk' _ => exact absurd (unlisted_eq_nil hk') hl
    | filled hk' _ _ _ => exact absurd (unlisted_eq_nil hk') hl
  | alreadyBound hk hf =>
    cases hy with
    | unknown hf' => exact absurd ((hk _).mp hf'.mem.1) hf'.mem.2
    | missing _ hl => exact absurd (unlisted_eq_nil hk) hl
    | alreadyBound _ hf' => rw [hf.unique hf']
    | filled _ hc _ _ => exact absurd hf.mem.2 (hc _)
  | filled hk hc hs hb =>
    cases hy with
    | unknown hf => exact absurd ((hk _).mp hf.mem.1) hf.mem.2
    | missing _ hl => exact absurd (unlisted_eq_nil hk) hl
    | alreadyBound _ hf => exact absurd hf.mem.2 (hc _)
    | filled _ _ hs' hb' =>
      rw [ext_bound? (hs.trans hs'.symm) fun s hm => ?_]
      have hn : s.name ∈ r.names := by
        rw [names_eq_map_specs, ← hs]
        exact List.mem_map_of_mem hm
      rw [hb _ hn, hb' _ hn]

/-- A commit has the outcome that is specified, and no other. -/
theorem commit_eq_iff (hb : b.OwnNames) {x : Except ParameterError Registry} :
    r.commit b = x ↔ r.Verdict b x := by
  constructor
  · rintro rfl
    exact verdict_commit hb
  · exact (verdict_commit hb).unique

/-- After a commit every slot holds a value: the one it held, or that of the set. -/
theorem bound_of_commit (hb : b.OwnNames) (h : r.commit b = .ok r') {n : String}
    (hn : n ∈ r.names) : ∃ v, b.value? n = some v ∧
      (r'.bound? n = some v ∨ ∃ u, r.bound? n = some u ∧ r'.bound? n = some u ∧
        u.same v = true) := by
  cases (commit_eq_iff hb).mp h with
  | filled hk hc hs hfill =>
    obtain ⟨v, hv⟩ := BindingSet.mem_keys_iff.mp ((hk n).mpr hn)
    refine ⟨v, hv, ?_⟩
    rw [hfill n hn, hv]
    cases hu : r.bound? n with
    | none => exact Or.inl rfl
    | some u =>
      refine Or.inr ⟨u, rfl, rfl, ?_⟩
      by_contra hd
      exact hc n ⟨u, v, hu, hv, by simpa using hd⟩

/-- A set that was committed lists what is declared. -/
theorem keys_of_commit (hb : b.OwnNames) (h : r.commit b = .ok r') (n : String) :
    n ∈ b.bindings.keys ↔ n ∈ r'.names := by
  rw [names_eq_map_specs, specs_commit h, ← names_eq_map_specs]
  cases (commit_eq_iff hb).mp h with
  | filled hk _ _ _ => exact hk n

/-- A set whose values the slots hold already is committed, and nothing changes. -/
theorem commit_of_held (hb : b.OwnNames) (hk : ∀ n, n ∈ b.bindings.keys ↔ n ∈ r.names)
    (hheld : ∀ n w, b.value? n = some w → ∃ v, r.bound? n = some v ∧ v.same w = true) :
    r.commit b = .ok r := by
  refine (commit_eq_iff hb).mpr (.filled hk (fun n hn => ?_) rfl fun n hn => ?_)
  · obtain ⟨v, w, hv, hw, hd⟩ := hn
    obtain ⟨u, hu, hsame⟩ := hheld n w hw
    obtain rfl : v = u := Option.some.inj (hv.symm.trans hu)
    cases hd.symm.trans hsame
  · obtain ⟨w, hw⟩ := BindingSet.mem_keys_iff.mp ((hk n).mpr hn)
    obtain ⟨v, hv, -⟩ := hheld n w hw
    rw [hv, Option.some_or]

end Registry

/-! ### Sets from elsewhere -/

namespace Registry

variable {r : Registry} {b : BindingSet}

/-- If a commit of the set goes through, each parameter is bound to the value that workers
receive, and that is of the declared type. -/
def Honours (r : Registry) (b : BindingSet) : Prop :=
  ∀ r', r.commit b = .ok r' → ∀ s ∈ r.specs, ∃ v w, r'.bound? s.name = some v ∧
    b.payload.values.find? s.name = some w ∧ v.same w = true ∧ v.type = s.type

/-- **What is committed is what workers receive.** Take any set that lists its bindings
under their own names, as every set does that is made from a list, whatever types and
values they have. If a commit of it goes through, each declared parameter is bound; what
it is bound to is the very value that workers receive, or was there before and is the same,
and it is of the declared type exactly if that value is. -/
theorem committed_value_is_shipped
    (hb : b.OwnNames ∨ ∃ j now bs, b = BindingSet.ofBindings j now bs) {r' : Registry}
    (h : r.commit b = .ok r') :
    r'.specs = r.specs ∧ ∀ s ∈ r.specs, ∃ v w, r'.bound? s.name = some v ∧
      b.payload.values.find? s.name = some w ∧
      (v = w ∨ (r.bound? s.name = some v ∧ v.same w = true)) ∧
      (v.type = s.type ↔ w.type = s.type) := by
  have hown : b.OwnNames := by
    rcases hb with hb | ⟨j, now, bs, rfl⟩
    · exact hb
    · exact BindingSet.ownNames_ofBindings j now bs
  refine ⟨specs_commit h, fun s hs => ?_⟩
  have hn : s.name ∈ r.names := by
    rw [names_eq_map_specs]
    exact List.mem_map_of_mem hs
  obtain ⟨w, hw, hv⟩ := bound_of_commit hown h hn
  have hship : b.payload.values.find? s.name = some w := by
    rw [BindingSet.payload, OrderedMap.find?_mapValues]
    exact hw
  rcases hv with hv | ⟨u, hu, hv, hsame⟩
  · exact ⟨w, w, hv, hship, Or.inl rfl, Iff.rfl⟩
  · exact ⟨u, w, hv, hship, Or.inr ⟨hu, hsame⟩, by rw [Value.type_eq_of_same hsame]⟩

/-- A registry with a declared parameter of each name, of that type. -/
def ofTypes (ts : List (String × ParamType)) (h : (ts.map Prod.fst).Nodup) : Registry where
  parameters := ts.map fun (n, t) => ⟨⟨n, t, none, none⟩, none⟩
  distinct := by simpa [Function.comp_def] using h

/-- A set with a text for an integer and a NaN, and one for a slot that has the other zero. -/
theorem committed_value_is_shipped_unsuited :
    let r : Registry := ofTypes [("width", .integer), ("ratio", .float)] (by decide)
    let b := BindingSet.ofValues none ⟨0, 0, 0⟩
      [("ratio", .float Binary64.nan), ("width", .string "three")]
    ∃ r', r.commit b = .ok r' ∧ r'.bound? "width" = some (.string "three") ∧
      ∃ v w, r'.bound? "ratio" = some v ∧ b.payload.values.find? "ratio" = some w ∧
        (v = w ∨ (r.bound? "ratio" = some v ∧ v.same w = true)) ∧
        (v.type = .float ↔ w.type = .float) := by
  intro r b
  refine ⟨_, rfl, by decide +kernel, ?_⟩
  exact (committed_value_is_shipped (r := r) (b := b) (Or.inr ⟨_, _, _, rfl⟩) rfl).2
    ⟨"ratio", .float, none, none⟩ (by decide +kernel)

/-- Two bindings of one name, listed under two. -/
def misnamed : BindingSet :=
  let x (n : Int64) : Binding := ⟨"low", .integer, .integer n, .override, ⟨0, 0, 0⟩⟩
  ⟨none, ⟨0, 0, 0⟩, OrderedMap.ofList [("low", x 1), ("high", x 2)]⟩

/-- Commits go through that bind a parameter to a value of another type, or to a NaN, which
is the same as nothing; and a set that was read from a document may list a binding under
another name than its own, so that a slot stays empty. -/
theorem not_honours_unsuited :
    ¬ (ofTypes [("width", .integer)] (by decide)).Honours
      (BindingSet.ofValues none ⟨0, 0, 0⟩ [("width", .string "three")]) ∧
    ¬ (ofTypes [("ratio", .float)] (by decide)).Honours
      (BindingSet.ofValues none ⟨0, 0, 0⟩ [("ratio", .float Binary64.nan)]) ∧
    ∃ b, (Json.parse? misnamed.toJson.compact).bind BindingSet.ofJson? = some b ∧
      ¬ (ofTypes [("low", .integer), ("high", .integer)] (by decide)).Honours b := by
  refine ⟨fun h => ?_, fun h => ?_, ?_⟩
  · obtain ⟨v, w, hv, -, -, ht⟩ := h _ rfl ⟨"width", .integer, none, none⟩ (by decide +kernel)
    cases hv
    cases ht
  · obtain ⟨v, w, hv, hw, hs, -⟩ := h _ rfl ⟨"ratio", .float, none, none⟩ (by decide +kernel)
    cases hv
    cases hw
    exact absurd hs (by decide +kernel)
  · have hd : ((Json.parse? misnamed.toJson.compact).bind BindingSet.ofJson?).bind (fun b =>
        ((ofTypes [("low", .integer), ("high", .integer)] (by decide)).commit b).toOption.map
          fun r' => r'.bound? "high") = some none := by
      rw [Json.parse?_compact]
      decide +kernel
    obtain ⟨b, hb, hd⟩ := Option.bind_eq_some_iff.mp hd
    obtain ⟨r', hr', hnone⟩ := Option.map_eq_some_iff.mp hd
    refine ⟨b, hb, fun h => ?_⟩
    cases hc : (ofTypes [("low", .integer), ("high", .integer)] (by decide)).commit b with
    | error e =>
      rw [hc] at hr'
      cases hr'
    | ok q =>
      rw [hc] at hr'
      obtain rfl : q = r' := Option.some.inj hr'
      obtain ⟨v, w, hv, -⟩ := h q hc ⟨"high", .integer, none, none⟩ (by decide +kernel)
      rw [hnone] at hv
      cases hv

end Registry

/-! ### Handles -/

namespace Store

/-- What can happen to the topologies of a store and their handles. -/
inductive Step : Store → Store → Prop
  | addTopology {s : Store} (t : Topology) : Step s (s.addTopology t).1
  /-- A declaration mints a handle, also of a parameter that is declared already. -/
  | declare {s : Store} {k : Nat} {t t' : Topology} {name : String} {default : Option Value}
      {type : Option ParamType} {spec : ParameterSpec} : s.topologies[k]? = some t →
      t.declare name default type = .ok (t', spec) →
      Step s ((s.setTopology k t').mint (.fresh k spec)).1
  /-- A handle of a declared parameter is asked for. -/
  | lookUp {s : Store} {k : Nat} {t : Topology} {name : String} {spec : ParameterSpec} :
      s.topologies[k]? = some t → t.registry.spec? name = some spec →
      Step s (s.mint (.fresh k spec)).1
  | copy {s : Store} {m : Nat} {h : Handle} : s.handles[m]? = some h → Step s (s.mint h.copy).1
  | read {s : Store} (current : Option ExecutionContext) (m : Nat) :
      Step s (s.read current m).1
  | commit {s : Store} {k : Nat} {t t' : Topology} {b : BindingSet} {x : Submission} :
      s.topologies[k]? = some t → t.commit b = .ok (t', x) → Step s (s.setTopology k t')

variable {s s' : Store} {i : Nat} {t : Topology}

/-- A topology that is changed in its place only grows if the new one does. -/
theorem extends_setTopology {k : Nat} {t₁ t₂ : Topology} (hi : s.topologies[i]? = some t)
    (hk : s.topologies[k]? = some t₁) (h : t₁.registry.Extends t₂.registry) :
    ∃ t', (s.setTopology k t₂).topologies[i]? = some t' ∧
      t.registry.Extends t'.registry := by
  by_cases hki : k = i
  · subst hki
    obtain rfl : t = t₁ := Option.some.inj (hi.symm.trans hk)
    have hlt : k < s.topologies.length := (List.getElem?_eq_some_iff.mp hi).1
    exact ⟨t₂, by simp [setTopology, hlt], h⟩
  · exact ⟨t, by simp [setTopology, List.getElem?_set_ne hki, hi], .refl _⟩

theorem extends_of_step (h : Step s s') (hi : s.topologies[i]? = some t) :
    ∃ t', s'.topologies[i]? = some t' ∧ t.registry.Extends t'.registry := by
  cases h with
  | addTopology t₁ =>
    have hlt : i < s.topologies.length := (List.getElem?_eq_some_iff.mp hi).1
    exact ⟨t, by simp [addTopology, List.getElem?_append_left hlt, hi], .refl _⟩
  | declare hk hd =>
    obtain ⟨_, r, -, hr, rfl⟩ := Topology.declare_cases hd
    exact extends_setTopology hi hk (Registry.extends_register hr)
  | lookUp _ _ => exact ⟨t, hi, .refl _⟩
  | copy _ => exact ⟨t, hi, .refl _⟩
  | read current m => exact ⟨t, by rw [topologies_read, hi], .refl _⟩
  | commit hk hc =>
    obtain ⟨r, hr, rfl, -⟩ := Topology.commit_eq_ok_iff.mp hc
    exact extends_setTopology hi hk (Registry.extends_commit hr)

/-- Whatever happens, the registry of a topology grows. -/
theorem extends_of_steps (h : Relation.ReflTransGen Step s s') (hi : s.topologies[i]? = some t) :
    ∃ t', s'.topologies[i]? = some t' ∧ t.registry.Extends t'.registry := by
  induction h with
  | refl => exact ⟨t, hi, .refl _⟩
  | tail _ hstep ih =>
    obtain ⟨t₁, h₁, hext₁⟩ := ih
    obtain ⟨t₂, h₂, hext₂⟩ := extends_of_step hstep h₁
    exact ⟨t₂, h₂, hext₁.trans hext₂⟩

/-- A handle finds its slot bound from the moment it is. -/
theorem isSome_bound?_of_steps (h : Relation.ReflTransGen Step s s')
    (hi : s.topologies[i]? = some t) {q : Handle} (hq : q.topology = i)
    (hb : (t.registry.bound? q.spec.name).isSome = true) : (s'.bound? q).isSome = true := by
  obtain ⟨t', hi', hext⟩ := extends_of_steps h hi
  obtain ⟨v, hv⟩ := Option.isSome_iff_exists.mp hb
  subst hq
  rw [bound?, hi', Option.bind_some, hext.bound _ v hv]
  rfl

/-- **A commit binds everything or nothing.** Take a topology of a store, whatever slots
are bound, and a set made from any list of bindings; it lists each name where that first
comes in, with the last binding of the name. To commit it has the outcome that is
specified, and no other. Carried out slot by slot, a commit that is refused has written
nothing; one that goes through has left the bound slots as they were and the others with
the values of the set. Every parameter is bound then, and so does every handle of it say,
whatever happens next and whichever way the handle is minted. -/
theorem commit_all_or_nothing (hi : s.topologies[i]? = some t) (j : Option String)
    (now : Timestamp) (bs : List Binding) :
    let b := BindingSet.ofBindings j now bs
    let r := t.registry
    (b.bindings.keys = (bs.map Binding.name).eraseDups ∧
      ∀ n, b.get? n = bs.reverse.find? fun x => x.name == n) ∧
    (∀ x, r.commit b = x ↔ r.Verdict b x) ∧
    (∀ e, r.commit b = .error e → (Registry.commitInPlace b).run r = (.error e, r)) ∧
    ∀ r', r.commit b = .ok r' → (Registry.commitInPlace b).run r = (.ok (), r') ∧
      (∀ n v, r.bound? n = some v → r'.bound? n = some v) ∧
      (∀ n ∈ r.names, r.bound? n = none → r'.bound? n = b.value? n) ∧
      (∀ n ∈ r.names, (r'.bound? n).isSome = true) ∧
      ∀ s', Relation.ReflTransGen Step (s.setTopology i { t with registry := r' }) s' →
        ∀ q ∈ s'.handles, q.topology = i → q.spec.name ∈ r.names →
          (s'.bound? q).isSome = true := by
  intro b r
  have hown : b.OwnNames := BindingSet.ownNames_ofBindings j now bs
  refine ⟨⟨BindingSet.keys_ofBindings j now bs, BindingSet.get?_ofBindings j now bs⟩,
    fun x => Registry.commit_eq_iff hown, fun e he => ?_, fun r' hr' => ?_⟩
  · rw [Registry.run_commitInPlace, he]
  · have hbound : ∀ n ∈ r.names, (r'.bound? n).isSome = true := by
      intro n hn
      obtain ⟨v, -, hv | ⟨u, -, hu, -⟩⟩ := Registry.bound_of_commit hown hr' hn
      · simp [hv]
      · simp [hu]
    refine ⟨by rw [Registry.run_commitInPlace, hr'], (Registry.extends_commit hr').bound,
      fun n hn hnone => ?_, hbound, fun s' hs' q _ hq hn => ?_⟩
    · obtain ⟨v, hv, hv' | ⟨u, hu, -⟩⟩ := Registry.bound_of_commit hown hr' hn
      · rw [hv', hv]
      · rw [hnone] at hu
        cases hu
    · have hlt : i < s.topologies.length := (List.getElem?_eq_some_iff.mp hi).1
      have hset : (s.setTopology i { t with registry := r' }).topologies[i]? =
          some { t with registry := r' } := by
        simp [setTopology, hlt]
      exact isSome_bound?_of_steps hs' hset hq (hbound _ hn)

/-- A topology with a bound and an unbound parameter. -/
def partlyBound : Topology where
  name := "jobs"
  strict := false
  registry := {
    parameters := [⟨⟨"count", .integer, none, none⟩, some (.integer 1)⟩,
      ⟨⟨"topic", .string, none, none⟩, none⟩]
    distinct := by decide }

/-- Of the two counts the last one is that of the slot, so the topic is bound, also for a
handle that is looked up afterwards. The count alone lacks the topic. -/
theorem commit_all_or_nothing_partlyBound :
    let now : Timestamp := ⟨0, 0, 0⟩
    let x (name : String) (v : Value) : Binding := ⟨name, v.type, v, .override, now⟩
    let bs := [x "count" (.integer 0), x "topic" (.string "news"), x "count" (.integer 1)]
    let count := BindingSet.ofBindings none now [x "count" (.integer 7)]
    ∃ r', partlyBound.registry.commit (BindingSet.ofBindings none now bs) = .ok r' ∧
      r'.bound? "topic" = some (.string "news") ∧
      partlyBound.registry.Verdict count (.error (.missing ["topic"])) ∧
      ∀ s', Relation.ReflTransGen Step (setTopology ⟨[partlyBound], []⟩ 0
          { partlyBound with registry := r' }) s' →
        ∀ q ∈ s'.handles, q = .fresh 0 ⟨"topic", .string, none, none⟩ →
          (s'.bound? q).isSome = true := by
  intro now x bs count
  have hi : (Store.mk [partlyBound] []).topologies[0]? = some partlyBound := rfl
  have h := commit_all_or_nothing hi none now bs
  have hmissing : partlyBound.registry.Verdict count (.error (.missing ["topic"])) :=
    ((commit_all_or_nothing hi none now [x "count" (.integer 7)]).2.1 _).mp (by rfl)
  refine ⟨_, rfl, by decide +kernel, hmissing, fun s' hs' q hm hq => ?_⟩
  subst hq
  exact (h.2.2.2 _ rfl).2.2.2.2 s' hs' _ hm rfl (by decide)

end Store

end JobParameters
