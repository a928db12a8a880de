/-
# What a submission resolves to

A configuration that is bound gives each declared parameter, in their order, the binding
that it is due (`ParameterSpec.Due`, `Registry.bind_eq_ok_iff`). Such a set suits the
registry (`BindingSet.Suits`): every binding is listed under its own name, which is declared,
and its value is finite and of the declared type. A set goes on to suit the registry while
that grows, and to commit it binds each of its names to a value that is the same as its own
(`Registry.bound?_of_commit`) and keeps the slots typed (`Registry.Typed`).
-/
import JobParameters.Proofs.Growth

namespace JobParameters

/-- Resolutions are collected without a gap exactly if all of them are bindings. -/
theorem Resolution.collect_eq_ok_nil_iff : ∀ {rs : List Resolution} {bs : List Binding},
    collect rs = .ok (bs, []) ↔ rs = bs.map .bound
  | [], bs => by
    cases bs <;> simp [collect]
  | .refused e :: rs, bs => by
    cases bs <;> simp [collect]
  | .missing n :: rs, bs => by
    cases bs <;> cases h : collect rs <;> simp [collect, h, Except.map]
  | .bound b :: rs, bs => by
    have ih := @collect_eq_ok_nil_iff rs
    cases bs with
    | nil => cases h : collect rs <;> simp [collect, h, Except.map]
    | cons b' bs =>
      rw [List.map_cons, List.cons.injEq, Resolution.bound.injEq, ← ih]
      cases h : collect rs with
      | error e => simp [collect, h, Except.map]
      | ok c =>
        obtain ⟨bs', ns⟩ := c
        simp [collect, h, Except.map, and_assoc]

namespace ParameterSpec

variable {s : ParameterSpec} {now : Timestamp} {supplied : OrderedMap Value}

/-- The binding that the parameter is due: what is supplied, coerced to the declared type,
or else the default. -/
structure Due (s : ParameterSpec) (now : Timestamp) (supplied : OrderedMap Value)
    (x : Binding) : Prop where
  name : x.name = s.name
  type : x.type = s.type
  resolvedAt : x.resolvedAt = now
  value : (∃ v, supplied.find? s.name = some v ∧ coerce s.name v s.type = .ok x.value ∧
      x.origin = .override) ∨
    (supplied.find? s.name = none ∧ s.default = some x.value ∧ x.origin = .default)

/-- A parameter resolves to a binding exactly if that is due. -/
theorem resolve_eq_bound_iff {x : Binding} :
    s.resolve now supplied = .bound x ↔ s.Due now supplied x := by
  obtain ⟨name, type, value, origin, resolvedAt⟩ := x
  unfold resolve
  constructor
  · intro h
    split at h
    · next v hv =>
      split at h
      · next w hw =>
        cases h
        exact ⟨rfl, rfl, rfl, Or.inl ⟨v, hv, hw, rfl⟩⟩
      · cases h
    · next v hv hd =>
      cases h
      exact ⟨rfl, rfl, rfl, Or.inr ⟨hv, hd, rfl⟩⟩
    · cases h
  · rintro ⟨rfl, rfl, rfl, ⟨v, hv, hw, rfl⟩ | ⟨hv, hd, rfl⟩⟩
    · simp only [hv, hw]
    · simp only [hv, hd]

/-- What a sound declaration is due is finite and of its type. -/
theorem Due.of_sound {x : Binding} (h : s.Due now supplied x) (hs : s.Sound) :
    x.value.type = s.type ∧ x.value.isFinite = true := by
  rcases h.value with ⟨v, -, hw, -⟩ | ⟨-, hd, -⟩
  · have hw := coerce_eq_ok.mp hw
    exact ⟨Value.type_of_toType? hw, Value.isFinite_of_toType? hw⟩
  · exact ⟨hs.type_default _ hd, hs.finite_default _ hd⟩

end ParameterSpec

/-- A binding set that suits a registry: every binding is listed under its own name,
which is declared, with a finite value of the declared type. -/
def BindingSet.Suits (b : BindingSet) (r : Registry) : Prop :=
  ∀ n x, (n, x) ∈ b.bindings.entries → x.name = n ∧ x.value.isFinite = true ∧
    ∃ s ∈ r.specs, s.name = n ∧ x.value.type = s.type

theorem BindingSet.Suits.mono {b : BindingSet} {r r' : Registry} (h : b.Suits r)
    (hr : r.Extends r') : b.Suits r' := by
  intro n x hx
  obtain ⟨h1, h2, s, hs, h3⟩ := h n x hx
  exact ⟨h1, h2, s, hr.mem_specs hs, h3⟩

namespace BindingSet

variable {b : BindingSet} {r : Registry} {n : String} {x : Binding}

/-- Every binding is listed under its own name. -/
def OwnNames (b : BindingSet) : Prop := ∀ n x, (n, x) ∈ b.bindings.entries → x.name = n

theorem Suits.ownNames (h : b.Suits r) : b.OwnNames := fun n x hx => (h n x hx).1

theorem Suits.of_mem (h : b.Suits r) (hx : x ∈ b.toList) : x.value.isFinite = true ∧
    ∃ s ∈ r.specs, s.name = x.name ∧ x.value.type = s.type := by
  obtain ⟨n, hn⟩ := mem_toList_iff.mp hx
  obtain ⟨rfl, hf, hs⟩ := h n x hn
  exact ⟨hf, hs⟩

/-- Under the name of a binding the set has its value. -/
theorem OwnNames.value?_eq (h : b.OwnNames) (hx : x ∈ b.toList) :
    b.value? x.name = some x.value := by
  obtain ⟨n, hn⟩ := mem_toList_iff.mp hx
  obtain rfl := h n x hn
  exact value?_eq_some_iff.mpr ⟨x, hn, rfl⟩

theorem OwnNames.map_name (h : b.OwnNames) : b.toList.map Binding.name = b.bindings.keys := by
  simp only [toList, OrderedMap.values, OrderedMap.keys, List.map_map]
  exact List.map_congr_left fun e he => h e.1 e.2 he

/-- The binding of a name is the one that is listed under it. -/
theorem OwnNames.find?_toList (h : b.OwnNames) (n : String) :
    (b.toList.find? fun y => y.name == n) = b.get? n := by
  have hd : (b.toList.map Binding.name).Nodup := by
    rw [h.map_name]
    exact b.bindings.distinct
  ext x
  rw [find?_key_eq_some_iff hd, mem_toList_iff, get?, OrderedMap.find?_eq_some_iff]
  constructor
  · rintro ⟨⟨k, hk⟩, rfl⟩
    rwa [h k x hk]
  · intro hx
    exact ⟨⟨n, hx⟩, h n x hx⟩

end BindingSet

namespace Registry

variable {r r' : Registry} {strict : Bool} {now : Timestamp} {c : Config} {b : BindingSet}

/-- A configuration is bound exactly if no name is refused and every declaration
resolves to a binding; these make up the set. -/
theorem bind_eq_ok_iff : r.bind strict now c = .ok b ↔
    r.firstForeign? strict c.parameters = none ∧
      ∃ bs, (r.specs.map fun s => s.resolve now c.parameters) = bs.map .bound ∧
        b = BindingSet.ofBindings c.jobName now bs := by
  unfold bind
  split
  · next n hn => simp [hn]
  · next hn =>
    simp only [hn, true_and, ← Resolution.collect_eq_ok_nil_iff]
    split
    · next e he => simp [he]
    · next bs he => simp [he, eq_comm]
    · next bs n ns he => simp [he]

/-- The list of what declarations resolve to is bindings only if they are due. -/
theorem map_resolve_eq_iff {supplied : OrderedMap Value} :
    ∀ {ss : List ParameterSpec} {bs : List Binding},
      (ss.map fun s => s.resolve now supplied) = bs.map .bound ↔
        List.Forall₂ (fun s x => s.Due now supplied x) ss bs
  | [], [] => by simp
  | [], x :: bs => by simp
  | s :: ss, [] => by simp
  | s :: ss, x :: bs => by
    rw [List.map_cons, List.map_cons, List.cons.injEq, ParameterSpec.resolve_eq_bound_iff,
      map_resolve_eq_iff, List.forall₂_cons]

/-- Bindings that are due have the names of the declarations, in their order. -/
theorem map_name_of_due {supplied : OrderedMap Value} {ss : List ParameterSpec}
    {bs : List Binding} (h : List.Forall₂ (fun s x => s.Due now supplied x) ss bs) :
    bs.map Binding.name = ss.map ParameterSpec.name := by
  induction h with
  | nil => rfl
  | cons hx _ ih => rw [List.map_cons, List.map_cons, hx.name, ih]

/-- A bound configuration suits the registry, and lists its names in their order. -/
theorem suits_of_bind (hr : ∀ s ∈ r.specs, s.Sound) (h : r.bind strict now c = .ok b) :
    b.Suits r ∧ b.bindings.keys = r.names := by
  obtain ⟨-, bs, hbs, rfl⟩ := bind_eq_ok_iff.mp h
  have hnames : bs.map Binding.name = r.names := by
    rw [map_name_of_due (map_resolve_eq_iff.mp hbs), names_eq_map_specs]
  have hd : (bs.map Binding.name).Nodup := hnames ▸ r.distinct
  have he : (BindingSet.ofBindings c.jobName now bs).bindings.entries =
      bs.map fun x => (x.name, x) := BindingSet.entries_ofBindings hd
  constructor
  · intro n x hx
    rw [he, List.mem_map] at hx
    obtain ⟨y, hy, heq⟩ := hx
    obtain ⟨rfl, rfl⟩ := Prod.mk.inj heq
    have hm : Resolution.bound y ∈ r.specs.map fun s => s.resolve now c.parameters := by
      rw [hbs]
      exact List.mem_map_of_mem hy
    obtain ⟨s, hs, hsy⟩ := List.mem_map.mp hm
    have hdue : s.Due now c.parameters y := ParameterSpec.resolve_eq_bound_iff.mp hsy
    obtain ⟨htype, hfin⟩ := hdue.of_sound (hr s hs)
    exact ⟨rfl, hfin, s, hs, hdue.name.symm, htype⟩
  · rw [← hnames, OrderedMap.keys, he, List.map_map]
    rfl

/-! ### Committing a set that suits -/

/-- Every slot that holds a value holds a finite one of the declared type. -/
def Typed (r : Registry) : Prop :=
  ∀ n v, r.bound? n = some v → v.isFinite = true ∧ ∃ s ∈ r.specs, s.name = n ∧ v.type = s.type

/-- A name that a committed set lists is bound to the same value as in the set. -/
theorem bound?_of_commit (hb : b.Suits r) (h : r.commit b = .ok r') {n : String} {v : Value}
    (hv : b.value? n = some v) : ∃ u, r'.bound? n = some u ∧ v.same u = true := by
  obtain ⟨hknown, -, hagree, rfl⟩ := commit_eq_ok_iff.mp h
  obtain ⟨x, hx, rfl⟩ := BindingSet.value?_eq_some_iff.mp hv
  obtain ⟨rfl, hfin, -⟩ := hb n x hx
  have hmem : x ∈ b.toList := BindingSet.mem_toList_iff.mpr ⟨_, hx⟩
  rw [bound?_fill _ (hknown x hmem), hb.ownNames.find?_toList, BindingSet.get?,
    OrderedMap.find?_eq_some_iff.mpr hx]
  cases hu : r.bound? x.name with
  | some u => exact ⟨u, rfl, Value.same_symm (hagree x hmem u hu)⟩
  | none => exact ⟨x.value, rfl, Value.same_self hfin⟩

/-- Filling slots with finite values of the declared types keeps the slots typed. -/
theorem Typed.fill (ht : r.Typed) {bs : List Binding}
    (h : ∀ x ∈ bs, x.value.isFinite = true ∧
      ∃ s ∈ r.specs, s.name = x.name ∧ x.value.type = s.type) : (r.fill bs).Typed := by
  intro n v hv
  have hn : n ∈ r.names := by
    rw [← names_fill bs]
    exact mem_names_of_bound? hv
  rw [specs_fill]
  rw [bound?_fill _ hn] at hv
  cases hu : r.bound? n with
  | some u =>
    rw [hu, Option.some_or] at hv
    exact ht n v (hu.trans hv)
  | none =>
    rw [hu, Option.none_or] at hv
    obtain ⟨x, hx, rfl⟩ := Option.map_eq_some_iff.mp hv
    have hxn : x.name = n := by simpa using List.find?_some hx
    obtain ⟨hf, s, hs, hsn, hst⟩ := h x (List.mem_of_find?_eq_some hx)
    exact ⟨hf, s, hs, hsn.trans hxn, hst⟩

/-- Committing a set that suits keeps the slots typed. -/
theorem Typed.commit (ht : r.Typed) (hb : b.Suits r) (h : r.commit b = .ok r') : r'.Typed := by
  obtain ⟨-, -, -, rfl⟩ := commit_eq_ok_iff.mp h
  exact ht.fill fun x hx => hb.of_mem hx

/-- A declaration keeps the slots typed. -/
theorem Typed.register (ht : r.Typed) {s s' : ParameterSpec}
    (h : r.register s = .ok (r', s')) : r'.Typed := by
  intro n v hv
  rw [bound?_register h] at hv
  obtain ⟨h1, q, hq, h2⟩ := ht n v hv
  exact ⟨h1, q, (extends_register h).mem_specs hq, h2⟩

end Registry
end JobParameters
