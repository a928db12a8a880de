/-
# How a registry grows

A registry changes in two ways only: a declaration appends a parameter with an empty
slot (`Registry.register_cases`), and a commit fills slots (`Registry.commit_eq_ok_iff`,
`Registry.bound?_fill`). Either way it grows (`Registry.Extends`): the declarations it
has stay, in their order, and a slot that holds a value holds that value. A commit that
writes one slot after the other comes to the same, and has written none where it is
refused (`Registry.run_commitInPlace`). In every registry that such steps lead to
(`Registry.Reachable`) a declaration is sound (`Registry.Reachable.sound`): it has a name,
and a default of its type that is finite.
-/
import JobParameters.Topology
import JobParameters.Proofs.Keyed
import JobParameters.Proofs.Sameness

namespace JobParameters

/-- What can be relied on in a declaration: a name that is not blank, and a default of
the declared type that is neither a NaN nor an infinity. -/
structure ParameterSpec.Sound (s : ParameterSpec) : Prop where
  named : Text.isBlankText s.name = false
  type_default : ∀ v, s.default = some v → v.type = s.type
  finite_default : ∀ v, s.default = some v → v.isFinite = true

/-- What is declared is sound, and has the name it was declared under. -/
theorem ParameterSpec.sound_of_declare {name : String} {default : Option Value}
    {type : Option ParamType} {description : Option String} {s : ParameterSpec}
    (h : declare name default type description = .ok s) : s.Sound ∧ s.name = name := by
  unfold declare at h
  split at h
  · cases h
  · next hn =>
    have hn : Text.isBlankText name = false := by simpa using hn
    split at h
    · cases h
      exact ⟨⟨hn, nofun, nofun⟩, rfl⟩
    · next v t =>
      split at h
      · next hf =>
        split at h
        · cases h
          exact ⟨⟨hn, by rintro w ⟨⟩; rfl, by rintro w ⟨⟩; exact hf⟩, rfl⟩
        · split at h
          · next ht =>
            cases h
            exact ⟨⟨hn, by rintro w ⟨⟩; exact ht, by rintro w ⟨⟩; exact hf⟩, rfl⟩
          · cases h
      · cases h

namespace Registry

variable {r r' : Registry} {n : String} {v : Value}

/-! ### Growth -/

/-- A registry after some time: its declarations are still there and come first, and
its slots hold what they held. -/
structure Extends (r r' : Registry) : Prop where
  specs : r.specs <+: r'.specs
  bound : ∀ n v, r.bound? n = some v → r'.bound? n = some v

namespace Extends

theorem refl (r : Registry) : r.Extends r := ⟨List.prefix_refl _, fun _ _ h => h⟩

theorem trans {r₁ r₂ r₃ : Registry} (h : r₁.Extends r₂) (h' : r₂.Extends r₃) :
    r₁.Extends r₃ :=
  ⟨h.specs.trans h'.specs, fun n v hv => h'.bound n v (h.bound n v hv)⟩

theorem mem_specs (h : r.Extends r') {s : ParameterSpec} (hs : s ∈ r.specs) : s ∈ r'.specs :=
  h.specs.subset hs

end Extends

/-! ### Declarations -/

/-- To declare a parameter is to find it declared alike, or to append it. -/
theorem register_cases {s s' : ParameterSpec} (h : r.register s = .ok (r', s')) :
    (r' = r ∧ s' ∈ r.specs ∧ s'.sameDeclaration s = true) ∨
      (s' = s ∧ s.name ∉ r.names ∧ r'.parameters = r.parameters ++ [⟨s, none⟩]) := by
  unfold register at h
  split at h
  · next p hp =>
    split at h
    · next hs =>
      cases h
      have hm := (find?_eq_some_iff.mp hp).1
      exact Or.inl ⟨rfl, List.mem_map.mpr ⟨p, hm, rfl⟩, hs⟩
    · cases h
  · next hp =>
    cases h
    refine Or.inr ⟨rfl, fun hn => ?_, rfl⟩
    have := contains_of_find?_eq_none hp
    rw [(contains_iff r s.name).mpr hn] at this
    cases this

theorem bound?_eq_of_append {p : Parameter} (hp : p.bound = none)
    (h : r'.parameters = r.parameters ++ [p]) : r'.bound? n = r.bound? n := by
  simp only [bound?, find?, h, List.find?_append]
  cases hf : r.parameters.find? fun p => p.spec.name == n with
  | some q => simp
  | none =>
    by_cases hn : p.spec.name = n
    · simp [hn, hp]
    · simp [hn]

/-- A declaration binds nothing. -/
theorem bound?_register {s s' : ParameterSpec} (h : r.register s = .ok (r', s')) :
    r'.bound? n = r.bound? n := by
  rcases register_cases h with ⟨rfl, -, -⟩ | ⟨-, -, hr⟩
  · rfl
  · exact bound?_eq_of_append rfl hr

theorem extends_register {s s' : ParameterSpec} (h : r.register s = .ok (r', s')) :
    r.Extends r' := by
  refine ⟨?_, fun n v hv => by rw [bound?_register h, hv]⟩
  rcases register_cases h with ⟨rfl, -, -⟩ | ⟨-, -, hr⟩
  · exact List.prefix_refl _
  · exact ⟨[s], by simp [specs, hr]⟩

/-- A declaration that is there afterwards was there before or is the new one. -/
theorem mem_specs_of_register {s s' q : ParameterSpec} (h : r.register s = .ok (r', s'))
    (hq : q ∈ r'.specs) : q ∈ r.specs ∨ q = s := by
  rcases register_cases h with ⟨rfl, -, -⟩ | ⟨-, -, hr⟩
  · exact Or.inl hq
  · simpa [specs, hr] using hq

/-! ### Commits -/

/-- What filling slots leaves in the slot of a declared name: the value it held, else
that of the first binding of the name. -/
theorem bound?_fill (bs : List Binding) (hn : n ∈ r.names) :
    (r.fill bs).bound? n =
      (r.bound? n).or ((bs.find? fun b => b.name == n).map Binding.value) := by
  obtain ⟨p, hp, rfl⟩ := List.mem_map.mp hn
  rw [bound?_of_mem hp]
  exact bound?_of_mem (r := r.fill bs) (List.mem_map_of_mem hp)

theorem names_fill (bs : List Binding) : (r.fill bs).names = r.names := by
  rw [names_eq_map_specs, specs_fill, ← names_eq_map_specs]

theorem mem_names_of_bound? (h : r.bound? n = some v) : n ∈ r.names := by
  obtain ⟨p, hp, hn, -⟩ := bound?_eq_some_iff.mp h
  exact List.mem_map.mpr ⟨p, hp, hn⟩

theorem extends_fill (bs : List Binding) : r.Extends (r.fill bs) := by
  refine ⟨by rw [specs_fill], fun n v h => ?_⟩
  rw [bound?_fill bs (mem_names_of_bound? h), h]
  rfl

theorem disagrees_eq_false_iff {b : Binding} :
    r.disagrees b = false ↔ ∀ v, r.bound? b.name = some v → v.same b.value = true := by
  unfold disagrees
  cases r.bound? b.name <;> simp

/-- A commit goes through exactly if the set binds the declared names and no others,
and agrees with the slots that hold a value; then the slots are filled. -/
theorem commit_eq_ok_iff {b : BindingSet} : r.commit b = .ok r' ↔
    (∀ x ∈ b.toList, x.name ∈ r.names) ∧ (∀ n ∈ r.names, b.contains n = true) ∧
      (∀ x ∈ b.toList, ∀ v, r.bound? x.name = some v → v.same x.value = true) ∧
      r' = r.fill b.toList := by
  have hforeign : (b.toList.find? fun x => !r.contains x.name) = none ↔
      ∀ x ∈ b.toList, x.name ∈ r.names := by
    simp [List.find?_eq_none, contains_iff]
  have hlacking : r.lacking b = [] ↔ ∀ n ∈ r.names, b.contains n = true := by
    simp [lacking, List.filter_eq_nil_iff]
  have hagrees : b.toList.find? r.disagrees = none ↔
      ∀ x ∈ b.toList, ∀ v, r.bound? x.name = some v → v.same x.value = true := by
    simp only [List.find?_eq_none, Bool.not_eq_true, disagrees_eq_false_iff]
  rw [← hforeign, ← hlacking, ← hagrees]
  unfold commit
  split
  · next x hx => simp [hx]
  · next hx =>
    split
    · next n ns hl => simp [hl]
    · next hl =>
      split
      · next y hy => simp [hy]
      · next hy => simp [hx, hl, hy, eq_comm]

theorem extends_commit {b : BindingSet} (h : r.commit b = .ok r') : r.Extends r' := by
  obtain ⟨-, -, -, rfl⟩ := commit_eq_ok_iff.mp h
  exact extends_fill _

theorem specs_commit {b : BindingSet} (h : r.commit b = .ok r') : r'.specs = r.specs := by
  obtain ⟨-, -, -, rfl⟩ := commit_eq_ok_iff.mp h
  exact specs_fill r _

/-! ### Commits in place -/

/-- Writes a binding to the slot of its name, unless that holds a value already. -/
def write (r : Registry) (x : Binding) : Registry := r.fill [x]

/-- Checks bindings one after the other against the slots. -/
def checkEach : List Binding → ExceptT ParameterError (StateM Registry) Unit
  | [] => pure ()
  | x :: xs => do
    if (← get).disagrees x then
      throw (.alreadyBound x.name)
    checkEach xs

/-- Writes bindings one after the other. -/
def writeEach : List Binding → ExceptT ParameterError (StateM Registry) Unit
  | [] => pure ()
  | x :: xs => do
    modify fun r => r.write x
    writeEach xs

/-- A commit as it is carried out: every binding is checked before any is written, and
then one slot is written after the other. -/
def commitInPlace (b : BindingSet) : ExceptT ParameterError (StateM Registry) Unit := do
  let r ← get
  match b.toList.find? fun x => !r.contains x.name with
  | some x => throw (.unknown x.name)
  | none =>
    match r.lacking b with
    | n :: ns => throw (.missing (n :: ns))
    | [] =>
      checkEach b.toList
      writeEach b.toList

theorem ext_parameters (h : r.parameters = r'.parameters) : r = r' := by
  cases r
  cases r'
  cases h
  rfl

/-- Filling all slots at once is writing the bindings one after the other. -/
theorem fill_eq_foldl_write (bs : List Binding) : r.fill bs = bs.foldl write r := by
  induction bs generalizing r with
  | nil =>
    refine ext_parameters ?_
    simp [fill]
  | cons x bs ih =>
    rw [List.foldl_cons, ← ih]
    refine ext_parameters ?_
    simp only [write, fill, List.map_map]
    refine List.map_congr_left fun p _ => ?_
    simp only [Function.comp_apply, Option.or_assoc]
    congr 2
    cases hx : x.name == p.spec.name <;> simp [hx]

/-- Checking bindings changes nothing. -/
theorem run_checkEach (bs : List Binding) : (checkEach bs).run r =
    match bs.find? r.disagrees with
    | some x => (.error (.alreadyBound x.name), r)
    | none => (.ok (), r) := by
  induction bs with
  | nil => rfl
  | cons x bs ih =>
    have hrun : (checkEach (x :: bs)).run r =
        (if r.disagrees x then throw (.alreadyBound x.name) else checkEach bs :
          ExceptT ParameterError (StateM Registry) Unit).run r := by
      rfl
    rw [hrun, List.find?_cons]
    cases r.disagrees x with
    | true => rfl
    | false => exact ih

theorem run_writeEach (bs : List Binding) :
    (writeEach bs).run r = (.ok (), bs.foldl write r) := by
  induction bs generalizing r with
  | nil => rfl
  | cons x bs ih => exact ih

/-- **A commit in place** does what `commit` says: where that is refused, no slot was
written. -/
theorem run_commitInPlace (b : BindingSet) : (commitInPlace b).run r =
    match r.commit b with
    | .ok r' => (.ok (), r')
    | .error e => (.error e, r) := by
  show (match b.toList.find? fun x => !r.contains x.name with
    | some x => throw (.unknown x.name)
    | none =>
      match r.lacking b with
      | n :: ns => throw (.missing (n :: ns))
      | [] => checkEach b.toList >>= fun _ => writeEach b.toList :
        ExceptT ParameterError (StateM Registry) Unit).run r = _
  unfold commit
  cases b.toList.find? fun x => !r.contains x.name with
  | some x => rfl
  | none =>
    cases r.lacking b with
    | cons n ns => rfl
    | nil =>
      show (match (checkEach b.toList).run r with
        | (a, r') => ExceptT.bindCont (fun _ => writeEach b.toList) a r') = _
      rw [run_checkEach]
      cases b.toList.find? r.disagrees with
      | some x => rfl
      | none =>
        show (writeEach b.toList).run r = _
        rw [run_writeEach, fill_eq_foldl_write]

/-! ### Reachable registries -/

/-- The registries that declarations and commits lead to, of whatever binding sets. -/
inductive Reachable : Registry → Prop
  | empty : Reachable Registry.empty
  | register {r r' : Registry} {name : String} {default : Option Value}
      {type : Option ParamType} {description : Option String} {s s' : ParameterSpec} :
      Reachable r → ParameterSpec.declare name default type description = .ok s →
      r.register s = .ok (r', s') → Reachable r'
  | commit {r r' : Registry} {b : BindingSet} :
      Reachable r → r.commit b = .ok r' → Reachable r'

/-- Whatever is declared in a reachable registry is sound. -/
theorem Reachable.sound (h : r.Reachable) : ∀ s ∈ r.specs, s.Sound := by
  induction h with
  | empty => exact nofun
  | register _ hd hr ih =>
    intro q hq
    rcases mem_specs_of_register hr hq with hq | rfl
    · exact ih q hq
    · exact (ParameterSpec.sound_of_declare hd).1
  | commit _ hc ih =>
    rw [specs_commit hc]
    exact ih

/-- The declarations of a manifest lead from one reachable registry to another, and
bind nothing. -/
theorem reachable_registerAll : ∀ {ds : List (String × Declaration)} {r r' : Registry},
    r.Reachable → r.registerAll ds = .ok r' →
      r'.Reachable ∧ ∀ n, r'.bound? n = r.bound? n
  | [], r, r', hr, h => by
    cases h
    exact ⟨hr, fun _ => rfl⟩
  | (name, d) :: ds, r, r', hr, h => by
    unfold registerAll at h
    split at h
    · cases h
    · next s hs =>
      split at h
      · cases h
      · next r₁ s' h₁ =>
        obtain ⟨h2, h3⟩ := reachable_registerAll (hr.register hs h₁) h
        exact ⟨h2, fun n => by rw [h3, bound?_register h₁]⟩

end Registry

/-- A topology that a manifest describes is one on which nothing was bound yet. -/
theorem Topology.reachable_ofManifest {m : Manifest} {t : Topology}
    (h : Topology.ofManifest m = .ok t) :
    t.registry.Reachable ∧ ∀ n, t.registry.bound? n = none := by
  obtain ⟨r, hr, rfl⟩ := map_eq_ok_iff.mp h
  exact Registry.reachable_registerAll .empty hr

end JobParameters
