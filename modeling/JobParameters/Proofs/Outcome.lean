/-
# What binding a configuration comes to

To bind a configuration has one of four outcomes (`Registry.Outcome`), and which one it
is can be said without following the search. A strict registry looks at the supplied
names first, in the order of the configuration. Then values that cannot be coerced come
before parameters that have none, wherever these stand among the declarations. What is
left is a set with one binding to each declaration, in their order.

`Resolution.collect` stops at the first refusal (`Resolution.collect_eq_error_iff`) and
else lists bindings and missing names apart (`Resolution.collect_eq_ok`). That the
outcome is the specified one, and no other, is `Registry.bind_settles`.
-/
import JobParameters.Proofs.Resolution

namespace JobParameters

/-- The first item of a list that has a property. -/
def FirstIn {α : Type} (p : α → Prop) (l : List α) (a : α) : Prop :=
  ∃ before after, l = before ++ a :: after ∧ p a ∧ ∀ x ∈ before, ¬ p x

theorem find?_eq_some_iff_firstIn {α : Type} {f : α → Bool} {l : List α} {a : α} :
    l.find? f = some a ↔ FirstIn (fun x => f x = true) l a := by
  simp only [List.find?_eq_some_iff_append, FirstIn, Bool.not_eq_true']
  constructor
  · rintro ⟨ha, before, after, hl, hb⟩
    exact ⟨before, after, hl, ha, fun x hx => by simp [hb x hx]⟩
  · rintro ⟨before, after, hl, ha, hb⟩
    exact ⟨ha, before, after, hl, fun x hx => by simpa using hb x hx⟩

theorem FirstIn.congr {α : Type} {p q : α → Prop} {l : List α} {a : α}
    (hpq : ∀ x ∈ l, (p x ↔ q x)) : FirstIn p l a ↔ FirstIn q l a := by
  constructor
  · rintro ⟨before, after, rfl, ha, hb⟩
    refine ⟨before, after, rfl, (hpq a (by simp)).mp ha, fun x hx hq => ?_⟩
    exact hb x hx ((hpq x (by simp [hx])).mpr hq)
  · rintro ⟨before, after, rfl, ha, hb⟩
    refine ⟨before, after, rfl, (hpq a (by simp)).mpr ha, fun x hx hp => ?_⟩
    exact hb x hx ((hpq x (by simp [hx])).mp hp)

theorem FirstIn.mem {α : Type} {p : α → Prop} {l : List α} {a : α} (h : FirstIn p l a) :
    a ∈ l ∧ p a := by
  obtain ⟨before, after, rfl, ha, -⟩ := h
  exact ⟨by simp, ha⟩

theorem FirstIn.unique {α : Type} {p : α → Prop} {l : List α} {a b : α} (ha : FirstIn p l a)
    (hb : FirstIn p l b) : a = b := by
  classical
  have hfind : ∀ {c}, FirstIn p l c → l.find? (fun x => decide (p x)) = some c :=
    fun hc => find?_eq_some_iff_firstIn.mpr (by simpa using hc)
  exact Option.some.inj ((hfind ha).symm.trans (hfind hb))

/-- If an item has a property, there is a first one that has it. -/
theorem FirstIn.exists {α : Type} {p : α → Prop} {l : List α} (h : ∃ x ∈ l, p x) :
    ∃ a, FirstIn p l a := by
  classical
  obtain ⟨x, hx, hp⟩ := h
  have hs : (l.find? fun x => decide (p x)).isSome = true := by
    rw [List.find?_isSome]
    exact ⟨x, hx, by simpa using hp⟩
  obtain ⟨a, ha⟩ := Option.isSome_iff_exists.mp hs
  exact ⟨a, by simpa using find?_eq_some_iff_firstIn.mp ha⟩

theorem firstIn_cons_of_pos {α : Type} {p : α → Prop} {l : List α} {a b : α} (hb : p b) :
    FirstIn p (b :: l) a ↔ a = b := by
  constructor
  · rintro ⟨before, after, hl, ha, hn⟩
    cases before with
    | nil => exact (List.cons.inj hl).1.symm
    | cons c before =>
      obtain ⟨rfl, -⟩ := List.cons.inj hl
      exact absurd hb (hn b (by simp))
  · rintro rfl
    exact ⟨[], l, rfl, hb, nofun⟩

theorem firstIn_cons_of_neg {α : Type} {p : α → Prop} {l : List α} {a b : α} (hb : ¬ p b) :
    FirstIn p (b :: l) a ↔ FirstIn p l a := by
  constructor
  · rintro ⟨before, after, hl, ha, hn⟩
    cases before with
    | nil =>
      obtain ⟨rfl, -⟩ := List.cons.inj hl
      exact absurd ha hb
    | cons c before =>
      obtain ⟨-, rfl⟩ := List.cons.inj hl
      exact ⟨before, after, rfl, ha, fun x hx => hn x (List.mem_cons_of_mem _ hx)⟩
  · rintro ⟨before, after, rfl, ha, hn⟩
    refine ⟨b :: before, after, rfl, ha, fun x hx => ?_⟩
    rcases List.mem_cons.mp hx with rfl | hx
    · exact hb
    · exact hn x hx

theorem firstIn_map_iff {α β : Type} {f : α → β} {p : β → Prop} {l : List α} {b : β} :
    FirstIn p (l.map f) b ↔ ∃ a, FirstIn (fun x => p (f x)) l a ∧ f a = b := by
  induction l with
  | nil => simp [FirstIn]
  | cons c l ih =>
    by_cases hc : p (f c)
    · rw [List.map_cons, firstIn_cons_of_pos hc]
      simp only [firstIn_cons_of_pos (p := fun x => p (f x)) hc, exists_eq_left]
      exact eq_comm
    · rw [List.map_cons, firstIn_cons_of_neg hc, ih]
      simp only [firstIn_cons_of_neg (p := fun x => p (f x)) hc]

/-! ### One parameter -/

namespace ParameterSpec

variable {s : ParameterSpec} {now : Timestamp} {supplied : OrderedMap Value}

/-- What is supplied for the parameter cannot be coerced to its type. -/
def Refuses (s : ParameterSpec) (supplied : OrderedMap Value) : Prop :=
  ∃ v, supplied.find? s.name = some v ∧ v.toType? s.type = none

/-- Nothing is supplied for the parameter, and it has no default. -/
def Lacks (s : ParameterSpec) (supplied : OrderedMap Value) : Prop :=
  supplied.find? s.name = none ∧ s.default = none

instance (s : ParameterSpec) (supplied : OrderedMap Value) : Decidable (s.Lacks supplied) :=
  inferInstanceAs (Decidable (_ ∧ _))

theorem resolve_eq_refused_iff {e : ParameterError} :
    s.resolve now supplied = .refused e ↔ ∃ v, supplied.find? s.name = some v ∧
      v.toType? s.type = none ∧ e = .typeMismatch s.name s.type (.value v) := by
  unfold resolve
  split
  · next v hv =>
    simp only [hv, Option.some.injEq, exists_eq_left', coerce]
    cases v.toType? s.type with
    | none => simp [eq_comm]
    | some w => simp
  · next hv _ => simp [hv]
  · next hv _ => simp [hv]

theorem resolve_eq_missing_iff {n : String} :
    s.resolve now supplied = .missing n ↔ s.Lacks supplied ∧ n = s.name := by
  unfold resolve Lacks
  split
  · next v _ hv =>
    split <;> simp [hv]
  · next v hv hd => simp [hd]
  · next hv hd => simp [hv, hd, eq_comm]

theorem refuses_iff : s.Refuses supplied ↔ ∃ e, s.resolve now supplied = .refused e := by
  simp only [Refuses, resolve_eq_refused_iff]
  constructor
  · rintro ⟨v, hv, ht⟩
    exact ⟨_, v, hv, ht, rfl⟩
  · rintro ⟨_, v, hv, ht, -⟩
    exact ⟨v, hv, ht⟩

end ParameterSpec

/-! ### Collecting -/

namespace Resolution

/-- The name of a parameter that is missing. -/
def missing? : Resolution → Option String
  | missing n => some n
  | _ => none

/-- What is collected ends at the first refusal. -/
theorem collect_eq_error_iff {e : ParameterError} : ∀ {rs : List Resolution},
    collect rs = .error e ↔ FirstIn (fun r => ∃ e', r = refused e') rs (refused e)
  | [] => by simp [collect, FirstIn]
  | refused e' :: rs => by
    rw [firstIn_cons_of_pos ⟨e', rfl⟩]
    simp [collect, eq_comm]
  | bound x :: rs => by
    rw [collect, map_eq_error_iff, collect_eq_error_iff, firstIn_cons_of_neg (by simp)]
  | missing n :: rs => by
    rw [collect, map_eq_error_iff, collect_eq_error_iff, firstIn_cons_of_neg (by simp)]

/-- Where nothing is refused, all the missing names are collected. -/
theorem collect_eq_ok {rs : List Resolution} {bs : List Binding} {ns : List String}
    (h : collect rs = .ok (bs, ns)) : ns = rs.filterMap missing? := by
  induction rs generalizing bs ns with
  | nil =>
    cases h
    rfl
  | cons r rs ih =>
    cases r with
    | refused e => cases h
    | bound x =>
      obtain ⟨⟨bs', ns'⟩, hc, hq⟩ := map_eq_ok_iff.mp h
      cases hq
      exact ih hc
    | missing n =>
      obtain ⟨⟨bs', ns'⟩, hc, hq⟩ := map_eq_ok_iff.mp h
      cases hq
      rw [ih hc]
      rfl

end Resolution

/-! ### The whole submission -/

namespace BindingSet

theorem ext_entries {b b' : BindingSet} (hj : b.jobName = b'.jobName)
    (hr : b.resolvedAt = b'.resolvedAt) (he : b.bindings.entries = b'.bindings.entries) :
    b = b' := by
  cases b
  cases b'
  cases hj
  cases hr
  cases OrderedMap.ext_entries he
  rfl

end BindingSet

namespace Registry

variable {r : Registry} {strict : Bool} {now : Timestamp} {c : Config} {b : BindingSet}

/-- No name is supplied that a strict registry refuses. -/
def Admits (r : Registry) (strict : Bool) (supplied : OrderedMap Value) : Prop :=
  strict = true → ∀ n ∈ supplied.keys, n ∈ r.names

/-- The parameters that have no value, in the order of their declaration. -/
def unsupplied (r : Registry) (supplied : OrderedMap Value) : List String :=
  (r.specs.filter fun s => s.Lacks supplied).map ParameterSpec.name

/-- What is to come of binding a configuration. -/
inductive Outcome (r : Registry) (strict : Bool) (now : Timestamp) (c : Config) :
    Except ParameterError BindingSet → Prop
  /-- The first name, in the order of the configuration, that is not declared. -/
  | unknown {n : String} : strict = true → FirstIn (fun n => n ∉ r.names) c.parameters.keys n →
      Outcome r strict now c (.error (.unknown n))
  /-- The first parameter, in the order of declaration, whose value cannot be coerced,
  whether others are missing or not. -/
  | mismatch {s : ParameterSpec} {v : Value} : r.Admits strict c.parameters →
      FirstIn (fun s => s.Refuses c.parameters) r.specs s →
      c.parameters.find? s.name = some v →
      Outcome r strict now c (.error (.typeMismatch s.name s.type (.value v)))
  /-- All parameters that have no value, in the order of declaration. -/
  | missing : r.Admits strict c.parameters → (∀ s ∈ r.specs, ¬ s.Refuses c.parameters) →
      r.unsupplied c.parameters ≠ [] →
      Outcome r strict now c (.error (.missing (r.unsupplied c.parameters)))
  /-- One binding to each declaration and no others, in the order of declaration. -/
  | bound {b : BindingSet} : r.Admits strict c.parameters → b.jobName = c.jobName →
      b.resolvedAt = now →
      List.Forall₂ (fun s e => e.1 = s.name ∧ s.Due now c.parameters e.2) r.specs
        b.bindings.entries →
      Outcome r strict now c (.ok b)

theorem firstForeign?_eq_some_iff {n : String} :
    r.firstForeign? strict c.parameters = some n ↔
      strict = true ∧ FirstIn (fun n => n ∉ r.names) c.parameters.keys n := by
  unfold firstForeign?
  have hp : ∀ x ∈ c.parameters.keys, ((!r.contains x) = true ↔ x ∉ r.names) := by
    intro x _
    rw [← contains_iff]
    simp
  cases strict with
  | false => simp
  | true => simp only [if_true, find?_eq_some_iff_firstIn, FirstIn.congr hp, true_and]

theorem firstForeign?_eq_none_iff :
    r.firstForeign? strict c.parameters = none ↔ r.Admits strict c.parameters := by
  unfold firstForeign? Admits
  cases strict with
  | false => simp
  | true => simp [List.find?_eq_none, contains_iff]

/-- The collected error is that of the first declaration that refuses its value. -/
theorem collect_resolve_eq_error_iff {e : ParameterError} {ss : List ParameterSpec}
    {supplied : OrderedMap Value} :
    Resolution.collect (ss.map fun s => s.resolve now supplied) = .error e ↔
      ∃ s v, FirstIn (fun s => s.Refuses supplied) ss s ∧ supplied.find? s.name = some v ∧
        e = .typeMismatch s.name s.type (.value v) := by
  rw [Resolution.collect_eq_error_iff, firstIn_map_iff]
  have hp : ∀ s ∈ ss, ((∃ e', s.resolve now supplied = .refused e') ↔ s.Refuses supplied) :=
    fun s _ => ParameterSpec.refuses_iff.symm
  constructor
  · rintro ⟨s, hs, he⟩
    obtain ⟨v, hv, -, rfl⟩ := ParameterSpec.resolve_eq_refused_iff.mp he
    exact ⟨s, v, (FirstIn.congr hp).mp hs, hv, rfl⟩
  · rintro ⟨s, v, hs, hv, rfl⟩
    refine ⟨s, (FirstIn.congr hp).mpr hs, ?_⟩
    obtain ⟨w, hw, ht⟩ := hs.mem.2
    obtain rfl : v = w := Option.some.inj (hv.symm.trans hw)
    exact ParameterSpec.resolve_eq_refused_iff.mpr ⟨v, hv, ht, rfl⟩

/-- The names that are collected are those of the parameters that have no value. -/
theorem filterMap_missing?_resolve (ss : List ParameterSpec) (supplied : OrderedMap Value) :
    (ss.map fun s => s.resolve now supplied).filterMap Resolution.missing? =
      (ss.filter fun s => s.Lacks supplied).map ParameterSpec.name := by
  induction ss with
  | nil => rfl
  | cons s ss ih =>
    by_cases hs : s.Lacks supplied
    · have hm : s.resolve now supplied = .missing s.name :=
        ParameterSpec.resolve_eq_missing_iff.mpr ⟨hs, rfl⟩
      simp [hm, hs, Resolution.missing?, ih]
    · have hm : (s.resolve now supplied).missing? = none := by
        cases hr : s.resolve now supplied with
        | missing n => exact absurd (ParameterSpec.resolve_eq_missing_iff.mp hr).1 hs
        | bound x => rfl
        | refused e => rfl
      simp [hm, hs, ih]

/-- The entries of a bound set are the bindings that are due, each under its name. -/
theorem forall₂_entries_iff {supplied : OrderedMap Value} {ss : List ParameterSpec}
    {es : List (String × Binding)} :
    List.Forall₂ (fun s e => e.1 = s.name ∧ s.Due now supplied e.2) ss es ↔
      ∃ bs, List.Forall₂ (fun s x => s.Due now supplied x) ss bs ∧
        es = bs.map fun x => (x.name, x) := by
  constructor
  · intro h
    induction h with
    | nil => exact ⟨[], .nil, rfl⟩
    | @cons s e ss es hse _ ih =>
      obtain ⟨bs, hbs, rfl⟩ := ih
      obtain ⟨n, x⟩ := e
      obtain ⟨hn, hx⟩ := hse
      have hname : n = x.name := hn.trans hx.name.symm
      exact ⟨x :: bs, .cons hx hbs, by simp [hname]⟩
  · rintro ⟨bs, hbs, rfl⟩
    induction hbs with
    | nil => exact .nil
    | cons hx _ ih => exact .cons ⟨hx.name, hx⟩ ih

/-- A configuration is bound exactly to the set of the bindings that are due. -/
theorem bind_eq_ok_iff_due : r.bind strict now c = .ok b ↔
    r.Admits strict c.parameters ∧ b.jobName = c.jobName ∧ b.resolvedAt = now ∧
      List.Forall₂ (fun s e => e.1 = s.name ∧ s.Due now c.parameters e.2) r.specs
        b.bindings.entries := by
  rw [bind_eq_ok_iff, firstForeign?_eq_none_iff]
  refine and_congr_right fun _ => ?_
  have hentries : ∀ {bs : List Binding},
      List.Forall₂ (fun s x => s.Due now c.parameters x) r.specs bs →
      (BindingSet.ofBindings c.jobName now bs).bindings.entries =
        bs.map fun x => (x.name, x) := by
    intro bs hbs
    refine BindingSet.entries_ofBindings ?_
    rw [map_name_of_due hbs, ← names_eq_map_specs]
    exact r.distinct
  constructor
  · rintro ⟨bs, hbs, rfl⟩
    have hdue := map_resolve_eq_iff.mp hbs
    exact ⟨rfl, rfl, forall₂_entries_iff.mpr ⟨bs, hdue, hentries hdue⟩⟩
  · rintro ⟨hj, hnow, he⟩
    obtain ⟨bs, hdue, hes⟩ := forall₂_entries_iff.mp he
    refine ⟨bs, map_resolve_eq_iff.mpr hdue, BindingSet.ext_entries hj hnow ?_⟩
    rw [hes, hentries hdue]

theorem unsupplied_of_bind (h : r.bind strict now c = .ok b) :
    r.unsupplied c.parameters = [] := by
  obtain ⟨-, bs, hbs, -⟩ := bind_eq_ok_iff.mp h
  have hc := Resolution.collect_eq_ok (Resolution.collect_eq_ok_nil_iff.mpr hbs)
  rw [filterMap_missing?_resolve] at hc
  exact hc.symm

/-- How binding a configuration goes: a name is refused, or a value, or values are
missing, or there is a set. -/
theorem bind_cases (r : Registry) (strict : Bool) (now : Timestamp) (c : Config) :
    (∃ n, r.firstForeign? strict c.parameters = some n ∧
      r.bind strict now c = .error (.unknown n)) ∨
    (r.Admits strict c.parameters ∧ ∃ e,
      Resolution.collect (r.specs.map fun s => s.resolve now c.parameters) = .error e ∧
      r.bind strict now c = .error e) ∨
    (r.Admits strict c.parameters ∧ ∃ bs,
      Resolution.collect (r.specs.map fun s => s.resolve now c.parameters) =
        .ok (bs, r.unsupplied c.parameters) ∧ r.unsupplied c.parameters ≠ [] ∧
      r.bind strict now c = .error (.missing (r.unsupplied c.parameters))) ∨
    ∃ b, r.bind strict now c = .ok b := by
  unfold bind
  split
  · next n hn => exact Or.inl ⟨n, hn, rfl⟩
  · next hn =>
    have ha := firstForeign?_eq_none_iff.mp hn
    refine Or.inr ?_
    split
    · next e he => exact Or.inl ⟨ha, e, he, rfl⟩
    · next bs he => exact Or.inr (Or.inr ⟨_, rfl⟩)
    · next bs n ns he =>
      have hns : n :: ns = r.unsupplied c.parameters := by
        rw [Resolution.collect_eq_ok he, filterMap_missing?_resolve, unsupplied]
      refine Or.inr (Or.inl ⟨ha, bs, hns ▸ he, ?_, by rw [hns]⟩)
      rw [← hns]
      simp

/-- What comes of binding a configuration is what is to come of it. -/
theorem outcome_bind (r : Registry) (strict : Bool) (now : Timestamp) (c : Config) :
    r.Outcome strict now c (r.bind strict now c) := by
  rcases r.bind_cases strict now c with
    ⟨n, hn, h⟩ | ⟨ha, e, he, h⟩ | ⟨ha, bs, he, hne, h⟩ | ⟨b, h⟩
  · rw [h]
    obtain ⟨hs, hf⟩ := firstForeign?_eq_some_iff.mp hn
    exact .unknown hs hf
  · rw [h]
    obtain ⟨s, v, hf, hv, rfl⟩ := collect_resolve_eq_error_iff.mp he
    exact .mismatch ha hf hv
  · rw [h]
    refine .missing ha (fun s hs hr => ?_) hne
    obtain ⟨q, hq⟩ := FirstIn.exists (p := fun s => s.Refuses c.parameters) ⟨s, hs, hr⟩
    obtain ⟨v, hv, -⟩ := hq.mem.2
    rw [collect_resolve_eq_error_iff.mpr ⟨q, v, hq, hv, rfl⟩] at he
    cases he
  · rw [h]
    obtain ⟨ha, hj, hnow, he⟩ := bind_eq_ok_iff_due.mp h
    exact .bound ha hj hnow he

/-- Nothing else is to come of it. -/
theorem bind_eq_of_outcome {x : Except ParameterError BindingSet}
    (h : r.Outcome strict now c x) : r.bind strict now c = x := by
  cases h with
  | unknown hs hf =>
    rw [bind, firstForeign?_eq_some_iff.mpr ⟨hs, hf⟩]
  | mismatch ha hf hv =>
    rw [bind, firstForeign?_eq_none_iff.mpr ha,
      collect_resolve_eq_error_iff.mpr ⟨_, _, hf, hv, rfl⟩]
  | missing ha hn hne =>
    rcases r.bind_cases strict now c with
      ⟨n, hf, -⟩ | ⟨-, e, he, -⟩ | ⟨-, bs, -, -, h⟩ | ⟨b, h⟩
    · rw [firstForeign?_eq_none_iff.mpr ha] at hf
      cases hf
    · obtain ⟨s, v, hs, -⟩ := collect_resolve_eq_error_iff.mp he
      exact absurd hs.mem.2 (hn s hs.mem.1)
    · exact h
    · exact absurd (unsupplied_of_bind h) hne
  | bound ha hj hnow he => exact bind_eq_ok_iff_due.mpr ⟨ha, hj, hnow, he⟩

/-- Without a name for the job the outcome is the same, and so is the set but for that. -/
theorem bindOverrides_eq (r : Registry) (strict : Bool) (now : Timestamp) (c : Config) :
    r.bindOverrides strict now c.parameters =
      (r.bind strict now c).map fun b => { b with jobName := none } := by
  unfold bindOverrides bind
  dsimp only
  cases r.firstForeign? strict c.parameters with
  | some n => rfl
  | none =>
    cases Resolution.collect (r.specs.map fun s => s.resolve now c.parameters) with
    | error e => rfl
    | ok q =>
      obtain ⟨bs, ns⟩ := q
      cases ns with
      | nil => rfl
      | cons n ns => rfl

/-- **What a submission is bound to.** In a reachable registry, strict or not, a
configuration has the outcome that is specified, and no other. If that is a set, its names
are the declared ones in their order, and each value is finite and of the declared type.
Values that come without a job name have the same outcome, but for that name. -/
theorem bind_settles (hr : r.Reachable) (strict : Bool) (now : Timestamp) (c : Config) :
    (∀ x, r.bind strict now c = x ↔ r.Outcome strict now c x) ∧
    (∀ b, r.bind strict now c = .ok b → b.bindings.keys = r.names ∧
      ∀ n x, b.get? n = some x → x.name = n ∧ x.value.isFinite = true ∧
        ∃ s ∈ r.specs, s.name = n ∧ x.value.type = s.type) ∧
    r.bindOverrides strict now c.parameters =
      (r.bind strict now c).map fun b => { b with jobName := none } := by
  refine ⟨fun x => ⟨?_, bind_eq_of_outcome⟩, fun b hb => ?_, bindOverrides_eq r strict now c⟩
  · rintro rfl
    exact outcome_bind r strict now c
  · obtain ⟨hsuits, hkeys⟩ := suits_of_bind hr.sound hb
    exact ⟨hkeys, fun n x hx => hsuits n x (OrderedMap.find?_eq_some_iff.mp hx)⟩

/-- A registry with three parameters, of which two have no default. -/
def threeParameters : Registry where
  parameters := [⟨⟨"topic", .string, none, none⟩, none⟩,
    ⟨⟨"count", .integer, some (.integer 2), none⟩, none⟩, ⟨⟨"flag", .boolean, none, none⟩, none⟩]
  distinct := by decide

/-- A text that is no truth value comes before the topic that is missing, and after a name
that is not declared only where that is looked at. -/
theorem bind_settles_threeParameters :
    let c := (Config.empty.set "extra" (.integer 1)).set "flag" (.string "maybe")
    threeParameters.Reachable ∧
    threeParameters.Outcome false ⟨0, 0, 0⟩ c
      (.error (.typeMismatch "flag" .boolean (.value (.string "maybe")))) ∧
    threeParameters.Outcome true ⟨0, 0, 0⟩ c (.error (.unknown "extra")) ∧
    threeParameters.Outcome false ⟨0, 0, 0⟩ (Config.empty.set "count" (.string " 7 "))
      (.error (.missing ["topic", "flag"])) := by
  intro c
  have hall : Registry.empty.registerAll [("topic", ⟨none, none, none⟩),
      ("count", ⟨none, some (.integer 2), none⟩), ("flag", ⟨some .boolean, none, none⟩)] =
        .ok threeParameters := by
    rfl
  have hr : threeParameters.Reachable := (reachable_registerAll .empty hall).1
  exact ⟨hr, ((bind_settles hr false _ c).1 _).mp (by rfl),
    ((bind_settles hr true _ c).1 _).mp (by rfl), ((bind_settles hr false _ _).1 _).mp (by rfl)⟩

end Registry
end JobParameters
