/-
# Lists kept by name

A map in order, the bindings of a job and the parameters of a topology are all
lists with one item to a name, searched from the front. Here is what such a
search finds, once for all of them (`find?_key_eq_some_iff`), and then in the
words of each: `OrderedMap.find?_eq_some_iff`, `BindingSet.value?_eq_some_iff`,
`Registry.bound?_eq_some_iff`.
-/
import JobParameters.Registry

namespace JobParameters

/-- Among items of distinct names, the one that a search for a name finds is the
one of that name. -/
theorem find?_key_eq_some_iff {α : Type} {f : α → String} {n : String} {a : α} :
    ∀ {l : List α}, (l.map f).Nodup →
      ((l.find? fun x => f x == n) = some a ↔ a ∈ l ∧ f a = n)
  | [], _ => by simp
  | x :: l, h => by
    simp only [List.map_cons, List.nodup_cons] at h
    have ih := find?_key_eq_some_iff (f := f) (n := n) (a := a) h.2
    by_cases hx : f x = n
    · have hb : (f x == n) = true := by simpa using hx
      simp only [List.find?_cons, hb, Option.some.injEq, List.mem_cons]
      constructor
      · rintro rfl
        exact ⟨Or.inl rfl, hx⟩
      · rintro ⟨rfl | ha, hn⟩
        · rfl
        · exact absurd (List.mem_map.mpr ⟨a, ha, hn.trans hx.symm⟩) h.1
    · have hb : (f x == n) = false := by simpa using hx
      simp only [List.find?_cons, hb, ih, List.mem_cons]
      constructor
      · exact fun ⟨ha, hn⟩ => ⟨Or.inr ha, hn⟩
      · rintro ⟨rfl | ha, hn⟩
        · exact absurd hn hx
        · exact ⟨ha, hn⟩

/-- Items of distinct names are one item where they have one name. -/
theorem eq_of_key_eq {α : Type} {f : α → String} {l : List α} (h : (l.map f).Nodup) {a b : α}
    (ha : a ∈ l) (hb : b ∈ l) (hab : f a = f b) : a = b := by
  have h1 := (find?_key_eq_some_iff h).mpr ⟨ha, hab⟩
  have h2 := (find?_key_eq_some_iff h).mpr ⟨hb, rfl⟩
  exact Option.some.inj (h1.symm.trans h2)

/-- To add the names that are missing is to add the first of them if it is missing, and
then the others. -/
theorem append_eraseDups_filter_cons (ks : List String) (n : String) (ns : List String) :
    ks ++ ((n :: ns).filter fun k => k ∉ ks).eraseDups =
      (if n ∈ ks then ks else ks ++ [n]) ++
        (ns.filter fun k => k ∉ if n ∈ ks then ks else ks ++ [n]).eraseDups := by
  by_cases h : n ∈ ks
  · simp [h]
  · have hf : (ns.filter fun k => k ∉ ks ++ [n]) =
        (ns.filter fun k => k ∉ ks).filter fun k => !k == n := by
      rw [List.filter_filter]
      refine List.filter_congr fun k _ => ?_
      by_cases hk : k = n <;> simp [hk]
    rw [if_neg h, hf, List.filter_cons_of_pos (by simpa using h), List.eraseDups_cons,
      List.append_assoc, List.singleton_append]

namespace OrderedMap

variable {α β : Type}

theorem find?_eq_some_iff {m : OrderedMap α} {n : String} {a : α} :
    m.find? n = some a ↔ (n, a) ∈ m.entries := by
  simp only [find?, Option.map_eq_some_iff, find?_key_eq_some_iff m.distinct]
  constructor
  · rintro ⟨⟨k, b⟩, ⟨hm, rfl⟩, rfl⟩
    exact hm
  · intro h
    exact ⟨(n, a), ⟨h, rfl⟩, rfl⟩

theorem contains_eq_true_iff {m : OrderedMap α} {n : String} :
    m.contains n = true ↔ n ∈ m.keys := by
  simp [contains, keys]

theorem find?_mapValues (f : α → β) (m : OrderedMap α) (n : String) :
    (m.mapValues f).find? n = (m.find? n).map f := by
  simp only [find?, mapValues, List.find?_map, Option.map_map, Function.comp_def]

theorem put_of_notMem {n : String} {a : α} : ∀ {es : List (String × α)},
    n ∉ es.map Prod.fst → put n a es = es ++ [(n, a)]
  | [], _ => rfl
  | e :: es, h => by
    simp only [List.map_cons, List.mem_cons, not_or] at h
    simp [put, Ne.symm h.1, put_of_notMem h.2]

/-- Inserting names that are new and distinct appends their entries. -/
theorem entries_foldl_insert : ∀ (es : List (String × α)) (m : OrderedMap α),
    ((m.entries ++ es).map Prod.fst).Nodup →
      (es.foldl (fun m e => m.insert e.1 e.2) m).entries = m.entries ++ es
  | [], m, _ => by simp
  | e :: es, m, h => by
    have hn : e.1 ∉ m.entries.map Prod.fst := by
      simp only [List.map_append, List.map_cons, List.nodup_append] at h
      exact fun hm => h.2.2 e.1 hm e.1 (by simp) rfl
    have hi : (m.insert e.1 e.2).entries = m.entries ++ [e] := put_of_notMem hn
    rw [List.foldl_cons, entries_foldl_insert es _ (by simpa [hi] using h), hi]
    simp

/-- A list of distinct names is its own map. -/
theorem entries_ofList {es : List (String × α)} (h : (es.map Prod.fst).Nodup) :
    (ofList es).entries = es := by
  simpa [ofList, empty] using entries_foldl_insert es empty (by simpa [empty] using h)

theorem ext_entries {m m' : OrderedMap α} (h : m.entries = m'.entries) : m = m' := by
  cases m
  cases m'
  cases h
  rfl

/-- A map is that of its entries. -/
theorem ofList_entries (m : OrderedMap α) : ofList m.entries = m :=
  ext_entries (entries_ofList m.distinct)

theorem keys_foldl_insert : ∀ (es : List (String × α)) (m : OrderedMap α),
    (es.foldl (fun m e => m.insert e.1 e.2) m).keys =
      m.keys ++ ((es.map Prod.fst).filter fun n => n ∉ m.keys).eraseDups
  | [], m => by simp
  | e :: es, m => by
    rw [List.foldl_cons, keys_foldl_insert es, keys_insert, List.map_cons,
      append_eraseDups_filter_cons]

/-- The names of a list stand in the order in which they first come in. -/
theorem keys_ofList (es : List (String × α)) :
    (ofList es).keys = (es.map Prod.fst).eraseDups := by
  have hempty : (empty : OrderedMap α).keys = [] := rfl
  have hall : ((es.map Prod.fst).filter fun n => n ∉ (empty : OrderedMap α).keys) =
      es.map Prod.fst := List.filter_eq_self.mpr (by simp [hempty])
  rw [ofList, keys_foldl_insert, hall, hempty, List.nil_append]

theorem find?_foldl_insert (n : String) : ∀ (es : List (String × α)) (m : OrderedMap α),
    (es.foldl (fun m e => m.insert e.1 e.2) m).find? n =
      ((es.reverse.find? fun e => e.1 == n).map Prod.snd).or (m.find? n)
  | [], m => by simp
  | e :: es, m => by
    rw [List.foldl_cons, find?_foldl_insert n es, find?_insert, List.reverse_cons,
      List.find?_append, Option.map_or, Option.or_assoc]
    by_cases h : n = e.1
    · simp [h]
    · have h' : ¬ e.1 = n := fun k => h k.symm
      simp [h, h']

/-- Of a name that comes in again the last value is kept. -/
theorem find?_ofList (es : List (String × α)) (n : String) :
    (ofList es).find? n = (es.reverse.find? fun e => e.1 == n).map Prod.snd := by
  have hempty : (empty : OrderedMap α).find? n = none := rfl
  rw [ofList, find?_foldl_insert, hempty, Option.or_none]

end OrderedMap

namespace BindingSet

variable {j : Option String} {now : Timestamp} {bs : List Binding}

/-- Bindings of distinct names are listed as they come, each under its own name. -/
theorem entries_ofBindings (h : (bs.map Binding.name).Nodup) :
    (ofBindings j now bs).bindings.entries = bs.map fun b => (b.name, b) :=
  OrderedMap.entries_ofList (by simpa [List.map_map, Function.comp_def] using h)

theorem keys_ofBindings (j : Option String) (now : Timestamp) (bs : List Binding) :
    (ofBindings j now bs).bindings.keys = (bs.map Binding.name).eraseDups := by
  simp [ofBindings, OrderedMap.keys_ofList, Function.comp_def]

/-- The binding listed under a name is the last one of the name. -/
theorem get?_ofBindings (j : Option String) (now : Timestamp) (bs : List Binding) (n : String) :
    (ofBindings j now bs).get? n = bs.reverse.find? fun x => x.name == n := by
  rw [get?, ofBindings, OrderedMap.find?_ofList, ← List.map_reverse, List.find?_map,
    Option.map_map]
  exact Option.map_id'

theorem value?_eq_some_iff {s : BindingSet} {n : String} {v : Value} :
    s.value? n = some v ↔ ∃ b, (n, b) ∈ s.bindings.entries ∧ b.value = v := by
  simp [value?, get?, OrderedMap.find?_eq_some_iff]

theorem mem_toList_iff {s : BindingSet} {b : Binding} :
    b ∈ s.toList ↔ ∃ n, (n, b) ∈ s.bindings.entries := by
  simp [toList, OrderedMap.values]

end BindingSet

namespace Registry

variable {r : Registry} {n : String} {p : Parameter} {v : Value}

theorem find?_eq_some_iff : r.find? n = some p ↔ p ∈ r.parameters ∧ p.spec.name = n :=
  find?_key_eq_some_iff r.distinct

theorem bound?_eq_some_iff :
    r.bound? n = some v ↔ ∃ p ∈ r.parameters, p.spec.name = n ∧ p.bound = some v := by
  simp [bound?, Option.bind_eq_some_iff, find?_eq_some_iff, and_assoc]

theorem bound?_of_mem (hp : p ∈ r.parameters) : r.bound? p.spec.name = p.bound := by
  rw [bound?, find?_eq_some_iff.mpr ⟨hp, rfl⟩]
  rfl

theorem names_eq_map_specs (r : Registry) : r.names = r.specs.map ParameterSpec.name := by
  simp [names, specs, List.map_map, Function.comp_def]

/-- A name has one declaration. -/
theorem spec_eq_of_name {s q : ParameterSpec} (hs : s ∈ r.specs) (hq : q ∈ r.specs)
    (h : q.name = s.name) : q = s := by
  refine eq_of_key_eq (f := ParameterSpec.name) ?_ hq hs h
  rw [← names_eq_map_specs]
  exact r.distinct

end Registry
end JobParameters
