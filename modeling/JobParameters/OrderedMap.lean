/-
# Maps that remember their order

An `OrderedMap` lists its entries in the order in which their names first came
in, one entry per name. A name that comes in again keeps its place and takes the
new value; this is also how a list of pairs with repeated names is read.

Key definitions: `OrderedMap`, `OrderedMap.insert`, `OrderedMap.find?`,
`OrderedMap.ofList`, `OrderedMap.mapValues`.
Key theorems: `OrderedMap.keys_insert`, `OrderedMap.find?_insert`,
`OrderedMap.keys_mapValues`.
-/
namespace JobParameters

/-- Entries in order, one per name. -/
structure OrderedMap (α : Type) where
  entries : List (String × α)
  distinct : (entries.map Prod.fst).Nodup

namespace OrderedMap

variable {α β : Type}

/-- Replaces the entry of a name, or adds one at the end. -/
def put (name : String) (a : α) : List (String × α) → List (String × α)
  | [] => [(name, a)]
  | e :: es => if e.1 = name then (name, a) :: es else e :: put name a es

theorem map_fst_put (name : String) (a : α) : ∀ es : List (String × α),
    (put name a es).map Prod.fst =
      if name ∈ es.map Prod.fst then es.map Prod.fst else es.map Prod.fst ++ [name]
  | [] => rfl
  | e :: es => by
    have ih := map_fst_put name a es
    by_cases h : e.1 = name
    · simp [put, h]
    · have h' : ¬ name = e.1 := fun k => h k.symm
      simp only [put, if_neg h, List.map_cons, ih, List.mem_cons, h', false_or]
      split <;> simp

theorem nodup_put (name : String) (a : α) (es : List (String × α))
    (h : (es.map Prod.fst).Nodup) : ((put name a es).map Prod.fst).Nodup := by
  rw [map_fst_put]
  split
  · exact h
  · next hn =>
    rw [List.nodup_append]
    refine ⟨h, by simp, ?_⟩
    intro x hx y hy
    simp only [List.mem_singleton] at hy
    intro hxy
    exact hn (by rw [← hy, ← hxy]; exact hx)

/-- No entries. -/
def empty : OrderedMap α := ⟨[], List.nodup_nil⟩

instance : Inhabited (OrderedMap α) := ⟨empty⟩

/-- Replaces the entry of a name, or adds one at the end. -/
def insert (m : OrderedMap α) (name : String) (a : α) : OrderedMap α :=
  ⟨put name a m.entries, nodup_put name a m.entries m.distinct⟩

/-- The map of a list of pairs: of a repeated name the first place and the last value. -/
def ofList (es : List (String × α)) : OrderedMap α :=
  es.foldl (fun m e => m.insert e.1 e.2) empty

/-- The value of a name. -/
def find? (m : OrderedMap α) (name : String) : Option α :=
  (m.entries.find? fun e => e.1 == name).map Prod.snd

/-- The names in order. -/
def keys (m : OrderedMap α) : List String := m.entries.map Prod.fst

/-- The values in order. -/
def values (m : OrderedMap α) : List α := m.entries.map Prod.snd

/-- Whether a name has an entry. -/
def contains (m : OrderedMap α) (name : String) : Bool :=
  m.entries.any fun e => e.1 == name

/-- The number of entries. -/
def size (m : OrderedMap α) : Nat := m.entries.length

/-- The same names with other values. -/
def mapValues (f : α → β) (m : OrderedMap α) : OrderedMap β :=
  ⟨m.entries.map fun e => (e.1, f e.2), by
    simpa [List.map_map, Function.comp_def] using m.distinct⟩

/-- Drops the entry of a name. -/
def erase (m : OrderedMap α) (name : String) : OrderedMap α :=
  ⟨m.entries.filter fun e => e.1 != name, by
    exact ((List.filter_sublist).map Prod.fst).nodup m.distinct⟩

theorem keys_insert (m : OrderedMap α) (name : String) (a : α) :
    (m.insert name a).keys = if name ∈ m.keys then m.keys else m.keys ++ [name] :=
  map_fst_put name a m.entries

theorem keys_mapValues (f : α → β) (m : OrderedMap α) : (m.mapValues f).keys = m.keys := by
  simp [keys, mapValues, List.map_map, Function.comp_def]

theorem find?_put (name other : String) (a : α) : ∀ es : List (String × α),
    ((put name a es).find? fun e => e.1 == other).map Prod.snd =
      if other = name then some a else (es.find? fun e => e.1 == other).map Prod.snd
  | [] => by
    by_cases h : other = name
    · simp [put, h]
    · have h' : ¬ name = other := fun k => h k.symm
      simp [put, h, h']
  | e :: es => by
    have ih := find?_put name other a es
    by_cases h : e.1 = name
    · by_cases ho : other = name
      · simp [put, h, ho]
      · have h' : ¬ name = other := fun k => ho k.symm
        simp [put, h, ho, h']
    · by_cases he : e.1 = other
      · have h' : ¬ other = name := fun k => h (he.trans k)
        simp [put, he, h']
      · have hb : (e.1 == other) = false := by simpa using he
        simp only [put, if_neg h, List.find?_cons, hb]
        exact ih

/-- An inserted value is found under its name, and no other name is touched. -/
theorem find?_insert (m : OrderedMap α) (name other : String) (a : α) :
    (m.insert name a).find? other = if other = name then some a else m.find? other :=
  find?_put name other a m.entries

end OrderedMap
end JobParameters
