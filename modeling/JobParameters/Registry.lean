/-
# The parameters of a topology

A `Registry` lists the parameters of one topology in the order of their
declaration, each with a slot for the value it is bound to. A name is declared
once; declaring it again in the same way gives the parameter that is there. A
slot is written once: `commit` fills the empty slots from a binding set, all of
them or none, and is refused when the set and the registry do not have the same
names, or when a slot holds a different value already.

Key definitions: `Parameter`, `Registry`, `Registry.register`, `Registry.commit`.
Key theorems: `Registry.contains_iff`, `Registry.specs_fill`.
-/
import JobParameters.Binding
import JobParameters.Manifest
import JobParameters.Spec

namespace JobParameters

/-- A declared parameter with the value it is bound to. -/
structure Parameter where
  spec : ParameterSpec
  bound : Option Value
deriving DecidableEq

/-- The parameters of a topology, in the order of their declaration. -/
structure Registry where
  parameters : List Parameter
  distinct : (parameters.map fun p => p.spec.name).Nodup

namespace Registry

/-- No parameters. -/
def empty : Registry := ⟨[], List.nodup_nil⟩

instance : Inhabited Registry := ⟨empty⟩

/-- The declarations in order. -/
def specs (r : Registry) : List ParameterSpec := r.parameters.map Parameter.spec

/-- The declared names in order. -/
def names (r : Registry) : List String := r.parameters.map fun p => p.spec.name

/-- The parameter of a name. -/
def find? (r : Registry) (name : String) : Option Parameter :=
  r.parameters.find? fun p => p.spec.name == name

/-- The declaration of a name. -/
def spec? (r : Registry) (name : String) : Option ParameterSpec :=
  (r.find? name).map Parameter.spec

/-- The value that a name is bound to. -/
def bound? (r : Registry) (name : String) : Option Value :=
  (r.find? name).bind Parameter.bound

/-- Whether a name is declared. -/
def contains (r : Registry) (name : String) : Bool :=
  r.parameters.any fun p => p.spec.name == name

/-- The number of parameters. -/
def size (r : Registry) : Nat := r.parameters.length

theorem contains_iff (r : Registry) (name : String) : r.contains name = true ↔ name ∈ r.names := by
  simp [contains, names]

/-- Adds a parameter under a new name. -/
def append (r : Registry) (s : ParameterSpec) (h : r.contains s.name = false) : Registry where
  parameters := r.parameters ++ [⟨s, none⟩]
  distinct := by
    have hn : s.name ∉ r.names := fun hm => by
      simp [(contains_iff r s.name).2 hm] at h
    rw [List.map_append, List.nodup_append]
    refine ⟨r.distinct, by simp, ?_⟩
    intro x hx y hy hxy
    simp only [List.map_cons, List.map_nil, List.mem_singleton] at hy
    exact hn (by rw [← hy, ← hxy]; exact hx)

theorem contains_of_find?_eq_none {r : Registry} {name : String} (h : r.find? name = none) :
    r.contains name = false := by
  simpa [contains, find?] using h

/-- Declares a parameter: the registry with it, and its declaration there. A name
that is taken must be declared in the same way. -/
def register (r : Registry) (s : ParameterSpec) :
    Except ParameterError (Registry × ParameterSpec) :=
  match h : r.find? s.name with
  | some p =>
    if p.spec.sameDeclaration s then .ok (r, p.spec)
    else .error (.conflict s.name (.taken p.spec.type p.spec.default))
  | none => .ok (r.append s (contains_of_find?_eq_none h), s)

/-- Declares the parameters of a manifest one after the other. -/
def registerAll (r : Registry) : List (String × Declaration) → Except ParameterError Registry
  | [] => .ok r
  | (name, d) :: ds =>
    match ParameterSpec.declare name d.default d.type d.description with
    | .error e => .error e
    | .ok s =>
      match r.register s with
      | .error e => .error e
      | .ok (r, _) => registerAll r ds

/-- The declared names that a binding set does not list. -/
def lacking (r : Registry) (b : BindingSet) : List String :=
  r.names.filter fun n => !b.contains n

/-- Whether a binding disagrees with the value its name is bound to. -/
def disagrees (r : Registry) (b : Binding) : Bool :=
  match r.bound? b.name with
  | some v => !v.same b.value
  | none => false

/-- Fills the empty slots, each from the first binding of its name. -/
def fill (r : Registry) (bs : List Binding) : Registry where
  parameters := r.parameters.map fun p =>
    { p with bound := p.bound.or ((bs.find? fun b => b.name == p.spec.name).map Binding.value) }
  distinct := by
    simpa [List.map_map, Function.comp_def] using r.distinct

/-- Binds every parameter, or none. -/
def commit (r : Registry) (b : BindingSet) : Except ParameterError Registry :=
  match b.toList.find? fun x => !r.contains x.name with
  | some x => .error (.unknown x.name)
  | none =>
    match r.lacking b with
    | n :: ns => .error (.missing (n :: ns))
    | [] =>
      match b.toList.find? r.disagrees with
      | some x => .error (.alreadyBound x.name)
      | none => .ok (r.fill b.toList)

/-- Filling slots declares nothing. -/
theorem specs_fill (r : Registry) (bs : List Binding) : (r.fill bs).specs = r.specs := by
  simp [fill, specs, List.map_map, Function.comp_def]

end Registry
end JobParameters
