/-
# Declaring parameters

Parameters are declared one call after the other, by code or from a manifest
(`Registration`). A declaration is carried out in place, so what a refused one had changed
would stay changed; it has changed nothing (`Registry.run_registerInPlace`). A call is refused
exactly where it conflicts with something (`Registration.error_iff_conflicts`), and the error
tells with what.

To declare a name again in the same way is to find the parameter that is there
(`Registry.register_of_mem`). Since defaults are finite, a declaration is the same as itself
(`ParameterSpec.Sound.sameDeclaration_self`), so a call that went through once goes through
ever after and gives the same parameter (`Registration.perform_again`). Names stand in the
order in which they first went through (`Registration.names_run`). All this together is
`Registration.declarations_hold`.
-/
import JobParameters.Proofs.Growth

namespace JobParameters
namespace ParameterSpec

variable {s s' : ParameterSpec}

theorem sameDeclaration_iff : s.sameDeclaration s' = true ↔
    s.name = s'.name ∧ s.type = s'.type ∧ sameOption s.default s'.default = true := by
  simp [sameDeclaration, and_assoc]

/-- A default is the same as itself only because it is finite. -/
theorem Sound.sameDeclaration_self (hs : s.Sound) : s.sameDeclaration s = true := by
  refine sameDeclaration_iff.mpr ⟨rfl, rfl, ?_⟩
  cases hd : s.default with
  | none => rfl
  | some v => exact Value.same_self (hs.finite_default v hd)

/-- What is declared: the type that is given, else that of the default, else string. -/
theorem declare_eq_ok_iff {name : String} {default : Option Value} {type : Option ParamType}
    {description : Option String} : declare name default type description = .ok s ↔
      Text.isBlankText name = false ∧
      (∀ v, default = some v → v.isFinite = true ∧ ∀ t, type = some t → v.type = t) ∧
      s = ⟨name, type.getD ((default.map Value.type).getD .string), default, description⟩ := by
  have hok : ∀ s' : ParameterSpec,
      (Except.ok s' : Except ParameterError ParameterSpec) = .ok s ↔ s = s' := fun s' =>
    ⟨fun h => (Except.ok.inj h).symm, fun h => h ▸ rfl⟩
  unfold declare
  cases hn : Text.isBlankText name with
  | true => simp
  | false =>
    cases default with
    | none => simp [hok]
    | some v =>
      cases hf : v.isFinite with
      | false => simp [hf]
      | true =>
        cases type with
        | none => simp [hf, hok]
        | some t => by_cases ht : v.type = t <;> simp [hf, ht, hok]

end ParameterSpec

namespace Registry

variable {r : Registry} {s s' : ParameterSpec} {p : Parameter} {n : String}

theorem spec?_eq_some_iff : r.spec? n = some s ↔ s ∈ r.specs ∧ s.name = n := by
  simp only [spec?, Option.map_eq_some_iff, find?_eq_some_iff, specs, List.mem_map]
  constructor
  · rintro ⟨p, ⟨hp, hn⟩, rfl⟩
    exact ⟨⟨p, hp, rfl⟩, hn⟩
  · rintro ⟨⟨p, hp, rfl⟩, hn⟩
    exact ⟨p, ⟨hp, hn⟩, rfl⟩

theorem name_mem_names (hs : s ∈ r.specs) : s.name ∈ r.names := by
  rw [names_eq_map_specs]
  exact List.mem_map_of_mem hs

/-- A name keeps its declaration while a registry grows. -/
theorem Extends.spec? {r' : Registry} (h : r.Extends r') (hs : r.spec? n = some s) :
    r'.spec? n = some s := by
  obtain ⟨hmem, hn⟩ := spec?_eq_some_iff.mp hs
  exact spec?_eq_some_iff.mpr ⟨h.mem_specs hmem, hn⟩

/-! ### One declaration -/

theorem register_of_find?_eq_some (h : r.find? s.name = some p) : r.register s =
    if p.spec.sameDeclaration s then .ok (r, p.spec)
    else .error (.conflict s.name (.taken p.spec.type p.spec.default)) := by
  unfold register
  split
  · next q hq =>
    obtain rfl : p = q := Option.some.inj (h.symm.trans hq)
    rfl
  · next hn => cases h.symm.trans hn

theorem register_of_find?_eq_none (h : r.find? s.name = none) :
    r.register s = .ok (r.append s (contains_of_find?_eq_none h), s) := by
  unfold register
  split
  · next q hq => cases h.symm.trans hq
  · rfl

/-- A name that is declared again in the same way gives the parameter that is there. -/
theorem register_of_mem (hs' : s' ∈ r.specs) (hsame : s'.sameDeclaration s = true) :
    r.register s = .ok (r, s') := by
  obtain ⟨p, hp, rfl⟩ := List.mem_map.mp hs'
  have hn : p.spec.name = s.name := (ParameterSpec.sameDeclaration_iff.mp hsame).1
  rw [register_of_find?_eq_some (find?_eq_some_iff.mpr ⟨hp, hn⟩), if_pos hsame]

/-- A declaration as it is carried out: a parameter is added only after all checks. -/
def registerInPlace (s : ParameterSpec) :
    ExceptT ParameterError (StateM Registry) ParameterSpec := do
  let r ← get
  match h : r.find? s.name with
  | some p =>
    if p.spec.sameDeclaration s then
      return p.spec
    throw (.conflict s.name (.taken p.spec.type p.spec.default))
  | none =>
    set (r.append s (contains_of_find?_eq_none h))
    return s

/-- **A declaration in place** does what `register` says, and nothing where that is refused. -/
theorem run_registerInPlace (s : ParameterSpec) : (registerInPlace s).run r =
    match r.register s with
    | .ok (r', s') => (.ok s', r')
    | .error e => (.error e, r) := by
  show (match h : r.find? s.name with
    | some p =>
      if p.spec.sameDeclaration s then pure p.spec
      else throw (.conflict s.name (.taken p.spec.type p.spec.default))
    | none => do
      set (r.append s (contains_of_find?_eq_none h))
      return s : ExceptT ParameterError (StateM Registry) ParameterSpec).run r = _
  split
  · next p hp =>
    rw [register_of_find?_eq_some hp]
    split <;> rfl
  · next hn =>
    rw [register_of_find?_eq_none hn]
    rfl

end Registry

/-! ### Calls -/

/-- A call that declares a parameter. -/
inductive Registration where
  /-- By code, which gives no description. -/
  | plain (name : String) (default : Option Value) (type : Option ParamType)
  | declaration (name : String) (d : Declaration)

namespace Registration

/-- The name that is declared. -/
def name : Registration → String
  | plain n _ _ => n
  | declaration n _ => n

/-- The default that is declared. -/
def default : Registration → Option Value
  | plain _ v _ => v
  | declaration _ d => d.default

/-- The type that is given. -/
def type? : Registration → Option ParamType
  | plain _ _ t => t
  | declaration _ d => d.type

/-- The type that is declared. -/
def type (c : Registration) : ParamType :=
  c.type?.getD ((c.default.map Value.type).getD .string)

/-- The description that is given. -/
def description : Registration → Option String
  | plain _ _ _ => none
  | declaration _ d => d.description

/-- The declaration, made of its parts. -/
def spec (c : Registration) : Except ParameterError ParameterSpec :=
  ParameterSpec.declare c.name c.default c.type? c.description

/-- The registry after the call and the declaration there, or why it is refused. -/
def perform (c : Registration) (r : Registry) : Except ParameterError (Registry × ParameterSpec) :=
  match c.spec with
  | .error e => .error e
  | .ok s => r.register s

/-- The call as it is carried out. -/
def inPlace (c : Registration) : ExceptT ParameterError (StateM Registry) ParameterSpec :=
  match c.spec with
  | .error e => throw e
  | .ok s => Registry.registerInPlace s

/-- What the call gives. -/
def answer (c : Registration) (r : Registry) : Except ParameterError ParameterSpec :=
  (c.inPlace.run r).1

/-- The registry after the call, whether it was refused or not. -/
def after (c : Registration) (r : Registry) : Registry := (c.inPlace.run r).2

/-- The registry after calls, one after the other. -/
def run (r : Registry) (cs : List Registration) : Registry := cs.foldl (fun r c => c.after r) r

/-- The names of the calls that went through, in their order. -/
def accepted : Registry → List Registration → List String
  | _, [] => []
  | r, c :: cs =>
    match c.answer r with
    | .ok _ => c.name :: accepted (c.after r) cs
    | .error _ => accepted (c.after r) cs

variable {c : Registration} {r r' : Registry} {s : ParameterSpec} {e : ParameterError}

/-- Code declares a parameter of a topology by such a call. -/
theorem declare_eq_perform (t : Topology) (name : String) (default : Option Value)
    (type : Option ParamType) : t.declare name default type =
      ((plain name default type).perform t.registry).map
        fun (r, s) => ({ t with registry := r }, s) := by
  unfold Topology.declare perform spec
  dsimp only [Registration.name, Registration.default, type?, description]
  cases ParameterSpec.declare name default type none <;> rfl

/-- The declarations of a manifest are such calls, up to the first that is refused. -/
theorem registerAll_cons (r : Registry) (name : String) (d : Declaration)
    (ds : List (String × Declaration)) : r.registerAll ((name, d) :: ds) =
      match (declaration name d).perform r with
      | .error e => .error e
      | .ok (r, _) => r.registerAll ds := by
  rw [Registry.registerAll, perform, spec]
  dsimp only [Registration.name, Registration.default, type?, description]
  cases ParameterSpec.declare name d.default d.type d.description <;> rfl

/-- A call gives a parameter and the registry with it, or an error and nothing else. -/
theorem step_cases (c : Registration) (r : Registry) :
    (∃ e, c.perform r = .error e ∧ c.answer r = .error e ∧ c.after r = r) ∨
      ∃ r' s, c.perform r = .ok (r', s) ∧ c.answer r = .ok s ∧ c.after r = r' := by
  unfold answer after inPlace perform
  cases c.spec with
  | error e => exact Or.inl ⟨e, rfl, rfl, rfl⟩
  | ok s =>
    dsimp only
    rw [Registry.run_registerInPlace]
    cases hr : r.register s with
    | error e => exact Or.inl ⟨e, rfl, rfl, rfl⟩
    | ok q => exact Or.inr ⟨q.1, q.2, rfl, rfl, rfl⟩

theorem perform_of_answer (h : c.answer r = .ok s) : c.perform r = .ok (c.after r, s) := by
  rcases c.step_cases r with ⟨e, -, ha, -⟩ | ⟨r', s', hp, ha, rfl⟩
  · cases h.symm.trans ha
  · rw [hp, Except.ok.inj (h.symm.trans ha)]

theorem perform_of_answer_error (h : c.answer r = .error e) :
    c.perform r = .error e ∧ c.after r = r := by
  rcases c.step_cases r with ⟨e', hp, ha, hr⟩ | ⟨r', s, -, ha, -⟩
  · rw [hp, Except.error.inj (h.symm.trans ha)]
    exact ⟨rfl, hr⟩
  · cases h.symm.trans ha

theorem perform_cases (h : c.perform r = .ok (r', s)) :
    ∃ s₀, c.spec = .ok s₀ ∧ s₀.name = c.name ∧ r.register s₀ = .ok (r', s) := by
  unfold perform at h
  cases hs : c.spec with
  | error e =>
    rw [hs] at h
    cases h
  | ok s₀ =>
    rw [hs] at h
    exact ⟨s₀, rfl, (ParameterSpec.sound_of_declare hs).2, h⟩

/-! ### Refusals -/

/-- Why a call cannot be accepted. -/
inductive Conflicts (r : Registry) (c : Registration) : ConflictReason → Prop
  | blank : Text.isBlankText c.name = true → Conflicts r c .blankName
  | notFinite {x : Binary64} : c.default = some (.float x) → x.isFinite = false →
      Conflicts r c .nonFiniteDefault
  | otherType {v : Value} {t : ParamType} : c.default = some v → c.type? = some t →
      v.type ≠ t → Conflicts r c (.defaultType v t)
  /-- The name stands for a parameter of another type or default. -/
  | taken {s : ParameterSpec} : s ∈ r.specs → s.name = c.name →
      (s.type ≠ c.type ∨ sameOption s.default c.default = false) →
      Conflicts r c (.taken s.type s.default)

theorem conflicts_of_spec (r : Registry) (h : c.spec = .error e) :
    ∃ why, e = .conflict c.name why ∧ c.Conflicts r why := by
  unfold spec ParameterSpec.declare at h
  split at h
  · next hn =>
    cases h
    exact ⟨_, rfl, .blank hn⟩
  · split at h
    · cases h
    · next _ v hd =>
      split at h
      · split at h
        · cases h
        · next t ht =>
          split at h
          · cases h
          · next hvt =>
            cases h
            exact ⟨_, rfl, .otherType hd ht hvt⟩
      · next hf =>
        cases h
        cases v with
        | float x => exact ⟨_, rfl, .notFinite hd (by simpa [Value.isFinite] using hf)⟩
        | _ => exact absurd rfl hf

/-- A call is refused only for a conflict, and the error tells which. -/
theorem conflicts_of_perform (h : c.perform r = .error e) :
    ∃ why, e = .conflict c.name why ∧ c.Conflicts r why := by
  unfold perform at h
  cases hs : c.spec with
  | error e' =>
    rw [hs] at h
    cases h
    exact conflicts_of_spec r hs
  | ok s =>
    rw [hs] at h
    obtain ⟨-, -, rfl⟩ := ParameterSpec.declare_eq_ok_iff.mp hs
    dsimp only at h
    cases hp : r.find? c.name with
    | none =>
      rw [Registry.register_of_find?_eq_none hp] at h
      cases h
    | some p =>
      rw [Registry.register_of_find?_eq_some hp] at h
      split at h
      · cases h
      · next hd =>
        cases h
        obtain ⟨hmem, hn⟩ := Registry.find?_eq_some_iff.mp hp
        refine ⟨_, rfl, .taken (List.mem_map_of_mem hmem) hn ?_⟩
        by_contra hsame
        rw [not_or, not_not, Bool.not_eq_false] at hsame
        exact hd (ParameterSpec.sameDeclaration_iff.mpr ⟨hn, hsame⟩)

/-- Where there is a conflict, the call is refused. -/
theorem error_of_conflicts {why : ConflictReason} (h : c.Conflicts r why) :
    ∃ e, c.perform r = .error e := by
  cases hp : c.perform r with
  | error e => exact ⟨e, rfl⟩
  | ok q =>
    exfalso
    obtain ⟨s₀, hs₀, hn₀, hreg⟩ := perform_cases hp
    obtain ⟨hn, hdefault, hs⟩ := ParameterSpec.declare_eq_ok_iff.mp hs₀
    cases h with
    | blank hb => exact Bool.noConfusion (hb.symm.trans hn)
    | notFinite hd hf => exact Bool.noConfusion (hf.symm.trans (hdefault _ hd).1)
    | otherType hd ht hvt => exact hvt ((hdefault _ hd).2 _ ht)
    | @taken s hmem hname hdiff =>
      rcases Registry.register_cases hreg with ⟨-, hmem', hsame⟩ | ⟨-, hnew, -⟩
      · obtain ⟨hname', htype, hsame⟩ := ParameterSpec.sameDeclaration_iff.mp hsame
        have hd : (r.specs.map ParameterSpec.name).Nodup := by
          rw [← Registry.names_eq_map_specs]
          exact r.distinct
        obtain rfl := eq_of_key_eq hd hmem hmem' (by rw [hname, hname', hn₀])
        subst hs
        rcases hdiff with hdiff | hdiff
        · exact hdiff htype
        · exact Bool.noConfusion (hdiff.symm.trans hsame)
      · exact hnew (hn₀ ▸ hname ▸ Registry.name_mem_names hmem)

/-- A call is refused exactly where there is a conflict. -/
theorem error_iff_conflicts :
    (∃ e, c.answer r = .error e) ↔ ∃ why, c.Conflicts r why := by
  constructor
  · rintro ⟨e, he⟩
    obtain ⟨why, -, hwhy⟩ := conflicts_of_perform (perform_of_answer_error he).1
    exact ⟨why, hwhy⟩
  · rintro ⟨why, hwhy⟩
    obtain ⟨e, hp⟩ := error_of_conflicts hwhy
    rcases c.step_cases r with ⟨e', -, ha, -⟩ | ⟨r', s, hp', -, -⟩
    · exact ⟨e', ha⟩
    · cases hp.symm.trans hp'

/-! ### Calls that go through -/

/-- A call that went through gives a parameter of its name, which is there from then on. -/
theorem mem_specs_of_perform (h : c.perform r = .ok (r', s)) :
    s.name = c.name ∧ s ∈ r'.specs := by
  obtain ⟨s₀, hs₀, hn, hreg⟩ := perform_cases h
  rcases Registry.register_cases hreg with ⟨rfl, hmem, hsame⟩ | ⟨rfl, -, hr⟩
  · exact ⟨(ParameterSpec.sameDeclaration_iff.mp hsame).1.trans hn, hmem⟩
  · exact ⟨hn, by simp [Registry.specs, hr]⟩

/-- A call for a new name adds what it declares. -/
theorem appended_of_answer (h : c.answer r = .ok s) (hn : c.name ∉ r.names) :
    s = ⟨c.name, c.type, c.default, c.description⟩ ∧
      (c.after r).parameters =
        r.parameters ++ [⟨⟨c.name, c.type, c.default, c.description⟩, none⟩] := by
  obtain ⟨s₀, hs₀, hn₀, hreg⟩ := perform_cases (perform_of_answer h)
  obtain ⟨-, -, hspec⟩ := ParameterSpec.declare_eq_ok_iff.mp hs₀
  rcases Registry.register_cases hreg with ⟨-, hmem, hsame⟩ | ⟨hs, -, hr⟩
  · have hn' : s.name = c.name := (ParameterSpec.sameDeclaration_iff.mp hsame).1.trans hn₀
    exact absurd (hn' ▸ Registry.name_mem_names hmem) hn
  · subst hspec
    exact ⟨hs, hr⟩

/-- A call that went through goes through in every registry that has grown from there, and
gives the same parameter. -/
theorem perform_again (h : c.perform r = .ok (r', s)) {r'' : Registry}
    (hext : r'.specs <+: r''.specs) : c.perform r'' = .ok (r'', s) := by
  have hmem : s ∈ r''.specs := hext.subset (mem_specs_of_perform h).2
  obtain ⟨s₀, hs₀, -, hreg⟩ := perform_cases h
  have hsame : s.sameDeclaration s₀ = true := by
    rcases Registry.register_cases hreg with ⟨-, -, hsame⟩ | ⟨rfl, -, -⟩
    · exact hsame
    · -- What was new is compared with itself.
      exact (ParameterSpec.sound_of_declare hs₀).1.sameDeclaration_self
  unfold perform
  rw [hs₀]
  exact Registry.register_of_mem hmem hsame

/-- A call for a name that is there changes nothing. -/
theorem after_of_mem (hn : c.name ∈ r.names) : c.after r = r := by
  rcases c.step_cases r with ⟨e, -, -, ha⟩ | ⟨r', s, hp, -, rfl⟩
  · exact ha
  · obtain ⟨s₀, -, hn₀, hreg⟩ := perform_cases hp
    rcases Registry.register_cases hreg with ⟨hr, -, -⟩ | ⟨-, hnew, -⟩
    · exact hr
    · exact absurd (hn₀ ▸ hn) hnew

theorem answer_again (h : c.answer r = .ok s) {r'' : Registry}
    (hext : (c.after r).specs <+: r''.specs) : c.answer r'' = .ok s ∧ c.after r'' = r'' := by
  have hagain := perform_again (perform_of_answer h) hext
  rcases c.step_cases r'' with ⟨e, hp', -, -⟩ | ⟨r₂, s₂, hp', ha', hafter⟩
  · cases hagain.symm.trans hp'
  · obtain ⟨rfl, rfl⟩ := Prod.mk.inj (Except.ok.inj (hagain.symm.trans hp'))
    exact ⟨ha', hafter⟩

/-! ### Runs -/

theorem run_cons (r : Registry) (c : Registration) (cs : List Registration) :
    run r (c :: cs) = run (c.after r) cs := rfl

theorem extends_after (c : Registration) (r : Registry) : r.Extends (c.after r) := by
  rcases c.step_cases r with ⟨e, -, -, ha⟩ | ⟨r', s, hp, -, rfl⟩
  · rw [ha]
    exact .refl r
  · obtain ⟨s₀, -, -, hreg⟩ := perform_cases hp
    exact Registry.extends_register hreg

theorem reachable_after (c : Registration) (h : r.Reachable) : (c.after r).Reachable := by
  rcases c.step_cases r with ⟨e, -, -, ha⟩ | ⟨r', s, hp, -, rfl⟩
  · rw [ha]
    exact h
  · obtain ⟨s₀, hs₀, -, hreg⟩ := perform_cases hp
    exact h.register hs₀ hreg

theorem extends_run (r : Registry) (cs : List Registration) : r.Extends (run r cs) := by
  induction cs generalizing r with
  | nil => exact .refl r
  | cons c cs ih => exact (c.extends_after r).trans (ih (c.after r))

theorem reachable_run (h : r.Reachable) (cs : List Registration) : (run r cs).Reachable := by
  induction cs generalizing r with
  | nil => exact h
  | cons c cs ih => exact ih (c.reachable_after h)

/-- A call that goes through puts its name after the others, if it is not there. -/
theorem names_of_answer (h : c.answer r = .ok s) :
    (c.after r).names = if c.name ∈ r.names then r.names else r.names ++ [c.name] := by
  split
  · next hn => rw [after_of_mem hn]
  · next hn => simp [Registry.names, (appended_of_answer h hn).2]

/-- Calls add the names that are new, in the order in which they first went through. -/
theorem names_run (r : Registry) (cs : List Registration) : (run r cs).names =
    r.names ++ ((accepted r cs).filter fun n => n ∉ r.names).eraseDups := by
  induction cs generalizing r with
  | nil => simp [run, accepted]
  | cons c cs ih =>
    rw [run_cons, ih, accepted]
    rcases c.step_cases r with ⟨e, -, ha, hr⟩ | ⟨r', s, -, ha, -⟩
    · rw [ha, hr]
    · rw [ha, append_eraseDups_filter_cons, ← names_of_answer ha]

/-- **What declarations keep to**, whichever calls came before and whichever come later.
Names are distinct and stand in the order in which they first went through; a name keeps
its declaration, and the declaration is sound. A call is refused for the conflicts there
are and for nothing else, and one that is refused changes nothing, nor does one for a name
that is there. A call that went through goes through at any later time and finds the same
parameter at the same place, so that it gives a handle of the same slot. -/
theorem declarations_hold (calls later : List Registration) (c : Registration) :
    let r := run .empty calls
    (r.names.Nodup ∧ r.names = (accepted .empty calls).eraseDups) ∧
      (∀ n s, r.spec? n = some s → (run r later).spec? n = some s) ∧
      (∀ s ∈ r.specs, s.Sound) ∧
      ((∃ e, c.answer r = .error e) ↔ ∃ why, c.Conflicts r why) ∧
      (∀ e, c.answer r = .error e →
        c.after r = r ∧ ∃ why, e = .conflict c.name why ∧ c.Conflicts r why) ∧
      (c.name ∈ r.names → c.after r = r) ∧
      ∀ s, c.answer r = .ok s →
        (c.name ∉ r.names → s = ⟨c.name, c.type, c.default, c.description⟩) ∧
        ∃ i : Nat, (c.after r).specs[i]? = some s ∧ s.name = c.name ∧
          let r' := run (c.after r) later
          c.answer r' = .ok s ∧ r'.specs[i]? = some s ∧ c.after r' = r' := by
  intro r
  refine ⟨⟨r.distinct, ?_⟩, ?_, ?_, error_iff_conflicts, ?_, after_of_mem, ?_⟩
  · have hempty : Registry.empty.names = [] := rfl
    simpa [hempty] using names_run .empty calls
  · exact fun n s hs => (extends_run r later).spec? hs
  · exact (reachable_run .empty calls).sound
  · intro e he
    obtain ⟨hp, hafter⟩ := perform_of_answer_error he
    exact ⟨hafter, conflicts_of_perform hp⟩
  · intro s hs
    obtain ⟨hn, hmem⟩ := mem_specs_of_perform (perform_of_answer hs)
    obtain ⟨i, hi, hget⟩ := List.mem_iff_getElem.mp hmem
    have hgrown : (c.after r).specs <+: (run (c.after r) later).specs :=
      (extends_run _ later).specs
    obtain ⟨hagain, hstays⟩ := answer_again hs hgrown
    refine ⟨fun hnew => (appended_of_answer hs hnew).1, i, ?_, hn, hagain, ?_, hstays⟩
    · rw [List.getElem?_eq_getElem hi, hget]
    · rw [List.prefix_iff_getElem?.mp hgrown i hi, hget]

/-- A ratio that is `0` by default, then an integer of the same name, which is refused. -/
def twoRatios : List Registration :=
  [.plain "ratio" (some (.float (Binary64.zero false))) none,
    .plain "ratio" (some (.integer 0)) none]

/-- With `-0` as its default the ratio is still the one that is there, which has no
description, and so it is when others were declared. -/
theorem declarations_hold_twoRatios :
    let c := declaration "ratio"
      ⟨some .float, some (.float (Binary64.zero true)), some "a share"⟩
    let s : ParameterSpec := ⟨"ratio", .float, some (.float (Binary64.zero false)), none⟩
    let r := run .empty twoRatios
    (r.names = ["ratio"] ∧ c.answer r = .ok s) ∧
      c.answer (run (c.after r) [.plain "limit" none none]) = .ok s := by
  intro c s r
  have hs : c.answer r = .ok s := by decide +kernel
  obtain ⟨-, -, -, -, -, -, hagain⟩ :=
    declarations_hold twoRatios [.plain "limit" none none] c
  obtain ⟨-, i, -, -, hlater, -⟩ := hagain s hs
  exact ⟨⟨by decide +kernel, hs⟩, hlater⟩

end Registration
end JobParameters
