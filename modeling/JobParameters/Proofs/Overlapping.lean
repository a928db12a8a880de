/-
# Submissions that overlap

A commit goes over a set twice: it checks each binding against its slot, and then it writes
each binding to its slot. Clients need a topology for themselves only to declare a
parameter, so commits can overlap, and a slot that one of them found empty may be filled by
another before it comes to write. That write is lost, and the submission is accepted all
the same. A `Service` is a ledger with the commits that are under way; one check and one
write are a step each (`Registry.advance`).

A commit that is carried out without a pause is that of the ledger (`Service.run_whole`).
In any run slots keep what they hold and stay typed (`Service.Inv`). Accepted submissions
have the values of the slots as long as commits that are under way together have the same
values under the names they share (`Service.Undisputed`, `Service.settled_step`); nothing
else is asked of how they overlap.
-/
import JobParameters.Proofs.Agreement
import Mathlib.Data.List.Pairwise

namespace JobParameters

/-- A pass of a commit, with the bindings that it still has to get to. -/
inductive Pass where
  | checking (left : List Binding)
  | writing (left : List Binding)

/-- A commit that is under way. -/
structure Commit where
  bindings : BindingSet
  pass : Pass

namespace Registry

/-- The beginning of a commit: names are compared, and these stay as they are meanwhile. -/
def begin (r : Registry) (b : BindingSet) : Except ParameterError Commit :=
  match b.toList.find? fun x => !r.contains x.name with
  | some x => .error (.unknown x.name)
  | none =>
    match r.lacking b with
    | n :: ns => .error (.missing (n :: ns))
    | [] => .ok ⟨b, .checking b.toList⟩

/-- One step of a commit: the registry after it, and the commit as it goes on, nothing
where it is through, or the error that ends it. -/
def advance (r : Registry) (c : Commit) : Registry × Except ParameterError (Option Commit) :=
  match c.pass with
  | .checking [] => (r, .ok (some { c with pass := .writing c.bindings.toList }))
  | .checking (x :: xs) =>
    if r.disagrees x then (r, .error (.alreadyBound x.name))
    else (r, .ok (some { c with pass := .checking xs }))
  | .writing [] => (r, .ok none)
  | .writing (x :: xs) => (r.write x, .ok (some { c with pass := .writing xs }))

variable {r r' : Registry} {b : BindingSet} {c c' : Commit}

theorem begin_eq_ok (h : r.begin b = .ok c) : c = ⟨b, .checking b.toList⟩ := by
  unfold begin at h
  split at h
  · cases h
  · split at h
    · cases h
    · exact (Except.ok.inj h).symm

/-- After a beginning there is nothing else to a commit than its two passes. -/
theorem commit_eq_begin : r.commit b =
    match r.begin b with
    | .error e => .error e
    | .ok _ =>
      match b.toList.find? r.disagrees with
      | some x => .error (.alreadyBound x.name)
      | none => .ok (r.fill b.toList) := by
  unfold commit begin
  cases b.toList.find? fun x => !r.contains x.name with
  | some x => rfl
  | none =>
    cases r.lacking b with
    | cons n ns => rfl
    | nil => rfl

/-- What a step of a commit does: it goes over to writing, or finds a binding to agree or
not, or writes one, or is through. -/
theorem advance_cases {o : Except ParameterError (Option Commit)} (h : r.advance c = (r', o)) :
    (c.pass = .checking [] ∧ r' = r ∧ o = .ok (some ⟨c.bindings, .writing c.bindings.toList⟩)) ∨
    (∃ x xs, c.pass = .checking (x :: xs) ∧ r' = r ∧
      ((r.disagrees x = true ∧ o = .error (.alreadyBound x.name)) ∨
        (r.disagrees x = false ∧ o = .ok (some ⟨c.bindings, .checking xs⟩)))) ∨
    (∃ x xs, c.pass = .writing (x :: xs) ∧ r' = r.write x ∧
      o = .ok (some ⟨c.bindings, .writing xs⟩)) ∨
    (c.pass = .writing [] ∧ r' = r ∧ o = .ok none) := by
  unfold advance at h
  split at h
  · next hp =>
    obtain ⟨rfl, rfl⟩ := Prod.mk.inj h
    exact Or.inl ⟨hp, rfl, rfl⟩
  · next x xs hp =>
    split at h
    · next hd =>
      obtain ⟨rfl, rfl⟩ := Prod.mk.inj h
      exact Or.inr (Or.inl ⟨x, xs, hp, rfl, Or.inl ⟨hd, rfl⟩⟩)
    · next hd =>
      obtain ⟨rfl, rfl⟩ := Prod.mk.inj h
      exact Or.inr (Or.inl ⟨x, xs, hp, rfl, Or.inr ⟨by simpa using hd, rfl⟩⟩)
  · next hp =>
    obtain ⟨rfl, rfl⟩ := Prod.mk.inj h
    exact Or.inr (Or.inr (Or.inr ⟨hp, rfl, rfl⟩))
  · next x xs hp =>
    obtain ⟨rfl, rfl⟩ := Prod.mk.inj h
    exact Or.inr (Or.inr (Or.inl ⟨x, xs, hp, rfl, rfl⟩))

/-- A binding that agrees with its slot goes on to do so if what is written there is the
same. -/
theorem disagrees_write {x y : Binding} (hx : r.disagrees x = false)
    (hy : y.name = x.name → y.value.same x.value = true) : (r.write y).disagrees x = false := by
  refine disagrees_eq_false_iff.mpr fun v hv => ?_
  have hn : x.name ∈ r.names := names_fill (r := r) [y] ▸ mem_names_of_bound? hv
  rw [write, bound?_fill _ hn] at hv
  cases hu : r.bound? x.name with
  | some u =>
    rw [hu, Option.some_or] at hv
    exact disagrees_eq_false_iff.mp hx v (hu.trans hv)
  | none =>
    rw [hu, Option.none_or] at hv
    obtain ⟨z, hz, rfl⟩ := Option.map_eq_some_iff.mp hv
    obtain rfl : z = y := List.mem_singleton.mp (List.mem_of_find?_eq_some hz)
    exact hy (by simpa using List.find?_some hz)

/-- The slot of a binding that is written holds a value from then on. -/
theorem isSome_bound?_write {x : Binding} (hx : x.name ∈ r.names) :
    ((r.write x).bound? x.name).isSome = true := by
  rw [write, bound?_fill _ hx]
  simp

end Registry

/-- The bindings that a pass has still to get to. -/
def Pass.left : Pass → List Binding
  | .checking xs => xs
  | .writing xs => xs

namespace Registry

variable {r r' : Registry} {c c' : Commit} {o : Except ParameterError (Option Commit)}

/-- A step of a commit leaves the registry as it is or writes one of the bindings. -/
theorem advance_eq_or_write (h : r.advance c = (r', o)) :
    r' = r ∨ ∃ x ∈ c.pass.left, r' = r.write x := by
  rcases advance_cases h with ⟨-, rfl, -⟩ | ⟨_, _, -, rfl, -⟩ | ⟨x, xs, hp, rfl, -⟩ | ⟨-, rfl, -⟩
  · exact Or.inl rfl
  · exact Or.inl rfl
  · exact Or.inr ⟨x, by simp [hp, Pass.left], rfl⟩
  · exact Or.inl rfl

theorem extends_advance (h : r.advance c = (r', o)) : r.Extends r' := by
  rcases advance_eq_or_write h with rfl | ⟨x, -, rfl⟩
  · exact .refl _
  · exact extends_fill [x]

theorem specs_advance (h : r.advance c = (r', o)) : r'.specs = r.specs := by
  rcases advance_eq_or_write h with rfl | ⟨x, -, rfl⟩
  · rfl
  · exact specs_fill r [x]

/-- A commit that goes on is of the same set. -/
theorem advance_goes_on (h : r.advance c = (r', .ok (some c')))
    (hl : c.pass.left ⊆ c.bindings.toList) :
    c'.bindings = c.bindings ∧ c'.pass.left ⊆ c.bindings.toList := by
  rcases advance_cases h with ⟨-, -, ho⟩ | ⟨x, xs, hp, -, ⟨-, ho⟩ | ⟨-, ho⟩⟩ |
    ⟨x, xs, hp, -, ho⟩ | ⟨-, -, ho⟩
  · cases ho
    exact ⟨rfl, List.Subset.refl _⟩
  · cases ho
  · cases ho
    rw [hp] at hl
    exact ⟨rfl, List.Subset.trans (List.subset_cons_self x xs) hl⟩
  · cases ho
    rw [hp] at hl
    exact ⟨rfl, List.Subset.trans (List.subset_cons_self x xs) hl⟩
  · cases ho

end Registry

/-! ### Commits that are under way -/

/-- A ledger with the commits that are under way. -/
structure Service where
  ledger : Ledger
  underWay : List Commit

namespace Service

/-- What can happen. -/
inductive Operation where
  /-- A client asks for something; a commit only begins. -/
  | ask (op : Ledger.Operation)
  /-- A commit does its next step. -/
  | advance (commit : Nat)

/-- Nothing was asked for yet. -/
def opening (t : Topology) : Service := ⟨.opening t, []⟩

/-- The parameters as they are. -/
def registry (s : Service) : Registry := s.ledger.topology.registry

/-- The topology with its parameters in a new state. -/
def topologyWith (s : Service) (r : Registry) : Topology := { s.ledger.topology with registry := r }

/-- Begins to commit a set, unless its names are refused. -/
def begin (s : Service) (b : BindingSet) : Service :=
  match s.registry.begin b with
  | .ok c => { s with underWay := s.underWay ++ [c] }
  | .error _ => s

/-- What a step of a commit leaves; one that has come to its end is no longer under way. -/
def settle (s : Service) (k : Nat) (c : Commit) :
    Registry × Except ParameterError (Option Commit) → Service
  | (r, .ok (some c')) =>
    ⟨{ s.ledger with topology := s.topologyWith r }, s.underWay.set k c'⟩
  | (r, .ok none) =>
    ⟨s.ledger.accept (s.topologyWith r) ⟨s.ledger.topology.name, c.bindings⟩,
      s.underWay.eraseIdx k⟩
  | (r, .error _) =>
    ⟨{ s.ledger with topology := s.topologyWith r }, s.underWay.eraseIdx k⟩

/-- A commit does its next step. -/
def advance (s : Service) (k : Nat) : Service :=
  match s.underWay[k]? with
  | none => s
  | some c => s.settle k c (s.registry.advance c)

/-- What happens next: a set that is to be committed begins to be, and all else is done at
once; but whoever declares a parameter waits until no commit is under way. -/
def step (s : Service) : Operation → Service
  | .ask op =>
    match s.ledger.committed? op, op with
    | some b, _ => s.begin b
    | none, .declare name default type =>
      if s.underWay.isEmpty then { s with ledger := s.ledger.step (.declare name default type) }
      else s
    | none, op => { s with ledger := s.ledger.step op }
  | .advance k => s.advance k

/-- What happens one thing after the other. -/
def run (s : Service) (ops : List Operation) : Service := ops.foldl step s

theorem run_append (s : Service) (ops ops' : List Operation) :
    s.run (ops ++ ops') = (s.run ops).run ops' := List.foldl_append

/-! ### A commit without a pause -/

/-- Nothing is left to be done where no commit is under way. -/
theorem run_idle (l : Ledger) (n : Nat) :
    (Service.mk l []).run (List.replicate n (.advance 0)) = ⟨l, []⟩ := by
  induction n with
  | zero => rfl
  | succ n ih => exact ih

/-- The checks change nothing. They end with the first binding that disagrees, and else
with the writing to come. -/
theorem run_checking (l : Ledger) (b : BindingSet) (xs : List Binding) :
    ∃ n, (Service.mk l [⟨b, .checking xs⟩]).run (List.replicate n (.advance 0)) =
      match xs.find? l.topology.registry.disagrees with
      | some _ => ⟨l, []⟩
      | none => ⟨l, [⟨b, .writing b.toList⟩]⟩ := by
  induction xs with
  | nil => exact ⟨1, rfl⟩
  | cons x xs ih =>
    obtain ⟨n, hn⟩ := ih
    refine ⟨n + 1, ?_⟩
    rw [List.replicate_succ, run, List.foldl_cons, List.find?_cons]
    show ((Service.mk l [⟨b, .checking (x :: xs)⟩]).settle 0 ⟨b, .checking (x :: xs)⟩
      (if l.topology.registry.disagrees x then _ else _)).run _ = _
    cases l.topology.registry.disagrees x with
    | true => exact run_idle l n
    | false => exact hn

/-- The writes fill slot after slot, and the submission is accepted. -/
theorem run_writing (l : Ledger) (b : BindingSet) (xs : List Binding) :
    (Service.mk l [⟨b, .writing xs⟩]).run (List.replicate (xs.length + 1) (.advance 0)) =
      ⟨l.accept { l.topology with registry := l.topology.registry.fill xs }
        ⟨l.topology.name, b⟩, []⟩ := by
  rw [Registry.fill_eq_foldl_write]
  induction xs generalizing l with
  | nil => rfl
  | cons x xs ih =>
    let written : Topology := { l.topology with registry := l.topology.registry.write x }
    exact ih { l with topology := written }

/-- A commit that begins and is carried out without a pause is a commit. -/
theorem run_begin (l : Ledger) (b : BindingSet) :
    ∃ n, ((Service.mk l []).begin b).run (List.replicate n (.advance 0)) =
      match l.topology.commit b with
      | .ok (t, x) => ⟨l.accept t x, []⟩
      | .error _ => ⟨l, []⟩ := by
  unfold begin
  rw [Topology.commit, Registry.commit_eq_begin]
  cases hc : l.topology.registry.begin b with
  | error e =>
    refine ⟨0, ?_⟩
    simp only [registry, hc]
    rfl
  | ok c =>
    obtain rfl := Registry.begin_eq_ok hc
    obtain ⟨n, hn⟩ := run_checking l b b.toList
    simp only [registry, hc, List.nil_append]
    cases hd : b.toList.find? l.topology.registry.disagrees with
    | some x =>
      rw [hd] at hn
      exact ⟨n, hn⟩
    | none =>
      rw [hd] at hn
      refine ⟨n + (b.toList.length + 1), ?_⟩
      rw [List.replicate_add, run_append, hn]
      exact run_writing l b b.toList

/-- What is asked for and then carried out without a pause is done as the ledger does it. -/
theorem step_whole (l : Ledger) (op : Ledger.Operation) :
    ∃ n, ((Service.mk l []).step (.ask op)).run (List.replicate n (.advance 0)) =
      ⟨l.step op, []⟩ := by
  cases hb : l.committed? op with
  | some b =>
    obtain ⟨n, hn⟩ := run_begin l b
    refine ⟨n, ?_⟩
    simp only [step, hb, hn, Ledger.step_of_committed hb]
    cases l.topology.commit b <;> rfl
  | none =>
    refine ⟨0, ?_⟩
    cases op <;> simp [step, hb, run]

/-- **Without overlaps it is the ledger's run.** Whatever clients ask a ledger for can be
asked of a service, with each commit carried out before the next thing is asked for, and
comes to the same. -/
theorem run_whole (l : Ledger) (ops : List Ledger.Operation) :
    ∃ steps, (Service.mk l []).run steps = ⟨l.run ops, []⟩ := by
  induction ops generalizing l with
  | nil => exact ⟨[], rfl⟩
  | cons op ops ih =>
    obtain ⟨n, hn⟩ := step_whole l op
    obtain ⟨steps, hs⟩ := ih (l.step op)
    refine ⟨.ask op :: List.replicate n (.advance 0) ++ steps, ?_⟩
    rw [run_append]
    show (((Service.mk l []).step (.ask op)).run (List.replicate n (.advance 0))).run steps = _
    rw [hn]
    exact hs

/-! ### What every step keeps -/

/-- What every step keeps. -/
structure Inv (s : Service) : Prop where
  ledger : s.ledger.Fit
  suits : ∀ c ∈ s.underWay, c.bindings.Suits s.registry
  left : ∀ c ∈ s.underWay, c.pass.left ⊆ c.bindings.toList

theorem inv_opening {t : Topology} (ht : t.registry.Reachable)
    (hu : ∀ n, t.registry.bound? n = none) : (opening t).Inv where
  ledger := (Ledger.inv_opening ht hu).toFit
  suits := nofun
  left := nofun

variable {s : Service}

/-! #### What a step of a commit leaves -/

variable {k : Nat} {c d : Commit} {r : Registry} {o : Except ParameterError (Option Commit)}
  {x : Submission}

@[simp]
theorem registry_settle : (s.settle k c (r, o)).registry = r := by
  rcases o with e | _ | c' <;> rfl

@[simp]
theorem offered_settle : (s.settle k c (r, o)).ledger.offered = s.ledger.offered := by
  rcases o with e | _ | c' <;> rfl

theorem mem_underWay_settle (h : d ∈ (s.settle k c (r, o)).underWay) :
    d ∈ s.underWay ∨ o = .ok (some d) := by
  rcases o with e | _ | c'
  · exact Or.inl (List.mem_of_mem_eraseIdx h)
  · exact Or.inl (List.mem_of_mem_eraseIdx h)
  · rcases List.mem_or_eq_of_mem_set h with h | rfl
    · exact Or.inl h
    · exact Or.inr rfl

theorem mem_accepted_settle : x ∈ (s.settle k c (r, o)).ledger.accepted ↔
    x ∈ s.ledger.accepted ∨ o = .ok none ∧ x = ⟨s.ledger.topology.name, c.bindings⟩ := by
  rcases o with e | _ | c' <;> simp [settle, Ledger.accept]

/-- What a step does: nothing, or what the ledger does, which accepts nothing and leaves the
parameters as they are unless no commit is under way; or a commit begins, or does its next
step. -/
theorem step_cases (s : Service) (op : Operation) :
    s.step op = s ∨
    (∃ lop, s.step op = { s with ledger := s.ledger.step lop } ∧
      (s.ledger.step lop).accepted = s.ledger.accepted ∧
      (s.underWay = [] ∨ (s.ledger.step lop).topology = s.ledger.topology)) ∨
    (∃ lop b, s.ledger.committed? lop = some b ∧
      s.step op = { s with underWay := s.underWay ++ [⟨b, .checking b.toList⟩] }) ∨
    (∃ k c r o, s.underWay[k]? = some c ∧ s.registry.advance c = (r, o) ∧
      s.step op = s.settle k c (r, o)) := by
  cases op with
  | ask op =>
    cases hb : s.ledger.committed? op with
    | some b =>
      simp only [step, hb, begin]
      split
      · next c hc =>
        obtain rfl := Registry.begin_eq_ok hc
        exact Or.inr (Or.inr (Or.inl ⟨op, b, hb, rfl⟩))
      · exact Or.inl rfl
    | none =>
      obtain ⟨haccepted, hkept⟩ := Ledger.step_of_not_committed hb
      cases op with
      | declare name default type =>
        simp only [step, hb]
        split
        · next he =>
          exact Or.inr (Or.inl ⟨_, rfl, haccepted, Or.inl (List.isEmpty_iff.mp he)⟩)
        · exact Or.inl rfl
      | preflight now c | submit now c | commit k =>
        simp only [step, hb]
        exact Or.inr (Or.inl ⟨_, rfl, haccepted, Or.inr (hkept.resolve_left nofun)⟩)
  | advance k =>
    simp only [step, advance]
    split
    · exact Or.inl rfl
    · next c hc => exact Or.inr (Or.inr (Or.inr ⟨k, c, _, _, hc, rfl, rfl⟩))

theorem extends_step (s : Service) (op : Operation) :
    s.registry.Extends (s.step op).registry := by
  rcases step_cases s op with h | ⟨lop, h, -⟩ | ⟨_, _, -, h⟩ | ⟨k, c, r, o, -, ha, h⟩
  · rw [h]
    exact .refl _
  · rw [h]
    exact s.ledger.extends_step lop
  · rw [h]
    exact .refl _
  · rw [h, registry_settle]
    exact Registry.extends_advance ha

theorem accepted_step (s : Service) (op : Operation) :
    s.ledger.accepted ⊆ (s.step op).ledger.accepted := by
  rcases step_cases s op with h | ⟨lop, h, -⟩ | ⟨_, _, -, h⟩ | ⟨k, c, r, o, -, ha, h⟩
  · rw [h]
    exact List.Subset.refl _
  · rw [h]
    exact s.ledger.accepted_step lop
  · rw [h]
    exact List.Subset.refl _
  · rw [h]
    exact fun x hx => mem_accepted_settle.mpr (Or.inl hx)

/-- One step keeps slots typed, whether it is a check, a write or none of a commit. -/
theorem Inv.typed_advance (hi : s.Inv) (hc : c ∈ s.underWay)
    (h : s.registry.advance c = (r, o)) : r.Typed := by
  rcases Registry.advance_eq_or_write h with rfl | ⟨x, hx, rfl⟩
  · exact hi.ledger.typed
  · refine hi.ledger.typed.fill fun y hy => ?_
    obtain rfl : y = x := List.mem_singleton.mp hy
    exact (hi.suits c hc).of_mem (hi.left c hc hx)

theorem inv_step (hi : s.Inv) (op : Operation) : (s.step op).Inv := by
  have hext := extends_step s op
  rcases step_cases s op with h | ⟨lop, h, -⟩ | ⟨lop, b, hb, h⟩ | ⟨k, c, r, o, hk, ha, h⟩
  · rw [h]
    exact hi
  · rw [h] at hext ⊢
    exact ⟨Ledger.fit_step hi.ledger lop, fun c hc => (hi.suits c hc).mono hext, hi.left⟩
  · rw [h]
    refine ⟨hi.ledger, fun c hc => ?_, fun c hc => ?_⟩
    · rcases List.mem_append.mp hc with hc | hc
      · exact hi.suits c hc
      · rw [List.mem_singleton.mp hc]
        exact hi.ledger.suits_of_committed hb
    · rcases List.mem_append.mp hc with hc | hc
      · exact hi.left c hc
      · rw [List.mem_singleton.mp hc]
        exact List.Subset.refl _
  · have hc : c ∈ s.underWay := List.mem_of_getElem? hk
    rw [h] at hext ⊢
    refine ⟨⟨fun q hq => ?_, ?_, fun b hb => ?_⟩, fun d hd => ?_, fun d hd => ?_⟩
    · change q ∈ (s.settle k c (r, o)).registry.specs at hq
      rw [registry_settle, Registry.specs_advance ha] at hq
      exact hi.ledger.sound q hq
    · show (s.settle k c (r, o)).registry.Typed
      rw [registry_settle]
      exact hi.typed_advance hc ha
    · rw [offered_settle] at hb
      exact (hi.ledger.suits b hb).mono hext
    · rcases mem_underWay_settle hd with hd | rfl
      · exact (hi.suits d hd).mono hext
      · rw [(Registry.advance_goes_on ha (hi.left c hc)).1]
        exact (hi.suits c hc).mono hext
    · rcases mem_underWay_settle hd with hd | rfl
      · exact hi.left d hd
      · obtain ⟨hb, hl⟩ := Registry.advance_goes_on ha (hi.left c hc)
        rwa [hb]

end Service

/-! ### Commits that do not differ -/

/-- Two commits have the same values under the names they share. -/
def Commit.AgreesWith (c d : Commit) : Prop :=
  ∀ x ∈ c.bindings.toList, ∀ y ∈ d.bindings.toList, x.name = y.name → x.value.same y.value = true

instance : DecidableRel Commit.AgreesWith := fun c d =>
  inferInstanceAs (Decidable (∀ x ∈ c.bindings.toList, ∀ y ∈ d.bindings.toList,
    x.name = y.name → x.value.same y.value = true))

instance : Std.Symm Commit.AgreesWith where
  symm _ _ h y hy x hx hn := Value.same_symm (h x hx y hy hn.symm)

/-- A commit agrees with itself: it has one binding to a name. -/
theorem Commit.agreesWith_self {c : Commit} {r : Registry} (hb : c.bindings.Suits r) :
    c.AgreesWith c := by
  intro x hx y hy hn
  have hv := hb.ownNames.value?_eq hx
  rw [hn, hb.ownNames.value?_eq hy] at hv
  rw [Option.some.inj hv]
  exact Value.same_self (hb.of_mem hx).1

namespace Service

variable {s : Service} {c d : Commit}

/-- Commits that are under way together agree with each other. -/
def Undisputed (s : Service) : Prop := s.underWay.Pairwise Commit.AgreesWith

instance (s : Service) : Decidable s.Undisputed :=
  inferInstanceAs (Decidable (s.underWay.Pairwise Commit.AgreesWith))

theorem Undisputed.agree (hu : s.Undisputed) (hi : s.Inv) (hc : c ∈ s.underWay)
    (hd : d ∈ s.underWay) : c.AgreesWith d :=
  List.Pairwise.forall_of_forall (fun c hc => Commit.agreesWith_self (hi.suits c hc)) hu hc hd

end Service

/-- What was checked agrees with its slot, and what was written is there. -/
def Commit.Clean (c : Commit) (r : Registry) : Prop :=
  match c.pass with
  | .checking left => ∀ x ∈ c.bindings.toList, x ∉ left → r.disagrees x = false
  | .writing left => ∀ x ∈ c.bindings.toList, r.disagrees x = false ∧
    (x ∉ left → (r.bound? x.name).isSome = true)

namespace Commit.Clean

variable {c d : Commit} {r r' : Registry} {y : Binding}

/-- A commit stays clean while another one writes what is the same as its own. -/
theorem write (h : c.Clean r)
    (hy : ∀ x ∈ c.bindings.toList, y.name = x.name → y.value.same x.value = true) :
    c.Clean (r.write y) := by
  unfold Clean at h ⊢
  cases hp : c.pass with
  | checking left =>
    rw [hp] at h
    exact fun x hx hl => Registry.disagrees_write (h x hx hl) (hy x hx)
  | writing left =>
    rw [hp] at h
    refine fun x hx => ⟨Registry.disagrees_write (h x hx).1 (hy x hx), fun hl => ?_⟩
    obtain ⟨v, hv⟩ := Option.isSome_iff_exists.mp ((h x hx).2 hl)
    have hv' : (r.write y).bound? x.name = some v := (Registry.extends_fill [y]).bound _ v hv
    rw [hv']
    rfl

/-- A clean commit is clean after its own step. -/
theorem advance (h : c.Clean r) (hb : c.bindings.Suits r)
    (hl : c.pass.left ⊆ c.bindings.toList)
    (ha : r.advance c = (r', .ok (some d))) : d.Clean r' := by
  rcases Registry.advance_cases ha with ⟨hp, rfl, ho⟩ | ⟨x, xs, hp, rfl, ⟨-, ho⟩ | ⟨hd, ho⟩⟩ |
    ⟨x, xs, hp, rfl, ho⟩ | ⟨-, -, ho⟩
  · cases ho
    simp only [Clean, hp] at h ⊢
    exact fun x hx => ⟨h x hx (List.not_mem_nil), fun hn => absurd hx hn⟩
  · cases ho
  · cases ho
    simp only [Clean, hp] at h ⊢
    intro y hy hn
    by_cases hyx : y = x
    · rwa [hyx]
    · exact h y hy (by simp [hyx, hn])
  · cases ho
    rw [hp] at hl
    have hx : x ∈ c.bindings.toList := hl List.mem_cons_self
    have hw : c.Clean (r.write x) := h.write fun y hy hn =>
      Commit.agreesWith_self hb x hx y hy hn
    simp only [Clean, hp] at hw ⊢
    refine fun y hy => ⟨(hw y hy).1, fun hn => ?_⟩
    by_cases hyx : y = x
    · obtain ⟨-, q, hq, hqn, -⟩ := hb.of_mem hx
      rw [hyx]
      refine Registry.isSome_bound?_write ?_
      rw [Registry.names_eq_map_specs, ← hqn]
      exact List.mem_map_of_mem hq
    · exact (hw y hy).2 (by simp [hyx, hn])
  · cases ho

/-- A clean commit that is through has left the slots with the values of its set. -/
theorem holds (h : c.Clean r) (hb : c.bindings.Suits r) (ha : r.advance c = (r', .ok none))
    {n : String} {v : Value} (hv : c.bindings.value? n = some v) :
    ∃ u, r'.bound? n = some u ∧ v.same u = true := by
  rcases Registry.advance_cases ha with ⟨-, -, ho⟩ | ⟨x, xs, -, -, ⟨-, ho⟩ | ⟨-, ho⟩⟩ |
    ⟨x, xs, -, -, ho⟩ | ⟨hp, rfl, -⟩
  · cases ho
  · cases ho
  · cases ho
  · cases ho
  · simp only [Clean, hp] at h
    obtain ⟨x, hx, rfl⟩ := BindingSet.value?_eq_some_iff.mp hv
    obtain rfl := hb.ownNames n x hx
    obtain ⟨hd, hw⟩ := h x (BindingSet.mem_toList_iff.mpr ⟨_, hx⟩)
    obtain ⟨u, hu⟩ := Option.isSome_iff_exists.mp (hw List.not_mem_nil)
    exact ⟨u, hu, Value.same_symm (Registry.disagrees_eq_false_iff.mp hd u hu)⟩

end Commit.Clean

namespace Service

variable {s : Service}

/-- What every step keeps where commits do not differ. -/
structure Settled (s : Service) : Prop where
  clean : ∀ c ∈ s.underWay, c.Clean s.registry
  agrees : ∀ x ∈ s.ledger.accepted, s.ledger.Agrees x.bindings.value?

theorem settled_opening (t : Topology) : (opening t).Settled where
  clean := nofun
  agrees := nofun

/-- **Without a dispute, submissions agree.** If the commits that are under way have the
same values under the names they share, then after the next step, too, accepted submissions
have the values of the slots. -/
theorem settled_step (hs : s.Settled) (hi : s.Inv) (hu : s.Undisputed) (op : Operation) :
    (s.step op).Settled := by
  have hext := extends_step s op
  rcases step_cases s op with h | ⟨lop, h, haccepted, hkept⟩ | ⟨lop, b, -, h⟩ |
    ⟨k, c, r, o, hk, ha, h⟩
  · rw [h]
    exact hs
  · rw [h] at hext ⊢
    refine ⟨fun c hc => ?_, fun x hx => ?_⟩
    · rcases hkept with hn | ht
      · rw [hn] at hc
        cases hc
      · show c.Clean (s.ledger.step lop).topology.registry
        rw [ht]
        exact hs.clean c hc
    · exact (hs.agrees x (haccepted ▸ hx)).mono hext
  · rw [h]
    refine ⟨fun c hc => ?_, hs.agrees⟩
    rcases List.mem_append.mp hc with hc | hc
    · exact hs.clean c hc
    · rw [List.mem_singleton.mp hc]
      exact fun x hx hn => absurd hx hn
  · have hc : c ∈ s.underWay := List.mem_of_getElem? hk
    rw [h] at hext ⊢
    refine ⟨fun d hd => ?_, fun x hx => ?_⟩
    · rw [registry_settle]
      rcases mem_underWay_settle hd with hd' | rfl
      · rcases Registry.advance_eq_or_write ha with rfl | ⟨y, hy, rfl⟩
        · exact hs.clean d hd'
        · exact (hs.clean d hd').write (hu.agree hi hc hd' y (hi.left c hc hy))
      · exact (hs.clean c hc).advance (hi.suits c hc) (hi.left c hc) ha
    · rcases mem_accepted_settle.mp hx with hx | ⟨rfl, rfl⟩
      · exact (hs.agrees x hx).mono hext
      · intro n v hv
        show ∃ u, (s.settle k c (r, .ok none)).registry.bound? n = some u ∧ _
        rw [registry_settle]
        exact (hs.clean c hc).holds (hi.suits c hc) ha hv

end Service

end JobParameters
