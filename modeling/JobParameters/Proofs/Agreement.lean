/-
# Accepted submissions agree

A topology is served to any number of clients, who declare parameters, ask for
preflights, submit configurations and commit sets that a preflight offered, in
whatever order. A `Ledger` is the topology with the record of what was offered and
what was accepted; an operation either gives an answer or an error
(`Ledger.perform`), and a run takes one after the other. It is assumed here that each
operation comes to its end before the next one begins. Who declares a parameter has the
topology to themselves, but nothing else sees to it that commits do not overlap, and what
comes of those that do is another matter (`Service`). A commit is carried out in place, so
what a refused one has written would stay; it has written nothing
(`Ledger.step_of_error`).

What every operation keeps is `Ledger.Inv`: declarations are sound, slots hold finite
values of the declared types, every set that was offered suits the registry however
much that has grown since, and every accepted submission has the values of the slots.
So all submissions accepted in a run agree, and with the slots
(`Ledger.submissions_agree`).
-/
import JobParameters.Proofs.Resolution

namespace JobParameters
namespace Topology

variable {t t' : Topology}

theorem declare_cases {name : String} {default : Option Value} {type : Option ParamType}
    {s' : ParameterSpec} (h : t.declare name default type = .ok (t', s')) :
    ∃ s r, ParameterSpec.declare name default type none = .ok s ∧
      t.registry.register s = .ok (r, s') ∧ t' = { t with registry := r } := by
  unfold declare at h
  split at h
  · cases h
  · next s hs =>
    obtain ⟨⟨r, s''⟩, hr, hq⟩ := map_eq_ok_iff.mp h
    obtain ⟨rfl, rfl⟩ := Prod.mk.inj hq
    exact ⟨s, r, hs, hr, rfl⟩

theorem commit_eq_ok_iff {b : BindingSet} {x : Submission} : t.commit b = .ok (t', x) ↔
    ∃ r, t.registry.commit b = .ok r ∧ t' = { t with registry := r } ∧ x = ⟨t.name, b⟩ := by
  rw [commit, map_eq_ok_iff]
  simp only [Prod.mk.injEq, eq_comm]

theorem submit_cases {now : Timestamp} {c : Config} {x : Submission}
    (h : t.submit now c = .ok (t', x)) :
    ∃ b, t.preflight now c = .ok b ∧ t.commit b = .ok (t', x) := by
  unfold submit at h
  split at h
  · cases h
  · next b hb => exact ⟨b, hb, h⟩

end Topology

/-- A topology with what its clients were offered and what was accepted from them. -/
structure Ledger where
  topology : Topology
  offered : List BindingSet
  accepted : List Submission

namespace Ledger

/-- What a client can ask for. -/
inductive Operation where
  | declare (name : String) (default : Option Value) (type : Option ParamType)
  | preflight (now : Timestamp) (config : Config)
  | submit (now : Timestamp) (config : Config)
  /-- Commits what a preflight offered, by the number of the offer. -/
  | commit (offer : Nat)

/-- What a client is given. -/
inductive Answer where
  | declared (s : ParameterSpec)
  | offered (b : BindingSet)
  | accepted (x : Submission)
  /-- There is no offer of that number. -/
  | noOffer

/-- Nothing was asked for yet. -/
def opening (t : Topology) : Ledger := ⟨t, [], []⟩

/-- The value that a parameter is bound to. -/
def slot? (l : Ledger) (name : String) : Option Value := l.topology.registry.bound? name

/-- The ledger after a submission was accepted. -/
def accept (l : Ledger) (t : Topology) (x : Submission) : Ledger :=
  { l with topology := t, accepted := l.accepted ++ [x] }

/-- Does what a client asks for: the ledger after it and the answer, or an error. -/
def perform (l : Ledger) : Operation → Except ParameterError (Ledger × Answer)
  | .declare name default type =>
    (l.topology.declare name default type).map fun (t, s) =>
      ({ l with topology := t }, .declared s)
  | .preflight now c =>
    (l.topology.preflight now c).map fun b =>
      ({ l with offered := l.offered ++ [b] }, .offered b)
  | .submit now c =>
    (l.topology.submit now c).map fun (t, x) => (l.accept t x, .accepted x)
  | .commit k =>
    match l.offered[k]? with
    | none => .ok (l, .noOffer)
    | some b => (l.topology.commit b).map fun (t, x) => (l.accept t x, .accepted x)

/-- The set that an operation commits, if it comes to that. -/
def committed? (l : Ledger) : Operation → Option BindingSet
  | .submit now c => (l.topology.preflight now c).toOption
  | .commit k => l.offered[k]?
  | _ => none

/-- The ledger after a commit that was refused: what was written before stays written. -/
def leftBy (l : Ledger) (b : BindingSet) : Ledger :=
  { l with topology := { l.topology with
      registry := ((Registry.commitInPlace b).run l.topology.registry).2 } }

/-- The ledger after an operation, whether it was refused or not. -/
def step (l : Ledger) (op : Operation) : Ledger :=
  match l.perform op, l.committed? op with
  | .ok (l', _), _ => l'
  | .error _, some b => l.leftBy b
  | .error _, none => l

/-- The ledger after operations, one after the other. -/
def run (l : Ledger) (ops : List Operation) : Ledger := ops.foldl step l

theorem committed?_submit_iff {l : Ledger} {now : Timestamp} {c : Config} {b : BindingSet} :
    l.committed? (.submit now c) = some b ↔ l.topology.preflight now c = .ok b := by
  show (l.topology.preflight now c).toOption = some b ↔ _
  cases l.topology.preflight now c <;> simp [Except.toOption]

/-- An operation that comes to a commit is that commit. -/
theorem perform_of_committed {l : Ledger} {op : Operation} {b : BindingSet}
    (hb : l.committed? op = some b) :
    l.perform op = (l.topology.commit b).map fun (t, x) => (l.accept t x, .accepted x) := by
  cases op with
  | submit now c =>
    show (l.topology.submit now c).map _ = _
    rw [Topology.submit_eq, committed?_submit_iff.mp hb]
    rfl
  | commit k => simp only [perform, show l.offered[k]? = some b from hb]
  | declare name default type => cases hb
  | preflight now c => cases hb

/-- What an operation that is not refused does: it declares a parameter, or offers the
set of a configuration, or accepts a set, or nothing. -/
theorem perform_cases {l l' : Ledger} {op : Operation} {a : Answer}
    (h : l.perform op = .ok (l', a)) :
    (∃ name default type t s, op = .declare name default type ∧ a = .declared s ∧
      l.topology.declare name default type = .ok (t, s) ∧ l' = { l with topology := t }) ∨
    (∃ now c b, l.topology.preflight now c = .ok b ∧ a = .offered b ∧
      l' = { l with offered := l.offered ++ [b] }) ∨
    (∃ b t x, l.committed? op = some b ∧
      l.topology.commit b = .ok (t, x) ∧ a = .accepted x ∧ l' = l.accept t x) ∨
    (a = .noOffer ∧ l' = l) := by
  cases op with
  | declare name default type =>
    obtain ⟨⟨t, s⟩, hd, hq⟩ := map_eq_ok_iff.mp h
    obtain ⟨rfl, rfl⟩ := Prod.mk.inj hq
    exact Or.inl ⟨name, default, type, t, s, rfl, rfl, hd, rfl⟩
  | preflight now c =>
    obtain ⟨b, hp, hq⟩ := map_eq_ok_iff.mp h
    obtain ⟨rfl, rfl⟩ := Prod.mk.inj hq
    exact Or.inr (Or.inl ⟨now, c, b, hp, rfl, rfl⟩)
  | submit now c =>
    obtain ⟨⟨t, x⟩, hs, hq⟩ := map_eq_ok_iff.mp h
    obtain ⟨rfl, rfl⟩ := Prod.mk.inj hq
    obtain ⟨b, hb, hc⟩ := Topology.submit_cases hs
    exact Or.inr (Or.inr (Or.inl ⟨b, t, x, committed?_submit_iff.mpr hb, hc, rfl, rfl⟩))
  | commit k =>
    simp only [perform] at h
    split at h
    · simp only [Except.ok.injEq, Prod.mk.injEq] at h
      exact Or.inr (Or.inr (Or.inr ⟨h.2.symm, h.1.symm⟩))
    · next b hb =>
      obtain ⟨⟨t, x⟩, hc, hq⟩ := map_eq_ok_iff.mp h
      obtain ⟨rfl, rfl⟩ := Prod.mk.inj hq
      exact Or.inr (Or.inr (Or.inl ⟨b, t, x, hb, hc, rfl, rfl⟩))

/-- The value is the one that the name is bound to. -/
def Holds (l : Ledger) (n : String) (v : Value) : Prop :=
  ∃ u, l.slot? n = some u ∧ v.same u = true

/-- Every value of a record is the one that its name is bound to. -/
def Agrees (l : Ledger) (value? : String → Option Value) : Prop :=
  ∀ n v, value? n = some v → l.Holds n v

/-- Slots keep their values. -/
theorem Holds.mono {l l' : Ledger} {n : String} {v : Value} (hv : l.Holds n v)
    (h : l.topology.registry.Extends l'.topology.registry) : l'.Holds n v := by
  obtain ⟨u, hu, hs⟩ := hv
  exact ⟨u, h.bound n u hu, hs⟩

theorem Agrees.mono {l l' : Ledger} {value? : String → Option Value} (ha : l.Agrees value?)
    (h : l.topology.registry.Extends l'.topology.registry) : l'.Agrees value? :=
  fun n v hv => (ha n v hv).mono h

/-- What every operation keeps of the parameters and the offers. -/
structure Fit (l : Ledger) : Prop where
  sound : ∀ s ∈ l.topology.registry.specs, s.Sound
  typed : l.topology.registry.Typed
  suits : ∀ b ∈ l.offered, b.Suits l.topology.registry

/-- What every operation keeps. -/
structure Inv (l : Ledger) : Prop extends l.Fit where
  agrees : ∀ x ∈ l.accepted, l.Agrees x.bindings.value?

theorem inv_opening {t : Topology} (ht : t.registry.Reachable)
    (hu : ∀ n, t.registry.bound? n = none) : (opening t).Inv where
  sound := ht.sound
  typed n v hv := by
    rw [opening, hu n] at hv
    cases hv
  suits := nofun
  agrees := nofun

/-- A set that an operation commits suits the registry. -/
theorem Fit.suits_of_committed {l : Ledger} (hl : l.Fit) {op : Operation} {b : BindingSet}
    (hb : l.committed? op = some b) : b.Suits l.topology.registry := by
  cases op with
  | submit now c => exact (Registry.suits_of_bind hl.sound (committed?_submit_iff.mp hb)).1
  | commit k => exact hl.suits b (List.mem_of_getElem? hb)
  | declare name default type => cases hb
  | preflight now c => cases hb

/-- An operation lets the registry grow. -/
theorem extends_perform {l l' : Ledger} {op : Operation} {a : Answer}
    (h : l.perform op = .ok (l', a)) : l.topology.registry.Extends l'.topology.registry := by
  rcases perform_cases h with ⟨_, _, _, t, s, -, -, hd, rfl⟩ | ⟨_, _, b, -, -, rfl⟩ |
    ⟨b, t, x, -, hc, -, rfl⟩ | ⟨-, rfl⟩
  · obtain ⟨s₀, r, -, hr, rfl⟩ := Topology.declare_cases hd
    exact Registry.extends_register hr
  · exact .refl _
  · obtain ⟨r, hr, rfl, -⟩ := Topology.commit_eq_ok_iff.mp hc
    exact Registry.extends_commit hr
  · exact .refl _

/-- What was accepted stays so. -/
theorem accepted_perform {l l' : Ledger} {op : Operation} {a : Answer}
    (h : l.perform op = .ok (l', a)) : l.accepted ⊆ l'.accepted := by
  rcases perform_cases h with ⟨_, _, _, t, s, -, -, -, rfl⟩ | ⟨_, _, b, -, -, rfl⟩ |
    ⟨b, t, x, -, -, -, rfl⟩ | ⟨-, rfl⟩
  · exact List.Subset.refl _
  · exact List.Subset.refl _
  · exact List.subset_append_left _ _
  · exact List.Subset.refl _

theorem fit_perform {l l' : Ledger} {op : Operation} {a : Answer} (hl : l.Fit)
    (h : l.perform op = .ok (l', a)) : l'.Fit := by
  have hext := extends_perform h
  have hsuits : ∀ b ∈ l.offered, b.Suits l'.topology.registry :=
    fun b hb => (hl.suits b hb).mono hext
  rcases perform_cases h with ⟨_, _, _, t, s, -, -, hd, rfl⟩ | ⟨now, c, b, hp, -, rfl⟩ |
    ⟨b, t, x, hb, hc, -, rfl⟩ | ⟨-, rfl⟩
  · obtain ⟨s₀, r, hs₀, hr, rfl⟩ := Topology.declare_cases hd
    refine ⟨fun q hq => ?_, hl.typed.register hr, hsuits⟩
    rcases Registry.mem_specs_of_register hr hq with hq | rfl
    · exact hl.sound q hq
    · exact (ParameterSpec.sound_of_declare hs₀).1
  · refine ⟨hl.sound, hl.typed, fun b' hb' => ?_⟩
    rcases List.mem_append.mp hb' with hb' | hb'
    · exact hl.suits b' hb'
    · rw [List.mem_singleton.mp hb']
      exact (Registry.suits_of_bind hl.sound hp).1
  · obtain ⟨r, hr, rfl, rfl⟩ := Topology.commit_eq_ok_iff.mp hc
    refine ⟨?_, hl.typed.commit (hl.suits_of_committed hb) hr, hsuits⟩
    show ∀ s ∈ r.specs, s.Sound
    rw [Registry.specs_commit hr]
    exact hl.sound
  · exact hl

theorem inv_perform {l l' : Ledger} {op : Operation} {a : Answer} (hi : l.Inv)
    (h : l.perform op = .ok (l', a)) : l'.Inv := by
  refine ⟨fit_perform hi.toFit h, ?_⟩
  have hext := extends_perform h
  have hagree : ∀ x ∈ l.accepted, l'.Agrees x.bindings.value? :=
    fun x hx => (hi.agrees x hx).mono hext
  rcases perform_cases h with ⟨_, _, _, t, s, -, -, -, rfl⟩ | ⟨_, _, b, -, -, rfl⟩ |
    ⟨b, t, x, hb, hc, -, rfl⟩ | ⟨-, rfl⟩
  · exact hagree
  · exact hagree
  · obtain ⟨r, hr, rfl, rfl⟩ := Topology.commit_eq_ok_iff.mp hc
    intro y hy
    rcases List.mem_append.mp hy with hy | hy
    · exact hagree y hy
    · rw [List.mem_singleton.mp hy]
      exact fun n v hv => Registry.bound?_of_commit (hi.suits_of_committed hb) hr hv
  · exact hagree

/-- An operation that commits a set is refused only if the set is. -/
theorem commit_of_perform {l : Ledger} {op : Operation} {e : ParameterError} {b : BindingSet}
    (h : l.perform op = .error e) (hb : l.committed? op = some b) :
    l.topology.registry.commit b = .error e := by
  rw [perform_of_committed hb] at h
  exact map_eq_error_iff.mp (map_eq_error_iff.mp h)

/-- An operation that is refused leaves everything as it was. -/
theorem step_of_error {l : Ledger} {op : Operation} {e : ParameterError}
    (h : l.perform op = .error e) : l.step op = l := by
  unfold step
  rw [h]
  cases hb : l.committed? op with
  | none => rfl
  | some b =>
    have hrun := Registry.run_commitInPlace (r := l.topology.registry) b
    rw [commit_of_perform h hb] at hrun
    show l.leftBy b = l
    rw [leftBy, hrun]

theorem step_of_ok {l l' : Ledger} {op : Operation} {a : Answer}
    (h : l.perform op = .ok (l', a)) : l.step op = l' := by
  unfold step
  rw [h]

/-- An operation that comes to a commit leaves what the commit leaves. -/
theorem step_of_committed {l : Ledger} {op : Operation} {b : BindingSet}
    (hb : l.committed? op = some b) : l.step op =
      match l.topology.commit b with
      | .ok (t, x) => l.accept t x
      | .error _ => l := by
  have hp := perform_of_committed hb
  cases hc : l.topology.commit b with
  | error e =>
    rw [hc] at hp
    exact step_of_error hp
  | ok q =>
    rw [hc] at hp
    exact step_of_ok hp

/-- An operation that comes to no commit accepts nothing, and leaves the topology as it is
unless it declares a parameter. -/
theorem step_of_not_committed {l : Ledger} {op : Operation} (hb : l.committed? op = none) :
    (l.step op).accepted = l.accepted ∧ ((∃ name default type, op = .declare name default type) ∨
      (l.step op).topology = l.topology) := by
  cases h : l.perform op with
  | error e =>
    rw [step_of_error h]
    exact ⟨rfl, Or.inr rfl⟩
  | ok q =>
    rw [step_of_ok h]
    rcases perform_cases h with ⟨name, default, type, _, _, rfl, -, -, hq⟩ |
      ⟨_, _, _, -, -, hq⟩ | ⟨b, _, _, hsome, -⟩ | ⟨-, hq⟩
    · rw [hq]
      exact ⟨rfl, Or.inl ⟨name, default, type, rfl⟩⟩
    · rw [hq]
      exact ⟨rfl, Or.inr rfl⟩
    · rw [hb] at hsome
      cases hsome
    · rw [hq]
      exact ⟨rfl, Or.inr rfl⟩

/-- What holds of a ledger and of what an operation makes of it holds after a step. -/
theorem step_induction {P : Ledger → Prop} {l : Ledger} (op : Operation) (hl : P l)
    (hp : ∀ l' a, l.perform op = .ok (l', a) → P l') : P (l.step op) := by
  cases h : l.perform op with
  | error e => rwa [step_of_error h]
  | ok q =>
    rw [step_of_ok h]
    exact hp q.1 q.2 h

theorem fit_step {l : Ledger} (hl : l.Fit) (op : Operation) : (l.step op).Fit :=
  step_induction op hl fun _ _ h => fit_perform hl h

theorem inv_step {l : Ledger} (hi : l.Inv) (op : Operation) : (l.step op).Inv :=
  step_induction op hi fun _ _ h => inv_perform hi h

theorem extends_step (l : Ledger) (op : Operation) :
    l.topology.registry.Extends (l.step op).topology.registry :=
  step_induction (P := fun l' => l.topology.registry.Extends l'.topology.registry) op (.refl _)
    fun _ _ h => extends_perform h

theorem accepted_step (l : Ledger) (op : Operation) : l.accepted ⊆ (l.step op).accepted :=
  step_induction (P := fun l' => l.accepted ⊆ l'.accepted) op (List.Subset.refl _)
    fun _ _ h => accepted_perform h

theorem inv_run {l : Ledger} (hi : l.Inv) (ops : List Operation) : (l.run ops).Inv := by
  induction ops generalizing l with
  | nil => exact hi
  | cons op ops ih => exact ih (inv_step hi op)

theorem extends_run (l : Ledger) (ops : List Operation) :
    l.topology.registry.Extends (l.run ops).topology.registry := by
  induction ops generalizing l with
  | nil => exact .refl _
  | cons op ops ih => exact (extends_step l op).trans (ih (l.step op))

/-- **Accepted submissions agree.** Take any two moments of a run on a topology that
was new at its start. A slot that holds a value at the first holds that very value at
the second. Submissions accepted by then have the same values under the names they
share, and the same as the slots of these names. What a slot holds is finite and of the
declared type, and an operation that is refused changes nothing. -/
theorem submissions_agree {t : Topology} (ht : t.registry.Reachable)
    (hu : ∀ n, t.registry.bound? n = none) (ops later : List Operation) :
    let l := (opening t).run ops
    let l' := l.run later
    (∀ n v, l.slot? n = some v → l'.slot? n = some v) ∧
    (∀ x ∈ l'.accepted, ∀ n v, x.bindings.value? n = some v →
      (∃ u, l'.slot? n = some u ∧ v.same u = true) ∧
      ∀ y ∈ l'.accepted, ∀ w, y.bindings.value? n = some w → v.same w = true) ∧
    (∀ p ∈ l'.topology.registry.parameters, ∀ v, p.bound = some v →
      v.type = p.spec.type ∧ v.isFinite = true) ∧
    (∀ op e, l'.perform op = .error e → l'.step op = l') := by
  intro l l'
  have hi : l'.Inv := inv_run (inv_run (inv_opening ht hu) ops) later
  refine ⟨(extends_run l later).bound, fun x hx n v hv => ?_, fun p hp v hv => ?_,
    fun op e he => step_of_error he⟩
  · obtain ⟨u, hu, hvu⟩ := hi.agrees x hx n v hv
    refine ⟨⟨u, hu, hvu⟩, fun y hy w hw => ?_⟩
    obtain ⟨u', hu', hwu⟩ := hi.agrees y hy n w hw
    obtain rfl : u = u' := Option.some.inj (hu.symm.trans hu')
    exact Value.same_of_same_same hvu hwu
  · have hb := (Registry.bound?_of_mem hp).trans hv
    obtain ⟨hf, s, hs, hn, ht⟩ := hi.typed _ v hb
    obtain ⟨q, hq, rfl⟩ := List.mem_map.mp hs
    obtain rfl := eq_of_key_eq l'.topology.registry.distinct hq hp hn
    exact ⟨ht, hf⟩

/-- A run with both zeros: one client is offered `0`, another submits `-0`, which fills
the slot; the offer is the same number and accepted, and refused once there is another
parameter. -/
def bothZeros : List Operation :=
  let now : Timestamp := ⟨0, 0, 0⟩
  let ratio (negative : Bool) := Config.empty.set "ratio" (.float (Binary64.zero negative))
  [.declare "ratio" none (some .float), .preflight now (ratio false), .submit now (ratio true),
    .commit 0, .declare "count" (some (.integer 3)) none, .commit 0]

theorem submissions_agree_bothZeros :
    let l := (opening (Topology.empty "jobs" false)).run bothZeros
    let l' := l.run [.submit ⟨0, 0, 0⟩ (Config.empty.set "ratio" (.string " 0 "))]
    Registry.empty.Reachable ∧ (∀ n, Registry.empty.bound? n = none) ∧
    (l.accepted.length = 2 ∧ l'.accepted.length = 3 ∧
      l'.slot? "ratio" = some (.float (Binary64.zero true))) ∧
    ∀ x ∈ l'.accepted, ∀ y ∈ l'.accepted, ∀ v w, x.bindings.value? "ratio" = some v →
      y.bindings.value? "ratio" = some w → v.same w = true :=
  ⟨.empty, fun _ => rfl, by decide +kernel, fun x hx y hy v w hv hw =>
    ((submissions_agree (t := Topology.empty "jobs" false) .empty (fun _ => rfl) bothZeros
      [.submit ⟨0, 0, 0⟩ (Config.empty.set "ratio" (.string " 0 "))]).2.1 x hx _ v hv).2 y hy w hw⟩

end Ledger
end JobParameters
