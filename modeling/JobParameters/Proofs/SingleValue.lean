/-
# One value for a parameter

A parameter is read through handles, each with its cache, and by name in the context of
a thread. A `Process` has the service of a topology, the handles minted for it, and
threads with what is installed on them; contexts come from the payloads of accepted
submissions, which workers decode. Clients ask, commits go on, handles are minted, copied
and read, and contexts are installed and dropped, on any thread and in whatever order.
Checks and writes of commits are steps of their own. A reading is one step: what it finds
outside the cache, which is of its own thread or written once, it keeps only if nothing was
kept in the meantime, and it answers with what is kept.

What every operation keeps is `Process.Inv`: whatever a cache, an installed context or a
guard has for a name is known from its slot, or from a submission that was accepted
(`Ledger.Knows`). So a parameter that is bound has one value, wherever it is read, exactly
as long as the accepted submissions have the value of its slot; they have it if commits
that were under way together agreed (`Process.one_value`). Two that do not can both be
accepted, and the second one ships a value that is not that of the slot
(`Process.overlapping_submissions_disagree`).
-/
import JobParameters.Proofs.Overlapping
import JobParameters.Store

namespace JobParameters

/-- The payload of the submission reaches workers as it is. -/
def Submission.Survives (x : Submission) : Prop :=
  Payload.decode? x.bindings.payload.encode = some x.bindings.payload

/-- Whether it does can be told from what the payload lists. -/
theorem Submission.survives_iff (x : Submission) : x.Survives ↔
    (Payload.decode? x.bindings.payload.encode).map (fun p => (p.jobName, p.values.entries)) =
      some (x.bindings.jobName, x.bindings.payload.values.entries) := by
  unfold Submission.Survives
  constructor
  · intro h
    rw [h]
    rfl
  · intro h
    obtain ⟨p, hp, he⟩ := Option.map_eq_some_iff.mp h
    obtain ⟨j, es, hes⟩ := p
    obtain ⟨rfl, rfl⟩ := Prod.mk.inj he
    exact hp

instance (x : Submission) : Decidable x.Survives := decidable_of_iff _ x.survives_iff.symm

/-- A reading that succeeds gives the value, and so do a scope and a typed reading. -/
structure Yields (v : Value) (t : ParamType) (read : Except ParameterError Value)
    (scope : Except ParameterError Scope) (readAs : Except ParameterError t.Carrier) : Prop where
  value : ∀ w, read = .ok w → w.same v = true
  inScope : ∀ c, scope = .ok c → c.value.same v = true
  asType : ∀ w, read = .ok w → ∃ a, readAs = .ok a ∧ (t.inject a).same v = true

/-- A scope keeps the value that was read, and a typed reading coerces it; that does
nothing to a value of the type. -/
theorem Yields.of_read {v : Value} {t : ParamType} {read : Except ParameterError Value}
    {name : String} (ht : v.type = t) (hf : v.isFinite = true) :
    (∀ w, read = .ok w → w.same v = true) →
    Yields v t read (read.map fun w => ⟨name, w⟩)
      (match read with
        | .error e => .error e
        | .ok w => typed name w t) := by
  intro hv
  cases read with
  | error e => exact ⟨nofun, nofun, nofun⟩
  | ok w =>
    have hw : w.same v = true := hv w rfl
    have hwt : w.type = t := (Value.type_eq_of_same hw).trans ht
    have hwf : w.isFinite = true := (Value.isFinite_eq_of_same hw).trans hf
    refine ⟨hv, ?_, ?_⟩
    · intro c hc
      cases hc
      exact hw
    · intro w' hw'
      cases hw'
      obtain ⟨a, ha, hai⟩ : ∃ a, typed name w t = .ok a ∧ t.inject a = w :=
        typed_of_type_eq hwt hwf
      exact ⟨a, ha, hai ▸ hw⟩

namespace Ledger

/-- A value that a name is bound to, or had in a submission that was accepted. -/
def Knows (l : Ledger) (n : String) (v : Value) : Prop :=
  l.slot? n = some v ∨ ∃ x ∈ l.accepted, x.bindings.value? n = some v

theorem Knows.mono {l l' : Ledger} {n : String} {v : Value} (hk : l.Knows n v)
    (hr : l.topology.registry.Extends l'.topology.registry) (ha : l.accepted ⊆ l'.accepted) :
    l'.Knows n v := by
  rcases hk with hv | ⟨x, hx, hv⟩
  · exact Or.inl (hr.bound n v hv)
  · exact Or.inr ⟨x, ha hx, hv⟩

/-- If there is a context, its values are known. -/
def Trusts (l : Ledger) (c : Option ExecutionContext) : Prop :=
  ∀ x, c = some x → ∀ n v, x.value? n = some v → l.Knows n v

theorem Trusts.mono {l l' : Ledger} {c : Option ExecutionContext} (hc : l.Trusts c)
    (hr : l.topology.registry.Extends l'.topology.registry) (ha : l.accepted ⊆ l'.accepted) :
    l'.Trusts c :=
  fun x hx n v hv => (hc x hx n v hv).mono hr ha

/-- A handle answers with a value that is known, if its cache and the context have no
other. -/
theorem knows_of_lookup {l : Ledger} {h : Handle} {current : Option ExecutionContext} {w : Value}
    (hc : ∀ v, h.cached = some v → l.Knows h.spec.name v) (hx : l.Trusts current)
    (hw : h.lookup current (l.slot? h.spec.name) = .resolved w) : l.Knows h.spec.name w := by
  unfold Handle.lookup at hw
  split at hw
  · next v _ _ hv =>
    cases hw
    exact hc _ hv
  · next c _ =>
    split at hw
    · next v hv =>
      cases hw
      exact hx c rfl _ _ hv
    · cases hw
  · next v _ hv =>
    cases hw
    exact Or.inl hv
  · split at hw <;> cases hw

/-- The accepted submissions that have a name have the value for it. -/
def Unanimous (l : Ledger) (n : String) (v : Value) : Prop :=
  ∀ x ∈ l.accepted, ∀ w, x.bindings.value? n = some w → w.same v = true

/-- Where they have that of the slot, no other value is known. -/
theorem Unanimous.same {l : Ledger} {n : String} {v w : Value} (ha : l.Unanimous n v)
    (ht : l.topology.registry.Typed) (hv : l.slot? n = some v) (hw : l.Knows n w) :
    w.same v = true := by
  rcases hw with hw | ⟨x, hx, hw⟩
  · obtain rfl : v = w := Option.some.inj (hv.symm.trans hw)
    exact Value.same_self (ht n v hv).1
  · exact ha x hx w hw

end Ledger

/-- A process with one topology: its clients, its handles and its threads. -/
structure Process where
  service : Service
  handles : List Handle
  threads : Nat → Thread
  guards : Nat → List Guard

namespace Process

/-- What can happen in a process. -/
inductive Operation where
  /-- A client asks for something, or a commit goes on; declaring a parameter mints a
  handle. -/
  | serve (op : Service.Operation)
  /-- Mints a handle of a declared parameter. -/
  | mint (name : String)
  | copy (handle : Nat)
  | read (thread handle : Nat)
  /-- Decodes the payload of an accepted submission and installs the context. -/
  | install (thread submission : Nat) (station : Option Station)
  /-- Drops a guard, not only the one that was made last. -/
  | drop (thread guard : Nat)

/-- Nothing has happened yet. -/
def opening (t : Topology) : Process := ⟨.opening t, [], fun _ => .idle, fun _ => []⟩

/-- The topology, with what was offered and accepted. -/
def ledger (p : Process) : Ledger := p.service.ledger

/-- The topology, under number 0, with the handles. -/
def store (p : Process) : Store := ⟨[p.ledger.topology], p.handles⟩

/-- The process with more handles. -/
def withHandles (p : Process) (hs : List Handle) : Process :=
  { p with handles := p.handles ++ hs }

/-- The process with a thread and its guards in a new state. -/
def onThread (p : Process) (k : Nat) (t : Thread) (gs : List Guard) : Process :=
  { p with threads := Function.update p.threads k t, guards := Function.update p.guards k gs }

/-- The handle that comes with a declaration, which is made when no commit is under way. -/
def minted (s : Service) : Service.Operation → List Handle
  | .ask op =>
    match s.underWay, s.ledger.perform op with
    | [], .ok (_, .declared q) => [.fresh 0 q]
    | _, _ => []
  | .advance _ => []

/-- The context of an accepted submission as a worker decodes it. -/
def context? (p : Process) (submission : Nat) (station : Option Station) :
    Option ExecutionContext :=
  (p.ledger.accepted[submission]?).bind fun x =>
    (ExecutionContext.decode? x.bindings.payload.encode).map fun c =>
      match station with
      | some s => c.stationed s
      | none => c

/-- The process after an operation; nothing happens where something is not there. -/
def step (p : Process) : Operation → Process
  | .serve op => { p with service := p.service.step op }.withHandles (minted p.service op)
  | .mint name =>
    p.withHandles ((p.ledger.topology.registry.spec? name).map (Handle.fresh 0)).toList
  | .copy i => p.withHandles ((p.handles[i]?).map Handle.copy).toList
  | .read k i => { p with handles := (p.store.read (p.threads k).current i).1.handles }
  | .install k j station =>
    match p.context? j station with
    | some c =>
      let (t, g) := (p.threads k).install c
      p.onThread k t (p.guards k ++ [g])
    | none => p
  | .drop k j =>
    match (p.guards k)[j]? with
    | some g => p.onThread k ((p.threads k).drop g) ((p.guards k).eraseIdx j)
    | none => p

/-- The process after operations, one after the other. -/
def run (p : Process) (ops : List Operation) : Process := ops.foldl step p

/-- What every operation keeps. -/
structure Inv (p : Process) : Prop where
  service : p.service.Inv
  numbered : ∀ h ∈ p.handles, h.topology = 0
  cached : ∀ h ∈ p.handles, ∀ v, h.cached = some v → p.ledger.Knows h.spec.name v
  current : ∀ k, p.ledger.Trusts (p.threads k).current
  previous : ∀ k, ∀ g ∈ p.guards k, p.ledger.Trusts g.previous

theorem inv_opening {t : Topology} (ht : t.registry.Reachable)
    (hu : ∀ n, t.registry.bound? n = none) : (opening t).Inv where
  service := Service.inv_opening ht hu
  numbered := nofun
  cached := nofun
  current := nofun
  previous := nofun

variable {p : Process}

theorem Inv.serve (hi : p.Inv) (op : Service.Operation) :
    { p with service := p.service.step op }.Inv where
  service := Service.inv_step hi.service op
  numbered := hi.numbered
  cached q hq v hv :=
    (hi.cached q hq v hv).mono (p.service.extends_step op) (p.service.accepted_step op)
  current k := (hi.current k).mono (p.service.extends_step op) (p.service.accepted_step op)
  previous k g hg :=
    (hi.previous k g hg).mono (p.service.extends_step op) (p.service.accepted_step op)

theorem Inv.withHandles (hi : p.Inv) {hs : List Handle}
    (hn : ∀ h ∈ hs, h.topology = 0 ∧ h.cached = none) : (p.withHandles hs).Inv where
  service := hi.service
  numbered h hh := by
    rcases List.mem_append.mp hh with hh | hh
    · exact hi.numbered h hh
    · exact (hn h hh).1
  cached h hh v hv := by
    rcases List.mem_append.mp hh with hh | hh
    · exact hi.cached h hh v hv
    · rw [(hn h hh).2] at hv
      cases hv
  current := hi.current
  previous := hi.previous

theorem Inv.onThread (hi : p.Inv) {k : Nat} {t : Thread} {gs : List Guard}
    (ht : p.ledger.Trusts t.current) (hg : ∀ g ∈ gs, p.ledger.Trusts g.previous) :
    (p.onThread k t gs).Inv where
  service := hi.service
  numbered := hi.numbered
  cached := hi.cached
  current k' := by
    by_cases hk : k' = k
    · subst hk
      simpa [Process.onThread, ledger] using ht
    · simpa [Process.onThread, ledger, Function.update_of_ne hk] using hi.current k'
  previous k' := by
    by_cases hk : k' = k
    · subst hk
      simpa [Process.onThread, ledger] using hg
    · simpa [Process.onThread, ledger, Function.update_of_ne hk] using hi.previous k'

/-- The context of a submission whose payload survives has its values, wherever it is. -/
theorem context?_eq {j : Nat} {x : Submission} (hx : p.ledger.accepted[j]? = some x)
    (hs : x.Survives) (station : Option Station) :
    ∃ c, p.context? j station = some c ∧ c.value? = x.bindings.value? := by
  rw [context?, hx, Option.bind_some, ExecutionContext.decode?, hs]
  refine ⟨_, rfl, funext fun n => ?_⟩
  cases station <;> exact OrderedMap.find?_mapValues ..

theorem trusts_context? (hs : ∀ x ∈ p.ledger.accepted, x.Survives)
    (j : Nat) (station : Option Station) : p.ledger.Trusts (p.context? j station) := by
  intro c hc n v hv
  obtain ⟨x, hx, -⟩ := Option.bind_eq_some_iff.mp hc
  have hmem : x ∈ p.ledger.accepted := List.mem_of_getElem? hx
  obtain ⟨c', hc', hval⟩ := context?_eq hx (hs x hmem) station
  obtain rfl : c = c' := Option.some.inj (hc.symm.trans hc')
  rw [hval] at hv
  exact Or.inr ⟨x, hmem, hv⟩

/-- The slot of a handle is that of its name. -/
theorem bound?_store (hi : p.Inv) {h : Handle} (hh : h ∈ p.handles) :
    p.store.bound? h = p.ledger.slot? h.spec.name := by
  simp [store, Store.bound?, hi.numbered h hh, Ledger.slot?]

/-- A reading fills one cache, with a value that is known. -/
theorem inv_read (hi : p.Inv) (k i : Nat) : (p.step (.read k i)).Inv := by
  unfold step Store.read
  dsimp only
  split
  · exact hi
  · next h hh =>
    have hmem : h ∈ p.handles := List.mem_of_getElem? hh
    have hkept : ∀ q ∈ p.handles.set i (h.keep (h.lookup (p.threads k).current
        (p.ledger.slot? h.spec.name))), q ∈ p.handles ∨
        q.topology = 0 ∧ ∀ v, q.cached = some v → p.ledger.Knows q.spec.name v := by
      intro q hq
      rcases List.mem_or_eq_of_mem_set hq with hq | rfl
      · exact Or.inl hq
      unfold Handle.keep
      split
      · next w hw =>
        refine Or.inr ⟨hi.numbered h hmem, fun v hv => ?_⟩
        obtain rfl : w = v := Option.some.inj hv
        exact Ledger.knows_of_lookup (h := h) (hi.cached h hmem) (hi.current k) hw
      · exact Or.inl hmem
    rw [bound?_store hi hmem]
    refine ⟨hi.service, fun q hq => ?_, fun q hq v hv => ?_, hi.current, hi.previous⟩
    · rcases hkept q hq with hq | hq
      · exact hi.numbered q hq
      · exact hq.1
    · rcases hkept q hq with hq | hq
      · exact hi.cached q hq v hv
      · exact hq.2 v hv

theorem service_step (p : Process) (op : Operation) :
    (p.step op).service = p.service ∨ ∃ sop, (p.step op).service = p.service.step sop := by
  cases op with
  | serve op => exact Or.inr ⟨op, rfl⟩
  | install k j station =>
    simp only [step]
    split <;> exact Or.inl rfl
  | drop k j =>
    simp only [step]
    split <;> exact Or.inl rfl
  | _ => exact Or.inl rfl

theorem accepted_step (p : Process) (op : Operation) :
    p.ledger.accepted ⊆ (p.step op).ledger.accepted := by
  unfold ledger
  rcases service_step p op with h | ⟨sop, h⟩
  · rw [h]
    exact List.Subset.refl _
  · rw [h]
    exact p.service.accepted_step sop

theorem extends_step (p : Process) (op : Operation) :
    p.ledger.topology.registry.Extends (p.step op).ledger.topology.registry := by
  unfold ledger
  rcases service_step p op with h | ⟨sop, h⟩
  · rw [h]
    exact .refl _
  · rw [h]
    exact p.service.extends_step sop

theorem inv_step (hi : p.Inv) (hs : ∀ x ∈ p.ledger.accepted, x.Survives) (op : Operation) :
    (p.step op).Inv := by
  cases op with
  | serve op =>
    refine (hi.serve op).withHandles fun q hq => ?_
    unfold minted at hq
    split at hq
    · split at hq
      · obtain rfl := List.mem_singleton.mp hq
        exact ⟨rfl, rfl⟩
      · cases hq
    · cases hq
  | mint name =>
    refine hi.withHandles fun q hq => ?_
    obtain ⟨s, -, rfl⟩ := Option.map_eq_some_iff.mp (Option.mem_toList.mp hq)
    exact ⟨rfl, rfl⟩
  | copy i =>
    refine hi.withHandles fun q hq => ?_
    obtain ⟨h, hh, rfl⟩ := Option.map_eq_some_iff.mp (Option.mem_toList.mp hq)
    exact ⟨hi.numbered h (List.mem_of_getElem? hh), rfl⟩
  | read k i => exact inv_read hi k i
  | install k j station =>
    simp only [step]
    split
    · next c hc =>
      have hcur : p.ledger.Trusts (some c) := hc ▸ trusts_context? hs j station
      refine hi.onThread hcur fun g hg => ?_
      rcases List.mem_append.mp hg with hg | hg
      · exact hi.previous k g hg
      · rw [List.mem_singleton.mp hg]
        exact hi.current k
    · exact hi
  | drop k j =>
    simp only [step]
    split
    · next g hg =>
      exact hi.onThread (hi.previous k g (List.mem_of_getElem? hg))
        fun g' hg' => hi.previous k g' (List.mem_of_mem_eraseIdx hg')
    · exact hi

theorem accepted_run (p : Process) (ops : List Operation) :
    p.ledger.accepted ⊆ (p.run ops).ledger.accepted := by
  induction ops generalizing p with
  | nil => exact List.Subset.refl _
  | cons op ops ih => exact List.Subset.trans (accepted_step p op) (ih (p.step op))

/-- The payloads of a whole run survive if those accepted by its end do. -/
theorem inv_run (hi : p.Inv) (ops : List Operation)
    (hs : ∀ x ∈ (p.run ops).ledger.accepted, x.Survives) : (p.run ops).Inv := by
  induction ops generalizing p with
  | nil => exact hi
  | cons op ops ih =>
    exact ih (inv_step hi (fun x hx => hs x (accepted_run p (op :: ops) hx)) op) hs

theorem extends_run (p : Process) (ops : List Operation) :
    p.ledger.topology.registry.Extends (p.run ops).ledger.topology.registry := by
  induction ops generalizing p with
  | nil => exact .refl _
  | cons op ops ih => exact (extends_step p op).trans (ih (p.step op))

/-- All through a run, commits that are under way together agree. -/
def Orderly (p : Process) : List Operation → Prop
  | [] => p.service.Undisputed
  | op :: ops => p.service.Undisputed ∧ (p.step op).Orderly ops

instance decidableOrderly : (p : Process) → (ops : List Operation) → Decidable (p.Orderly ops)
  | p, [] => inferInstanceAs (Decidable p.service.Undisputed)
  | p, op :: ops =>
    have := decidableOrderly (p.step op) ops
    inferInstanceAs (Decidable (p.service.Undisputed ∧ (p.step op).Orderly ops))

/-- In an orderly run the accepted submissions have the values of the slots. -/
theorem settled_run (hs : p.service.Settled) (hi : p.service.Inv) {ops : List Operation}
    (ho : p.Orderly ops) : (p.run ops).service.Settled := by
  induction ops generalizing p with
  | nil => exact hs
  | cons op ops ih =>
    obtain ⟨hu, ho⟩ := ho
    refine ih ?_ ?_ ho
    · rcases service_step p op with h | ⟨sop, h⟩
      · rwa [h]
      · rw [h]
        exact Service.settled_step hs hi hu sop
    · rcases service_step p op with h | ⟨sop, h⟩
      · rwa [h]
      · rw [h]
        exact Service.inv_step hi sop

/-! ### What is read -/

/-- A handle that gives a value of a bound parameter gives one that is known. -/
theorem knows_of_require (hi : p.Inv) {k i : Nat} {r : Reading} {v w : Value}
    (hr : (p.store.read (p.threads k).current i).2 = some r)
    (hv : p.ledger.slot? r.spec.name = some v) (hw : r.require = .ok w) :
    p.ledger.Knows r.spec.name w := by
  unfold Store.read at hr
  split at hr
  · cases hr
  · next h hh =>
    obtain rfl := Option.some.inj hr
    have hmem : h ∈ p.handles := List.mem_of_getElem? hh
    have hb := bound?_store hi hmem
    refine Ledger.knows_of_lookup (hi.cached h hmem) (hi.current k) ?_
    revert hw
    simp only [Reading.require, hb, hv, Handle.lookup]
    intro hw
    split at hw
    · cases hw
      rfl
    · next c _ _ =>
      split at hw <;> cases hw
      rfl
    · cases hw
      rfl
    · next hn => cases hn

/-- A context that has a name gives a value that is known. -/
theorem knows_of_resolve (hi : p.Inv) {k : Nat} {c : ExecutionContext} {n : String} {w : Value}
    (hc : (p.threads k).current = some c) (hw : c.resolve n none = .ok w) :
    p.ledger.Knows n w := by
  unfold ExecutionContext.resolve at hw
  split at hw
  · cases hw
  · next x hx _ =>
    cases hw
    exact hi.current k c hc n w hx
  · next h => cases h

/-- Whoever reads the parameter, through any handle or by its name, on any thread, is given
the value, if any. -/
def OneValue (p : Process) (s : ParameterSpec) (v : Value) : Prop :=
  ∀ k, (∀ i r, (p.store.read (p.threads k).current i).2 = some r → r.spec.name = s.name →
      Yields v s.type r.require r.scope (r.requireAs s.type)) ∧
    Yields v s.type ((p.threads k).resolve s.name none) ((p.threads k).resolveScope s.name none)
      ((p.threads k).resolveAs s.name s.type)

/-- A bound parameter has one value if all submissions that were accepted have that of its
slot. -/
theorem oneValue_of_unanimous (hi : p.Inv) {s : ParameterSpec} {v : Value}
    (hsm : s ∈ p.ledger.topology.registry.specs) (hv : p.ledger.slot? s.name = some v)
    (ha : p.ledger.Unanimous s.name v) : p.OneValue s v := by
  have htyped : p.ledger.topology.registry.Typed := hi.service.ledger.typed
  obtain ⟨hf, q, hq, hn, htype⟩ := htyped s.name v hv
  obtain rfl := Registry.spec_eq_of_name hsm hq hn
  refine fun k => ⟨fun i r hr hrn => ?_, ?_⟩
  · refine Yields.of_read htype hf fun w hw => ha.same htyped hv ?_
    rw [← hrn] at hv ⊢
    exact knows_of_require hi hr hv hw
  · unfold Thread.resolve Thread.resolveScope Thread.resolveAs Thread.context
    cases hc : (p.threads k).current with
    | none => exact ⟨nofun, nofun, nofun⟩
    | some c =>
      exact Yields.of_read htype hf fun w hw => ha.same htyped hv (knows_of_resolve hi hc hw)

/-- On a thread where the context of a submission was installed a name has the value of the
submission. -/
theorem resolve_install {j : Nat} {x : Submission} (hx : p.ledger.accepted[j]? = some x)
    (hs : x.Survives) {n : String} {w : Value} (hw : x.bindings.value? n = some w) (k : Nat) :
    ((p.step (.install k j none)).threads k).resolve n none = .ok w := by
  obtain ⟨c, hc, hval⟩ := context?_eq hx hs none
  have hcur : ((p.step (.install k j none)).threads k).current = some c := by
    simp [step, hc, onThread, Thread.install]
  rw [Thread.resolve, Thread.context, hcur]
  simp only [ExecutionContext.resolve, hval, hw]

/-- **A parameter has one value as long as accepted submissions do.** Take any run on a
topology that was new at its start, all of whose accepted payloads reach workers as they
are, and any parameter that is bound after it. Whoever reads it is given the value it is
bound to, whatever happens until another submission is accepted, exactly if the accepted
submissions that have it have that value. So it is if commits that were under way together
always agreed, in particular if no two of them ever were. -/
theorem one_value {t : Topology} (ht : t.registry.Reachable)
    (hu : ∀ n, t.registry.bound? n = none) (ops : List Operation)
    (hs : ∀ x ∈ ((opening t).run ops).ledger.accepted, x.Survives) :
    let p := (opening t).run ops
    ∀ s ∈ p.ledger.topology.registry.specs, ∀ v, p.ledger.slot? s.name = some v →
      ((∀ later, (p.run later).ledger.accepted = p.ledger.accepted →
          (p.run later).OneValue s v) ↔ p.ledger.Unanimous s.name v) ∧
      ((opening t).Orderly ops → p.ledger.Unanimous s.name v ∧ p.OneValue s v) := by
  intro p s hsm v hv
  have hi : p.Inv := inv_run (inv_opening ht hu) ops hs
  refine ⟨⟨fun h x hx w hw => ?_, fun ha later hacc => ?_⟩, fun ho => ?_⟩
  · obtain ⟨j, hj⟩ := List.getElem?_of_mem hx
    have hkept : (p.run [.install 0 j none]).ledger.accepted = p.ledger.accepted := by
      show (p.step (.install 0 j none)).ledger.accepted = _
      simp only [step]
      split <;> rfl
    exact (h _ hkept 0).2.value w (resolve_install hj (hs x hx) hw 0)
  · have hext := extends_run p later
    refine oneValue_of_unanimous (inv_run hi later ?_) (hext.mem_specs hsm) (hext.bound _ _ hv) ?_
    · rw [hacc]
      exact hs
    · rwa [Ledger.Unanimous, hacc]
  · have hsettled : p.service.Settled :=
      settled_run (Service.settled_opening t) (Service.inv_opening ht hu) ho
    have ha : p.ledger.Unanimous s.name v := by
      intro x hx w hw
      obtain ⟨u, hu, hwu⟩ := hsettled.agrees x hx s.name w hw
      obtain rfl : u = v := Option.some.inj (hu.symm.trans hv)
      exact hwu
    exact ⟨ha, oneValue_of_unanimous hi hsm hv ha⟩

/-- Two submissions that overlap, with `-0` and `0` for the same parameter: both find the
slot empty, the first one fills it, and both are accepted. A handle is read in a worker of
the second and read again in one of the first, where the context has the other zero. -/
def bothZeros : List Operation :=
  let now : Timestamp := ⟨0, 0, 0⟩
  let ratio (negative : Bool) := Config.empty.set "ratio" (.float (Binary64.zero negative))
  [.serve (.ask (.declare "ratio" none (some .float))), .copy 0,
    .serve (.ask (.submit now (ratio true))), .serve (.ask (.submit now (ratio false))),
    .serve (.advance 0), .serve (.advance 1), .serve (.advance 1), .serve (.advance 0),
    .serve (.advance 0), .serve (.advance 1), .serve (.advance 0), .serve (.advance 0),
    .install 1 1 (some ⟨"parallel-0", 2⟩), .read 1 0, .install 2 0 none, .drop 1 0]

theorem one_value_bothZeros :
    let p := (opening (Topology.empty "jobs" false)).run bothZeros
    let minus := Value.float (Binary64.zero true)
    let s : ParameterSpec := ⟨"ratio", .float, none, none⟩
    Registry.empty.Reachable ∧ (∀ n, Registry.empty.bound? n = none) ∧
    (∀ x ∈ p.ledger.accepted, x.Survives) ∧
    (opening (Topology.empty "jobs" false)).Orderly bothZeros ∧
    (s ∈ p.ledger.topology.registry.specs ∧ p.ledger.slot? "ratio" = some minus ∧
      p.ledger.accepted.length = 2 ∧
      (p.store.read (p.threads 2).current 0).2.bind Reading.value? =
        some (.float (Binary64.zero false)) ∧
      ((p.threads 2).resolve "ratio" none).toOption = some minus) ∧
    p.OneValue s minus := by
  have hs : ∀ x ∈ ((opening (Topology.empty "jobs" false)).run bothZeros).ledger.accepted,
      x.Survives := by
    decide +kernel
  have ho : (opening (Topology.empty "jobs" false)).Orderly bothZeros := by decide +kernel
  refine ⟨.empty, fun _ => rfl, hs, ho, by decide +kernel, ?_⟩
  exact ((one_value (t := Topology.empty "jobs" false) .empty (fun _ => rfl) bothZeros hs
    ⟨"ratio", .float, none, none⟩ (by decide +kernel) (.float (Binary64.zero true))
    (by decide +kernel)).2 ho).2

/-- Two submissions that overlap, with `1` and `2` for the same parameter: both find the
slot empty, the first one fills it, and both are accepted. The context of the second one is
installed. -/
def overlapping : List Operation :=
  let now : Timestamp := ⟨0, 0, 0⟩
  let n (i : Int64) := Config.empty.set "n" (.integer i)
  [.serve (.ask (.declare "n" none (some .integer))),
    .serve (.ask (.submit now (n 1))), .serve (.ask (.submit now (n 2))),
    .serve (.advance 0), .serve (.advance 1), .serve (.advance 0), .serve (.advance 0),
    .serve (.advance 0), .serve (.advance 0), .serve (.advance 0), .serve (.advance 0),
    .install 1 1 none]

/-- **Submissions that overlap can disagree.** Both are accepted, the parameter is bound to
the value of the first, and a thread with the context of the second reads the other. -/
theorem overlapping_submissions_disagree :
    let p := (opening (Topology.empty "jobs" false)).run overlapping
    let s : ParameterSpec := ⟨"n", .integer, none, none⟩
    Registry.empty.Reachable ∧ (∀ n, Registry.empty.bound? n = none) ∧
    (∀ x ∈ p.ledger.accepted, x.Survives) ∧
    (p.ledger.accepted.length = 2 ∧ s ∈ p.ledger.topology.registry.specs ∧
      p.ledger.slot? "n" = some (.integer 1) ∧
      ((p.threads 1).resolve "n" none).toOption = some (.integer 2)) ∧
    ¬ p.OneValue s (.integer 1) := by
  intro p s
  refine ⟨.empty, fun _ => rfl, by decide +kernel, by decide +kernel, fun h => ?_⟩
  have hread : (p.threads 1).resolve "n" none = .ok (.integer 2) := by decide +kernel
  have hsame := (h 1).2.value _ hread
  revert hsame
  decide

end Process
end JobParameters
