/-
# What happens on the thread of a worker

What can happen on the thread of a worker is said without following its work: a `Bench` is
the thread with the instances and the store, a step on it is one call (`Bench.Step`), and
every call is seen as an `Event`, with the context that is installed meanwhile and the way the
call ends. A call that goes wrong is the last one of the work that makes it (`Halts`), and
whatever is called, what is installed stays installed (`Bench.Steps.installed`) and the
instances stay in their seats (`Bench.Steps.seats`).

The work of a worker shows as such steps (`Bench.Traces`, `Bench.Shows`): each of its calls is
one, and parts that show, show one after the other when they are put together
(`Bench.Does.bind`). So it is enough to follow the recursion of each part.

Key definitions: `Event`, `Bench.Step`, `Bench.Steps`, `Halts`, `Bench.Traces`, `Bench.Shows`.
-/
import JobParameters.Proofs.Evaluation
import JobParameters.Worker

namespace JobParameters

/-! ### Calls as they happen -/

/-- A call that was made, with what was installed meanwhile and how the call ended. -/
structure Event where
  call : Call
  context : Option ExecutionContext
  ended : Outcome Fault Unit

/-- The call ended well. -/
def Event.Fine (e : Event) : Prop := e.ended = .done ()

theorem Event.Fine.ne_failed {e : Event} {f : Fault} (h : e.Fine) : e.ended ≠ .failed f := by
  have hdone : e.ended = .done () := h
  rw [hdone]
  nofun

theorem Event.Fine.ne_panicked {e : Event} (h : e.Fine) : e.ended ≠ .panicked := by
  have hdone : e.ended = .done () := h
  rw [hdone]
  nofun

namespace Outcome

variable {ε δ α β γ : Type}

/-- The same end, told in other words. -/
def map (f : α → β) (g : ε → δ) : Outcome ε α → Outcome δ β
  | done a => .done (f a)
  | failed e => .failed (g e)
  | panicked => .panicked

theorem map_eq_done_iff {f : α → β} {g : ε → δ} {o : Outcome ε α} {b : β} :
    o.map f g = .done b ↔ ∃ a, o = .done a ∧ f a = b := by
  cases o <;> simp [map]

theorem map_eq_failed_iff {f : α → β} {g : ε → δ} {o : Outcome ε α} {d : δ} :
    o.map f g = .failed d ↔ ∃ e, o = .failed e ∧ g e = d := by
  cases o <;> simp [map]

/-- The end of work that goes on after a failure. -/
def kept : Outcome (ε × γ) (γ × α) → Outcome ε (γ × Except ε α)
  | done (c, a) => .done (c, .ok a)
  | failed (e, c) => .done (c, .error e)
  | panicked => .panicked

/-- How a call ends whose code ends like that. -/
def ended (fault : ε → Fault) : Outcome ε α → Outcome Fault Unit
  | done _ => .done ()
  | failed e => .failed (fault e)
  | panicked => .panicked

/-- Of a call that cannot fail no more needs to be said. -/
theorem ended_empty (o : Outcome Empty α) (f g : Empty → Fault) : o.ended f = o.ended g := by
  rw [show f = g from funext nofun]

/-- What there is after a call: what it gave, what it left when it failed, or what there was
before when it panicked. -/
def left (before : γ) (given : α → γ) (gone : ε → γ) : Outcome ε α → γ
  | done a => given a
  | failed e => gone e
  | panicked => before

end Outcome

/-- The thread of a worker, its instances, and the store. -/
structure Bench (σ : Type) where
  thread : Thread
  instances : List (Instance σ)
  store : Store

variable {σ : Type}

namespace Bench

/-- What a call does. Where its code panics, the instance keeps its state. -/
inductive Step : Bench σ → Event → Bench σ → Prop
  /-- The next instance is made from the parameters of its stage. -/
  | create {t : Thread} (is : List (Instance σ)) {s s' : Store} (p : PlannedStage σ)
      {o : Outcome Empty σ} :
      (p.operator.create p.params).run t s = (o, s') →
      Step ⟨t, is, s⟩ ⟨⟨is.length, p.kind, .create p.params⟩, t.current, o.ended Empty.elim⟩
        ⟨t, o.left is (fun x => is ++ [⟨is.length, p, x⟩]) Empty.elim, s'⟩
  | start {t : Thread} (before : List (Instance σ)) {i : Instance σ}
      (after : List (Instance σ)) {s s' : Store} {o : Outcome (Failure × σ) σ} :
      (i.stage.operator.start i.state).run t s = (o, s') →
      Step ⟨t, before ++ i :: after, s⟩
        ⟨i.calling .start, t.current, o.ended fun e => .opening i.stage.name e.1⟩
        ⟨t, before ++ { i with state := o.left i.state id Prod.snd } :: after, s'⟩
  | process {t : Thread} (before : List (Instance σ)) {i : Instance σ}
      (after : List (Instance σ)) {s s' : Store} {tuple : Json}
      {o : Outcome (Failure × σ) (σ × List Json)} :
      (i.stage.operator.process i.state tuple).run t s = (o, s') →
      Step ⟨t, before ++ i :: after, s⟩
        ⟨i.calling (.process tuple), t.current, o.ended fun e => .processing i.stage.name e.1⟩
        ⟨t, before ++ { i with state := o.left i.state Prod.fst Prod.snd } :: after, s'⟩
  | close {t : Thread} (before : List (Instance σ)) {i : Instance σ}
      (after : List (Instance σ)) {s s' : Store} {o : Outcome Empty Unit} :
      (i.stage.operator.close i.state).run t s = (o, s') →
      Step ⟨t, before ++ i :: after, s⟩ ⟨i.calling .close, t.current, o.ended Empty.elim⟩
        ⟨t, before ++ i :: after, s'⟩

/-- Calls, one after the other. -/
inductive Steps : Bench σ → List Event → Bench σ → Prop
  | nil (x : Bench σ) : Steps x [] x
  | cons {x y z : Bench σ} {e : Event} {es : List Event} :
      Step x e y → Steps y es z → Steps x (e :: es) z

end Bench

/-- Work that ends like that once these calls were made: nothing is called after a call that
went wrong, and the work ends as that call did. -/
inductive Halts {ε α : Type} (fault : ε → Fault) : Outcome ε α → List Event → Prop
  | done {a : α} {es : List Event} : (∀ e ∈ es, e.Fine) → Halts fault (.done a) es
  | failed {x : ε} {es : List Event} {e : Event} : (∀ e ∈ es, e.Fine) →
      e.ended = .failed (fault x) → Halts fault (.failed x) (es ++ [e])
  | panicked {es : List Event} {e : Event} : (∀ e ∈ es, e.Fine) →
      e.ended = .panicked → Halts fault .panicked (es ++ [e])

/-! ### Steps -/

namespace Bench

variable {x y z : Bench σ} {es es' : List Event}

theorem Steps.trans (h : Steps x es y) (h' : Steps y es' z) : Steps x (es ++ es') z := by
  induction h with
  | nil _ => exact h'
  | cons hstep _ ih => exact .cons hstep (ih h')

theorem Step.single {e : Event} (h : Step x e y) : Steps x [e] y := .cons h (.nil y)

/-- **What is installed stays installed**, and every call finds it. -/
theorem Steps.installed (h : Steps x es y) :
    y.thread = x.thread ∧ ∀ e ∈ es, e.context = x.thread.current := by
  induction h with
  | nil _ => exact ⟨rfl, by simp⟩
  | @cons x y z e es hstep _ ih =>
    have hhere : y.thread = x.thread ∧ e.context = x.thread.current := by
      cases hstep <;> exact ⟨rfl, rfl⟩
    obtain ⟨hthread, hcontext⟩ := hhere
    rw [hthread] at ih
    exact ⟨ih.1, List.forall_mem_cons.mpr ⟨hcontext, ih.2⟩⟩

/-- Calls change no answer. -/
theorem Steps.answers (h : Steps x es y) :
    y.store.answers x.thread.current = x.store.answers x.thread.current := by
  induction h with
  | nil _ => rfl
  | @cons x y z e es hstep _ ih =>
    have hrun : ∀ {ε α : Type} {m : Code ε α} {o : Outcome ε α} {s' : Store},
        m.run x.thread x.store = (o, s') →
          s'.answers x.thread.current = x.store.answers x.thread.current := by
      intro ε α m o s' hm
      have hanswers := (m.run_eq (t := x.thread) (s := x.store) rfl).2
      rwa [hm] at hanswers
    have hhere : y.thread = x.thread ∧
        y.store.answers x.thread.current = x.store.answers x.thread.current := by
      cases hstep with
      | create is p hm => exact ⟨rfl, hrun hm⟩
      | start before after hm => exact ⟨rfl, hrun hm⟩
      | process before after hm => exact ⟨rfl, hrun hm⟩
      | close before after hm => exact ⟨rfl, hrun hm⟩
    rw [hhere.1] at ih
    exact ih.trans hhere.2

end Bench

/-- Where an instance stands, whatever its state. -/
def Instance.seat (i : Instance σ) : Nat × PlannedStage σ := (i.place, i.stage)

theorem Instance.calling_of_seat {i j : Instance σ} (h : i.seat = j.seat) (a : Action) :
    i.calling a = j.calling a := by
  obtain ⟨hplace, hstage⟩ := Prod.mk.inj h
  rw [calling, calling, hplace, hstage]

namespace Bench

variable {x y : Bench σ} {es : List Event}

/-- Calls of instances that are there leave all of them in their seats. -/
theorem Steps.seats (h : Steps x es y) (hnew : ∀ e ∈ es, ∀ ps, e.call.action ≠ .create ps) :
    y.instances.map Instance.seat = x.instances.map Instance.seat ∧
      ∀ e ∈ es, ∃ i ∈ x.instances, e.call = i.calling e.call.action := by
  induction h with
  | nil _ => exact ⟨rfl, by simp⟩
  | @cons x y z e es hstep _ ih =>
    obtain ⟨hnew, hnews⟩ := List.forall_mem_cons.mp hnew
    obtain ⟨hseats, hcalls⟩ := ih hnews
    have hhere : y.instances.map Instance.seat = x.instances.map Instance.seat ∧
        ∃ i ∈ x.instances, e.call = i.calling e.call.action := by
      cases hstep with
      | create is p _ => exact absurd rfl (hnew p.params)
      | @start t before i after s s' o _ => exact ⟨by simp [Instance.seat], i, by simp, rfl⟩
      | @process t before i after s s' tuple o _ =>
        exact ⟨by simp [Instance.seat], i, by simp, rfl⟩
      | @close t before i after s s' o _ => exact ⟨rfl, i, by simp, rfl⟩
    refine ⟨hseats.trans hhere.1, List.forall_mem_cons.mpr ⟨hhere.2, fun e' he' => ?_⟩⟩
    obtain ⟨j, hj, hcall⟩ := hcalls e' he'
    -- There is an instance in the same seat at the beginning.
    have hmem : j.seat ∈ x.instances.map Instance.seat := by
      rw [← hhere.1]
      exact List.mem_map_of_mem hj
    obtain ⟨i, hi, hseat⟩ := List.mem_map.mp hmem
    exact ⟨i, hi, hcall.trans (Instance.calling_of_seat hseat.symm _)⟩

end Bench

/-! ### Endings -/

namespace Halts

variable {ε δ α β : Type} {fault : ε → Fault} {o : Outcome ε α} {es es' : List Event}

/-- Calls that ended well may come before. -/
theorem prepend (h : Halts fault o es') (hfine : ∀ e ∈ es, e.Fine) :
    Halts fault o (es ++ es') := by
  have hall : ∀ {l : List Event}, (∀ e ∈ l, e.Fine) → ∀ e ∈ es ++ l, e.Fine :=
    fun hl => List.forall_mem_append.mpr ⟨hfine, hl⟩
  cases h with
  | done hes => exact .done (hall hes)
  | failed hes hend =>
    rw [← List.append_assoc]
    exact .failed (hall hes) hend
  | panicked hes hend =>
    rw [← List.append_assoc]
    exact .panicked (hall hes) hend

/-- Work may be told of in other words, as long as it is the same call that failed. -/
theorem map (h : Halts fault o es) (f : α → β) {g : ε → δ} {fault' : δ → Fault}
    (hg : ∀ e, fault' (g e) = fault e) : Halts fault' (o.map f g) es := by
  cases h with
  | done hes => exact .done hes
  | failed hes hend => exact .failed hes (hend.trans (by rw [hg]))
  | panicked hes hend => exact .panicked hes hend

/-- Work has come to its end exactly if all calls ended well. -/
theorem done_iff (h : Halts fault o es) : (∃ a, o = .done a) ↔ ∀ e ∈ es, e.Fine := by
  have hlast : ∀ {l : List Event} {e : Event}, ¬e.Fine → ¬∀ x ∈ l ++ [e], x.Fine :=
    fun he hl => he (hl _ (by simp))
  cases h with
  | @done a es hes => exact ⟨fun _ => hes, fun _ => ⟨a, rfl⟩⟩
  | failed hes hend => exact iff_of_false nofun (hlast fun he => he.ne_failed hend)
  | panicked hes hend => exact iff_of_false nofun (hlast fun he => he.ne_panicked hend)

/-- Of the calls only the last one can have gone wrong. -/
theorem eq_last {e e' : Event} (hes : ∀ x ∈ es, x.Fine) (he' : e' ∈ es ++ [e])
    (hnot : ¬e'.Fine) : e' = e := by
  rcases List.mem_append.mp he' with he' | he'
  · exact absurd (hes e' he') hnot
  · exact List.mem_singleton.mp he'

/-- Work fails exactly if a call did, and as that call did. -/
theorem failed_iff (h : Halts fault o es) (f : Fault) :
    (∃ e, o = .failed e ∧ fault e = f) ↔ ∃ e ∈ es, e.ended = .failed f := by
  cases h with
  | done hes =>
    refine iff_of_false nofun ?_
    rintro ⟨e, he, hend⟩
    exact (hes e he).ne_failed hend
  | @failed x es e hes hend =>
    constructor
    · rintro ⟨_, ⟨⟩, rfl⟩
      exact ⟨e, by simp, hend⟩
    · rintro ⟨e', he', hend'⟩
      obtain rfl := eq_last hes he' fun hfine => hfine.ne_failed hend'
      rw [hend] at hend'
      exact ⟨x, rfl, Outcome.failed.inj hend'⟩
  | @panicked es e hes hend =>
    refine iff_of_false nofun ?_
    rintro ⟨e', he', hend'⟩
    obtain rfl := eq_last hes he' fun hfine => hfine.ne_failed hend'
    rw [hend] at hend'
    cases hend'

/-- Work panics exactly if a call did. -/
theorem panicked_iff (h : Halts fault o es) :
    o = .panicked ↔ ∃ e ∈ es, e.ended = .panicked := by
  cases h with
  | done hes =>
    refine iff_of_false nofun ?_
    rintro ⟨e, he, hend⟩
    exact (hes e he).ne_panicked hend
  | @failed x es e hes hend =>
    refine iff_of_false nofun ?_
    rintro ⟨e', he', hend'⟩
    obtain rfl := eq_last hes he' fun hfine => hfine.ne_panicked hend'
    rw [hend] at hend'
    cases hend'
  | @panicked es e hes hend => exact iff_of_true rfl ⟨e, by simp, hend⟩

end Halts

namespace Work

variable {ε δ α β γ : Type} {w : Work ε α} {s : Store}

theorem attempt_eq (w : Work (ε × γ) (γ × α)) : w.attempt s = ((w s).1.kept, (w s).2) := by
  unfold attempt
  rcases w s with ⟨_ | _ | _, cs, s'⟩ <;> rfl

theorem mapFail_eq (f : ε → δ) : w.mapFail f s = ((w s).1.map id f, (w s).2) := by
  unfold mapFail
  rcases w s with ⟨_ | _ | _, cs, s'⟩ <;> rfl

theorem bind_of_done {a : α} (h : (w s).1 = .done a) (k : α → Work ε β) :
    (w >>= k) s = ((k a (w s).2.2).1, (w s).2.1 ++ (k a (w s).2.2).2.1, (k a (w s).2.2).2.2) := by
  show Work.bind w k s = _
  unfold Work.bind
  rcases hw : w s with ⟨o, cs, s'⟩
  rw [hw] at h
  obtain rfl : o = .done a := h
  simp only [andThen_eq_append]

theorem bind_of_failed {e : ε} (h : (w s).1 = .failed e) (k : α → Work ε β) :
    (w >>= k) s = (.failed e, (w s).2) := by
  show Work.bind w k s = _
  unfold Work.bind
  rcases hw : w s with ⟨o, cs, s'⟩
  rw [hw] at h
  obtain rfl : o = .failed e := h
  rfl

theorem bind_of_panicked (h : (w s).1 = .panicked) (k : α → Work ε β) :
    (w >>= k) s = (.panicked, (w s).2) := by
  show Work.bind w k s = _
  unfold Work.bind
  rcases hw : w s with ⟨o, cs, s'⟩
  rw [hw] at h
  obtain rfl : o = .panicked := h
  rfl

end Work

/-! ### Work that shows as steps -/

namespace Bench

variable {ε δ α β γ : Type}

/-- Work makes these calls on the bench. -/
structure Traces (x : Bench σ) (w : Work ε α) (es : List Event) (y : Bench σ) : Prop where
  steps : Steps x es y
  calls : (w x.store).2.1 = es.map Event.call
  store : (w x.store).2.2 = y.store

/-- Work shows on the bench as these calls. If it ends well, the instances are arranged then
as its result says, and if it fails, as what it leaves says, which has the fault with it. -/
structure Shows (x : Bench σ) (w : Work ε α) (arranged : α → List (Instance σ))
    (gone : ε → Fault × List (Instance σ)) (es : List Event) (y : Bench σ) : Prop
    extends Traces x w es y where
  halts : Halts (fun e => (gone e).1) (w x.store).1 es
  instances : ∀ a, (w x.store).1 = .done a → y.instances = arranged a
  remaining : ∀ e, (w x.store).1 = .failed e → y.instances = (gone e).2

/-- Work shows as calls of one kind. -/
def Does (x : Bench σ) (kind : Action → Prop) (w : Work ε α) (arranged : α → List (Instance σ))
    (gone : ε → Fault × List (Instance σ)) : Prop :=
  ∃ es y, x.Shows w arranged gone es y ∧ ∀ e ∈ es, kind e.call.action

variable {x y z : Bench σ} {kind : Action → Prop} {w : Work ε α} {k : α → Work ε β}
  {arranged : α → List (Instance σ)} {arranged' : β → List (Instance σ)}
  {gone : ε → Fault × List (Instance σ)} {gone' : δ → Fault × List (Instance σ)}
  {es es' : List Event}

theorem Traces.mapFail (h : x.Traces w es y) (f : ε → δ) : x.Traces (w.mapFail f) es y := by
  obtain ⟨hsteps, hcalls, hstore⟩ := h
  exact ⟨hsteps, by rw [Work.mapFail_eq, hcalls], by rw [Work.mapFail_eq, hstore]⟩

theorem Traces.attempt {w : Work (ε × γ) (γ × α)} (h : x.Traces w es y) :
    x.Traces w.attempt es y := by
  obtain ⟨hsteps, hcalls, hstore⟩ := h
  exact ⟨hsteps, by rw [Work.attempt_eq, hcalls], by rw [Work.attempt_eq, hstore]⟩

theorem traces_ofExcept (x : Bench σ) (r : Except ε α) : x.Traces (Work.ofExcept r) [] x := by
  refine ⟨.nil x, ?_, ?_⟩ <;> cases r <;> rfl

theorem Traces.bind_of_done (h : x.Traces w es y) {a : α} (ha : (w x.store).1 = .done a)
    (h' : y.Traces (k a) es' z) : x.Traces (w >>= k) (es ++ es') z := by
  have hrun := Work.bind_of_done ha k
  rw [h.store] at hrun
  refine ⟨h.steps.trans h'.steps, ?_, ?_⟩
  · rw [hrun, List.map_append, ← h.calls, ← h'.calls]
  · rw [hrun, ← h'.store]

theorem Traces.bind_of_failed (h : x.Traces w es y) {e : ε} (he : (w x.store).1 = .failed e) :
    x.Traces (w >>= k) es y := by
  have hrun := Work.bind_of_failed he k
  exact ⟨h.steps, by rw [hrun, h.calls], by rw [hrun, h.store]⟩

theorem Traces.bind_of_panicked (h : x.Traces w es y) (hp : (w x.store).1 = .panicked) :
    x.Traces (w >>= k) es y := by
  have hrun := Work.bind_of_panicked hp k
  exact ⟨h.steps, by rw [hrun, h.calls], by rw [hrun, h.store]⟩

theorem does_pure {a : α} (h : x.instances = arranged a) :
    x.Does kind (pure a : Work ε α) arranged gone := by
  refine ⟨[], x, ⟨⟨.nil x, rfl, rfl⟩, .done (by simp), ?_, nofun⟩, by simp⟩
  rintro b ⟨⟩
  exact h

/-- What work leaves when it fails may be put in another way. -/
theorem Does.mapFail {f : ε → δ} (h : x.Does kind w arranged gone)
    (hf : ∀ e, gone' (f e) = gone e) : x.Does kind (w.mapFail f) arranged gone' := by
  obtain ⟨es, y, ⟨htraces, hhalts, hinstances, hremaining⟩, hkind⟩ := h
  refine ⟨es, y, ⟨htraces.mapFail f, ?_, ?_, ?_⟩, hkind⟩
  all_goals rw [Work.mapFail_eq]
  · exact hhalts.map id fun e => by rw [hf]
  · intro a ha
    obtain ⟨b, hb, rfl⟩ := Outcome.map_eq_done_iff.mp ha
    exact hinstances b hb
  · intro d hd
    obtain ⟨e, he, rfl⟩ := Outcome.map_eq_failed_iff.mp hd
    rw [hf]
    exact hremaining e he

/-- What work goes on with shows after it, if there is anything. -/
theorem Shows.bind (h : x.Shows w arranged gone es y)
    (hk : ∀ a, (w x.store).1 = .done a → y.Does kind (k a) arranged' gone) :
    ∃ es' z, x.Shows (w >>= k) arranged' gone (es ++ es') z ∧ (∀ e ∈ es', kind e.call.action) ∧
      (es' ≠ [] → ∀ e ∈ es, e.Fine) := by
  have hhalts := h.halts
  cases hw : (w x.store).1 with
  | done a =>
    have hfine : ∀ e ∈ es, e.Fine := hhalts.done_iff.mp ⟨a, hw⟩
    obtain ⟨es', z, ⟨htraces, hhalts', hinstances, hremaining⟩, hkind⟩ := hk a hw
    refine ⟨es', z, ⟨h.bind_of_done hw htraces, ?_, ?_, ?_⟩, hkind, fun _ => hfine⟩
    all_goals rw [Work.bind_of_done hw k, h.store]
    · exact hhalts'.prepend hfine
    · exact hinstances
    · exact hremaining
  | failed e =>
    refine ⟨[], y, ?_, by simp, by simp⟩
    rw [List.append_nil]
    rw [hw] at hhalts
    refine ⟨h.bind_of_failed hw, ?_, ?_, ?_⟩
    all_goals rw [Work.bind_of_failed hw k]
    · cases hhalts with
      | failed hfine hend => exact .failed hfine hend
    · nofun
    · rintro _ ⟨⟩
      exact h.remaining e hw
  | panicked =>
    refine ⟨[], y, ?_, by simp, by simp⟩
    rw [List.append_nil]
    rw [hw] at hhalts
    refine ⟨h.bind_of_panicked hw, ?_, ?_, ?_⟩
    all_goals rw [Work.bind_of_panicked hw k]
    · cases hhalts with
      | panicked hfine hend => exact .panicked hfine hend
    · nofun
    · nofun

/-- Work that is put together of parts of one kind is of that kind. -/
theorem Does.bind (h : x.Does kind w arranged gone)
    (hk : ∀ (a : α) (y : Bench σ), y.thread = x.thread → y.instances = arranged a →
      y.Does kind (k a) arranged' gone) : x.Does kind (w >>= k) arranged' gone := by
  obtain ⟨es, y, hshows, hkind⟩ := h
  have hgo : ∀ a, (w x.store).1 = .done a → y.Does kind (k a) arranged' gone := fun a ha =>
    hk a y hshows.steps.installed.1 (hshows.instances a ha)
  obtain ⟨es', z, hshows', hkind', -⟩ := hshows.bind hgo
  exact ⟨es ++ es', z, hshows', List.forall_mem_append.mpr ⟨hkind, hkind'⟩⟩

/-! ### The parts of the work -/

/-- A call shows as the step that it is. -/
theorem does_call {t : Thread} {c : Call} {fault : ε → δ} {m : Code ε α}
    (hkind : kind c.action)
    (hstep : ∀ o s', m.run t x.store = (o, s') → ∃ y,
      Step x ⟨c, t.current, o.ended fun e => (gone' (fault e)).1⟩ y ∧ y.store = s' ∧
        (∀ a, o = .done a → y.instances = arranged a) ∧
        ∀ e, o = .failed e → y.instances = (gone' (fault e)).2) :
    x.Does kind (Work.call t c fault m) arranged gone' := by
  rcases hrun : m.run t x.store with ⟨o, s'⟩
  obtain ⟨y, hy, hstore, hdone, hfailed⟩ := hstep o s' hrun
  have hnone : ∀ e ∈ ([] : List Event), e.Fine := by simp
  refine ⟨[⟨c, t.current, o.ended fun e => (gone' (fault e)).1⟩], y,
    ⟨⟨hy.single, ?_, ?_⟩, ?_, ?_, ?_⟩, by simpa using hkind⟩
  all_goals
    unfold Work.call
    rw [hrun]
  · cases o <;> rfl
  · cases o <;> exact hstore.symm
  · cases o with
    | done a => exact .done (by simp [Event.Fine, Outcome.ended])
    | failed e => exact .failed hnone rfl
    | panicked => exact .panicked hnone rfl
  · cases o with
    | done a =>
      rintro _ ⟨⟩
      exact hdone a rfl
    | failed e => nofun
    | panicked => nofun
  · cases o with
    | done a => nofun
    | failed e =>
      rintro _ ⟨⟩
      exact hfailed e rfl
    | panicked => nofun

section

variable {t : Thread} {before after is : List (Instance σ)} {i : Instance σ}

/-- Instances are made one after the other, in the order of their stages. -/
theorem does_makeAll (before : List (Instance σ)) (ht : x.thread = t) (hx : x.instances = before)
    (ps : List (PlannedStage σ)) :
    x.Does (fun a => ∃ params, a = .create params) (makeAll t before.length ps)
      (fun is => before ++ is) Empty.elim := by
  induction ps generalizing x before with
  | nil => exact does_pure (by simp [hx])
  | cons p ps ih =>
    obtain ⟨u, js, s⟩ := x
    obtain rfl : t = u := ht.symm
    obtain rfl : before = js := hx.symm
    have hcall : Does ⟨t, before, s⟩ (fun a => ∃ params, a = .create params)
        (Work.call t ⟨before.length, p.kind, .create p.params⟩ id (p.operator.create p.params))
        (fun state => before ++ [⟨before.length, p, state⟩]) Empty.elim := by
      refine does_call ⟨p.params, rfl⟩ fun o s' hrun => ?_
      have hstep := Step.create before p hrun
      rw [o.ended_empty _ fun e => (Empty.elim e : Fault × List (Instance σ)).1] at hstep
      refine ⟨_, hstep, rfl, ?_, nofun⟩
      rintro a rfl
      rfl
    have hmake : Does ⟨t, before, s⟩ (fun a => ∃ params, a = .create params)
        (p.make t before.length) (fun i => before ++ [i]) Empty.elim :=
      hcall.bind fun state y _ hy => does_pure hy
    refine hmake.bind fun i y hthread hy => ?_
    have hrest := ih (before ++ [i]) hthread hy
    rw [List.length_append] at hrest
    refine hrest.bind fun is z _ hz => does_pure ?_
    simpa using hz

/-- An instance is opened in its seat, and the others stay as they are. -/
theorem does_start (ht : x.thread = t) (hx : x.instances = before ++ i :: after) :
    x.Does (· = .start) (i.start t) (fun j => before ++ j :: after)
      fun e => (e.1, before ++ e.2 :: after) := by
  obtain ⟨u, js, s⟩ := x
  obtain rfl : t = u := ht.symm
  obtain rfl : before ++ i :: after = js := hx.symm
  have hcall : Does ⟨t, before ++ i :: after, s⟩ (· = .start)
      (Work.call t (i.calling .start)
        (fun e => (Fault.opening i.stage.name e.1, { i with state := e.2 }))
        (i.stage.operator.start i.state))
      (fun state => before ++ { i with state := state } :: after)
      fun e => (e.1, before ++ e.2 :: after) := by
    refine does_call rfl fun o s' hrun => ⟨_, .start before after hrun, rfl, ?_, ?_⟩
    · rintro a rfl
      rfl
    · rintro e rfl
      rfl
  exact hcall.bind fun state y _ hy => does_pure hy

/-- Tuples are given to an instance. -/
def Processes (a : Action) : Prop := ∃ tuple, a = .process tuple

theorem does_process (ht : x.thread = t) (hx : x.instances = before ++ i :: after)
    (tuple : Json) :
    x.Does Processes (i.process t tuple) (fun p => before ++ p.1 :: after)
      fun e => (e.1, before ++ e.2 :: after) := by
  obtain ⟨u, js, s⟩ := x
  obtain rfl : t = u := ht.symm
  obtain rfl : before ++ i :: after = js := hx.symm
  have hcall : Does ⟨t, before ++ i :: after, s⟩ Processes
      (Work.call t (i.calling (.process tuple))
        (fun e => (Fault.processing i.stage.name e.1, { i with state := e.2 }))
        (i.stage.operator.process i.state tuple))
      (fun p => before ++ { i with state := p.1 } :: after)
      fun e => (e.1, before ++ e.2 :: after) := by
    refine does_call ⟨tuple, rfl⟩ fun o s' hrun => ⟨_, .process before after hrun, rfl, ?_, ?_⟩
    · rintro a rfl
      rfl
    · rintro e rfl
      rfl
  exact hcall.bind fun p y _ hy => does_pure hy

theorem does_processAll (ht : x.thread = t) (hx : x.instances = before ++ i :: after)
    (tuples : List Json) :
    x.Does Processes (i.processAll t tuples) (fun p => before ++ p.1 :: after)
      fun e => (e.1, before ++ e.2 :: after) := by
  induction tuples generalizing x i with
  | nil => exact does_pure hx
  | cons tuple tuples ih =>
    -- Only the state of the instance is another one for the next tuple.
    refine (does_process ht hx tuple).bind fun p y hthread hy => ?_
    have hrest := ih (hthread.trans ht) hy
    exact hrest.bind fun q z _ hz => does_pure hz

/-- Tuples are taken through instances one after the other; those before have had them. -/
theorem does_through (before : List (Instance σ)) (ht : x.thread = t)
    (hx : x.instances = before ++ is) (tuples : List Json) :
    x.Does Processes (through t is tuples) (fun p => before ++ p.1)
      fun e => (e.1, before ++ e.2) := by
  induction is generalizing x before tuples with
  | nil => exact does_pure hx
  | cons i is ih =>
    have hfirst := does_processAll ht hx tuples
    refine (hfirst.mapFail fun _ => rfl).bind fun p y hthread hy => ?_
    have hrest := ih (before ++ [p.1]) (hthread.trans ht) (by simpa using hy) p.2
    refine (hrest.mapFail fun e => by simp).bind fun q z _ hz => does_pure ?_
    simpa using hz

theorem does_throughEach (ht : x.thread = t) (hx : x.instances = is) (tuples : List Json) :
    x.Does Processes (throughEach t is tuples) Prod.fst id := by
  induction tuples generalizing x is with
  | nil => exact does_pure hx
  | cons tuple tuples ih =>
    refine (does_through [] ht hx [tuple]).bind fun p y hthread hy => ?_
    have hrest := ih (hthread.trans ht) hy
    exact hrest.bind fun q z _ hz => does_pure hz

/-- Instances are opened one after the other; those before are open. -/
theorem does_openAll (before : List (Instance σ)) (ht : x.thread = t)
    (hx : x.instances = before ++ is) :
    x.Does (· = .start) (openAll t is) (fun js => before ++ js)
      fun e => (e.1, before ++ e.2) := by
  induction is generalizing x before with
  | nil => exact does_pure hx
  | cons i is ih =>
    refine ((does_start ht hx).mapFail fun _ => rfl).bind fun j y hthread hy => ?_
    have hrest := ih (before ++ [j]) (hthread.trans ht) (by simpa using hy)
    refine (hrest.mapFail fun e => by simp).bind fun js z _ hz => does_pure ?_
    simpa using hz

/-- Instances are closed one after the other; those before are closed. -/
theorem does_closeAll (before : List (Instance σ)) (ht : x.thread = t)
    (hx : x.instances = before ++ is) :
    x.Does (· = .close) (closeAll t is) (fun _ => before ++ is) Empty.elim := by
  induction is generalizing x before with
  | nil => exact does_pure hx
  | cons i is ih =>
    obtain ⟨u, js, s⟩ := x
    obtain rfl : t = u := ht.symm
    obtain rfl : before ++ i :: is = js := hx.symm
    have hclose : Does ⟨t, before ++ i :: is, s⟩ (· = .close) (i.close t)
        (fun _ => before ++ i :: is) Empty.elim := by
      refine does_call rfl fun o s' hrun => ?_
      have hstep := Step.close before is hrun
      rw [o.ended_empty _ fun e => (Empty.elim e : Fault × List (Instance σ)).1] at hstep
      exact ⟨_, hstep, rfl, fun _ _ => rfl, nofun⟩
    refine hclose.bind fun _ y hthread hy => ?_
    simpa using ih (before ++ [i]) hthread (by simpa using hy)

end

end Bench

end JobParameters
