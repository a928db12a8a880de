/-
# The life of the operators of a worker

A worker makes an instance of every operator, opens them in the order of the stages, gives
them tuples, and closes them. Its calls come phase by phase: a factory that panics ends it
all; otherwise the instances are driven (`Driven`), where nothing is called any more after a
call that went wrong, and then closed, all of them unless closing one panics (`Phases`).
Opening stops at the first failure, and it makes all calls if there is none (`Work.Makes`).

Where neither a factory nor a close panics, every operator has a whole life (`Lifecycle`). A
region then makes one instance of each operator for every channel, and closes as many
(`Region.operators_live_once`).

Key definitions: `Driven`, `Phases`, `Lifecycle`, `WorkerRun.Lives`.
-/
import JobParameters.Proofs.Bench
import JobParameters.Proofs.Schedules
import JobParameters.Proofs.Workers

namespace JobParameters

variable {σ : Type}

/-! ### The phases of a life -/

/-- The calls of a list of stages, the same for each. -/
def callsOf (ps : List (PlannedStage σ)) (a : PlannedStage σ → Action) : List Call :=
  ps.mapIdx fun k p => ⟨k, p.kind, a p⟩

/-- What is to be closed after work that ended like that: every instance in the order of the
stages, unless the code panicked. -/
def Outcome.closes {ε α : Type} (ps : List (PlannedStage σ)) : Outcome ε α → List Call
  | done _ | failed _ => callsOf ps fun _ => .close
  | panicked => []

/-- Instances of certain stages are opened and given tuples, and it ends like that. -/
structure Driven (ps : List (PlannedStage σ)) (ended : Outcome Fault (List Json))
    (starts processes : List Event) : Prop where
  /-- They are opened in the order of the stages, none of them twice. -/
  opened : starts.map Event.call <+: callsOf ps fun _ => .start
  /-- One is left unopened only where another could not be opened. -/
  all_opened : (∀ e ∈ starts, e.Fine) → starts.map Event.call = callsOf ps fun _ => .start
  /-- Tuples are given to these instances, -/
  processed : ∀ e ∈ processes, ∃ k p tuple, ps[k]? = some p ∧
    e.call = ⟨k, p.kind, .process tuple⟩
  /-- but only if all of them could be opened. -/
  only_opened : processes ≠ [] → ∀ e ∈ starts, e.Fine
  /-- Nothing more is opened or processed after a call that went wrong. -/
  halts : Halts id ended (starts ++ processes)

/-- Calls that may panic but not fail were made in order, and that came to `o`. -/
structure Called (due : List Call) (o : Outcome Empty Unit) (es : List Event) : Prop where
  first : es.map Event.call <+: due
  all : (∀ e ∈ es, e.Fine) → es.map Event.call = due
  halts : Halts Empty.elim o es

/-- The calls of a worker of certain stages that ended like that, phase by phase. -/
inductive Phases (ps : List (PlannedStage σ)) : Outcome Fault (List Json) →
    (creates starts processes closes : List Event) → Prop
  /-- A factory panics, and nothing else is called. -/
  | unmade {creates : List Event} :
      Called (callsOf ps fun p => .create p.params) .panicked creates →
      Phases ps .panicked creates [] [] []
  /-- All instances are made, driven and closed, and it ends as it did before the closing. -/
  | closed {ended : Outcome Fault (List Json)} {creates starts processes closes : List Event} :
      Called (callsOf ps fun p => .create p.params) (.done ()) creates →
      Driven ps ended starts processes → Called (ended.closes ps) (.done ()) closes →
      Phases ps ended creates starts processes closes
  /-- All instances are made and driven, but closing one of them panics. -/
  | unclosed {body : Outcome Fault (List Json)} {creates starts processes closes : List Event} :
      Called (callsOf ps fun p => .create p.params) (.done ()) creates →
      Driven ps body starts processes → Called (body.closes ps) .panicked closes →
      Phases ps .panicked creates starts processes closes

/-- The calls of a worker none of whose factories and closes panics. -/
structure Lifecycle (ps : List (PlannedStage σ)) (ended : Outcome Fault (List Json))
    (creates starts processes closes : List Event) : Prop
    extends Driven ps ended starts processes where
  /-- One instance of each operator is made, in the order of the stages. -/
  created : creates.map Event.call = callsOf ps fun p => .create p.params
  /-- At last every instance is closed. -/
  closed : closes.map Event.call = ended.closes ps
  /-- To make and to close instances does not go wrong. -/
  fine : ∀ e ∈ creates ++ closes, e.Fine

namespace Called

variable {due : List Call} {o : Outcome Empty Unit} {es : List Event}

theorem fine (h : Called due (.done ()) es) : ∀ e ∈ es, e.Fine := h.halts.done_iff.mp ⟨(), rfl⟩

theorem ne_failed (h : Called due o es) {e : Event} (he : e ∈ es) {f : Fault} :
    e.ended ≠ .failed f := by
  intro hend
  obtain ⟨x, -⟩ := (h.halts.failed_iff f).mpr ⟨e, he, hend⟩
  exact x.elim

/-- A call that panics is there, and did not end well. -/
theorem not_fine (h : Called due .panicked es) : ¬∀ e ∈ es, e.Fine := by
  obtain ⟨e, he, hend⟩ := h.halts.panicked_iff.mp rfl
  exact fun hfine => (hfine e he).ne_panicked hend

end Called

namespace Phases

variable {ps : List (PlannedStage σ)} {ended : Outcome Fault (List Json)}
  {creates starts processes closes : List Event}

theorem lifecycle (h : Phases ps ended creates starts processes closes)
    (hfine : ∀ e ∈ creates ++ closes, e.Fine) :
    Lifecycle ps ended creates starts processes closes := by
  obtain ⟨hcreates, hcloses⟩ := List.forall_mem_append.mp hfine
  cases h with
  | unmade hmade => exact absurd hcreates hmade.not_fine
  | closed hmade hdriven hclosed =>
    exact ⟨hdriven, hmade.all hcreates, hclosed.all hcloses, hfine⟩
  | unclosed _ _ hclosed => exact absurd hcloses hclosed.not_fine

/-- A worker fails exactly if opening or processing did and no close panics, and as it did. -/
theorem failed_iff (h : Phases ps ended creates starts processes closes) (f : Fault) :
    ended = .failed f ↔
      (∃ e ∈ starts ++ processes, e.ended = .failed f) ∧ ∀ e ∈ closes, e.Fine := by
  cases h with
  | unmade => exact iff_of_false nofun (by simp)
  | closed _ hdriven hclosed =>
    have hbody := hdriven.halts.failed_iff f
    simp only [id_eq, exists_eq_right] at hbody
    exact hbody.trans (and_iff_left hclosed.fine).symm
  | unclosed _ _ hclosed => exact iff_of_false nofun fun hf => hclosed.not_fine hf.2

/-- A worker panics exactly if a call does. -/
theorem panicked_iff (h : Phases ps ended creates starts processes closes) :
    ended = .panicked ↔
      ∃ e ∈ creates ++ starts ++ processes ++ closes, e.ended = .panicked := by
  cases h with
  | unmade hmade =>
    obtain ⟨e, he, hend⟩ := hmade.halts.panicked_iff.mp rfl
    exact iff_of_true rfl ⟨e, by simpa using he, hend⟩
  | closed hmade hdriven hclosed =>
    rw [hdriven.halts.panicked_iff]
    constructor
    · rintro ⟨e, he, hend⟩
      refine ⟨e, ?_, hend⟩
      rw [List.append_assoc creates]
      exact List.mem_append_left _ (List.mem_append_right _ he)
    · rintro ⟨e, he, hend⟩
      rw [List.append_assoc creates, List.mem_append, List.mem_append] at he
      rcases he with (he | he) | he
      · exact absurd hend (hmade.fine e he).ne_panicked
      · exact ⟨e, he, hend⟩
      · exact absurd hend (hclosed.fine e he).ne_panicked
  | unclosed _ _ hclosed =>
    obtain ⟨e, he, hend⟩ := hclosed.halts.panicked_iff.mp rfl
    exact iff_of_true rfl ⟨e, List.mem_append_right _ he, hend⟩

end Phases

namespace Work

variable {ε δ α β : Type}

/-- The work makes these calls, all of them if it ends well and else the first ones. -/
structure Makes (w : Work ε α) (cs : List Call) : Prop where
  first : ∀ s, (w s).2.1 <+: cs
  all : ∀ s a, (w s).1 = .done a → (w s).2.1 = cs

theorem makes_pure (a : α) : Makes (pure a : Work ε α) [] :=
  ⟨fun _ => List.prefix_refl [], fun _ _ _ => rfl⟩

theorem makes_call (t : Thread) (c : Call) (fault : ε → δ) (m : Code ε α) :
    Makes (call t c fault m) [c] := by
  have hcalls : ∀ s, (call t c fault m s).2.1 = [c] := by
    intro s
    unfold call
    rcases m.run t s with ⟨_ | _ | _, s'⟩ <;> rfl
  exact ⟨fun s => (hcalls s).symm ▸ List.prefix_refl [c], fun s _ _ => hcalls s⟩

theorem Makes.mapFail {w : Work ε α} {cs : List Call} (h : Makes w cs) (f : ε → δ) :
    Makes (w.mapFail f) cs := by
  refine ⟨fun s => ?_, fun s a ha => ?_⟩
  · rw [mapFail_eq]
    exact h.first s
  · rw [mapFail_eq] at ha ⊢
    obtain ⟨b, hb, -⟩ := Outcome.map_eq_done_iff.mp ha
    exact h.all s b hb

theorem Makes.bind {w : Work ε α} {k : α → Work ε β} {cs ds : List Call} (h : Makes w cs)
    (hk : ∀ a, Makes (k a) ds) : Makes (w >>= k) (cs ++ ds) := by
  constructor
  · intro s
    cases hw : (w s).1 with
    | done a =>
      rw [bind_of_done hw, h.all s a hw, List.prefix_append_right_inj]
      exact (hk a).first _
    | failed e =>
      rw [bind_of_failed hw]
      exact (h.first s).trans (List.prefix_append cs ds)
    | panicked =>
      rw [bind_of_panicked hw]
      exact (h.first s).trans (List.prefix_append cs ds)
  · intro s b hb
    cases hw : (w s).1 with
    | done a =>
      rw [bind_of_done hw] at hb ⊢
      rw [h.all s a hw, (hk a).all _ b hb]
    | failed e =>
      rw [bind_of_failed hw] at hb
      cases hb
    | panicked =>
      rw [bind_of_panicked hw] at hb
      cases hb

theorem Makes.pure_bind {w : Work ε α} {cs : List Call} (h : Makes w cs) (k : α → β) :
    Makes (w >>= fun a => pure (k a)) cs := by
  have hbind := h.bind fun a => makes_pure (k a)
  rwa [List.append_nil] at hbind

end Work

/-- Instances are made in the order of their stages. -/
theorem makes_makeAll (t : Thread) (k : Nat) (ps : List (PlannedStage σ)) :
    Work.Makes (makeAll t k ps) (ps.mapIdx fun j p => ⟨k + j, p.kind, .create p.params⟩) := by
  induction ps generalizing k with
  | nil => exact Work.makes_pure []
  | cons p ps ih =>
    have hmake : Work.Makes (p.make t k) [⟨k, p.kind, .create p.params⟩] :=
      (Work.makes_call t _ _ _).pure_bind _
    have hrest := ih (k + 1)
    simp only [Nat.add_assoc, Nat.add_comm 1] at hrest
    rw [List.mapIdx_cons]
    exact hmake.bind fun i => hrest.pure_bind _

/-- Instances are opened in order. -/
theorem makes_openAll (t : Thread) (is : List (Instance σ)) :
    Work.Makes (openAll t is) (is.map fun i => i.calling .start) := by
  induction is with
  | nil => exact Work.makes_pure []
  | cons i is ih =>
    have hstart : Work.Makes (i.start t) [i.calling .start] :=
      (Work.makes_call t _ _ _).pure_bind _
    exact (hstart.mapFail _).bind fun j => (ih.mapFail _).pure_bind _

/-- Instances are closed in order. -/
theorem makes_closeAll (t : Thread) (is : List (Instance σ)) :
    Work.Makes (closeAll t is) (is.map fun i => i.calling .close) := by
  induction is with
  | nil => exact Work.makes_pure ()
  | cons i is ih => exact (Work.makes_call t (i.calling .close) id _).bind fun _ => ih

/-! ### The seats of instances -/

section

variable {ps : List (PlannedStage σ)} {is : List (Instance σ)}

/-- New instances sit in the order of their stages. -/
theorem seats_makeAll (t : Thread) (k : Nat) (ps : List (PlannedStage σ)) :
    Work.Meets (fun _ => True) (makeAll t k ps) fun r =>
      ∀ is, r = some is → is.map Instance.seat = ps.mapIdx fun j p => (k + j, p) := by
  have hreads : ReadsKeep (fun _ => True) t.current := fun _ _ h => h
  induction ps generalizing k with
  | nil =>
    refine Work.meets_pure fun is h => ?_
    obtain rfl := Option.some.inj h
    rfl
  | cons p ps ih =>
    have hmake : Work.Meets (fun _ => True) (p.make t k) fun r =>
        ∀ i, r = some i → i.seat = (k, p) := by
      refine Work.meets_bind (Work.keeps_call hreads _ _ _) (fun x _ => ?_) fun _ => nofun
      refine Work.meets_pure fun i h => ?_
      obtain rfl := Option.some.inj h
      rfl
    refine Work.meets_bind hmake (fun i hi => ?_) fun _ => nofun
    refine Work.meets_bind (ih (k + 1)) (fun is his => ?_) fun _ => nofun
    refine Work.meets_pure fun js h => ?_
    obtain rfl := Option.some.inj h
    rw [List.map_cons, hi i rfl, his is rfl, List.mapIdx_cons]
    simp only [Nat.add_zero, Nat.add_assoc, Nat.add_comm 1]

/-- The calls of instances in the seats of stages are those of the stages. -/
theorem map_calling_of_seats (h : is.map Instance.seat = ps.mapIdx Prod.mk)
    (a : PlannedStage σ → Action) : (is.map fun i => i.calling (a i.stage)) = callsOf ps a := by
  calc (is.map fun i => i.calling (a i.stage))
      = (is.map Instance.seat).map fun q => ⟨q.1, q.2.kind, a q.2⟩ := by
        rw [List.map_map]
        rfl
    _ = callsOf ps a := by
        rw [h]
        refine (List.mapIdx_eq_iff.mpr fun k => ?_).symm
        rw [List.getElem?_map, List.getElem?_mapIdx, Option.map_map]
        rfl

/-- Who sits in the seat of a stage is an instance of it. -/
theorem getElem?_place_of_seats (h : is.map Instance.seat = ps.mapIdx Prod.mk) {i : Instance σ}
    (hi : i ∈ is) : ps[i.place]? = some i.stage := by
  have hseat : i.seat ∈ ps.mapIdx Prod.mk := by
    rw [← h]
    exact List.mem_map_of_mem hi
  obtain ⟨k, hk, hki⟩ := List.mem_mapIdx.mp hseat
  obtain ⟨rfl, hstage⟩ := Prod.mk.inj hki
  rw [← hstage]
  exact List.getElem?_eq_getElem hk

end

/-! ### The phases on the bench -/

/-- How a worker ends whose instances were driven like that, if they can be closed. -/
def Outcome.body : Outcome (Fault × List (Instance σ)) (List (Instance σ) × List Json) →
    Outcome Fault (List Json) :=
  map Prod.snd Prod.fst

theorem Called.of_shows {α : Type} {x y : Bench σ} {w : Work Empty α}
    {arranged : α → List (Instance σ)} {es : List Event} {due : List Call}
    (h : x.Shows w arranged Empty.elim es y) (hdue : w.Makes due) :
    Called due ((w x.store).1.map (fun _ => ()) id) es := by
  refine ⟨?_, fun hfine => ?_, ?_⟩
  · rw [← h.calls]
    exact hdue.first x.store
  · obtain ⟨a, ha⟩ := h.halts.done_iff.mpr hfine
    rw [← h.calls]
    exact hdue.all x.store a ha
  · exact h.halts.map _ nofun

namespace Bench

variable {x : Bench σ} {ps : List (PlannedStage σ)}

/-- Driving instances shows as starts, and then as tuples that are given to them. -/
theorem driven (hseats : x.instances.map Instance.seat = ps.mapIdx Prod.mk)
    (batch : List Json) :
    ∃ starts processes y,
      x.Shows (drive x.thread x.instances batch) Prod.fst id (starts ++ processes) y ∧
      y.instances.map Instance.seat = ps.mapIdx Prod.mk ∧
      Driven ps (drive x.thread x.instances batch x.store).1.body starts processes := by
  obtain ⟨starts, y, hopen, hstarts⟩ := does_openAll (x := x) [] rfl rfl
  have hmakes := makes_openAll x.thread x.instances
  rw [map_calling_of_seats hseats fun _ => .start] at hmakes
  obtain ⟨processes, z, hdrive, hprocesses, honly⟩ :=
    hopen.bind (k := fun is => throughEach x.thread is batch) fun is his =>
      does_throughEach hopen.steps.installed.1 (hopen.instances is his) batch
  have hnew : ∀ e ∈ starts ++ processes, ∀ params, e.call.action ≠ .create params := by
    intro e he params hcreate
    rcases List.mem_append.mp he with he | he
    · rw [hstarts e he] at hcreate
      cases hcreate
    · obtain ⟨tuple, htuple⟩ := hprocesses e he
      rw [htuple] at hcreate
      cases hcreate
  obtain ⟨hkept, hown⟩ := hdrive.steps.seats hnew
  refine ⟨starts, processes, z, hdrive, hkept.trans hseats, ?_, fun hfine => ?_, fun e he => ?_,
    honly, hdrive.halts.map _ fun _ => rfl⟩
  · rw [← hopen.calls]
    exact hmakes.first x.store
  · obtain ⟨is, his⟩ := hopen.halts.done_iff.mpr hfine
    rw [← hopen.calls]
    exact hmakes.all x.store is his
  · -- A tuple is given to an instance that was there, which sits in the seat of its stage.
    obtain ⟨i, hi, hcall⟩ := hown e (List.mem_append_right _ he)
    obtain ⟨tuple, htuple⟩ := hprocesses e he
    exact ⟨i.place, i.stage, tuple, getElem?_place_of_seats hseats hi, by rw [hcall, htuple]; rfl⟩

/-- What is kept of driving instances says how they are and what it came to. -/
theorem kept_drive {y z : Bench σ} {es : List Event} {batch : List Json}
    (h : y.Shows (drive y.thread y.instances batch) Prod.fst id es z) :
    let o := (drive y.thread y.instances batch y.store).1
    (o = .panicked ∧ o.kept = .panicked) ∨
      ∃ r, o.kept = .done (z.instances, r) ∧ (∀ s, (Work.ofExcept r s).1 = o.body) ∧
        ∀ ps : List (PlannedStage σ), o.body.closes ps = callsOf ps fun _ => .close := by
  intro o
  cases ho : o with
  | done q =>
    refine Or.inr ⟨.ok q.2, ?_, fun _ => rfl, fun _ => rfl⟩
    rw [h.instances q ho]
    rfl
  | failed e =>
    refine Or.inr ⟨.error e.1, ?_, fun _ => rfl, fun _ => rfl⟩
    rw [h.remaining e ho]
    rfl
  | panicked => exact Or.inl ⟨rfl, rfl⟩

/-- Closing panics only if some instance cannot be closed. -/
theorem exists_of_closeAll_panicked {a : Station} (ha : x.thread.stationed a = x.thread)
    (hseats : x.instances.map Instance.seat = ps.mapIdx Prod.mk)
    (h : (closeAll x.thread x.instances x.store).1 = .panicked) :
    ∃ p ∈ ps, ∃ state, p.closes (x.store.answers x.thread.current) x.thread state = false := by
  have hmeets := (meets_closeAll (t := x.thread) (a := a) x.instances x.store rfl).1
  rw [ha, h] at hmeets
  by_contra hall
  simp only [not_exists, not_and, Bool.not_eq_false] at hall
  have hsome := hmeets.mpr fun i hi =>
    hall i.stage (List.mem_of_getElem? (getElem?_place_of_seats hseats hi)) i.state
  cases hsome

/-- Instances that sit in their seats are closed, and then it ends as was kept, unless closing
one of them panics. -/
theorem closed {a : Station} (ha : x.thread.stationed a = x.thread)
    (hseats : x.instances.map Instance.seat = ps.mapIdx Prod.mk)
    {r : Except Fault (List Json)} {ended : Outcome Fault (List Json)}
    (hr : ∀ s, (Work.ofExcept r s).1 = ended) :
    let w := (closeAll x.thread x.instances).mapFail Empty.elim >>= fun _ => Work.ofExcept r
    ∃ closes y, x.Traces w closes y ∧ y.instances.map Instance.seat = ps.mapIdx Prod.mk ∧
      (((w x.store).1 = ended ∧ Called (callsOf ps fun _ => .close) (.done ()) closes) ∨
        ((w x.store).1 = .panicked ∧ Called (callsOf ps fun _ => .close) .panicked closes ∧
          ∃ p ∈ ps, ∃ state,
            p.closes (x.store.answers x.thread.current) x.thread state = false)) := by
  intro w
  obtain ⟨closes, y, hshows, hcloses⟩ := does_closeAll (x := x) [] rfl rfl
  have hnew : ∀ e ∈ closes, ∀ params, e.call.action ≠ .create params := by
    intro e he params hcreate
    rw [hcloses e he] at hcreate
    cases hcreate
  have hkept := (hshows.steps.seats hnew).1.trans hseats
  have hmakes := makes_closeAll x.thread x.instances
  rw [map_calling_of_seats hseats fun _ => .close] at hmakes
  have hcalled := Called.of_shows hshows hmakes
  have htraces := hshows.toTraces.mapFail (Empty.elim : Empty → Fault)
  cases ho : (closeAll x.thread x.instances x.store).1 with
  | done u =>
    have hdone : ((closeAll x.thread x.instances).mapFail (Empty.elim : Empty → Fault) x.store).1 =
        .done u := by rw [Work.mapFail_eq, ho]; rfl
    have htraces' := htraces.bind_of_done (k := fun _ => .ofExcept r) hdone (y.traces_ofExcept r)
    rw [List.append_nil] at htraces'
    rw [ho] at hcalled
    refine ⟨closes, y, htraces', hkept, Or.inl ⟨?_, hcalled⟩⟩
    exact (congrArg Prod.fst (Work.bind_of_done hdone _)).trans (hr _)
  | failed e => exact e.elim
  | panicked =>
    have hpanicked : ((closeAll x.thread x.instances).mapFail (Empty.elim : Empty → Fault)
        x.store).1 = .panicked := by rw [Work.mapFail_eq, ho]; rfl
    rw [ho] at hcalled
    refine ⟨closes, y, htraces.bind_of_panicked hpanicked, hkept, Or.inr ⟨?_, hcalled, ?_⟩⟩
    · exact congrArg Prod.fst (Work.bind_of_panicked hpanicked _)
    · exact exists_of_closeAll_panicked ha hseats ho

/-- Instances that sit in their seats are driven and then closed, unless a call panics. -/
theorem driven_closed {a : Station} (ha : x.thread.stationed a = x.thread)
    (hseats : x.instances.map Instance.seat = ps.mapIdx Prod.mk) (batch : List Json) :
    let w := driveAndClose x.thread x.instances batch
    ∃ starts processes closes y, x.Traces w (starts ++ processes ++ closes) y ∧
      y.instances.map Instance.seat = ps.mapIdx Prod.mk ∧
      ((Driven ps (w x.store).1 starts processes ∧
          Called ((w x.store).1.closes ps) (.done ()) closes) ∨
        ((w x.store).1 = .panicked ∧ (∃ body, Driven ps body starts processes ∧
            Called (body.closes ps) .panicked closes) ∧
          ∃ p ∈ ps, ∃ state,
            p.closes (x.store.answers x.thread.current) x.thread state = false)) := by
  intro w
  obtain ⟨starts, processes, y, hshows, hkept, hdriven⟩ := x.driven hseats batch
  have htraces := hshows.toTraces.attempt
  have hended : ((drive x.thread x.instances batch).attempt x.store).1 =
      (drive x.thread x.instances batch x.store).1.kept := by rw [Work.attempt_eq]
  rcases kept_drive hshows with ⟨ho, hpanic⟩ | ⟨r, hdone, hr, hdue⟩
  · -- A call panicked, and nothing is closed.
    have hpanicked := hended.trans hpanic
    have hrun : (w x.store).1 = .panicked :=
      congrArg Prod.fst (Work.bind_of_panicked hpanicked _)
    rw [ho] at hdriven
    refine ⟨starts, processes, [], y, ?_, hkept, Or.inl ?_⟩
    · rw [List.append_nil]
      exact htraces.bind_of_panicked hpanicked
    · rw [hrun]
      exact ⟨hdriven, List.prefix_refl _, fun _ => rfl, .done (by simp)⟩
  · have hthread : y.thread = x.thread := hshows.steps.installed.1
    obtain ⟨closes, z, hclose, hseats', hends⟩ := closed (hthread ▸ ha) hkept hr
    rw [hthread, hshows.steps.answers] at hends
    rw [hthread] at hclose
    have hdone' := hended.trans hdone
    have hrun : (w x.store).1 = _ := congrArg Prod.fst (Work.bind_of_done hdone' _)
    rw [htraces.store] at hrun
    refine ⟨starts, processes, closes, z, htraces.bind_of_done hdone' hclose, hseats', ?_⟩
    rw [← hdue] at hends
    rcases hends with ⟨hbody, hcalled⟩ | ⟨hpanicked, hcalled, hquiet⟩
    · rw [hrun, hbody]
      exact Or.inl ⟨hdriven, hcalled⟩
    · exact Or.inr ⟨hrun.trans hpanicked, ⟨_, hdriven, hcalled⟩, hquiet⟩

/-- **The calls of a worker come phase by phase.** -/
theorem phases {t : Thread} {a : Station} (ha : t.stationed a = t) (ps : List (PlannedStage σ))
    (batch : List Json) (s : Store) :
    let w := workStages t ps batch
    let A := s.answers t.current
    ∃ creates starts processes closes y,
      Traces ⟨t, [], s⟩ w (creates ++ starts ++ processes ++ closes) y ∧
      Phases ps (w s).1 creates starts processes closes ∧
      ((∀ e ∈ creates, e.Fine) → y.instances.map Instance.seat = ps.mapIdx Prod.mk) ∧
      ((∀ p ∈ ps, (p.made? A t).isSome) → ∀ e ∈ creates, e.Fine) ∧
      ((∀ p ∈ ps, ∀ state, p.closes A t state) → ∀ e ∈ closes, e.Fine) := by
  intro w A
  obtain ⟨creates, y, hshows, -⟩ := does_makeAll (x := ⟨t, [], s⟩) [] rfl rfl ps
  have hmakes : Work.Makes (makeAll t 0 ps) (callsOf ps fun p => .create p.params) := by
    simpa [callsOf] using makes_makeAll t 0 ps
  have hcalled := Called.of_shows hshows hmakes
  have htraces := hshows.toTraces.mapFail (Empty.elim : Empty → Fault)
  have hended : ((makeAll t 0 ps).mapFail (Empty.elim : Empty → Fault) s).1 =
      (makeAll t 0 ps s).1.map id Empty.elim := by rw [Work.mapFail_eq]
  change Called _ ((makeAll t 0 ps s).1.map _ id) creates at hcalled
  cases ho : (makeAll t 0 ps s).1 with
  | failed e => exact e.elim
  | panicked =>
    rw [ho] at hcalled hended
    have hrun : (w s).1 = .panicked := congrArg Prod.fst (Work.bind_of_panicked hended _)
    rw [hrun]
    refine ⟨creates, [], [], [], y, ?_, .unmade hcalled, fun h => absurd h hcalled.not_fine,
      fun hmade => ?_, fun _ => by simp⟩
    · simp only [List.append_nil]
      exact htraces.bind_of_panicked hended
    · -- Of some stage there can be no instance.
      have hnone := (meets_makeAll (t := t) (a := a) 0 ps s rfl).1.2
      rw [ha, ho] at hnone
      obtain ⟨p, hp, hp'⟩ := hnone rfl
      have hsome := hmade p hp
      rw [hp'] at hsome
      cases hsome
  | done is =>
    have hinstances : y.instances = is := hshows.instances is ho
    have hseats : y.instances.map Instance.seat = ps.mapIdx Prod.mk := by
      have hmade := (seats_makeAll t 0 ps s trivial).1
      rw [ho] at hmade
      simpa [hinstances] using hmade is rfl
    rw [ho] at hcalled hended
    have hthread : y.thread = t := hshows.steps.installed.1
    obtain ⟨starts, processes, closes, z, hdrive, hkept, hends⟩ :=
      y.driven_closed (a := a) (by rw [hthread, ha]) hseats batch
    rw [hthread, hinstances] at hdrive hends
    rw [hshows.steps.answers] at hends
    have hstore : ((makeAll t 0 ps).mapFail (Empty.elim : Empty → Fault) s).2.2 = y.store :=
      htraces.store
    have hrun : (w s).1 = (driveAndClose t is batch y.store).1 := by
      rw [← hstore]
      exact (congrArg Prod.fst (Work.bind_of_done hended _)).trans rfl
    refine ⟨creates, starts, processes, closes, z, ?_, ?_, fun _ => hkept, fun _ => hcalled.fine,
      ?_⟩
    · rw [List.append_assoc creates, List.append_assoc creates]
      exact htraces.bind_of_done hended hdrive
    · rw [hrun]
      rcases hends with ⟨hdriven, hclosed⟩ | ⟨hpanicked, ⟨body, hdriven, hclosed⟩, -⟩
      · exact .closed hcalled hdriven hclosed
      · rw [hpanicked]
        exact .unclosed hcalled hdriven hclosed
    · rcases hends with ⟨-, hclosed⟩ | ⟨-, -, p, hp, state, hnot⟩
      · exact fun _ => hclosed.fine
      · intro hquiet
        have hcloses := hquiet p hp state
        rw [hnot] at hcloses
        cases hcloses

end Bench

/-! ### A worker -/

/-- A worker of certain stages, call by call: it starts with no instance, it finds its own
context at every call, and if all instances could be made, those it has in the end are those
of its stages. It fails if opening or processing did and no close panics, and panics if some
call did. Where no factory and no close goes wrong, every operator has a whole life. -/
structure WorkerRun.Lives (w : WorkerRun) (ps : List (PlannedStage σ)) (own : ExecutionContext)
    (s : Store) (creates starts processes closes : List Event) : Prop where
  shown : ∃ y : Bench σ,
    Bench.Steps ⟨⟨some own⟩, [], s⟩ (creates ++ starts ++ processes ++ closes) y ∧
    ((∀ e ∈ creates, e.Fine) → y.instances.map Instance.seat = ps.mapIdx Prod.mk) ∧
    y.store = w.store
  calls : w.calls = (creates ++ starts ++ processes ++ closes).map Event.call
  context : ∀ e ∈ creates ++ starts ++ processes ++ closes, e.context = some own
  phases : Phases ps w.ended creates starts processes closes
  failed : ∀ f, w.ended = .failed f ↔
    (∃ e ∈ starts ++ processes, e.ended = .failed f) ∧ ∀ e ∈ closes, e.Fine
  panicked : w.ended = .panicked ↔
    ∃ e ∈ creates ++ starts ++ processes ++ closes, e.ended = .panicked
  lifecycle : (∀ e ∈ creates ++ closes, e.Fine) →
    Lifecycle ps w.ended creates starts processes closes
  /-- No factory goes wrong unless its code does, -/
  makes : (∀ p ∈ ps, (p.made? (s.answers (some own)) ⟨some own⟩).isSome) →
    ∀ e ∈ creates, e.Fine
  /-- and no close. -/
  closes : (∀ p ∈ ps, ∀ state, p.closes (s.answers (some own)) ⟨some own⟩ state) →
    ∀ e ∈ closes, e.Fine

/-- **The calls of a worker come in the order of a life**, and its thread is then as before. -/
theorem lives_runWorker {payload : String} {c : ExecutionContext}
    (hc : ExecutionContext.decode? payload = some c) (r : Region σ) (channel : Nat)
    (home : Thread) (batch : List Json) (s : Store) :
    let w := runWorker r channel payload home batch s
    w.thread = home ∧ ∃ creates starts processes closes,
      w.Lives r.stages (c.stationed ⟨r.label, channel⟩) s creates starts processes closes := by
  intro w
  let own := c.stationed ⟨r.label, channel⟩
  let work := workStages ⟨some own⟩ r.stages batch s
  have hrun : w = ⟨work.1, work.2.1, home, work.2.2⟩ := by
    simp only [w, runWorker, hc]
    rfl
  obtain ⟨creates, starts, processes, closes, y, ⟨hsteps, hcalls, hstore⟩, hphases, hseats, hmakes,
    hcloses⟩ := Bench.phases (t := ⟨some own⟩) (a := ⟨r.label, channel⟩) rfl r.stages batch s
  rw [hrun]
  exact ⟨rfl, creates, starts, processes, closes, ⟨y, hsteps, hseats, hstore.symm⟩, hcalls,
    hsteps.installed.2, hphases, hphases.failed_iff, hphases.panicked_iff, hphases.lifecycle,
    hmakes, hcloses⟩

/-! ### A region -/

/-- The call makes an instance of the stage at that place. -/
def Call.Creates (k : Nat) (c : Call) : Bool :=
  c.stage == k && match c.action with
    | .create _ => true
    | _ => false

section

variable {ps : List (PlannedStage σ)} {p : PlannedStage σ} {k : Nat}

theorem mem_callsOf {a : PlannedStage σ → Action} {c : Call} (h : c ∈ callsOf ps a) :
    ∃ p, c.action = a p := by
  obtain ⟨j, hj, rfl⟩ := List.mem_mapIdx.mp h
  exact ⟨ps[j], rfl⟩

/-- Every stage makes one of the calls. -/
theorem filter_creates_callsOf (h : ps[k]? = some p) :
    (callsOf ps fun p => .create p.params).filter (Call.Creates k) =
      [⟨k, p.kind, .create p.params⟩] := by
  obtain ⟨hk, rfl⟩ := List.getElem?_eq_some_iff.mp h
  have hsplit : ps = ps.take k ++ ps[k] :: ps.drop (k + 1) := by
    rw [← List.drop_eq_getElem_cons hk, List.take_append_drop]
  have hlength : (ps.take k).length = k := List.length_take_of_le (Nat.le_of_lt hk)
  have hbefore : ((ps.take k).mapIdx fun j p => (⟨j, p.kind, .create p.params⟩ : Call)).filter
      (Call.Creates k) = [] := by
    rw [List.filter_eq_nil_iff]
    intro c hc
    obtain ⟨j, hj, rfl⟩ := List.mem_mapIdx.mp hc
    have hne : j ≠ k := by omega
    simp [Call.Creates, hne]
  have hafter : ((ps.drop (k + 1)).mapIdx fun j p =>
      (⟨j + 1 + k, p.kind, .create p.params⟩ : Call)).filter (Call.Creates k) = [] := by
    rw [List.filter_eq_nil_iff]
    intro c hc
    obtain ⟨j, hj, rfl⟩ := List.mem_mapIdx.mp hc
    simp [Call.Creates]
  have hhere : Call.Creates k ⟨0 + k, ps[k].kind, .create ps[k].params⟩ = true := by
    simp [Call.Creates]
  conv_lhs => rw [hsplit]
  rw [callsOf, List.mapIdx_append, List.mapIdx_cons, hlength, List.filter_append, hbefore,
    List.filter_cons_of_pos hhere, hafter, Nat.zero_add]
  rfl

theorem filter_creates_eq_nil {es : List Event}
    (h : ∀ e ∈ es, ∀ params, e.call.action ≠ .create params) :
    (es.map Event.call).filter (Call.Creates k) = [] := by
  rw [List.filter_eq_nil_iff]
  intro c hc hcreates
  obtain ⟨e, he, rfl⟩ := List.mem_map.mp hc
  unfold Call.Creates at hcreates
  rcases haction : e.call.action with params | _ | tuple | _
  · exact h e he params haction
  all_goals simp [haction] at hcreates

/-- A worker none of whose factories panics makes one instance of every stage. -/
theorem WorkerRun.Lives.creations {w : WorkerRun} {own : ExecutionContext} {s : Store}
    {creates starts processes closes : List Event}
    (h : w.Lives ps own s creates starts processes closes) (hfine : ∀ e ∈ creates, e.Fine)
    (hp : ps[k]? = some p) :
    w.calls.filter (Call.Creates k) = [⟨k, p.kind, .create p.params⟩] := by
  obtain ⟨body, hmade, hdriven, hclosed⟩ : ∃ body,
      creates.map Event.call = callsOf ps (fun p => .create p.params) ∧
      Driven ps body starts processes ∧ closes.map Event.call <+: body.closes ps := by
    have hphases := h.phases
    generalize w.ended = o at hphases
    cases hphases with
    | unmade hmade => exact absurd hfine hmade.not_fine
    | closed hmade hdriven hclosed => exact ⟨_, hmade.all hfine, hdriven, hclosed.first⟩
    | unclosed hmade hdriven hclosed => exact ⟨_, hmade.all hfine, hdriven, hclosed.first⟩
  have hothers : ∀ e ∈ starts ++ processes ++ closes, ∀ params,
      e.call.action ≠ .create params := by
    intro e he params haction
    simp only [List.mem_append, or_assoc] at he
    rcases he with he | he | he
    · obtain ⟨q, hq⟩ := mem_callsOf (hdriven.opened.subset (List.mem_map_of_mem he))
      rw [haction] at hq
      cases hq
    · obtain ⟨j, q, tuple, _, hcall⟩ := hdriven.processed e he
      rw [hcall] at haction
      cases haction
    · have hmem := hclosed.subset (List.mem_map_of_mem he)
      cases body with
      | done a | failed f =>
        obtain ⟨q, hq⟩ := mem_callsOf hmem
        rw [haction] at hq
        cases hq
      | panicked => cases hmem
  rw [h.calls, List.append_assoc, List.append_assoc, List.map_append, List.filter_append,
    hmade, filter_creates_callsOf hp, ← List.append_assoc starts,
    filter_creates_eq_nil hothers, List.append_nil]

end

/-- The workers of a region are on the channels one after the other, each with its batch and
on a store that answers as at the start. -/
theorem getElem?_runWorkers {payload : String} {context : ExecutionContext}
    (hc : ExecutionContext.decode? payload = some context) (r : Region σ) (c : Nat)
    (bs : List (List Json)) (s : Store) :
    (runWorkers r payload c bs s).1.length = bs.length ∧
      ∀ (k : Nat) w, (runWorkers r payload c bs s).1[k]? = some w → ∃ b s',
        bs[k]? = some b ∧ s'.answers (some context) = s.answers (some context) ∧
          w = runWorker r (c + k) payload .idle b s' := by
  induction bs generalizing c s with
  | nil =>
    refine ⟨rfl, fun k w hw => ?_⟩
    rw [runWorkers, List.getElem?_nil] at hw
    cases hw
  | cons b bs ih =>
    obtain ⟨hlength, hrest⟩ := ih (c + 1) (runWorker r c payload .idle b s).store
    refine ⟨congrArg Nat.succ hlength, fun k w hw => ?_⟩
    cases k with
    | zero => exact ⟨b, s, rfl, rfl, (Option.some.inj hw).symm⟩
    | succ k =>
      obtain ⟨b', s', hb', hs', rfl⟩ := hrest k w hw
      have hkept := (account_runWorker (r := r) (t := ⟨some context⟩) hc.symm rfl c b (s := s)).2
      exact ⟨b', s', hb', hs'.trans hkept, by rw [Nat.add_assoc, Nat.add_comm 1]⟩

theorem filter_flatMap_calls {ws : List WorkerRun} {f : Call → Bool} {c : Call}
    (h : ∀ w ∈ ws, w.calls.filter f = [c]) :
    (ws.flatMap WorkerRun.calls).filter f = List.replicate ws.length c := by
  induction ws with
  | nil => rfl
  | cons w ws ih =>
    obtain ⟨hw, hws⟩ := List.forall_mem_cons.mp h
    rw [List.flatMap_cons, List.filter_append, hw, ih hws]
    rfl

/-- **Operators live once in every worker.** In a worker whose payload is one, whatever was
installed on its thread before and is installed again afterwards, the calls come phase by
phase, and where no factory and no close panics they are those of a `Lifecycle`: one instance
of each operator is made from the parameters of its stage, they are opened, given tuples only
if all could be opened, and closed, and after a call that went wrong there is nothing but to
close all of them. The worker then fails if and only if a call did, and as it did, and at
every call it finds its own context. A region has one such worker on each of its channels, so
it makes as many instances of each operator, unless a factory panics, and by any schedule the
workers come to the same and make the same calls. -/
theorem Region.operators_live_once {payload : String} {c : ExecutionContext}
    (hc : ExecutionContext.decode? payload = some c) (r : Region σ) :
    (∀ channel home batch s, let w := runWorker r channel payload home batch s
      w.thread = home ∧ ∃ creates starts processes closes,
        w.Lives r.stages (c.stationed ⟨r.label, channel⟩) s creates starts processes closes) ∧
    ∀ tuples s, let ran := r.run payload tuples s
      (∃ ws, ran.result = gather r.label 0 ws ∧ ran.calls = ws.flatMap WorkerRun.calls ∧
        ws.length = r.channels ∧ ∀ channel w, ws[channel]? = some w →
          ∃ batch s', (deal r.channels tuples)[channel]? = some batch ∧
            s'.answers (some c) = s.answers (some c) ∧
            w = runWorker r channel payload .idle batch s') ∧
      ((∀ channel < r.channels, ∀ p ∈ r.stages,
          (p.made? (s.answers (some c)) ⟨some (c.stationed ⟨r.label, channel⟩)⟩).isSome) →
        ∀ k p, r.stages[k]? = some p → ran.calls.filter (Call.Creates k) =
          List.replicate r.channels ⟨k, p.kind, .create p.params⟩) ∧
      ∀ schedule, (r.runBy schedule payload tuples s).result = ran.result ∧
        (r.runBy schedule payload tuples s).calls = ran.calls := by
  refine ⟨lives_runWorker hc r, fun tuples s => ?_⟩
  intro ran
  obtain ⟨hlength, hworkers⟩ := getElem?_runWorkers hc r 0 (deal r.channels tuples) s
  rw [length_deal] at hlength
  simp only [Nat.zero_add] at hworkers
  refine ⟨⟨_, rfl, rfl, hlength, hworkers⟩, fun hmade k p hp => ?_, fun schedule => ?_⟩
  · rw [← hlength]
    refine filter_flatMap_calls fun w hw => ?_
    obtain ⟨channel, hchannel⟩ := List.mem_iff_getElem?.mp hw
    have hlt : channel < r.channels := by
      rw [← hlength]
      exact (List.getElem?_eq_some_iff.mp hchannel).1
    obtain ⟨batch, s', -, hs', rfl⟩ := hworkers channel w hchannel
    obtain ⟨-, creates, starts, processes, closes, hlives⟩ :=
      lives_runWorker hc r channel .idle batch s'
    refine hlives.creations (hlives.makes fun p hp => ?_) hp
    have hsame : s'.answers (some (c.stationed ⟨r.label, channel⟩)) = s.answers (some c) :=
      (Thread.answers_stationed s' ⟨some c⟩ ⟨r.label, channel⟩).trans hs'
    rw [hsame]
    exact hmade channel hlt p hp
  · have ht : (⟨ExecutionContext.decode? payload⟩ : Thread).current =
        ExecutionContext.decode? payload := rfl
    obtain ⟨hresult, hcalls, -, -⟩ := Region.runBy_eq (r := r) (s := s) ht rfl rfl schedule tuples
    exact ⟨hresult, hcalls⟩

/-- Takes its ration when an instance is made, lets as many tuples pass as that is, and fails
at the next one. A stage without a ration panics. -/
def rationed : Operator Int where
  create ps :=
    match ps.find? "ration" with
    | some (.integer n) => .done n.toInt
    | _ => .panic
  start := .done
  process n x := if 0 < n then .done (n - 1, [x]) else .fail (.stated "nothing left", n)
  close _ := .done ()

/-- Two operators with their rations on two channels. -/
def rationedPair : Region Int :=
  let stage (name : String) (n : Int64) : PlannedStage Int :=
    ⟨name, .operator, .ofList [("ration", .integer n)], rationed⟩
  ⟨"parallel-1", 2, [stage "first" 1, stage "second" 5]⟩

/-- The first tuple of a channel uses up what its first operator lets pass, so that the worker
fails at the second one; all four instances are made and closed, and what was installed is
back. -/
theorem Region.operators_live_once_rationed :
    let ran := rationedPair.run limited.payload.encode [.null, .null, .null] .empty
    let home : Thread := ⟨some ⟨some "before", none, .empty⟩⟩
    let w := runWorker rationedPair 0 limited.payload.encode home [.null, .null] .empty
    Tally.ofCalls ran.calls = ⟨4, 4, 5, 4⟩ ∧
      ∃ c, ExecutionContext.decode? limited.payload.encode = some c ∧
        (w.thread = home ∧ ∃ creates starts processes closes,
          w.Lives rationedPair.stages (c.stationed ⟨"parallel-1", 0⟩) .empty
            creates starts processes closes ∧
          Lifecycle rationedPair.stages w.ended creates starts processes closes) ∧
        ran.calls.filter (Call.Creates 1) =
          List.replicate 2 ⟨1, .operator, .create (.ofList [("ration", .integer 5)])⟩ := by
  intro ran home w
  have hsome : (ExecutionContext.decode? limited.payload.encode).isSome = true := by
    decide +kernel
  obtain ⟨c, hc⟩ := Option.isSome_iff_exists.mp hsome
  obtain ⟨hworker, hregion⟩ := Region.operators_live_once hc rationedPair
  obtain ⟨-, hcreations, -⟩ := hregion [.null, .null, .null] .empty
  have htally : Tally.ofCalls ran.calls = ⟨4, 4, 5, 4⟩ := by decide +kernel
  -- Both stages have a ration, and closing does nothing.
  have hmade : ∀ A t, ∀ p ∈ rationedPair.stages, (p.made? A t).isSome := by
    intro A t p hp
    rcases List.mem_pair.mp hp with rfl | rfl <;> rfl
  have hclose : ∀ A t, ∀ p ∈ rationedPair.stages, ∀ state, p.closes A t state := by
    intro A t p hp state
    rcases List.mem_pair.mp hp with rfl | rfl <;> rfl
  obtain ⟨hthread, creates, starts, processes, closes, hlives⟩ :=
    hworker 0 home [.null, .null] .empty
  have hfine : ∀ e ∈ creates ++ closes, e.Fine :=
    List.forall_mem_append.mpr ⟨hlives.makes (hmade _ _), hlives.closes (hclose _ _)⟩
  have hsecond := hcreations (fun _ _ => hmade _ _) 1 _ rfl
  refine ⟨htally, c, hc, ⟨hthread, creates, starts, processes, closes, ?_⟩, ?_⟩
  · exact ⟨hlives, hlives.lifecycle hfine⟩
  · exact hsecond

end JobParameters
