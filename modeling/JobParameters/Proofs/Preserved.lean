/-
# What runs keep

Work `Meets` a condition on its result under a property of stores: on a store with the
property its result is as the condition says, and the store keeps the property. Of work
that is put together it is enough to know this of the parts (`Work.meets_bind`).

All that a worker does to the store is to read handles. So whatever reading keeps under
its context, a call keeps, and so does all the worker does, however it ends
(`keeps_workStages`); whatever reading keeps under every context, a run keeps
(`keeps_execute`). Topologies are such a thing: running a job declares and binds nothing
(`topologies_execute`).
-/
import JobParameters.Proofs.Evaluation
import JobParameters.Run

namespace JobParameters

variable {I : Store → Prop} {ε δ α β γ σ : Type}

namespace Work

/-- On a store with the property `I` the result of work is as `Q` says, and the store has
the property afterwards. -/
def Meets (I : Store → Prop) (w : Work ε α) (Q : Option α → Prop) : Prop :=
  ∀ s, I s → Q (w s).1.result? ∧ I (w s).2.2

theorem meets_pure {x : α} {Q : Option α → Prop} (h : Q (some x)) :
    Meets I (pure x : Work ε α) Q :=
  fun _ hs => ⟨h, hs⟩

theorem meets_bind {w : Work ε α} {k : α → Work ε β} {Q : Option α → Prop} {R : Option β → Prop}
    (hw : Meets I w Q) (hk : ∀ x, Q (some x) → Meets I (k x) R) (hn : Q none → R none) :
    Meets I (w >>= k) R := by
  intro s hs
  obtain ⟨hq, hs'⟩ := hw s hs
  show R (Work.bind w k s).1.result? ∧ I (Work.bind w k s).2.2
  unfold Work.bind
  rcases h : w s with ⟨e, cs, s'⟩
  rw [h] at hq hs'
  cases e with
  | done x => exact hk x hq s' hs'
  | failed f => exact ⟨hn hq, hs'⟩
  | panicked => exact ⟨hn hq, hs'⟩

/-- What is left by a failure does not show in the result. -/
theorem meets_mapFail {w : Work ε α} {Q : Option α → Prop} (f : ε → δ) (hw : Meets I w Q) :
    Meets I (w.mapFail f) Q := by
  intro s hs
  obtain ⟨hq, hs'⟩ := hw s hs
  unfold mapFail
  rcases h : w s with ⟨o, cs, s'⟩
  rw [h] at hq hs'
  cases o <;> exact ⟨hq, hs'⟩

theorem meets_attempt {w : Work (ε × γ) (γ × α)} {Q : Option (γ × α) → Prop}
    {R : Option (γ × Except ε α) → Prop} (hw : Meets I w Q)
    (hd : ∀ c a, Q (some (c, a)) → R (some (c, .ok a)))
    (hf : Q none → ∀ c e, R (some (c, .error e))) (hn : Q none → R none) :
    Meets I w.attempt R := by
  intro s hs
  obtain ⟨hq, hs'⟩ := hw s hs
  unfold attempt
  rcases h : w s with ⟨o, cs, s'⟩
  rw [h] at hq hs'
  cases o with
  | done x => exact ⟨hd x.1 x.2 hq, hs'⟩
  | failed e => exact ⟨hf hq e.2 e.1, hs'⟩
  | panicked => exact ⟨hn hq, hs'⟩

theorem meets_ofExcept {x : Except ε α} {Q : Option α → Prop} (h : Q x.toOption) :
    Meets I (ofExcept x) Q := by
  intro s hs
  cases x <;> exact ⟨h, hs⟩

/-- Work keeps a property of stores, whatever its result. -/
def Keeps (I : Store → Prop) (w : Work ε α) : Prop := Meets I w fun _ => True

theorem keeps_pure (a : α) : Keeps I (pure a : Work ε α) := meets_pure trivial

theorem keeps_bind {w : Work ε α} {k : α → Work ε β} (hw : Keeps I w) (hk : ∀ a, Keeps I (k a)) :
    Keeps I (w >>= k) :=
  meets_bind hw (fun a _ => hk a) fun _ => trivial

theorem keeps_attempt {w : Work (ε × γ) (γ × α)} (hw : Keeps I w) : Keeps I w.attempt :=
  meets_attempt hw (fun _ _ _ => trivial) (fun _ _ _ => trivial) fun _ => trivial

end Work

/-- Reading a handle under a context keeps a property of stores. -/
def ReadsKeep (I : Store → Prop) (current : Option ExecutionContext) : Prop :=
  ∀ s i, I s → I (s.read current i).1

theorem Code.keeps_run {t : Thread} (hI : ReadsKeep I t.current) :
    ∀ (m : Code ε α) (s : Store), I s → I (m.run t s).2
  | done _, _, h => h
  | fail _, _, h => h
  | panic, _, h => h
  | read i next, s, h => by
    have hr : I (s.read t.current i).1 := hI s i h
    unfold run
    split
    · next s' r he =>
      rw [he] at hr
      exact keeps_run hI (next r) s' hr
    · next s' he =>
      rw [he] at hr
      exact hr
  | look next, s, h => keeps_run hI (next t) s h

theorem Work.keeps_call {t : Thread} (hI : ReadsKeep I t.current) (c : Call) (f : ε → δ)
    (m : Code ε α) : Keeps I (call t c f m) := by
  intro s hs
  have hr := m.keeps_run hI s hs
  unfold call
  rcases h : m.run t s with ⟨o, s'⟩
  rw [h] at hr
  cases o <;> exact ⟨trivial, hr⟩

section

open Work

variable {t : Thread} (hI : ReadsKeep I t.current)

include hI

theorem keeps_makeAll (k : Nat) (ps : List (PlannedStage σ)) : Keeps I (makeAll t k ps) := by
  induction ps generalizing k with
  | nil => exact keeps_pure _
  | cons p ps ih =>
    refine keeps_bind (keeps_bind (keeps_call hI _ _ _) fun _ => keeps_pure _) fun _ => ?_
    exact keeps_bind (ih (k + 1)) fun _ => keeps_pure _

theorem keeps_openAll (is : List (Instance σ)) : Keeps I (openAll t is) := by
  induction is with
  | nil => exact keeps_pure _
  | cons i is ih =>
    have hi : Keeps I (i.start t) := keeps_bind (keeps_call hI _ _ _) fun _ => keeps_pure _
    refine keeps_bind (meets_mapFail _ hi) fun _ => ?_
    exact keeps_bind (meets_mapFail _ ih) fun _ => keeps_pure _

theorem keeps_processAll (i : Instance σ) (xs : List Json) : Keeps I (i.processAll t xs) := by
  induction xs generalizing i with
  | nil => exact keeps_pure _
  | cons x xs ih =>
    refine keeps_bind (keeps_bind (keeps_call hI _ _ _) fun _ => keeps_pure _) fun q => ?_
    exact keeps_bind (ih q.1) fun _ => keeps_pure _

theorem keeps_through (is : List (Instance σ)) (xs : List Json) : Keeps I (through t is xs) := by
  induction is generalizing xs with
  | nil => exact keeps_pure _
  | cons i is ih =>
    refine keeps_bind (meets_mapFail _ (keeps_processAll hI i xs)) fun q => ?_
    exact keeps_bind (meets_mapFail _ (ih q.2)) fun _ => keeps_pure _

theorem keeps_throughEach (is : List (Instance σ)) (xs : List Json) :
    Keeps I (throughEach t is xs) := by
  induction xs generalizing is with
  | nil => exact keeps_pure _
  | cons x xs ih =>
    refine keeps_bind (keeps_through hI is [x]) fun q => ?_
    exact keeps_bind (ih q.1) fun _ => keeps_pure _

theorem keeps_drive (is : List (Instance σ)) (batch : List Json) : Keeps I (drive t is batch) :=
  keeps_bind (keeps_openAll hI is) fun is => keeps_throughEach hI is batch

theorem keeps_closeAll (is : List (Instance σ)) : Keeps I (closeAll t is) := by
  induction is with
  | nil => exact keeps_pure _
  | cons i is ih => exact keeps_bind (keeps_call hI _ _ _) fun _ => ih

theorem keeps_driveAndClose (is : List (Instance σ)) (batch : List Json) :
    Keeps I (driveAndClose t is batch) := by
  refine keeps_bind (keeps_attempt (keeps_drive hI is batch)) fun q => ?_
  exact keeps_bind (meets_mapFail _ (keeps_closeAll hI q.1)) fun _ => meets_ofExcept trivial

theorem keeps_workStages (ps : List (PlannedStage σ)) (batch : List Json) :
    Keeps I (workStages t ps batch) :=
  keeps_bind (meets_mapFail _ (keeps_makeAll hI 0 ps)) fun is => keeps_driveAndClose hI is batch

end

section

variable (hI : ∀ current, ReadsKeep I current) (payload : String)

include hI

theorem keeps_runWorker (r : Region σ) (channel : Nat) (home : Thread) (batch : List Json)
    {s : Store} (hs : I s) : I (runWorker r channel payload home batch s).store := by
  unfold runWorker
  cases ExecutionContext.decode? payload with
  | none => exact hs
  | some c => exact (keeps_workStages (hI _) r.stages batch s hs).2

theorem keeps_runWorkers (r : Region σ) (channel : Nat) (batches : List (List Json)) {s : Store}
    (hs : I s) : I (runWorkers r payload channel batches s).2 := by
  induction batches generalizing channel s with
  | nil => exact hs
  | cons b bs ih => exact ih (channel + 1) (keeps_runWorker hI payload r channel _ b hs)

theorem keeps_runRegions (rs : List (Region σ)) (tuples : List Json) {s : Store} (hs : I s) :
    I (runRegions payload rs tuples s).store := by
  induction rs generalizing tuples s with
  | nil => exact hs
  | cons r rs ih =>
    have hr : I (r.run payload tuples s).store := keeps_runWorkers hI payload r 0 _ hs
    unfold runRegions
    dsimp only
    split
    · exact hr
    · exact ih _ hr

omit payload in
/-- A planned job keeps what reading keeps. -/
theorem keeps_execute (source : List Json) (b : BindingSet) (rs : List (Region σ)) {s : Store}
    (hs : I s) : I (execute source b rs s).store :=
  keeps_runRegions hI b.payload.encode rs source hs

end

/-- A job that runs declares and binds nothing. -/
theorem topologies_execute (source : List Json) (b : BindingSet) (rs : List (Region σ))
    (s : Store) : (execute source b rs s).store.topologies = s.topologies :=
  keeps_execute (I := fun s' => s'.topologies = s.topologies)
    (fun current s' i h => (Store.topologies_read s' current i).trans h) source b rs rfl

end JobParameters
