/-
# The work of a worker, step by step

Workers run at the same time, and between any two things that one of them does others may
fill the caches that it reads. So the work of a worker is taken apart into an `Agenda`: the
calls it begins, to make an instance, to open it, to give it a tuple and to close it, and the
handles it reads in the course of a call, each of them a step. To carry out an agenda without
a break is to run the worker (`runWorker_eq`).

How an agenda ends and which calls it makes depend on nothing but what handles answer
(`Agenda.eval`), and carrying it out leaves the answers as they are (`Agenda.carryOut_eq`).
-/
import JobParameters.Proofs.Evaluation
import JobParameters.Worker

namespace JobParameters

/-- What work has still to do. -/
inductive Agenda (ε α : Type) where
  | ended (o : Outcome ε α)
  /-- Begins a call. -/
  | call (c : Call) (next : Agenda ε α)
  /-- Reads the handle with that number. -/
  | read (handle : Nat) (next : Reading → Agenda ε α)

namespace Agenda

variable {ε δ α β γ : Type}

/-- One agenda after the other, which one being decided by how the first ends; after a
panic there is none. -/
def followed (done : α → Agenda δ β) (failed : ε → Agenda δ β) : Agenda ε α → Agenda δ β
  | ended (.done a) => done a
  | ended (.failed e) => failed e
  | ended .panicked => ended .panicked
  | call c next => call c (next.followed done failed)
  | read h next => read h fun r => (next r).followed done failed

instance : Monad (Agenda ε) where
  pure a := ended (.done a)
  bind m k := m.followed k fun e => ended (.failed e)

/-- The same agenda, which leaves something else where it fails. -/
def mapFail (f : ε → δ) (m : Agenda ε α) : Agenda δ α :=
  m.followed (fun a => ended (.done a)) fun e => ended (.failed (f e))

/-- The agenda of work that goes on after a failure. -/
def attempt (m : Agenda (ε × γ) (γ × α)) : Agenda ε (γ × Except ε α) :=
  m.followed (fun (c, a) => ended (.done (c, .ok a))) fun (e, c) => ended (.done (c, .error e))

/-- Nothing to do, or a failure that was kept. -/
def ofExcept : Except ε α → Agenda ε α
  | .ok a => ended (.done a)
  | .error e => ended (.failed e)

/-- What code on a thread has to do. -/
def ofCode (t : Thread) (fault : ε → δ) : Code ε α → Agenda δ α
  | .done a => ended (.done a)
  | .fail e => ended (.failed (fault e))
  | .panic => ended .panicked
  | .read h next => read h fun r => ofCode t fault (next r)
  | .look next => ofCode t fault (next t)

/-- A call with its code. -/
def ofCall (t : Thread) (c : Call) (fault : ε → δ) (code : Code ε α) : Agenda δ α :=
  call c (ofCode t fault code)

/-- Carries out an agenda without a break. Reading a handle that does not exist panics. -/
def carryOut (t : Thread) : Agenda ε α → Work ε α
  | ended o => fun s => (o, [], s)
  | call c next => fun s =>
    let (o, cs, s) := next.carryOut t s
    (o, c :: cs, s)
  | read h next => fun s =>
    match s.read t.current h with
    | (s, some r) => (next r).carryOut t s
    | (s, none) => (.panicked, [], s)

end Agenda

/-! ### The agenda of a worker -/

namespace Instance

variable {σ : Type}

/-- Opens the instance. -/
def starting (t : Thread) (i : Instance σ) : Agenda (Fault × Instance σ) (Instance σ) := do
  let s ← Agenda.ofCall t (i.calling .start)
    (fun (f, s) => (.opening i.stage.name f, { i with state := s }))
    (i.stage.operator.start i.state)
  return { i with state := s }

/-- Gives the instance a tuple. -/
def processing (t : Thread) (i : Instance σ) (tuple : Json) :
    Agenda (Fault × Instance σ) (Instance σ × List Json) := do
  let (s, out) ← Agenda.ofCall t (i.calling (.process tuple))
    (fun (f, s) => (.processing i.stage.name f, { i with state := s }))
    (i.stage.operator.process i.state tuple)
  return ({ i with state := s }, out)

/-- Gives the instance tuples one after the other. -/
def processingAll (t : Thread) :
    Instance σ → List Json → Agenda (Fault × Instance σ) (Instance σ × List Json)
  | i, [] => pure (i, [])
  | i, tuple :: tuples => do
    let (i, out) ← i.processing t tuple
    let (i, outs) ← i.processingAll t tuples
    return (i, out ++ outs)

/-- Closes the instance. -/
def closing (t : Thread) (i : Instance σ) : Agenda Empty Unit :=
  Agenda.ofCall t (i.calling .close) id (i.stage.operator.close i.state)

end Instance

namespace Agenda

variable {σ : Type}

/-- Makes an instance of the stage at a place. -/
def making (t : Thread) (k : Nat) (p : PlannedStage σ) : Agenda Empty (Instance σ) := do
  let s ← ofCall t ⟨k, p.kind, .create p.params⟩ id (p.operator.create p.params)
  return ⟨k, p, s⟩

/-- Makes an instance of every stage in order. -/
def makingAll (t : Thread) : Nat → List (PlannedStage σ) → Agenda Empty (List (Instance σ))
  | _, [] => pure []
  | k, p :: ps => do
    let i ← making t k p
    let is ← makingAll t (k + 1) ps
    return i :: is

/-- Opens instances in order. -/
def openingAll (t : Thread) :
    List (Instance σ) → Agenda (Fault × List (Instance σ)) (List (Instance σ))
  | [] => pure []
  | i :: is => do
    let i ← (i.starting t).mapFail fun (f, i) => (f, i :: is)
    let is ← (openingAll t is).mapFail fun (f, is) => (f, i :: is)
    return i :: is

/-- Takes tuples through instances. -/
def passing (t : Thread) : List (Instance σ) → List Json →
    Agenda (Fault × List (Instance σ)) (List (Instance σ) × List Json)
  | [], tuples => pure ([], tuples)
  | i :: is, tuples => do
    let (i, out) ← (i.processingAll t tuples).mapFail fun (f, i) => (f, i :: is)
    let (is, out) ← (passing t is out).mapFail fun (f, is) => (f, i :: is)
    return (i :: is, out)

/-- Takes tuples through instances one at a time. -/
def passingEach (t : Thread) : List (Instance σ) → List Json →
    Agenda (Fault × List (Instance σ)) (List (Instance σ) × List Json)
  | is, [] => pure (is, [])
  | is, tuple :: tuples => do
    let (is, out) ← passing t is [tuple]
    let (is, outs) ← passingEach t is tuples
    return (is, out ++ outs)

/-- Opens instances and takes tuples through them one at a time. -/
def driving (t : Thread) (is : List (Instance σ)) (batch : List Json) :
    Agenda (Fault × List (Instance σ)) (List (Instance σ) × List Json) := do
  let is ← openingAll t is
  passingEach t is batch

/-- Closes instances in order. -/
def closingAll (t : Thread) : List (Instance σ) → Agenda Empty Unit
  | [] => pure ()
  | i :: is => do
    i.closing t
    closingAll t is

/-- Drives instances over a batch and closes them, also after a failure. -/
def drivingAndClosing (t : Thread) (is : List (Instance σ)) (batch : List Json) :
    Agenda Fault (List Json) := do
  let (is, result) ← (driving t is batch).attempt
  (closingAll t is).mapFail Empty.elim
  ofExcept result

/-- All that a worker does on its thread. -/
def ofStages (t : Thread) (stages : List (PlannedStage σ)) (batch : List Json) :
    Agenda Fault (List Json) := do
  let is ← (makingAll t 0 stages).mapFail Empty.elim
  drivingAndClosing t is batch

end Agenda

namespace Region

variable {σ : Type}

/-- The thread of a worker with its context, if there is one in the payload. -/
def workerThread (r : Region σ) (channel : Nat) (payload : String) (home : Thread) : Thread :=
  match ExecutionContext.decode? payload with
  | none => home
  | some c => (home.install (c.stationed ⟨r.label, channel⟩)).1

/-- The agenda of a worker on that thread. -/
def workerAgenda (r : Region σ) (channel : Nat) (payload : String) (home : Thread)
    (batch : List Json) : Agenda Fault (List Json) :=
  match ExecutionContext.decode? payload with
  | none => .ended (.failed .undecodable)
  | some _ => .ofStages (r.workerThread channel payload home) r.stages batch

end Region

/-! ### To carry out an agenda is to work -/

namespace Agenda

variable {ε δ α β γ σ : Type} {t : Thread}

theorem carryOut_followed (m : Agenda ε α) (done : α → Agenda δ β) (failed : ε → Agenda δ β)
    (s : Store) : (m.followed done failed).carryOut t s =
      match m.carryOut t s with
      | (.done a, cs, s) =>
        let (o, ds, s) := (done a).carryOut t s
        (o, cs ++ ds, s)
      | (.failed e, cs, s) =>
        let (o, ds, s) := (failed e).carryOut t s
        (o, cs ++ ds, s)
      | (.panicked, cs, s) => (.panicked, cs, s) := by
  induction m generalizing s with
  | ended o => cases o <;> rfl
  | call c next ih =>
    simp only [followed, carryOut, ih]
    rcases next.carryOut t s with ⟨o, cs, s'⟩
    cases o <;> rfl
  | read h next ih =>
    simp only [followed, carryOut]
    rcases s.read t.current h with ⟨s', _ | r⟩
    · rfl
    · exact ih r s'

theorem carryOut_pure (a : α) : (pure a : Agenda ε α).carryOut t = (pure a : Work ε α) := rfl

theorem carryOut_bind (m : Agenda ε α) (k : α → Agenda ε β) :
    (m >>= k).carryOut t = m.carryOut t >>= fun a => (k a).carryOut t := by
  funext s
  show (m.followed k _).carryOut t s = Work.bind (m.carryOut t) (fun a => (k a).carryOut t) s
  rw [carryOut_followed, Work.bind]
  rcases m.carryOut t s with ⟨o, cs, s'⟩
  cases o <;> simp [Work.andThen_eq_append, carryOut]

theorem carryOut_mapFail (f : ε → δ) (m : Agenda ε α) :
    (m.mapFail f).carryOut t = (m.carryOut t).mapFail f := by
  funext s
  rw [mapFail, carryOut_followed, Work.mapFail]
  rcases m.carryOut t s with ⟨o, cs, s'⟩
  cases o <;> simp [carryOut]

theorem carryOut_attempt (m : Agenda (ε × γ) (γ × α)) :
    m.attempt.carryOut t = (m.carryOut t).attempt := by
  funext s
  rw [attempt, carryOut_followed, Work.attempt]
  rcases m.carryOut t s with ⟨o, cs, s'⟩
  cases o <;> simp [carryOut]

theorem carryOut_ofExcept (x : Except ε α) : (ofExcept x).carryOut t = Work.ofExcept x := by
  cases x <;> rfl

theorem carryOut_ofCode (f : ε → δ) (m : Code ε α) (s : Store) :
    (ofCode t f m).carryOut t s =
      match m.run t s with
      | (.done a, s) => (.done a, [], s)
      | (.failed e, s) => (.failed (f e), [], s)
      | (.panicked, s) => (.panicked, [], s) := by
  induction m generalizing s with
  | done a => rfl
  | fail e => rfl
  | panic => rfl
  | read h next ih =>
    simp only [ofCode, carryOut, Code.run]
    rcases s.read t.current h with ⟨s', _ | r⟩
    · rfl
    · exact ih r s'
  | look next ih => exact ih t s

theorem carryOut_ofCall (c : Call) (f : ε → δ) (m : Code ε α) :
    (ofCall t c f m).carryOut t = Work.call t c f m := by
  funext s
  simp only [ofCall, carryOut, carryOut_ofCode, Work.call]
  rcases m.run t s with ⟨o, s'⟩
  cases o <;> rfl

theorem carryOut_makingAll (k : Nat) (ps : List (PlannedStage σ)) :
    (makingAll t k ps).carryOut t = makeAll t k ps := by
  induction ps generalizing k with
  | nil => rfl
  | cons p ps ih =>
    simp only [makingAll, makeAll, making, PlannedStage.make, carryOut_bind, carryOut_ofCall, ih,
      carryOut_pure]

theorem carryOut_starting (i : Instance σ) : (i.starting t).carryOut t = i.start t := by
  simp only [Instance.starting, Instance.start, carryOut_bind, carryOut_ofCall, carryOut_pure]

theorem carryOut_processing (i : Instance σ) (tuple : Json) :
    (i.processing t tuple).carryOut t = i.process t tuple := by
  simp only [Instance.processing, Instance.process, carryOut_bind, carryOut_ofCall, carryOut_pure]

theorem carryOut_processingAll (i : Instance σ) (tuples : List Json) :
    (i.processingAll t tuples).carryOut t = i.processAll t tuples := by
  induction tuples generalizing i with
  | nil => rfl
  | cons tuple tuples ih =>
    simp only [Instance.processingAll, Instance.processAll, carryOut_bind, carryOut_processing, ih,
      carryOut_pure]

theorem carryOut_openingAll (is : List (Instance σ)) :
    (openingAll t is).carryOut t = openAll t is := by
  induction is with
  | nil => rfl
  | cons i is ih =>
    simp only [openingAll, openAll, carryOut_bind, carryOut_mapFail, carryOut_starting, ih,
      carryOut_pure]

theorem carryOut_passing (is : List (Instance σ)) (tuples : List Json) :
    (passing t is tuples).carryOut t = through t is tuples := by
  induction is generalizing tuples with
  | nil => rfl
  | cons i is ih =>
    simp only [passing, through, carryOut_bind, carryOut_mapFail, carryOut_processingAll, ih,
      carryOut_pure]

theorem carryOut_passingEach (is : List (Instance σ)) (tuples : List Json) :
    (passingEach t is tuples).carryOut t = throughEach t is tuples := by
  induction tuples generalizing is with
  | nil => rfl
  | cons tuple tuples ih =>
    simp only [passingEach, throughEach, carryOut_bind, carryOut_passing, ih, carryOut_pure]

theorem carryOut_driving (is : List (Instance σ)) (batch : List Json) :
    (driving t is batch).carryOut t = drive t is batch := by
  simp only [driving, drive, carryOut_bind, carryOut_openingAll, carryOut_passingEach]

theorem carryOut_closingAll (is : List (Instance σ)) :
    (closingAll t is).carryOut t = closeAll t is := by
  induction is with
  | nil => rfl
  | cons i is ih =>
    simp only [closingAll, closeAll, Instance.closing, Instance.close, carryOut_bind,
      carryOut_ofCall, ih]

theorem carryOut_drivingAndClosing (is : List (Instance σ)) (batch : List Json) :
    (drivingAndClosing t is batch).carryOut t = driveAndClose t is batch := by
  simp only [drivingAndClosing, driveAndClose, carryOut_bind, carryOut_mapFail, carryOut_attempt,
    carryOut_driving, carryOut_closingAll, carryOut_ofExcept]

theorem carryOut_ofStages (stages : List (PlannedStage σ)) (batch : List Json) :
    (ofStages t stages batch).carryOut t = workStages t stages batch := by
  simp only [ofStages, workStages, carryOut_bind, carryOut_mapFail, carryOut_makingAll,
    carryOut_drivingAndClosing]

end Agenda

/-- **To run a worker is to carry out its agenda** on its thread. -/
theorem runWorker_eq {σ : Type} (r : Region σ) (channel : Nat) (payload : String) (home : Thread)
    (batch : List Json) (s : Store) :
    let w := runWorker r channel payload home batch s
    (r.workerAgenda channel payload home batch).carryOut (r.workerThread channel payload home) s =
      (w.ended, w.calls, w.store) := by
  unfold runWorker Region.workerAgenda Region.workerThread
  cases ExecutionContext.decode? payload with
  | none => rfl
  | some c =>
    dsimp only
    rw [Agenda.carryOut_ofStages]

/-! ### What comes of an agenda -/

namespace Agenda

variable {ε α : Type} (A : Nat → Option Reading)

/-- How an agenda ends when the handles answer like that, and the calls it makes. -/
def eval : Agenda ε α → Outcome ε α × List Call
  | ended o => (o, [])
  | call c next => (next.eval.1, c :: next.eval.2)
  | read h next =>
    match A h with
    | some r => (next r).eval
    | none => (.panicked, [])

/-- **Carrying out an agenda evaluates it** and changes no answer. -/
theorem carryOut_eq {A : Nat → Option Reading} {t : Thread} (m : Agenda ε α) {s : Store}
    (hs : s.answers t.current = A) :
    (m.carryOut t s).1 = (m.eval A).1 ∧ (m.carryOut t s).2.1 = (m.eval A).2 ∧
      (m.carryOut t s).2.2.answers t.current = A := by
  induction m generalizing s with
  | ended o => exact ⟨rfl, rfl, hs⟩
  | call c next ih =>
    obtain ⟨he, hc, ha⟩ := ih hs
    exact ⟨he, congrArg (c :: ·) hc, ha⟩
  | read h next ih =>
    have hA : A h = (s.read t.current h).2 := by rw [← hs]; rfl
    have hkept : (s.read t.current h).1.answers t.current = A := (s.answers_read _ h).trans hs
    simp only [carryOut, eval, hA]
    rcases hr : s.read t.current h with ⟨s', _ | r⟩
    · rw [hr] at hkept
      exact ⟨rfl, rfl, hkept⟩
    · rw [hr] at hkept
      exact ih r hkept

end Agenda
end JobParameters
