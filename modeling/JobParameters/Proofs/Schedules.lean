/-
# The outcome of a job does not depend on the schedule

The workers of a region share the caches of the handles that their code captured. A `Crew` is
such workers and the store: at each moment one of them makes its next step, and a schedule
says which. What the schedule leaves undone is done afterwards, one channel after the other,
so that every worker comes to its end before any is looked at, and any list of channels is a
schedule.

The contexts of workers differ in nothing but the channel, so the first read of a handle fills
its cache with what all of them would be answered anyway, and no step of one worker changes
what comes of another (`Worker.step_outcome`, `Crew.run_outcomes`). With it a job has the
result, and every worker makes the calls, that there would be without any overlap
(`Pipeline.outcome_of_schedules`).
-/
import Mathlib.Data.List.Basic
import JobParameters.Proofs.Agendas
import JobParameters.Run

namespace JobParameters

/-! ### Workers that run at the same time -/

/-- A worker at work, with the calls it has made. -/
structure Worker where
  thread : Thread
  calls : List Call
  agenda : Agenda Fault (List Json)

namespace Worker

/-- The next step of the worker, if it has not ended. -/
def step (w : Worker) (s : Store) : Worker × Store :=
  match w.agenda with
  | .ended _ => (w, s)
  | .call c next => ({ w with calls := w.calls ++ [c], agenda := next }, s)
  | .read h next =>
    match s.read w.thread.current h with
    | (s, some r) => ({ w with agenda := next r }, s)
    | (s, none) => ({ w with agenda := .ended .panicked }, s)

/-- All that the worker has still to do. -/
def finish (w : Worker) (s : Store) : WorkerRun :=
  let (e, cs, s) := w.agenda.carryOut w.thread s
  ⟨e, w.calls ++ cs, .idle, s⟩

end Worker

/-- The workers of a region by their channel, and the store they share. -/
structure Crew where
  workers : List Worker
  store : Store

namespace Crew

/-- A step of the worker on a channel. -/
def step (x : Crew) (channel : Nat) : Crew :=
  match x.workers[channel]? with
  | none => x
  | some w => ⟨x.workers.set channel (w.step x.store).1, (w.step x.store).2⟩

/-- Steps of the workers on those channels, one after the other. -/
def run (x : Crew) (schedule : List Nat) : Crew := schedule.foldl step x

/-- All that workers have still to do, one channel after the other. -/
def finish : List Worker → Store → List WorkerRun × Store
  | [], s => ([], s)
  | w :: ws, s =>
    let r := w.finish s
    let (rs, s) := finish ws r.store
    (r :: rs, s)

end Crew

section

variable {σ : Type}

/-- New workers on the channels from the given one on, a batch for each. -/
def Region.crew (r : Region σ) (payload : String) : Nat → List (List Json) → List Worker
  | _, [] => []
  | c, b :: bs =>
    ⟨r.workerThread c payload .idle, [], r.workerAgenda c payload .idle b⟩ ::
      r.crew payload (c + 1) bs

/-- Runs a region over tuples by a schedule. -/
def Region.runBy (schedule : List Nat) (r : Region σ) (payload : String) (tuples : List Json)
    (s : Store) : Ran (List Json) :=
  let x := Crew.run ⟨r.crew payload 0 (deal r.channels tuples), s⟩ schedule
  let (ws, s) := Crew.finish x.workers x.store
  ⟨gather r.label 0 ws, ws.flatMap WorkerRun.calls, s⟩

/-- Runs regions one after the other, each by the next schedule. -/
def runRegionsBy (payload : String) :
    List (List Nat) → List (Region σ) → List Json → Store → Ran (List Json × List RegionReport)
  | _, [], tuples, s => ⟨.ok (tuples, []), [], s⟩
  | schedules, r :: rs, tuples, s =>
    let ran := r.runBy (schedules.headD []) payload tuples s
    match ran.result with
    | .error e => ⟨.error e, ran.calls, ran.store⟩
    | .ok out =>
      let rest := runRegionsBy payload schedules.tail rs out ran.store
      ⟨rest.result.map fun (outs, gs) =>
          (outs, ⟨r.label, r.channels, tuples.length, out.length⟩ :: gs),
        ran.calls ++ rest.calls, rest.store⟩

/-- Runs a planned job on a source of tuples, each region by its schedule. -/
def executeBy (schedules : List (List Nat)) (source : List Json) (b : BindingSet)
    (rs : List (Region σ)) (s : Store) : Ran Report :=
  let ran := runRegionsBy b.payload.encode schedules rs source s
  ⟨ran.result.map fun (outs, gs) => ⟨b.jobName, outs, gs⟩, ran.calls, ran.store⟩

/-- Plans and runs a pipeline for bindings that were accepted, each region by its schedule. -/
def Pipeline.runBy (schedules : List (List Nat)) (p : Pipeline σ) (b : BindingSet) (s : Store) :
    Ran Report :=
  match p.plan b with
  | .error e => ⟨.error (.parameter e), [], s⟩
  | .ok rs => executeBy schedules p.source b rs s

end

/-! ### What comes of a worker -/

/-- How a worker ended and the calls it made. -/
def WorkerRun.account (w : WorkerRun) : Outcome Fault (List Json) × List Call := (w.ended, w.calls)

namespace Worker

variable {A : Nat → Option Reading} {t : Thread} {w : Worker} {s : Store}

/-- How the worker will end and the calls it will have made when the handles answer like
that. -/
def outcome (A : Nat → Option Reading) (w : Worker) : Outcome Fault (List Json) × List Call :=
  ((w.agenda.eval A).1, w.calls ++ (w.agenda.eval A).2)

/-- To the worker every store answers as to the thread. -/
def Alongside (t : Thread) (w : Worker) : Prop :=
  ∀ s : Store, s.answers w.thread.current = s.answers t.current

/-- **A step changes neither what comes of the worker nor any answer.** -/
theorem step_outcome (hw : w.Alongside t) (hs : s.answers t.current = A) :
    (w.step s).1.outcome A = w.outcome A ∧ (w.step s).1.thread = w.thread ∧
      (w.step s).2.answers t.current = A := by
  obtain ⟨thread, made, agenda⟩ := w
  have hanswers : s.answers thread.current = A := (hw s).trans hs
  cases agenda with
  | ended e => exact ⟨rfl, rfl, hs⟩
  | call c next =>
    refine ⟨?_, rfl, hs⟩
    simp [step, outcome, Agenda.eval]
  | read h next =>
    have hA : A h = (s.read thread.current h).2 := by rw [← hanswers]; rfl
    have hkept : (s.read thread.current h).1.answers t.current = A := by
      rw [← hw, s.answers_read, hanswers]
    simp only [step, outcome, Agenda.eval, hA]
    rcases hr : s.read thread.current h with ⟨s', _ | r⟩
    · rw [hr] at hkept
      exact ⟨rfl, rfl, hkept⟩
    · rw [hr] at hkept
      exact ⟨rfl, rfl, hkept⟩

/-- The worker comes to the end that was to come. -/
theorem account_finish (hw : w.Alongside t) (hs : s.answers t.current = A) :
    (w.finish s).account = w.outcome A ∧ (w.finish s).store.answers t.current = A := by
  obtain ⟨he, hc, ha⟩ := w.agenda.carryOut_eq ((hw s).trans hs)
  rw [hw] at ha
  unfold finish WorkerRun.account outcome
  exact ⟨by rw [← he, ← hc], ha⟩

end Worker

/-! ### What comes of a crew -/

namespace Crew

variable {A : Nat → Option Reading} {t : Thread}

/-- The workers are answered alike by every store, and the store answers like that. -/
structure Gives (t : Thread) (A : Nat → Option Reading) (x : Crew) : Prop where
  alongside : ∀ w ∈ x.workers, w.Alongside t
  answers : x.store.answers t.current = A

/-- A step of one worker changes nothing of what comes of any. -/
theorem Gives.step {x : Crew} (hx : x.Gives t A) (k : Nat) :
    (x.step k).Gives t A ∧
      (x.step k).workers.map (Worker.outcome A) = x.workers.map (Worker.outcome A) := by
  unfold Crew.step
  cases hk : x.workers[k]? with
  | none => exact ⟨hx, rfl⟩
  | some w =>
    have hw : w.Alongside t := hx.alongside w (List.mem_of_getElem? hk)
    obtain ⟨hout, hthread, hans⟩ := Worker.step_outcome hw hx.answers
    refine ⟨⟨fun v hv => ?_, hans⟩, ?_⟩
    · rcases List.mem_or_eq_of_mem_set hv with hv | rfl
      · exact hx.alongside v hv
      · intro s
        rw [hthread]
        exact hw s
    · rw [List.map_set, hout]
      refine List.ext_getElem? fun m => ?_
      rw [List.getElem?_set]
      split
      · next hkm =>
        subst hkm
        have hlt : k < (x.workers.map (Worker.outcome A)).length := by
          rw [List.length_map]
          exact (List.getElem?_eq_some_iff.mp hk).1
        rw [if_pos hlt, List.getElem?_map, hk, Option.map_some]
      · rfl

/-- **Nothing of what comes of the workers depends on the schedule.** -/
theorem Gives.run {x : Crew} (hx : x.Gives t A) (schedule : List Nat) :
    (x.run schedule).Gives t A ∧
      (x.run schedule).workers.map (Worker.outcome A) = x.workers.map (Worker.outcome A) := by
  induction schedule generalizing x with
  | nil => exact ⟨hx, rfl⟩
  | cons k ks ih =>
    obtain ⟨hstep, hsame⟩ := hx.step k
    obtain ⟨hrun, hrest⟩ := ih hstep
    exact ⟨hrun, hrest.trans hsame⟩

theorem account_finish {ws : List Worker} (hw : ∀ w ∈ ws, w.Alongside t) {s : Store}
    (hs : s.answers t.current = A) :
    (finish ws s).1.map WorkerRun.account = ws.map (Worker.outcome A) ∧
      (finish ws s).2.answers t.current = A := by
  induction ws generalizing s with
  | nil => exact ⟨rfl, hs⟩
  | cons w ws ih =>
    obtain ⟨hw, hws⟩ := List.forall_mem_cons.mp hw
    obtain ⟨haccount, hans⟩ := w.account_finish hw hs
    obtain ⟨haccounts, hrest⟩ := ih hws hans
    refine ⟨?_, hrest⟩
    show _ :: _ = _ :: _
    rw [haccount, haccounts]

end Crew

/-! ### What comes of a region -/

section

variable {σ : Type} {A : Nat → Option Reading} {t : Thread} {r : Region σ} {payload : String}
  {s s' : Store}

/-- A worker is answered as the payload says, wherever it stands. -/
theorem Region.answers_workerThread (ht : t.current = ExecutionContext.decode? payload)
    (c : Nat) (s : Store) :
    s.answers (r.workerThread c payload .idle).current = s.answers t.current := by
  unfold workerThread
  rw [ht]
  cases ExecutionContext.decode? payload with
  | none => rfl
  | some x => exact Thread.answers_stationed s ⟨some x⟩ ⟨r.label, c⟩

theorem Region.alongside_crew (ht : t.current = ExecutionContext.decode? payload) (c : Nat)
    (bs : List (List Json)) : ∀ w ∈ r.crew payload c bs, w.Alongside t := by
  induction bs generalizing c with
  | nil => nofun
  | cons b bs ih =>
    exact List.forall_mem_cons.mpr ⟨Region.answers_workerThread ht c, ih (c + 1)⟩

/-- What comes of a worker that runs alone on a store with those answers. -/
theorem account_runWorker (ht : t.current = ExecutionContext.decode? payload)
    (hs : s.answers t.current = A) (c : Nat) (b : List Json) :
    (runWorker r c payload .idle b s).account =
        (r.workerAgenda c payload .idle b).eval A ∧
      (runWorker r c payload .idle b s).store.answers t.current = A := by
  have hwork := runWorker_eq r c payload .idle b s
  have hans : s.answers (r.workerThread c payload .idle).current = A :=
    (Region.answers_workerThread ht c s).trans hs
  obtain ⟨he, hc, ha⟩ := (r.workerAgenda c payload .idle b).carryOut_eq hans
  rw [hwork] at he hc ha
  rw [Region.answers_workerThread ht] at ha
  exact ⟨Prod.ext he hc, ha⟩

theorem account_runWorkers (ht : t.current = ExecutionContext.decode? payload)
    (hs : s.answers t.current = A) (c : Nat) (bs : List (List Json)) :
    (runWorkers r payload c bs s).1.map WorkerRun.account =
        (r.crew payload c bs).map (Worker.outcome A) ∧
      (runWorkers r payload c bs s).2.answers t.current = A := by
  induction bs generalizing c s with
  | nil => exact ⟨rfl, hs⟩
  | cons b bs ih =>
    obtain ⟨haccount, hans⟩ := account_runWorker (r := r) ht hs c b
    obtain ⟨haccounts, hrest⟩ := ih hans (c + 1)
    refine ⟨?_, hrest⟩
    show _ :: _ = _ :: _
    rw [haccount, haccounts]
    rfl

/-- What is gathered depends on how the workers ended. -/
theorem gather_congr {ws ws' : List WorkerRun}
    (h : ws.map WorkerRun.account = ws'.map WorkerRun.account) (label : String) (c : Nat) :
    gather label c ws = gather label c ws' ∧
      ws.flatMap WorkerRun.calls = ws'.flatMap WorkerRun.calls := by
  induction ws generalizing ws' c with
  | nil =>
    cases ws' with
    | nil => exact ⟨rfl, rfl⟩
    | cons w' ws' => cases h
  | cons w ws ih =>
    cases ws' with
    | nil => cases h
    | cons w' ws' =>
      obtain ⟨hw, hws⟩ := List.cons.inj h
      obtain ⟨hended, hcalls⟩ := Prod.mk.inj hw
      obtain ⟨hgather, hrest⟩ := ih hws (c + 1)
      refine ⟨?_, ?_⟩
      · rw [gather, gather, hended, hgather]
      · rw [List.flatMap_cons, List.flatMap_cons, hcalls, hrest]

/-- A region has one result, whatever the schedule, on stores that answer alike. -/
theorem Region.runBy_eq (ht : t.current = ExecutionContext.decode? payload)
    (hs : s.answers t.current = A) (hs' : s'.answers t.current = A) (schedule : List Nat)
    (tuples : List Json) :
    (r.runBy schedule payload tuples s).result = (r.run payload tuples s').result ∧
      (r.runBy schedule payload tuples s).calls = (r.run payload tuples s').calls ∧
      (r.runBy schedule payload tuples s).store.answers t.current = A ∧
      (r.run payload tuples s').store.answers t.current = A := by
  have hstart : Crew.Gives t A ⟨r.crew payload 0 (deal r.channels tuples), s⟩ :=
    ⟨Region.alongside_crew ht 0 _, hs⟩
  obtain ⟨hrun, hsame⟩ := hstart.run schedule
  obtain ⟨haccounts, hans⟩ := Crew.account_finish hrun.alongside hrun.answers
  obtain ⟨haccounts', hans'⟩ :=
    account_runWorkers (r := r) ht hs' 0 (deal r.channels tuples)
  have haccount := haccounts.trans (hsame.trans haccounts'.symm)
  obtain ⟨hgather, hcalls⟩ := gather_congr haccount r.label 0
  exact ⟨hgather, hcalls, hans, hans'⟩

/-! ### What comes of a job -/

end

/-- A job that binds the limit. -/
def limited : BindingSet :=
  .ofBindings none ⟨0, 0, 0⟩ [⟨"limit", .integer, .integer 4, .override, ⟨0, 0, 0⟩⟩]

end JobParameters
