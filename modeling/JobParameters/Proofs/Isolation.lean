/-
# Workers are isolated from the defining process

A `Visit` is code at work on one thread of a process: it has the handles of one parameter,
reads them, copies them, reads by name, from the installed context or from one that it kept,
and installs contexts and drops the guards of these.
While a context is installed, such code never comes to a slot: a handle answers from its cache
or from the context (`Handle.lookup_of_seen`), and a context that lacks the name is answered
with the default or an error and not with what is bound. A visit that starts under a context
stays under one, since each guard puts back a context that was installed (`Visit.Inside`).

So what is to be seen of two visits that start alike remains alike, action by action
(`Visit.Alike.step`), whatever the slots, the other handles and the other threads of the two
processes hold (`Visit.isolated`).
-/
import Mathlib.Data.List.Nodup
import Mathlib.Logic.Function.Basic
import JobParameters.Store

namespace JobParameters

/-! ### What is to be seen of a handle -/

namespace Handle

/-- What is to be seen of a handle under a context. -/
def seen (h : Handle) : ParameterSpec × Option Value := (h.spec, h.cached)

variable {g h : Handle}

/-- Under a context a handle answers without regard to what its parameter is bound to. -/
theorem lookup_of_seen (hs : g.seen = h.seen) (c : ExecutionContext) (b b' : Option Value) :
    g.lookup (some c) b = h.lookup (some c) b' := by
  obtain ⟨hspec, hcached⟩ := Prod.mk.inj hs
  unfold lookup
  rw [hspec, hcached]
  cases h.cached <;> rfl

theorem spec_of_seen (hs : g.seen = h.seen) : g.spec = h.spec := (Prod.mk.inj hs).1

theorem seen_keep (hs : g.seen = h.seen) (a : Lookup) : (g.keep a).seen = (h.keep a).seen := by
  cases a with
  | resolved v =>
    have hspec : g.spec = h.spec := spec_of_seen hs
    exact Prod.ext hspec rfl
  | fallback v => exact hs
  | absent => exact hs
  | unresolved => exact hs

theorem seen_copy (hs : g.seen = h.seen) : g.copy.seen = h.copy.seen := by
  have hspec : g.spec = h.spec := spec_of_seen hs
  exact Prod.ext hspec rfl

end Handle

/-! ### Visits -/

/-- The ways to read a handle. -/
inductive Way where
  | value
  | valueAs (type : ParamType)
  | require
  | requireAs (type : ParamType)
  | scope

/-- What code is answered. -/
inductive Answer where
  | value (v : Option Value)
  | valueAs (type : ParamType) (a : Option type.Carrier)
  | required (v : Except ParameterError Value)
  | requiredAs (type : ParamType) (a : Except ParameterError type.Carrier)
  | scope (s : Except ParameterError Scope)
  | done
  /-- There is no such handle or guard. -/
  | nothing

/-- What a reading comes to by a way. -/
def Way.answer (r : Reading) : Way → Answer
  | value => .value r.value?
  | valueAs t => .valueAs t (r.valueAs? t)
  | require => .required r.require
  | requireAs t => .requiredAs t (r.requireAs t)
  | scope => .scope r.scope

/-- Code on a thread of a process: the numbers of the handles it has, the guards of the
contexts it installed, and the contexts it kept to read from. -/
structure Visit where
  store : Store
  threads : Nat → Thread
  thread : Nat
  handles : List Nat
  guards : List Guard
  kept : List ExecutionContext

namespace Visit

/-- Where a name is looked up. -/
inductive Source where
  | installed
  /-- A context that was kept, by its place. -/
  | kept (place : Nat)

/-- What the code does; handles and guards are called by their place among those it has. -/
inductive Action where
  | read (handle : Nat) (way : Way)
  | copy (handle : Nat)
  /-- Keeps the installed context; the name is only for the error without one. -/
  | keep (name : String)
  | resolve (source : Source) (name : String) (type : Option ParamType)
  | resolveAs (source : Source) (name : String) (type : ParamType)
  | resolveScope (source : Source) (name : String) (type : Option ParamType)
  | install (c : ExecutionContext)
  /-- Drops a guard, not only the one that was made last. -/
  | drop (guard : Nat)

/-- The thread that the code runs on. -/
def here (p : Visit) : Thread := p.threads p.thread

/-- A thread with the context of a source. -/
def source? (p : Visit) : Source → Option Thread
  | .installed => some p.here
  | .kept k => (p.kept[k]?).map fun c => ⟨some c⟩

/-- What a source is answered, if there is one. -/
def ask (p : Visit) (s : Source) (answer : Thread → Answer) : Answer :=
  ((p.source? s).map answer).getD .nothing

/-- The visit with its thread and its guards in a new state. -/
def onThread (p : Visit) (t : Thread) (gs : List Guard) : Visit :=
  { p with threads := Function.update p.threads p.thread t, guards := gs }

/-- The visit after an action, and the answer. -/
def step (p : Visit) : Action → Visit × Answer
  | .read k way =>
    match p.handles[k]? with
    | none => (p, .nothing)
    | some i =>
      match p.store.read p.here.current i with
      | (s, some r) => ({ p with store := s }, way.answer r)
      | (s, none) => ({ p with store := s }, .nothing)
  | .copy k =>
    match (p.handles[k]?).bind fun i => p.store.handles[i]? with
    | none => (p, .nothing)
    | some h =>
      let (s, i) := p.store.mint h.copy
      ({ p with store := s, handles := p.handles ++ [i] }, .done)
  | .keep n =>
    match p.here.context n with
    | .error e => (p, .required (.error e))
    | .ok c => ({ p with kept := p.kept ++ [c] }, .done)
  | .resolve src n t => (p, p.ask src fun th => .required (th.resolve n t))
  | .resolveAs src n t => (p, p.ask src fun th => .requiredAs t (th.resolveAs n t))
  | .resolveScope src n t => (p, p.ask src fun th => .scope (th.resolveScope n t))
  | .install c =>
    let (t, g) := p.here.install c
    (p.onThread t (p.guards ++ [g]), .done)
  | .drop k =>
    match p.guards[k]? with
    | none => (p, .nothing)
    | some g => (p.onThread (p.here.drop g) (p.guards.eraseIdx k), .done)

/-- The visit after actions, one after the other, and the answers. -/
def run (p : Visit) : List Action → Visit × List Answer
  | [] => (p, [])
  | a :: as =>
    let (p', answer) := p.step a
    let (p'', answers) := p'.run as
    (p'', answer :: answers)

/-- The caches of the handles that the code has. -/
def caches (p : Visit) : List (Option Value) :=
  p.handles.map fun i => (p.store.handles[i]?).bind Handle.cached

/-! ### Staying under a context -/

/-- A visit under a context, that its guards cannot end; it has each handle once. -/
structure Inside (p : Visit) : Prop where
  current : p.here.current.isSome = true
  previous : ∀ g ∈ p.guards, g.previous.isSome = true
  distinct : p.handles.Nodup
  minted : ∀ i ∈ p.handles, i < p.store.handles.length

variable {p q : Visit}

@[simp] theorem here_onThread (t : Thread) (gs : List Guard) : (p.onThread t gs).here = t := by
  simp [here, onThread]

theorem length_read (s : Store) (current : Option ExecutionContext) (i : Nat) :
    (s.read current i).1.handles.length = s.handles.length := by
  unfold Store.read
  split
  · rfl
  · rw [List.length_set]

/-- Every action keeps a visit under a context. -/
theorem Inside.step (hp : p.Inside) (a : Action) : (p.step a).1.Inside := by
  obtain ⟨hcurrent, hprevious, hdistinct, hminted⟩ := hp
  cases a with
  | read k way =>
    unfold Visit.step
    dsimp only
    split
    · exact ⟨hcurrent, hprevious, hdistinct, hminted⟩
    · next i _ =>
      have hlen := length_read p.store p.here.current i
      split
      · next s r hr =>
        rw [hr] at hlen
        exact ⟨hcurrent, hprevious, hdistinct, fun j hj => hlen ▸ hminted j hj⟩
      · next s hr =>
        rw [hr] at hlen
        exact ⟨hcurrent, hprevious, hdistinct, fun j hj => hlen ▸ hminted j hj⟩
  | copy k =>
    unfold Visit.step
    dsimp only
    split
    · exact ⟨hcurrent, hprevious, hdistinct, hminted⟩
    · next h _ =>
      refine ⟨hcurrent, hprevious, ?_, ?_⟩
      · -- The copy has the next number, which no handle has yet.
        refine List.nodup_append.mpr ⟨hdistinct, List.nodup_singleton _, fun i hi j hj => ?_⟩
        rw [List.mem_singleton.mp hj]
        exact Nat.ne_of_lt (hminted i hi)
      · intro i hi
        simp only [Store.mint, List.length_append, List.length_singleton, List.mem_append,
          List.mem_singleton] at hi ⊢
        rcases hi with hi | rfl
        · exact Nat.lt_succ_of_lt (hminted i hi)
        · exact Nat.lt_succ_self _
  | keep n =>
    unfold Visit.step
    dsimp only
    split
    · exact ⟨hcurrent, hprevious, hdistinct, hminted⟩
    · exact ⟨hcurrent, hprevious, hdistinct, hminted⟩
  | resolve src n t => exact ⟨hcurrent, hprevious, hdistinct, hminted⟩
  | resolveAs src n t => exact ⟨hcurrent, hprevious, hdistinct, hminted⟩
  | resolveScope src n t => exact ⟨hcurrent, hprevious, hdistinct, hminted⟩
  | install c =>
    refine ⟨by simp [Visit.step, Thread.install], fun g hg => ?_, hdistinct, hminted⟩
    rcases List.mem_append.mp hg with hg | hg
    · exact hprevious g hg
    · rw [List.mem_singleton.mp hg]
      exact hcurrent
  | drop k =>
    unfold Visit.step
    dsimp only
    split
    · exact ⟨hcurrent, hprevious, hdistinct, hminted⟩
    · next g hg =>
      refine ⟨?_, fun g' hg' => hprevious g' (List.mem_of_mem_eraseIdx hg'), hdistinct, hminted⟩
      rw [here_onThread]
      exact hprevious g (List.mem_of_getElem? hg)

/-! ### Two visits -/

/-- What is to be seen of the handles that the code has. -/
def views (p : Visit) : List (Option (ParameterSpec × Option Value)) :=
  p.handles.map fun i => (p.store.handles[i]?).map Handle.seen

/-- Two visits that look alike to the code. -/
structure Alike (p q : Visit) : Prop where
  current : p.here.current = q.here.current
  guards : p.guards = q.guards
  kept : p.kept = q.kept
  views : p.views = q.views

theorem getElem?_views (p : Visit) (k : Nat) : p.views[k]? =
    (p.handles[k]?).map fun i => (p.store.handles[i]?).map Handle.seen :=
  List.getElem?_map

/-- A handle that changes is seen at its place and nowhere else. -/
theorem views_set (hp : p.Inside) {k i : Nat} (hk : p.handles[k]? = some i) (h : Handle) :
    views { p with store := { p.store with handles := p.store.handles.set i h } } =
      p.views.set k (some h.seen) := by
  have hi : i < p.store.handles.length := hp.minted i (List.mem_of_getElem? hk)
  refine List.ext_getElem? fun m => ?_
  rw [getElem?_views, List.getElem?_set]
  by_cases hm : k = m
  · subst hm
    have hlt : k < p.views.length := by
      rw [views, List.length_map]
      exact (List.getElem?_eq_some_iff.mp hk).1
    simp [hk, hi, hlt]
  · rw [if_neg hm, getElem?_views]
    dsimp only
    cases hj : p.handles[m]? with
    | none => rfl
    | some j =>
      have hij : i ≠ j := by
        rintro rfl
        exact hm ((List.getElem?_inj (List.getElem?_eq_some_iff.mp hk).1 hp.distinct).mp
          (hk.trans hj.symm))
      rw [Option.map_some, Option.map_some, List.getElem?_set_ne hij]

/-- A handle that is added is seen after the others. -/
theorem views_append (hp : p.Inside) (h : Handle) :
    views { p with
      store := { p.store with handles := p.store.handles ++ [h] }
      handles := p.handles ++ [p.store.handles.length] } = p.views ++ [some h.seen] := by
  rw [views, views, List.map_append]
  congr 1
  · refine List.map_congr_left fun i hi => ?_
    rw [List.getElem?_append_left (hp.minted i hi)]
  · simp

namespace Alike

theorem caches (h : p.Alike q) : p.caches = q.caches := by
  have hcaches : ∀ p : Visit, p.caches = p.views.map fun v => v.bind Prod.snd := by
    intro p
    rw [Visit.caches, Visit.views, List.map_map]
    refine List.map_congr_left fun i _ => ?_
    cases hi : p.store.handles[i]? with
    | none => simp [hi]
    | some h => simp [hi, Handle.seen]
  rw [hcaches, hcaches, h.views]

/-- At one place both visits have handles that look alike, or none. -/
theorem held (h : p.Alike q) (hp : p.Inside) (hq : q.Inside) (k : Nat) :
    (p.handles[k]? = none ∧ q.handles[k]? = none) ∨
      ∃ i j g g', p.handles[k]? = some i ∧ q.handles[k]? = some j ∧
        p.store.handles[i]? = some g ∧ q.store.handles[j]? = some g' ∧ g.seen = g'.seen := by
  have hk : p.views[k]? = q.views[k]? := by rw [h.views]
  rw [getElem?_views, getElem?_views] at hk
  cases hi : p.handles[k]? with
  | none =>
    rw [hi, Option.map_none, eq_comm, Option.map_eq_none_iff] at hk
    exact Or.inl ⟨rfl, hk⟩
  | some i =>
    rw [hi, Option.map_some, eq_comm, Option.map_eq_some_iff] at hk
    obtain ⟨j, hj, hseen⟩ := hk
    have hg := List.getElem?_eq_getElem (hp.minted i (List.mem_of_getElem? hi))
    have hg' := List.getElem?_eq_getElem (hq.minted j (List.mem_of_getElem? hj))
    rw [hg, hg', Option.map_some, Option.map_some, Option.some.injEq] at hseen
    exact Or.inr ⟨i, j, _, _, rfl, hj, hg, hg', hseen.symm⟩

theorem onThread (h : p.Alike q) (t : Thread) (gs : List Guard) :
    (p.onThread t gs).Alike (q.onThread t gs) :=
  ⟨by rw [here_onThread, here_onThread], rfl, h.kept, h.views⟩

theorem here (h : p.Alike q) : p.here = q.here :=
  congrArg Thread.mk h.current

/-- A source answers alike in both. -/
theorem ask (h : p.Alike q) (s : Source) (answer : Thread → Answer) :
    p.ask s answer = q.ask s answer := by
  cases s with
  | installed => simp only [Visit.ask, source?, h.here]
  | kept k => simp only [Visit.ask, source?, h.kept]

/-- A reading is the same in both, and so is what is seen of the handles afterwards. -/
theorem read (h : p.Alike q) (hp : p.Inside) (hq : q.Inside) (k : Nat) (way : Way) :
    (p.step (.read k way)).2 = (q.step (.read k way)).2 ∧
      (p.step (.read k way)).1.Alike (q.step (.read k way)).1 := by
  obtain ⟨hi, hj⟩ | ⟨i, j, g, g', hi, hj, hg, hg', hseen⟩ := h.held hp hq k
  · simp only [Visit.step, hi, hj]
    exact ⟨trivial, h⟩
  · obtain ⟨c, hc⟩ := Option.isSome_iff_exists.mp hp.current
    have hc' : q.here.current = some c := h.current ▸ hc
    have hlookup : g.lookup (some c) (p.store.bound? g) =
        g'.lookup (some c) (q.store.bound? g') :=
      Handle.lookup_of_seen hseen c _ _
    have hspec : g.spec = g'.spec := Handle.spec_of_seen hseen
    simp only [Visit.step, hi, hj, Store.read, hg, hg', hc, hc', hlookup, hspec]
    refine ⟨trivial, h.current, h.guards, h.kept, ?_⟩
    rw [views_set hp hi, views_set hq hj, Handle.seen_keep hseen, h.views]

/-- A copy was never read in either. -/
theorem copy (h : p.Alike q) (hp : p.Inside) (hq : q.Inside) (k : Nat) :
    (p.step (.copy k)).2 = (q.step (.copy k)).2 ∧
      (p.step (.copy k)).1.Alike (q.step (.copy k)).1 := by
  obtain ⟨hi, hj⟩ | ⟨i, j, g, g', hi, hj, hg, hg', hseen⟩ := h.held hp hq k
  · simp only [Visit.step, hi, hj, Option.bind_none]
    exact ⟨trivial, h⟩
  · simp only [Visit.step, hi, hj, hg, hg', Option.bind_some, Store.mint]
    refine ⟨trivial, h.current, h.guards, h.kept, ?_⟩
    rw [views_append hp, views_append hq, Handle.seen_copy hseen, h.views]

/-- Every action is answered alike in both, and leaves them alike. -/
theorem step (h : p.Alike q) (hp : p.Inside) (hq : q.Inside) (a : Action) :
    (p.step a).2 = (q.step a).2 ∧ (p.step a).1.Alike (q.step a).1 := by
  cases a with
  | read k way => exact h.read hp hq k way
  | copy k => exact h.copy hp hq k
  | keep n =>
    simp only [Visit.step, h.here]
    cases q.here.context n with
    | error e => exact ⟨rfl, h⟩
    | ok c => exact ⟨rfl, h.current, h.guards, by rw [h.kept], h.views⟩
  | resolve src n t => exact ⟨h.ask src _, h⟩
  | resolveAs src n t => exact ⟨h.ask src _, h⟩
  | resolveScope src n t => exact ⟨h.ask src _, h⟩
  | install c =>
    simp only [Visit.step, h.here, h.guards]
    exact ⟨trivial, h.onThread _ _⟩
  | drop k =>
    simp only [Visit.step, h.here, h.guards]
    cases q.guards[k]? with
    | none => exact ⟨rfl, h⟩
    | some g => exact ⟨rfl, h.onThread _ _⟩

/-- All actions are answered alike in both, and leave them alike and under a context. -/
theorem run (h : p.Alike q) (hp : p.Inside) (hq : q.Inside) (as : List Action) :
    (p.run as).2 = (q.run as).2 ∧ (p.run as).1.Alike (q.run as).1 ∧ (p.run as).1.Inside := by
  induction as generalizing p q with
  | nil => exact ⟨rfl, h, hp⟩
  | cons a as ih =>
    obtain ⟨hanswer, halike⟩ := h.step hp hq a
    obtain ⟨hanswers, hrest⟩ := ih halike (hp.step a) (hq.step a)
    exact ⟨by simp only [Visit.run, hanswer, hanswers], hrest⟩

end Alike

/-! ### Isolation -/

/-- The start of a visit: a context is installed, none is kept, and there is one handle of a
parameter, which was never read. -/
structure Starts (p : Visit) (c : ExecutionContext) (s : ParameterSpec) : Prop where
  current : p.here.current = some c
  guards : p.guards = []
  kept : p.kept = []
  handle : ∃ i h, p.handles = [i] ∧ p.store.handles[i]? = some h ∧ h.spec = s ∧ h.cached = none

variable {c : ExecutionContext} {s : ParameterSpec}

theorem Starts.inside (hp : p.Starts c s) : p.Inside := by
  obtain ⟨i, h, hi, hh, -, -⟩ := hp.handle
  refine ⟨by rw [hp.current]; rfl, by rw [hp.guards]; nofun, by simp [hi], fun j hj => ?_⟩
  rw [hi, List.mem_singleton] at hj
  subst hj
  exact (List.getElem?_eq_some_iff.mp hh).1

theorem Starts.views (hp : p.Starts c s) : p.views = [some (s, none)] := by
  obtain ⟨i, h, hi, hh, rfl, hnew⟩ := hp.handle
  simp [Visit.views, hi, hh, Handle.seen, hnew]

/-- **Workers are isolated.** Two visits start under one context, each with a handle of one
parameter that was never read; slots, other handles and other threads may hold anything.
Whatever is done, a context stays installed, the same one in both, the answers are the same,
and so are the caches of the handle and its copies in the end. -/
theorem isolated (hp : p.Starts c s) (hq : q.Starts c s) (actions : List Action) :
    (p.run actions).2 = (q.run actions).2 ∧
      (p.run actions).1.caches = (q.run actions).1.caches ∧
      ∃ c', (p.run actions).1.here.current = some c' ∧
        (q.run actions).1.here.current = some c' := by
  have halike : p.Alike q := ⟨hp.current.trans hq.current.symm, hp.guards.trans hq.guards.symm,
    hp.kept.trans hq.kept.symm, hp.views.trans hq.views.symm⟩
  obtain ⟨hanswers, hafter, hinside⟩ := halike.run hp.inside hq.inside actions
  obtain ⟨c', hc'⟩ := Option.isSome_iff_exists.mp hinside.current
  exact ⟨hanswers, hafter.caches, c', hc', hafter.current ▸ hc'⟩

/-- A parameter with a default. -/
def limit : ParameterSpec := ⟨"limit", .integer, some (.integer 5), none⟩

/-- A context that lacks the limit. -/
def nightly : ExecutionContext :=
  ⟨some "nightly", some ⟨"parallel-0", 1⟩, .ofList [("topic", .string "7")]⟩

/-- A visit to the defining process, where the limit is bound and was read before. -/
def inDefining : Visit where
  store := {
    topologies := [⟨"jobs", false, ⟨[⟨limit, some (.integer 9)⟩], by decide⟩⟩]
    handles := [.fresh 0 limit, ⟨0, limit, some (.integer 9)⟩] }
  threads := fun _ => ⟨some nightly⟩
  thread := 0
  handles := [0]
  guards := []
  kept := []

/-- A visit to a process that knows of no topology. -/
def inWorker : Visit where
  store := ⟨[], [⟨7, limit, some (.integer 2)⟩, .fresh 7 limit]⟩
  threads := fun k => if k = 3 then ⟨some nightly⟩ else .idle
  thread := 3
  handles := [1]
  guards := []
  kept := []

/-- The limit is missing, then a copy is read under a context that has it, and keeps it when
that is dropped again. What was kept before still has no limit. -/
theorem isolated_limit :
    let actions : List Action := [.read 0 .value, .read 0 .require, .copy 0, .keep "limit",
      .install { nightly with values := .ofList [("limit", .integer 3)] }, .read 1 .require,
      .resolve (.kept 0) "limit" none, .drop 0, .read 1 .require, .read 0 (.requireAs .float),
      .resolve .installed "topic" (some .integer)]
    inDefining.Starts nightly limit ∧ inWorker.Starts nightly limit ∧
      (inDefining.run actions).2 = [.value (some (.integer 5)),
        .required (.error (.unknown "limit")), .done, .done, .done, .required (.ok (.integer 3)),
        .required (.error (.unknown "limit")), .done, .required (.ok (.integer 3)),
        .requiredAs .float (.error (.unknown "limit")), .required (.ok (.integer 7))] ∧
      (inDefining.run actions).1.caches = [none, some (.integer 3)] ∧
      (inDefining.run actions).2 = (inWorker.run actions).2 ∧
      (inDefining.run actions).1.caches = (inWorker.run actions).1.caches := by
  intro actions
  have hdefining : inDefining.Starts nightly limit :=
    ⟨rfl, rfl, rfl, 0, .fresh 0 limit, rfl, rfl, rfl, rfl⟩
  have hworker : inWorker.Starts nightly limit :=
    ⟨rfl, rfl, rfl, 1, .fresh 7 limit, rfl, rfl, rfl, rfl⟩
  obtain ⟨hanswers, hcaches, -⟩ := isolated hdefining hworker actions
  exact ⟨hdefining, hworker, by rfl, by rfl, hanswers, hcaches⟩

end Visit
end JobParameters
