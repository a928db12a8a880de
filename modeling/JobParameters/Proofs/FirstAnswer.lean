/-
# A handle resolves at most once

A `Host` has topologies, handles and threads. On any thread contexts are installed and guards
dropped, parameters are declared and bound, handles are copied, and handles are read, each in
one of five ways (`Way.perform`). However it is read, a handle looks for a value once and keeps
what it finds in a context or a slot, unless it has kept something before; a default is not
kept (`Way.run_perform`).

So an operation changes a handle only by a read that finds something (`Host.handle_step`), and
after a run a handle keeps what the first such read found (`Host.handle_run`), which answers
all reads from there on (`Host.resolves_once`). The ways to read a handle agree on what they
give (`Reading.value?_of_require`, `Reading.valueAs?_eq_some_iff`).
-/
import JobParameters.Proofs.Isolation

namespace JobParameters

/-! ### The ways to read -/

namespace Reading

variable {r : Reading} {v : Value} {n : String}

theorem value?_of_require (h : r.require = .ok v) : r.value? = some v := by
  unfold require Lookup.require at h
  unfold value? Lookup.value?
  cases ha : r.answer <;> rw [ha] at h <;> cases h
  · rfl
  · rfl

theorem answer_of_unknown (h : r.require = .error (.unknown n)) : r.answer = .absent := by
  unfold require Lookup.require at h
  cases ha : r.answer <;> rw [ha] at h <;> cases h

theorem answer_of_unresolved (h : r.require = .error (.unresolved n)) :
    r.answer = .unresolved := by
  unfold require Lookup.require at h
  cases ha : r.answer <;> rw [ha] at h <;> cases h

/-- A typed reading gives what the value is coerced to. -/
theorem valueAs?_eq_some_iff {t : ParamType} {a : t.Carrier} :
    r.valueAs? t = some a ↔
      ∃ v, r.value? = some v ∧ coerce r.spec.name v t = .ok (t.inject a) := by
  unfold valueAs?
  cases r.value? with
  | none => simp
  | some v =>
    simp only [Option.some.injEq, exists_eq_left', ← typed_eq_ok_iff]
    cases typed r.spec.name v t <;> simp [Except.toOption]

end Reading

namespace Handle

variable {h : Handle} {current : Option ExecutionContext} {bound : Option Value} {v : Value}

/-- What a handle finds: a value of the context, or without one that of the slot. -/
def found? (h : Handle) (current : Option ExecutionContext) (bound : Option Value) :
    Option Value :=
  match current with
  | some c => c.value? h.spec.name
  | none => bound

/-- The handle that keeps what it kept before, or else what is found. -/
def keeping (h : Handle) (found : Option Value) : Handle :=
  { h with cached := h.cached.or found }

/-- The answer is a value that was kept or is found, else it tells why there is none. -/
theorem lookup_eq (h : Handle) (current : Option ExecutionContext) (bound : Option Value) :
    h.lookup current bound =
      match h.cached.or (h.found? current bound), current, h.spec.default with
      | some v, _, _ => .resolved v
      | none, some _, _ => .absent
      | none, none, some v => .fallback v
      | none, none, none => .unresolved := by
  unfold lookup found?
  cases h.cached with
  | some v => rfl
  | none =>
    cases current with
    | some c =>
      dsimp only
      cases c.value? h.spec.name <;> rfl
    | none =>
      cases bound with
      | some v => rfl
      | none =>
        dsimp only
        cases h.spec.default <;> rfl

theorem lookup_eq_resolved_iff :
    h.lookup current bound = .resolved v ↔ h.cached.or (h.found? current bound) = some v := by
  rw [lookup_eq]
  cases h.cached.or (h.found? current bound) with
  | some w => simp
  | none => cases current <;> cases h.spec.default <;> simp

theorem lookup_eq_unresolved_iff : h.lookup current bound = .unresolved ↔
    current = none ∧ h.cached = none ∧ bound = none ∧ h.spec.default = none := by
  have hnone : h.cached.or (h.found? none bound) = none ↔ h.cached = none ∧ bound = none :=
    Option.or_eq_none_iff
  rw [lookup_eq]
  cases current with
  | some c => cases h.cached.or (h.found? (some c) bound) <;> simp
  | none =>
    rw [← and_assoc (c := h.spec.default = none), ← hnone]
    cases h.cached.or (h.found? none bound) with
    | some w => simp
    | none => cases h.spec.default <;> simp

/-- A read keeps what it finds and nothing else. -/
theorem keep_lookup (h : Handle) (current : Option ExecutionContext) (bound : Option Value) :
    h.keep (h.lookup current bound) = h.keeping (h.found? current bound) := by
  rw [lookup_eq, keeping]
  cases hv : h.cached.or (h.found? current bound) with
  | some v => rfl
  | none =>
    have hc : h.cached = none := (Option.or_eq_none_iff.mp hv).1
    have hh : h = { h with cached := none } := by rw [← hc]
    cases current <;> cases h.spec.default <;> exact hh

/-- Keeps a value, unless there is one, and gives the one that is kept. -/
def getOrKeep (v : Value) : StateM Handle Value :=
  modifyGet fun h =>
    match h.cached with
    | some w => (w, h)
    | none => (v, { h with cached := some v })

/-- A look for a value as it is carried out. -/
def look (current : Option ExecutionContext) (bound : Option Value) : StateM Handle Lookup := do
  let h ← get
  match h.cached, current, bound with
  | some v, _, _ => return .resolved v
  | none, some c, _ =>
    match c.value? h.spec.name with
    | some v => return .resolved (← getOrKeep v)
    | none => return .absent
  | none, none, some v => return .resolved (← getOrKeep v)
  | none, none, none =>
    match h.spec.default with
    | some v => return .fallback v
    | none => return .unresolved

theorem run_look (h : Handle) (current : Option ExecutionContext) (bound : Option Value) :
    (look current bound).run h =
      (h.lookup current bound, h.keep (h.lookup current bound)) := by
  obtain ⟨k, s, cached⟩ := h
  cases cached with
  | some v => rfl
  | none =>
    cases current with
    | some c =>
      show (match c.value? s.name with
        | some v => _
        | none => _ : StateM Handle Lookup).run _ = _
      unfold lookup
      dsimp only
      cases c.value? s.name <;> rfl
    | none =>
      cases bound with
      | some v => rfl
      | none =>
        obtain ⟨n, t, default, description⟩ := s
        cases default <;> rfl

/-- The value, the default standing in where a context lacks the name. -/
def value (current : Option ExecutionContext) (bound : Option Value) :
    StateM Handle (Option Value) := do
  match ← look current bound with
  | .resolved v => return some v
  | .fallback v => return some v
  | .absent => return (← get).spec.default
  | .unresolved => return none

/-- The value, or why there is none. -/
def require (current : Option ExecutionContext) (bound : Option Value) :
    StateM Handle (Except ParameterError Value) := do
  match ← look current bound with
  | .resolved v => return .ok v
  | .fallback v => return .ok v
  | .absent => return .error (.unknown (← get).spec.name)
  | .unresolved => return .error (.unresolved (← get).spec.name)

theorem run_value (h : Handle) (current : Option ExecutionContext) (bound : Option Value) :
    (value current bound).run h =
      ((h.lookup current bound).value? h.spec.default, h.keep (h.lookup current bound)) := by
  rw [value, StateT.run_bind, run_look]
  cases h.lookup current bound <;> rfl

theorem run_require (h : Handle) (current : Option ExecutionContext) (bound : Option Value) :
    (require current bound).run h =
      ((h.lookup current bound).require h.spec.name, h.keep (h.lookup current bound)) := by
  rw [require, StateT.run_bind, run_look]
  cases h.lookup current bound <;> rfl

end Handle

/-- A read as it is carried out. -/
def Way.perform (current : Option ExecutionContext) (bound : Option Value) :
    Way → StateM Handle Answer
  | .value => return .value (← Handle.value current bound)
  | .valueAs t => do
    match ← Handle.value current bound with
    | none => return .valueAs t none
    | some v => return .valueAs t (typed (← get).spec.name v t).toOption
  | .require => return .required (← Handle.require current bound)
  | .requireAs t => do
    match ← Handle.require current bound with
    | .error e => return .requiredAs t (.error e)
    | .ok v => return .requiredAs t (typed (← get).spec.name v t)
  | .scope => do
    match ← Handle.require current bound with
    | .error e => return .scope (.error e)
    | .ok v => return .scope (.ok ⟨(← get).spec.name, v⟩)

/-- **A read**, in whatever way, answers what was looked up and keeps what was found. -/
theorem Way.run_perform (way : Way) (h : Handle) (current : Option ExecutionContext)
    (bound : Option Value) : (way.perform current bound).run h =
      (way.answer ⟨h.spec, h.lookup current bound⟩, h.keeping (h.found? current bound)) := by
  rw [← Handle.keep_lookup]
  cases way with
  | value =>
    rw [perform, StateT.run_bind, Handle.run_value]
    rfl
  | require =>
    rw [perform, StateT.run_bind, Handle.run_require]
    rfl
  | valueAs t =>
    rw [perform, StateT.run_bind, Handle.run_value]
    cases h.lookup current bound with
    | absent =>
      -- The default that stands in is that of the handle.
      obtain ⟨k, ⟨n, type, default, description⟩, cached⟩ := h
      cases default <;> rfl
    | _ => rfl
  | requireAs t =>
    rw [perform, StateT.run_bind, Handle.run_require]
    cases h.lookup current bound <;> rfl
  | scope =>
    rw [perform, StateT.run_bind, Handle.run_require]
    cases h.lookup current bound <;> rfl

/-! ### Hosts -/

/-- A process: its topologies and handles, and on each thread what is installed and the
guards of it. -/
structure Host where
  store : Store
  threads : Nat → Thread
  guards : Nat → List Guard

namespace Host

/-- What can happen. -/
inductive Operation where
  /-- Declares a parameter of a topology, with a handle. -/
  | declare (topology : Nat) (name : String) (default : Option Value) (type : Option ParamType)
  | commit (topology : Nat) (b : BindingSet)
  | install (thread : Nat) (c : ExecutionContext)
  /-- Drops a guard, not only the one that was made last. -/
  | drop (thread guard : Nat)
  | copy (handle : Nat)
  | read (thread handle : Nat) (way : Way)

/-- The context that is installed on a thread. -/
def current (p : Host) (thread : Nat) : Option ExecutionContext := (p.threads thread).current

/-- What a handle finds on a thread. -/
def found? (p : Host) (thread : Nat) (h : Handle) : Option Value :=
  h.found? (p.current thread) (p.store.bound? h)

/-- The host with a thread and its guards in a new state. -/
def onThread (p : Host) (k : Nat) (t : Thread) (gs : List Guard) : Host :=
  { p with threads := Function.update p.threads k t, guards := Function.update p.guards k gs }

/-- The host with one more handle. -/
def mint (p : Host) (h : Handle) : Host := { p with store := (p.store.mint h).1 }

/-- The host with a topology in a new state. -/
def setTopology (p : Host) (k : Nat) (t : Topology) : Host :=
  { p with store := p.store.setTopology k t }

/-- The host with a handle in a new state. -/
def setHandle (p : Host) (i : Nat) (h : Handle) : Host :=
  { p with store := { p.store with handles := p.store.handles.set i h } }

/-- Reads a handle: the host afterwards, and the answer. -/
def read (p : Host) (thread i : Nat) (way : Way) : Host × Answer :=
  match p.store.handles[i]? with
  | none => (p, .nothing)
  | some h =>
    let (answer, h) := (way.perform (p.current thread) (p.store.bound? h)).run h
    (p.setHandle i h, answer)

/-- The host after an operation; nothing happens where something is not there, or refused. -/
def step (p : Host) : Operation → Host
  | .declare k name default type =>
    match p.store.topologies[k]? with
    | none => p
    | some t =>
      match t.declare name default type with
      | .ok (t, s) => (p.setTopology k t).mint (.fresh k s)
      | .error _ => p
  | .commit k b =>
    match p.store.topologies[k]? with
    | none => p
    | some t =>
      match t.commit b with
      | .ok (t, _) => p.setTopology k t
      | .error _ => p
  | .install k c =>
    let (t, g) := (p.threads k).install c
    p.onThread k t (p.guards k ++ [g])
  | .drop k j =>
    match (p.guards k)[j]? with
    | some g => p.onThread k ((p.threads k).drop g) ((p.guards k).eraseIdx j)
    | none => p
  | .copy i =>
    match p.store.handles[i]? with
    | some h => p.mint h.copy
    | none => p
  | .read k i way => (p.read k i way).1

/-- The host after operations, one after the other. -/
def run (p : Host) (ops : List Operation) : Host := ops.foldl step p

/-- What an operation offers to a handle: what is found, if it is a read of it. -/
def offered? (p : Host) (i : Nat) : Operation → Option Value
  | .read k j _ => if j = i then (p.store.handles[i]?).bind (p.found? k) else none
  | _ => none

/-- What the first read of a handle that found something has found. -/
def first? (p : Host) (i : Nat) : List Operation → Option Value
  | [] => none
  | op :: ops => (p.offered? i op).or ((p.step op).first? i ops)

variable {p : Host} {i k : Nat} {h : Handle}

theorem read_of_handle (hh : p.store.handles[i]? = some h) (k : Nat) (way : Way) :
    p.read k i way = (p.setHandle i (h.keeping (p.found? k h)),
      way.answer ⟨h.spec, h.lookup (p.current k) (p.store.bound? h)⟩) := by
  unfold read
  rw [hh]
  dsimp only
  rw [Way.run_perform]
  rfl

theorem setHandle_self (hh : p.store.handles[i]? = some h) : p.setHandle i h = p := by
  obtain ⟨hi, rfl⟩ := List.getElem?_eq_some_iff.mp hh
  simp [setHandle]

/-- A read that has no more to keep changes nothing. -/
theorem read_eq_self (hh : p.store.handles[i]? = some h)
    (hkept : h.cached.or (p.found? k h) = h.cached) (way : Way) : (p.read k i way).1 = p := by
  have hkeeping : h.keeping (p.found? k h) = h := by rw [Handle.keeping, hkept]
  rw [read_of_handle hh, hkeeping]
  exact setHandle_self hh

/-- A value that is kept or found is the answer. -/
theorem answer_of_found (hh : p.store.handles[i]? = some h) {v : Value}
    (hv : h.cached.or (p.found? k h) = some v) (way : Way) :
    (p.read k i way).2 = way.answer ⟨h.spec, .resolved v⟩ := by
  rw [read_of_handle hh, Handle.lookup_eq_resolved_iff.mpr hv]

theorem handle_mint (hh : p.store.handles[i]? = some h) (g : Handle) :
    (p.mint g).store.handles[i]? = some h := by
  obtain ⟨hi, -⟩ := List.getElem?_eq_some_iff.mp hh
  exact (List.getElem?_append_left hi).trans hh

/-- An operation changes a handle by what it offers and in no other way. -/
theorem handle_step (hh : p.store.handles[i]? = some h) (op : Operation) :
    (p.step op).store.handles[i]? = some (h.keeping (p.offered? i op)) := by
  have hnone : h.keeping none = h := by simp [Handle.keeping]
  cases op with
  | declare k name default type =>
    simp only [offered?, hnone, step]
    split
    · exact hh
    · split
      · next t s _ => exact handle_mint (p := p.setTopology k t) hh _
      · exact hh
  | commit k b =>
    simp only [offered?, hnone, step]
    split
    · exact hh
    · split
      · exact hh
      · exact hh
  | install k c =>
    simp only [offered?, hnone, step]
    exact hh
  | drop k j =>
    simp only [offered?, hnone, step]
    split
    · exact hh
    · exact hh
  | copy j =>
    simp only [offered?, hnone, step]
    split
    · exact handle_mint hh _
    · exact hh
  | read k j way =>
    rw [offered?, step]
    -- A read of another handle writes at another place.
    by_cases hj : j = i
    · subst hj
      obtain ⟨hi, -⟩ := List.getElem?_eq_some_iff.mp hh
      rw [if_pos rfl, hh, read_of_handle hh]
      exact List.getElem?_set_self hi
    · rw [if_neg hj, hnone]
      cases hg : p.store.handles[j]? with
      | none =>
        simp only [read, hg]
        exact hh
      | some g =>
        rw [read_of_handle hg]
        exact (List.getElem?_set_ne hj).trans hh

/-- After a run a handle keeps what it kept before, or else what was found first. -/
theorem handle_run (hh : p.store.handles[i]? = some h) (ops : List Operation) :
    (p.run ops).store.handles[i]? = some (h.keeping (p.first? i ops)) := by
  induction ops generalizing p h with
  | nil => simpa [run, first?, Handle.keeping] using hh
  | cons op ops ih =>
    have hrun : p.run (op :: ops) = (p.step op).run ops := rfl
    rw [hrun, ih (handle_step hh op)]
    simp [first?, Handle.keeping, Option.or_assoc]

theorem first?_append (p : Host) (i : Nat) (ops later : List Operation) :
    p.first? i (ops ++ later) = (p.first? i ops).or ((p.run ops).first? i later) := by
  induction ops generalizing p with
  | nil => simp [first?, run]
  | cons op ops ih =>
    have hrun : p.run (op :: ops) = (p.step op).run ops := rfl
    rw [List.cons_append, first?, first?, hrun, ih, Option.or_assoc]

/-- The ways to read a handle give the parts of one reading and keep the same. -/
structure Agree (p : Host) (k i : Nat) (h : Handle) (r : Reading) : Prop where
  answers : ∀ way, (p.read k i way).2 = way.answer r
  keeps : ∀ way way', (p.read k i way).1 = (p.read k i way').1
  /-- A default is not kept, nor that there is no value. -/
  unkept : (∀ v, r.answer ≠ .resolved v) → ∀ way, (p.read k i way).1 = p
  of_ok : ∀ v, r.require = .ok v → r.value? = some v
  of_unknown : ∀ n, r.require = .error (.unknown n) → r.value? = h.spec.default
  of_unresolved : ∀ n, r.require = .error (.unresolved n) → r.value? = none
  unresolved_iff : (∃ n, r.require = .error (.unresolved n)) ↔
    p.current k = none ∧ h.cached = none ∧ p.store.bound? h = none ∧ h.spec.default = none
  valueAs_iff : ∀ t a, r.valueAs? t = some a ↔
    ∃ v, r.value? = some v ∧ coerce h.spec.name v t = .ok (t.inject a)

theorem agree (hh : p.store.handles[i]? = some h) (k : Nat) :
    p.Agree k i h ⟨h.spec, h.lookup (p.current k) (p.store.bound? h)⟩ where
  answers way := by rw [read_of_handle hh]
  keeps way way' := by rw [read_of_handle hh, read_of_handle hh]
  unkept hne way := by
    have hnone : h.cached.or (p.found? k h) = none :=
      Option.eq_none_iff_forall_ne_some.mpr fun v hv => hne v (Handle.lookup_eq_resolved_iff.mpr hv)
    exact read_eq_self hh (hnone.trans (Option.or_eq_none_iff.mp hnone).1.symm) way
  of_ok v := Reading.value?_of_require
  of_unknown n hn := by
    rw [Reading.value?, Reading.answer_of_unknown hn]
    rfl
  of_unresolved n hn := by
    rw [Reading.value?, Reading.answer_of_unresolved hn]
    rfl
  unresolved_iff := by
    rw [← Handle.lookup_eq_unresolved_iff]
    constructor
    · rintro ⟨n, hn⟩
      exact Reading.answer_of_unresolved hn
    · intro hl
      refine ⟨h.spec.name, ?_⟩
      rw [Reading.require, hl]
      rfl
  valueAs_iff t a := Reading.valueAs?_eq_some_iff

/-- **A handle resolves at most once.** Take any run on any host. A handle that kept nothing
at the start keeps what its first read that found something has found. From that read on
every read, on any thread and in any way, gives that value and changes nothing; until then
the handle keeps nothing, and a read that finds nothing changes nothing. A copy keeps
nothing, whatever its original keeps. At any time the ways to read a handle agree. -/
theorem resolves_once (p : Host) (ops : List Operation) :
    let q := p.run ops
    (∀ i h, p.store.handles[i]? = some h → h.cached = none →
      q.store.handles[i]? = some { h with cached := p.first? i ops } ∧
      (∀ v, p.first? i ops = some v → ∀ k way,
        q.read k i way = (q, way.answer ⟨h.spec, .resolved v⟩)) ∧
      (p.first? i ops = none → ∀ k way,
        (q.found? k h = none → (q.read k i way).1 = q) ∧
        ∀ v, q.found? k h = some v →
          (q.read k i way).2 = way.answer ⟨h.spec, .resolved v⟩ ∧
          ∀ later, p.first? i (ops ++ .read k i way :: later) = some v)) ∧
    ∀ j g, q.store.handles[j]? = some g →
      q.step (.copy j) = q.mint (.fresh g.topology g.spec) ∧ ∀ k, ∃ r, q.Agree k j g r := by
  intro q
  refine ⟨fun i h hh hnew => ?_, fun j g hg => ⟨?_, fun k => ⟨_, agree hg k⟩⟩⟩
  · have hq : q.store.handles[i]? = some { h with cached := p.first? i ops } := by
      rw [handle_run hh ops, Handle.keeping, hnew, Option.none_or]
    refine ⟨hq, ?_, ?_⟩
    · intro v hv k way
      rw [hv] at hq
      exact Prod.ext (read_eq_self hq rfl way) (answer_of_found hq rfl way)
    · intro hnone k way
      rw [hnone] at hq
      refine ⟨fun hfound => read_eq_self hq hfound way,
        fun v hfound => ⟨answer_of_found hq hfound way, fun later => ?_⟩⟩
      have hoffered : q.offered? i (.read k i way) = some v := by
        rw [offered?, if_pos rfl, hq]
        exact hfound
      rw [first?_append, hnone, Option.none_or, first?, hoffered, Option.some_or]
  · rw [step, hg]
    rfl

/-- A limit, 5 if nothing else is known. -/
def limit : ParameterSpec := ⟨"limit", .integer, some (.integer 5), none⟩

/-- A host with a handle of the limit that was never read. -/
def unread : Host where
  store := ⟨[⟨"jobs", false, ⟨[⟨limit, none⟩], by decide⟩⟩], [.fresh 0 limit]⟩
  threads := fun _ => .idle
  guards := fun _ => []

/-- The default is read, the limit is missing in a context, then it is bound and read, and
another limit is installed. -/
def firstBound : List Operation :=
  let context (vs : List (String × Value)) : ExecutionContext := ⟨none, none, .ofList vs⟩
  [.read 0 0 .value, .install 3 (context []), .read 3 0 .require, .drop 3 0,
    .commit 0 (.ofValues none ⟨0, 0, 0⟩ [("limit", .integer 9)]), .read 1 0 (.valueAs .string),
    .install 3 (context [("limit", .integer 2)])]

/-- What was bound is what the handle still gives, while a copy gives the other limit. -/
theorem resolves_once_limit :
    let q := unread.run firstBound
    (unread.store.handles[0]? = some (.fresh 0 limit) ∧ (Handle.fresh 0 limit).cached = none) ∧
      unread.first? 0 firstBound = some (.integer 9) ∧
      (∀ k, q.read k 0 .require = (q, .required (.ok (.integer 9)))) ∧
      ((q.step (.copy 0)).read 3 1 .require).2 = .required (.ok (.integer 2)) := by
  intro q
  have hfirst : unread.first? 0 firstBound = some (.integer 9) := by rfl
  obtain ⟨hkept, hcopies⟩ := resolves_once unread firstBound
  obtain ⟨hq, hlater, -⟩ := hkept 0 (.fresh 0 limit) rfl rfl
  refine ⟨⟨rfl, rfl⟩, hfirst, fun k => hlater _ hfirst k .require, ?_⟩
  rw [(hcopies 0 _ hq).1]
  rfl

end Host
end JobParameters
