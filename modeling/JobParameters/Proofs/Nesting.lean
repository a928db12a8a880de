/-
# Contexts that are nested form a stack

On a thread contexts are installed and guards dropped, turn by turn (`GuardedThread.step`), while
a host does other things as well (`Host.guarded_run`). A guard remembers what was installed when
it was made, and nothing else tells which context comes back.

To install a context and then to drop the guard that was made last leaves a thread as it was,
its guards included (`GuardedThread.install_drop`). So if always the last guard is dropped
(`Nested`), a thread is at any time as after the installation of just those contexts whose guards
are alive (`GuardedThread.run_nested`). The last of these is installed, and reading by name and
handles that kept nothing answer from it (`Host.nested_contexts`).
-/
import Mathlib.Data.List.Induction
import JobParameters.Proofs.FirstAnswer

namespace JobParameters

/-! ### Turns of a thread -/

/-- What happens to the contexts of a thread. -/
inductive Turn where
  | install (c : ExecutionContext)
  /-- Drops a guard, called by its place among those that are alive. -/
  | drop (guard : Nat)

/-- A thread with the guards that are alive, in the order in which they were made. -/
structure GuardedThread where
  thread : Thread
  guards : List Guard

namespace GuardedThread

/-- The thread after a turn; nothing happens where there is no such guard. -/
def step (x : GuardedThread) : Turn → GuardedThread
  | .install c =>
    let (t, g) := x.thread.install c
    ⟨t, x.guards ++ [g]⟩
  | .drop j =>
    match x.guards[j]? with
    | some g => ⟨x.thread.drop g, x.guards.eraseIdx j⟩
    | none => x

/-- The thread after turns, one after the other. -/
def run (x : GuardedThread) (ts : List Turn) : GuardedThread := ts.foldl step x

variable (x : GuardedThread)

@[simp] theorem run_append (ts us : List Turn) : x.run (ts ++ us) = (x.run ts).run us :=
  List.foldl_append

/-- To drop the guard that was just made undoes the installation. -/
theorem install_drop (c : ExecutionContext) :
    (x.step (.install c)).step (.drop x.guards.length) = x := by
  have hguard : (x.step (.install c)).guards[x.guards.length]? = some (x.thread.install c).2 := by
    simp [step]
  have hguards : (x.step (.install c)).guards.eraseIdx x.guards.length = x.guards := by
    simp [step, List.eraseIdx_append_of_length_le]
  rw [step.eq_2, hguard]
  dsimp only
  rw [hguards]
  show (⟨(x.thread.install c).1.drop (x.thread.install c).2, x.guards⟩ : GuardedThread) = x
  rw [Thread.drop_install]

/-- After contexts were installed, each has a guard, and the last one is installed. -/
theorem run_installs (cs : List ExecutionContext) :
    (x.run (cs.map .install)).guards.length = x.guards.length + cs.length ∧
      x.guards <+: (x.run (cs.map .install)).guards ∧
      (x.run (cs.map .install)).thread.current = cs.getLast?.or x.thread.current := by
  induction cs using List.reverseRecOn with
  | nil => exact ⟨rfl, List.prefix_refl _, rfl⟩
  | append_singleton cs c ih =>
    obtain ⟨hlength, hprefix, -⟩ := ih
    rw [List.map_append, run_append]
    refine ⟨?_, hprefix.trans (List.prefix_append _ _), ?_⟩
    · simp [run, step] at hlength ⊢
      omega
    · simp [run, step, Thread.install]

end GuardedThread

/-! ### Nested turns -/

/-- The contexts whose guards are alive after a turn; there are older guards before theirs. -/
def Turn.onto (older : Nat) (cs : List ExecutionContext) : Turn → List ExecutionContext
  | .install c => cs ++ [c]
  | .drop j => cs.eraseIdx (j - older)

/-- The contexts that were installed in turns and whose guards are alive after these. -/
def stillOpen (older : Nat) (ts : List Turn) : List ExecutionContext :=
  ts.foldl (Turn.onto older) []

/-- Turns, at some depth, that drop no guard but the one that was made last, and no older one. -/
def Nested (older : Nat) : Nat → List Turn → Prop
  | _, [] => True
  | depth, .install _ :: ts => Nested older (depth + 1) ts
  | 0, .drop _ :: _ => False
  | depth + 1, .drop j :: ts => j = older + depth ∧ Nested older depth ts

section Nested

variable {older depth : Nat} {ts us : List Turn}

@[simp] theorem nested_install {c : ExecutionContext} :
    Nested older depth (.install c :: ts) ↔ Nested older (depth + 1) ts := Iff.rfl

@[simp] theorem not_nested_drop_zero {j : Nat} : ¬ Nested older 0 (.drop j :: ts) := id

@[simp] theorem nested_drop_succ {j : Nat} :
    Nested older (depth + 1) (.drop j :: ts) ↔ j = older + depth ∧ Nested older depth ts := Iff.rfl

theorem Nested.of_prefix (h : Nested older depth us) (hts : ts <+: us) :
    Nested older depth ts := by
  induction us generalizing depth ts with
  | nil =>
    rw [List.prefix_nil.mp hts]
    trivial
  | cons u us ih =>
    rcases List.prefix_cons_iff.mp hts with rfl | ⟨ts, rfl, htail⟩
    · trivial
    · cases u with
      | install c => exact nested_install.mpr (ih (nested_install.mp h) htail)
      | drop j =>
        cases depth with
        | zero => exact (not_nested_drop_zero h).elim
        | succ depth =>
          obtain ⟨hj, h⟩ := nested_drop_succ.mp h
          exact nested_drop_succ.mpr ⟨hj, ih h htail⟩

end Nested

namespace GuardedThread

variable (x : GuardedThread) {cs : List ExecutionContext} {t : Turn} {ts : List Turn}

/-- A nested turn opens one more context, or closes the last one that is open. -/
theorem step_nested (h : Nested x.guards.length cs.length (t :: ts)) :
    (x.run (cs.map .install)).step t = x.run ((t.onto x.guards.length cs).map .install) ∧
      Nested x.guards.length (t.onto x.guards.length cs).length ts := by
  cases t with
  | install c =>
    rw [Turn.onto, List.map_append, run_append, List.length_append, List.length_singleton]
    exact ⟨rfl, nested_install.mp h⟩
  | drop j =>
    rcases List.eq_nil_or_concat cs with rfl | ⟨cs, c, rfl⟩
    · exact (not_nested_drop_zero h).elim
    · rw [List.concat_eq_append, List.length_append, List.length_singleton] at h
      obtain ⟨rfl, hts⟩ := nested_drop_succ.mp h
      have honto : Turn.onto x.guards.length (cs ++ [c]) (.drop (x.guards.length + cs.length)) =
          cs := by
        simp [Turn.onto, List.eraseIdx_append_of_length_le]
      rw [List.concat_eq_append, honto]
      refine ⟨?_, hts⟩
      -- The guard that is dropped is the one of the last context.
      rw [List.map_append, run_append, ← (run_installs x cs).1]
      exact install_drop _ c

/-- Nested turns leave a thread as if what is still open had been installed and nothing else. -/
theorem run_nested (h : Nested x.guards.length 0 ts) :
    x.run ts = x.run ((stillOpen x.guards.length ts).map .install) := by
  suffices hrun : ∀ cs, Nested x.guards.length cs.length ts →
      (x.run (cs.map .install)).run ts =
        x.run ((ts.foldl (Turn.onto x.guards.length) cs).map .install) from hrun [] h
  clear h
  induction ts with
  | nil => exact fun cs _ => rfl
  | cons t ts ih =>
    intro cs h
    obtain ⟨hstep, hts⟩ := step_nested x h
    show ((x.run (cs.map .install)).step t).run ts = _
    rw [hstep]
    exact ih _ hts

end GuardedThread

/-! ### Hosts -/

namespace Host

/-- What an operation does to the contexts of a thread. -/
def Operation.turn? (k : Nat) : Operation → Option Turn
  | .install i c => if i = k then some (.install c) else none
  | .drop i j => if i = k then some (.drop j) else none
  | _ => none

/-- What operations do to the contexts of a thread. -/
def turns (k : Nat) (ops : List Operation) : List Turn := ops.filterMap (Operation.turn? k)

/-- A thread with its guards. -/
def guarded (p : Host) (k : Nat) : GuardedThread := ⟨p.threads k, p.guards k⟩

variable {p : Host} {k : Nat}

theorem guarded_onThread_self (t : Thread) (gs : List Guard) :
    (p.onThread k t gs).guarded k = ⟨t, gs⟩ := by
  simp [guarded, onThread]

theorem guarded_onThread_of_ne {i : Nat} (h : i ≠ k) (t : Thread) (gs : List Guard) :
    (p.onThread i t gs).guarded k = p.guarded k := by
  simp [guarded, onThread, Function.update_of_ne h.symm]

/-- An operation changes a thread by its turn there and in no other way. -/
theorem guarded_step (p : Host) (k : Nat) (op : Operation) :
    (p.step op).guarded k = (p.guarded k).run (op.turn? k).toList := by
  cases op with
  | declare i name default type =>
    rw [step]
    split
    · rfl
    · split <;> rfl
  | commit i b =>
    rw [step]
    split
    · rfl
    · split <;> rfl
  | copy i =>
    rw [step]
    split <;> rfl
  | read i j way =>
    rw [step, read]
    split <;> rfl
  | install i c =>
    rw [step, Operation.turn?]
    by_cases hi : i = k
    · subst hi
      rw [if_pos rfl]
      exact guarded_onThread_self _ _
    · rw [if_neg hi]
      exact guarded_onThread_of_ne hi _ _
  | drop i j =>
    rw [step, Operation.turn?]
    by_cases hi : i = k
    · subst hi
      rw [if_pos rfl]
      have hguards : (p.guarded i).guards = p.guards i := rfl
      show _ = (p.guarded i).step (.drop j)
      rw [GuardedThread.step, hguards]
      cases (p.guards i)[j]? with
      | none => rfl
      | some g => exact guarded_onThread_self _ _
    · rw [if_neg hi]
      split
      · exact guarded_onThread_of_ne hi _ _
      · rfl

theorem guarded_run (p : Host) (k : Nat) (ops : List Operation) :
    (p.run ops).guarded k = (p.guarded k).run (turns k ops) := by
  induction ops generalizing p with
  | nil => rfl
  | cons op ops ih =>
    have hturns : turns k (op :: ops) = (op.turn? k).toList ++ turns k ops := by
      rw [turns, List.filterMap_cons]
      cases op.turn? k <;> rfl
    show ((p.step op).run ops).guarded k = _
    rw [ih, guarded_step, hturns, GuardedThread.run_append]

/-- On a thread all is answered from a context. -/
structure Under (p : Host) (k : Nat) (c : ExecutionContext) : Prop where
  current : p.current k = some c
  resolve : ∀ n t, (p.threads k).resolve n t = c.resolve n t
  resolveAs : ∀ n t, (p.threads k).resolveAs n t = c.resolveAs n t
  resolveScope : ∀ n t, (p.threads k).resolveScope n t = c.resolveScope n t
  /-- A handle that kept nothing has the value of the context, or is told that it has none. -/
  read : ∀ i h, p.store.handles[i]? = some h → h.cached = none → ∀ way,
    (p.read k i way).2 = way.answer ⟨h.spec, (c.value? h.spec.name).elim .absent .resolved⟩

/-- On a thread nothing is known by name, and handles have what is bound. -/
structure Outside (p : Host) (k : Nat) : Prop where
  current : p.current k = none
  resolve : ∀ n t, (p.threads k).resolve n t = .error (.noExecutionContext n)
  resolveAs : ∀ n t, (p.threads k).resolveAs n t = .error (.noExecutionContext n)
  resolveScope : ∀ n t, (p.threads k).resolveScope n t = .error (.noExecutionContext n)
  /-- A handle that kept nothing has the value of its slot, or else the default. -/
  read : ∀ i h, p.store.handles[i]? = some h → h.cached = none → ∀ way,
    (p.read k i way).2 = way.answer ⟨h.spec,
      (p.store.bound? h).elim (h.spec.default.elim .unresolved .fallback) .resolved⟩

/-- On a thread all is answered from this context, or as outside of any. -/
def AnswersFrom (p : Host) (k : Nat) : Option ExecutionContext → Prop
  | some c => p.Under k c
  | none => p.Outside k

/-- All is answered from the context that is installed. -/
theorem answersFrom_current (p : Host) (k : Nat) : p.AnswersFrom k (p.current k) := by
  have hthread : p.threads k = ⟨p.current k⟩ := rfl
  cases hc : p.current k with
  | some c =>
    rw [hc] at hthread
    exact
      { current := hc
        resolve := fun n t => by rw [hthread]; rfl
        resolveAs := fun n t => by rw [hthread]; rfl
        resolveScope := fun n t => by rw [hthread]; rfl
        read := fun i h hh hnew way => by
          rw [read_of_handle hh, hc]
          simp only [Handle.lookup, hnew]
          cases c.value? h.spec.name <;> rfl }
  | none =>
    rw [hc] at hthread
    exact
      { current := hc
        resolve := fun n t => by rw [hthread]; rfl
        resolveAs := fun n t => by rw [hthread]; rfl
        resolveScope := fun n t => by rw [hthread]; rfl
        read := fun i h hh hnew way => by
          rw [read_of_handle hh, hc]
          simp only [Handle.lookup, hnew]
          cases p.store.bound? h <;> cases h.spec.default <;> rfl }

/-- **Nested contexts form a stack.** Take any host, with any context or none on a thread, and
any operations that on this thread always drop the guard that they made last. At every point
the context whose guard is the last one still alive is installed there, or what was installed at
the start if no guard is alive, and reading by name and handles that kept nothing answer from
it. The guards from before the start are there as they were. -/
theorem nested_contexts (p : Host) (k : Nat) (ops : List Operation)
    (h : Nested (p.guards k).length 0 (turns k ops)) (done : List Operation)
    (hdone : done <+: ops) :
    let q := p.run done
    let stack := stillOpen (p.guards k).length (turns k done)
    (q.guards k).length = (p.guards k).length + stack.length ∧
      p.guards k <+: q.guards k ∧
      q.AnswersFrom k (stack.getLast?.or (p.current k)) := by
  intro q stack
  have hnested : Nested (p.guarded k).guards.length 0 (turns k done) :=
    Nested.of_prefix h (hdone.filterMap _)
  have hq : q.guarded k = (p.guarded k).run (stack.map .install) := by
    rw [guarded_run]
    exact GuardedThread.run_nested _ hnested
  obtain ⟨hlength, hprefix, hcurrent⟩ := (p.guarded k).run_installs stack
  rw [← hq] at hlength hprefix hcurrent
  refine ⟨hlength, hprefix, ?_⟩
  rw [← show q.current k = stack.getLast?.or (p.current k) from hcurrent]
  exact answersFrom_current q k

/-- A context with a limit. -/
def limited (n : Int64) : ExecutionContext := ⟨none, none, .ofList [("limit", .integer n)]⟩

/-- Under a limit of 1, installed before, others are installed and taken back, while another
thread does as it likes. -/
theorem nested_contexts_limits :
    let p : Host := { unread with
      threads := fun _ => ⟨some (limited 1)⟩
      guards := fun _ => [⟨none⟩] }
    let ops : List Operation := [.install 3 (limited 2), .install 0 (limited 7),
      .install 3 (limited 3), .drop 3 2, .drop 0 0, .install 3 (limited 4), .drop 3 2, .drop 3 1]
    Nested (p.guards 3).length 0 (turns 3 ops) ∧
      ((p.run (ops.take 3)).threads 3).resolve "limit" none = .ok (.integer 3) ∧
      ((p.run (ops.take 4)).read 3 0 .require).2 = .required (.ok (.integer 2)) ∧
      (p.run ops).current 3 = some (limited 1) := by
  intro p ops
  have hnested : Nested (p.guards 3).length 0 (turns 3 ops) := ⟨rfl, rfl, rfl, trivial⟩
  obtain ⟨-, -, hthree⟩ := nested_contexts p 3 ops hnested (ops.take 3) (List.take_prefix 3 ops)
  obtain ⟨-, -, htwo⟩ := nested_contexts p 3 ops hnested (ops.take 4) (List.take_prefix 4 ops)
  obtain ⟨-, -, hone⟩ := nested_contexts p 3 ops hnested ops (List.prefix_refl ops)
  exact ⟨hnested, Under.resolve hthree "limit" none, Under.read htwo 0 _ rfl rfl .require,
    Under.current hone⟩

end Host
end JobParameters
