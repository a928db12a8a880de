/-
# Which context comes back

Guards can be dropped in any order, and each puts back what was installed when it was made. To
tell two installations of one context apart, an `InstallLog` numbers them. It has for each the
one that it covered, which was in force when it was made, and it shows what a thread has
(`InstallLog.shown_run`).

When a guard is dropped, what its installation covered is in force, though the guard of that may
have been dropped before. So an installation whose guard was dropped is never in force again
exactly if no guard is dropped before that of an installation which covered its own
(`InstallLog.proper_iff_inOrder`), as it is with nested contexts
(`InstallLog.inOrder_of_nested`). If then no guard is alive, what was there at the start is in
force.
-/
import Mathlib.Data.List.Perm.Basic
import JobParameters.Proofs.Nesting

namespace JobParameters

/-- A context that was installed, and over which installation, unless it was over what was there
at the start. -/
structure Installation where
  context : ExecutionContext
  covered : Option Nat

/-- The installations of a thread by number, which one is in force, if any is, those whose
guards are alive, in the order of the guards, and those whose guards were dropped, the last one
at the end. -/
structure InstallLog where
  made : List Installation
  inForce : Option Nat
  alive : List Nat
  dropped : List Nat

namespace InstallLog

/-- Nothing was installed yet. -/
def empty : InstallLog := ⟨[], none, [], []⟩

/-- What an installation covered. -/
def covered? (l : InstallLog) (n : Nat) : Option Nat := (l.made[n]?).bind Installation.covered

/-- The log after a turn. -/
def step (l : InstallLog) : Turn → InstallLog
  | .install c =>
    { l with
      made := l.made ++ [⟨c, l.inForce⟩]
      inForce := some l.made.length
      alive := l.alive ++ [l.made.length] }
  | .drop j =>
    match l.alive[j]? with
    | some n =>
      { l with
        inForce := l.covered? n
        alive := l.alive.eraseIdx j
        dropped := l.dropped ++ [n] }
    | none => l

/-- The log after turns, one after the other. -/
def run (l : InstallLog) (ts : List Turn) : InstallLog := ts.foldl step l

/-- The context of an installation, or what was there at the start. -/
def context? (l : InstallLog) (t : Thread) : Option Nat → Option ExecutionContext
  | some n => (l.made[n]?).map Installation.context
  | none => t.current

/-- What the thread has that was like this at the start. -/
def shown (l : InstallLog) (t : Thread) : GuardedThread where
  thread := ⟨l.context? t l.inForce⟩
  guards := l.alive.map fun n => ⟨l.context? t (l.covered? n)⟩

/-- No installation is in force whose guard was dropped. -/
def Proper (l : InstallLog) : Prop := ∀ n ∈ l.dropped, l.inForce ≠ some n

/-- No guard was dropped before that of an installation which covered its own. -/
def InOrder (l : InstallLog) : Prop := l.dropped.Pairwise fun m n => l.covered? n ≠ some m

variable {l : InstallLog}

@[simp] theorem run_concat (l : InstallLog) (ts : List Turn) (t : Turn) :
    l.run (ts ++ [t]) = (l.run ts).step t := by
  simp [run]

/-- A drop takes one of the guards that are alive, or there is no such guard. -/
theorem drop_cases (l : InstallLog) (j : Nat) :
    (∃ n, l.alive[j]? = some n ∧ l.step (.drop j) = { l with
      inForce := l.covered? n
      alive := l.alive.eraseIdx j
      dropped := l.dropped ++ [n] }) ∨
    l.alive[j]? = none ∧ l.step (.drop j) = l := by
  unfold step
  dsimp only
  split
  · next n hn => exact Or.inl ⟨n, hn, rfl⟩
  · next hn => exact Or.inr ⟨hn, rfl⟩

/-! ### The numbers -/

theorem covered?_install_of_lt (c : ExecutionContext) {n : Nat} (h : n < l.made.length) :
    (l.step (.install c)).covered? n = l.covered? n := by
  rw [covered?, step, List.getElem?_append_left h]
  rfl

theorem covered?_install_self (c : ExecutionContext) :
    (l.step (.install c)).covered? l.made.length = l.inForce := by
  simp [covered?, step]

/-- Every installation has its guard alive or dropped, and covered one that was made before. -/
structure Sound (l : InstallLog) : Prop where
  counted : (l.alive ++ l.dropped).Perm (List.range l.made.length)
  covered : ∀ m n, l.covered? n = some m → m < n
  inForce : ∀ n, l.inForce = some n → n < l.made.length

theorem Sound.lt (h : l.Sound) {n : Nat} (hn : n ∈ l.alive ∨ n ∈ l.dropped) :
    n < l.made.length :=
  List.mem_range.mp (h.counted.subset (List.mem_append.mpr hn))

theorem Sound.not_dropped (h : l.Sound) {n : Nat} (hn : n ∈ l.alive) : n ∉ l.dropped := by
  have hnodup : (l.alive ++ l.dropped).Nodup := h.counted.nodup_iff.mpr List.nodup_range
  exact fun hd => (List.nodup_append.mp hnodup).2.2 n hn n hd rfl

theorem sound_empty : empty.Sound := ⟨List.Perm.refl [], nofun, nofun⟩

theorem Sound.install (h : l.Sound) (c : ExecutionContext) : (l.step (.install c)).Sound := by
  have hlength : (l.step (.install c)).made.length = l.made.length + 1 := by simp [InstallLog.step]
  refine ⟨?_, fun m n hn => ?_, ?_⟩
  · show (l.alive ++ [l.made.length] ++ l.dropped).Perm _
    rw [hlength, List.range_succ, List.append_assoc]
    refine (List.perm_append_comm.append_left l.alive).trans ?_
    rw [← List.append_assoc]
    exact h.counted.append_right _
  · rcases Nat.lt_trichotomy n l.made.length with hlt | rfl | hgt
    · exact h.covered m n (covered?_install_of_lt c hlt ▸ hn)
    · exact h.inForce m (covered?_install_self c ▸ hn)
    · have hnone : (l.step (.install c)).made[n]? = none :=
        List.getElem?_eq_none (hlength ▸ Nat.succ_le_of_lt hgt)
      rw [covered?, hnone] at hn
      cases hn
  · rintro n ⟨⟩
    exact hlength ▸ Nat.lt_succ_self _

theorem Sound.drop (h : l.Sound) (j : Nat) : (l.step (.drop j)).Sound := by
  rcases l.drop_cases j with ⟨n, hn, hstep⟩ | ⟨-, hstep⟩
  · have halive : n < l.made.length := h.lt (Or.inl (List.mem_of_getElem? hn))
    rw [hstep]
    refine ⟨?_, h.covered, fun m hm => Nat.lt_trans (h.covered m n hm) halive⟩
    obtain ⟨hj, rfl⟩ := List.getElem?_eq_some_iff.mp hn
    -- The number goes from the one list to the other.
    refine List.Perm.trans ?_ h.counted
    rw [← List.append_assoc]
    refine List.perm_append_comm.trans ?_
    exact (List.getElem_cons_eraseIdx_perm hj).append_right l.dropped
  · rw [hstep]
    exact h

theorem Sound.step (h : l.Sound) : ∀ t, (l.step t).Sound
  | .install c => h.install c
  | .drop j => h.drop j

theorem Sound.run (h : l.Sound) (ts : List Turn) : (l.run ts).Sound := by
  induction ts using List.reverseRecOn with
  | nil => exact h
  | append_singleton ts t ih =>
    rw [run_concat]
    exact ih.step t

/-! ### What is shown -/

theorem context?_install (c : ExecutionContext) (t : Thread) {i : Option Nat}
    (h : ∀ n, i = some n → n < l.made.length) :
    (l.step (.install c)).context? t i = l.context? t i := by
  cases i with
  | none => rfl
  | some n =>
    rw [context?, step, List.getElem?_append_left (h n rfl)]
    rfl

/-- The log shows what a turn does to the thread. -/
theorem shown_step (h : l.Sound) (t : Thread) (a : Turn) :
    (l.step a).shown t = (l.shown t).step a := by
  cases a with
  | install c =>
    have hnew : (l.step (.install c)).context? t (some l.made.length) = some c := by
      simp [context?, step]
    have hguards : ∀ n ∈ l.alive,
        (l.step (.install c)).context? t ((l.step (.install c)).covered? n) =
          l.context? t (l.covered? n) := by
      intro n hn
      have hlt : n < l.made.length := h.lt (Or.inl hn)
      rw [covered?_install_of_lt c hlt]
      exact context?_install c t fun m hm => Nat.lt_trans (h.covered m n hm) hlt
    have hguard : (l.step (.install c)).context? t
        ((l.step (.install c)).covered? l.made.length) = l.context? t l.inForce := by
      rw [covered?_install_self]
      exact context?_install c t h.inForce
    have hshown : (l.step (.install c)).shown t =
        ⟨⟨(l.step (.install c)).context? t (some l.made.length)⟩,
          (l.alive ++ [l.made.length]).map fun n =>
            ⟨(l.step (.install c)).context? t ((l.step (.install c)).covered? n)⟩⟩ := rfl
    rw [hshown, hnew, List.map_append, List.map_singleton, hguard,
      List.map_congr_left fun n hn => congrArg Guard.mk (hguards n hn)]
    rfl
  | drop j =>
    have hguard : (l.shown t).guards[j]? =
        (l.alive[j]?).map fun n => ⟨l.context? t (l.covered? n)⟩ := List.getElem?_map
    rcases l.drop_cases j with ⟨n, hn, hstep⟩ | ⟨hn, hstep⟩
    · rw [hn, Option.map_some] at hguard
      rw [hstep, GuardedThread.step, hguard]
      dsimp only [shown]
      rw [← List.eraseIdx_map]
      rfl
    · rw [hn, Option.map_none] at hguard
      rw [hstep, GuardedThread.step, hguard]

/-- The log shows what the thread has after a run. -/
theorem shown_run (h : l.Sound) (t : Thread) (ts : List Turn) :
    (l.run ts).shown t = (l.shown t).run ts := by
  induction ts generalizing l with
  | nil => rfl
  | cons a ts ih =>
    show ((l.step a).run ts).shown t = ((l.shown t).step a).run ts
    rw [ih (h.step a), shown_step h]

/-! ### What is never in force again -/

/-- A guard is dropped in order exactly if that puts in force what has its guard. -/
theorem inOrder_step (h : l.Sound) (hproper : l.InOrder → l.Proper) (a : Turn) :
    (l.step a).InOrder ↔ l.InOrder ∧ (l.step a).Proper := by
  cases a with
  | install c =>
    have hnew : (l.step (.install c)).Proper := by
      intro n hn heq
      have hlt : n < l.made.length := h.lt (Or.inr hn)
      cases heq
      exact Nat.lt_irrefl _ hlt
    refine Iff.trans ?_ (and_iff_left hnew).symm
    refine List.Pairwise.iff_of_mem fun {m n} hm hn => ?_
    rw [covered?_install_of_lt c (h.lt (Or.inr hn))]
  | drop j =>
    rcases l.drop_cases j with ⟨n, hn, hstep⟩ | ⟨-, hstep⟩
    · rw [hstep, InOrder, List.pairwise_append]
      refine and_congr_right fun _ => ?_
      constructor
      · rintro ⟨-, hlater⟩ m hm heq
        rcases List.mem_append.mp hm with hm | hm
        · exact hlater m hm n (List.mem_singleton_self n) heq
        · -- It did not cover itself.
          obtain rfl := List.mem_singleton.mp hm
          exact Nat.lt_irrefl _ (h.covered m m heq)
      · intro hnew
        refine ⟨List.pairwise_singleton _ n, fun m hm k hk => ?_⟩
        obtain rfl := List.mem_singleton.mp hk
        exact hnew m (List.mem_append_left _ hm)
    · rw [hstep]
      exact ⟨fun ho => ⟨ho, hproper ho⟩, And.left⟩

/-- Nothing that was dropped is ever in force in a run if that drops its guards in order, and
else something is. -/
theorem proper_iff_inOrder (ts : List Turn) :
    (∀ done, done <+: ts → (empty.run done).Proper) ↔ (empty.run ts).InOrder := by
  induction ts using List.reverseRecOn with
  | nil =>
    refine ⟨fun _ => List.Pairwise.nil, fun _ done hdone => ?_⟩
    rw [List.prefix_nil.mp hdone]
    exact fun n hn => nomatch hn
  | append_singleton ts a ih =>
    have hproper : (empty.run ts).InOrder → (empty.run ts).Proper :=
      fun ho => ih.mpr ho ts (List.prefix_refl ts)
    rw [run_concat, inOrder_step (sound_empty.run ts) hproper, ← ih, ← run_concat]
    constructor
    · exact fun hall => ⟨fun done hdone => hall done (hdone.trans (List.prefix_append ts [a])),
        hall _ (List.prefix_refl _)⟩
    · rintro ⟨hbefore, hlast⟩ done hdone
      rcases List.prefix_concat_iff.mp hdone with rfl | hdone
      · exact hlast
      · exact hbefore done hdone

/-- Once every guard was dropped, what the last one's installation covered is in force. -/
theorem inForce_of_alive_eq_nil {ts : List Turn} (h : (empty.run ts).alive = []) :
    (empty.run ts).inForce = (empty.run ts).dropped.getLast?.bind (empty.run ts).covered? := by
  induction ts using List.reverseRecOn with
  | nil => rfl
  | append_singleton ts a ih =>
    rw [run_concat] at h ⊢
    cases a with
    | install c => exact absurd h (List.append_ne_nil_of_right_ne_nil _ (List.cons_ne_nil _ _))
    | drop j =>
      rcases (empty.run ts).drop_cases j with ⟨n, -, hstep⟩ | ⟨-, hstep⟩
      · rw [hstep]
        simp [covered?]
      · rw [hstep] at h ⊢
        exact ih h

/-- What is in force has its guard, if nothing is in force that was dropped. -/
theorem Sound.inForce_eq_none (h : l.Sound) (hproper : l.Proper) (halive : l.alive = []) :
    l.inForce = none := by
  refine Option.eq_none_iff_forall_ne_some.mpr fun n hn => ?_
  have hmem : n ∈ l.alive ++ l.dropped :=
    h.counted.mem_iff.mpr (List.mem_range.mpr (h.inForce n hn))
  rw [halive, List.nil_append] at hmem
  exact hproper n hmem hn

/-! ### Nested turns -/

/-- Installations that lie over one another: each covered the one whose guard was made before,
of those that are alive, and the last one is in force. -/
structure Stacked (l : InstallLog) : Prop where
  inForce : l.inForce = l.alive.getLast?
  covered : ∀ ns n, ns ++ [n] <+: l.alive → l.covered? n = ns.getLast?

theorem Stacked.proper (h : l.Stacked) (hl : l.Sound) : l.Proper := by
  intro n hn heq
  have halive : n ∈ l.alive := List.mem_of_getLast? (h.inForce.symm.trans heq)
  exact hl.not_dropped halive hn

theorem Stacked.install (h : l.Stacked) (hl : l.Sound) (c : ExecutionContext) :
    (l.step (.install c)).Stacked := by
  refine ⟨by simp [step], fun ns n hn => ?_⟩
  rcases List.prefix_concat_iff.mp hn with heq | hold
  · obtain ⟨rfl, hlast⟩ := List.append_inj' heq rfl
    obtain rfl := List.singleton_inj.mp hlast
    exact (covered?_install_self c).trans h.inForce
  · have hmem : n ∈ l.alive := hold.subset (List.mem_append_right ns (List.mem_singleton_self n))
    rw [covered?_install_of_lt c (hl.lt (Or.inl hmem))]
    exact h.covered ns n hold

theorem Stacked.drop (h : l.Stacked) {ns : List Nat} {n : Nat} (hn : l.alive = ns ++ [n]) :
    (l.step (.drop ns.length)).alive = ns ∧ (l.step (.drop ns.length)).Stacked := by
  have hguard : l.alive[ns.length]? = some n := by simp [hn]
  have hstep : l.step (.drop ns.length) = { l with
      inForce := l.covered? n, alive := ns, dropped := l.dropped ++ [n] } := by
    rw [step, hguard, hn]
    simp [List.eraseIdx_append_of_length_le]
  rw [hstep]
  refine ⟨rfl, h.covered ns n (hn ▸ List.prefix_refl _), fun ms m hm => ?_⟩
  exact h.covered ms m (hm.trans (hn ▸ List.prefix_append ns [n]))

/-- A nested turn leaves installations one over the other. -/
theorem Stacked.step_nested (h : l.Stacked) (hl : l.Sound) {a : Turn} {ts : List Turn}
    (hnested : Nested 0 l.alive.length (a :: ts)) :
    (l.step a).Stacked ∧ Nested 0 (l.step a).alive.length ts := by
  cases a with
  | install c =>
    refine ⟨h.install hl c, ?_⟩
    rw [InstallLog.step, List.length_append, List.length_singleton]
    exact nested_install.mp hnested
  | drop j =>
    rcases List.eq_nil_or_concat l.alive with hnil | ⟨ns, n, hn⟩
    · rw [hnil] at hnested
      exact (not_nested_drop_zero hnested).elim
    · rw [List.concat_eq_append] at hn
      rw [hn, List.length_append, List.length_singleton] at hnested
      obtain ⟨rfl, hts⟩ := nested_drop_succ.mp hnested
      obtain ⟨halive, hstacked⟩ := h.drop hn
      rw [Nat.zero_add, halive]
      exact ⟨hstacked, hts⟩

theorem Stacked.run (h : l.Stacked) (hl : l.Sound) {ts : List Turn}
    (hnested : Nested 0 l.alive.length ts) : (l.run ts).Stacked := by
  induction ts generalizing l with
  | nil => exact h
  | cons a ts ih =>
    obtain ⟨hstacked, hts⟩ := h.step_nested hl hnested
    exact ih hstacked (hl.step a) hts

/-- Nested turns drop guards in order. -/
theorem inOrder_of_nested {ts : List Turn} (h : Nested 0 0 ts) : (empty.run ts).InOrder := by
  refine (proper_iff_inOrder ts).mp fun done hdone => ?_
  have hstacked : empty.Stacked := ⟨rfl, fun ns n hn => by simp [empty] at hn⟩
  exact (hstacked.run sound_empty (h.of_prefix hdone)).proper (sound_empty.run done)

/-- **Which context comes back.** Take any thread, and any installations and drops of their
guards, in any order. Their log shows what the thread has. At no point is an installation
in force whose guard was dropped exactly if no guard is dropped before that of an installation
which covered its own, and so it is if the turns are nested. Once every guard was dropped, what
the last one's installation covered is in force; this is what was there at the start if guards
were dropped in order. -/
theorem comes_back (t : Thread) (ts : List Turn) :
    let l := empty.run ts
    (⟨t, []⟩ : GuardedThread).run ts = l.shown t ∧
      ((∀ done, done <+: ts → (empty.run done).Proper) ↔ l.InOrder) ∧
      (Nested 0 0 ts → l.InOrder) ∧
      (l.alive = [] → l.inForce = l.dropped.getLast?.bind l.covered? ∧
        (l.InOrder → (⟨t, []⟩ : GuardedThread).run ts = ⟨t, []⟩)) := by
  intro l
  have hshown : (⟨t, []⟩ : GuardedThread).run ts = l.shown t :=
    (shown_run sound_empty t ts).symm
  refine ⟨hshown, proper_iff_inOrder ts, inOrder_of_nested, fun halive => ?_⟩
  refine ⟨inForce_of_alive_eq_nil halive, fun horder => ?_⟩
  have hproper : l.Proper := (proper_iff_inOrder ts).mpr horder ts (List.prefix_refl ts)
  rw [hshown, shown, (sound_empty.run ts).inForce_eq_none hproper halive, halive]
  rfl

/-- One context is installed over another, and the guard of the outer one is dropped first. When
the other guard is dropped as well, the outer context is in force again, for good. -/
theorem outer_comes_back :
    let outer := Host.limited 1
    let ts : List Turn := [.install outer, .install (Host.limited 2), .drop 0, .drop 0]
    let l := empty.run ts
    (⟨.idle, []⟩ : GuardedThread).run ts = ⟨⟨some outer⟩, []⟩ ∧ Thread.idle ≠ ⟨some outer⟩ ∧
      l.inForce = some 0 ∧ l.dropped = [0, 1] ∧ ¬ l.Proper := by
  intro outer ts l
  refine ⟨rfl, nofun, rfl, rfl, fun hproper => ?_⟩
  exact hproper 0 (by decide) rfl

end InstallLog
end JobParameters
