/-
# Tuple by tuple is stage by stage

A worker takes a tuple through all stages before it takes the next one (`drive`). It might as
well take all tuples through the first stage, what comes out through the second, and so on
(`driveByStage`). Instances change as they go, so the two orders could differ; they do not,
since an instance is given the same tuples in the same order either way. What does differ is
the order of the calls among instances, and, where something fails, which call comes first.

An agenda says in which order things are done. What it comes to in the end, the order
forgotten, is its `Total`: two agendas of which neither needs the result of the other come to
the same in either order (`Total.bind_comm`). With that tuples can be passed in two parts
(`Agenda.total_passing_append`), and so one at a time (`Agenda.total_passingEach`). Reads
commute as well (`Store.read_comm`), so that a total tells the store afterwards
(`Agenda.carryOut_of_total`).
-/
import Mathlib.Algebra.Order.Group.Multiset
import Mathlib.Data.Multiset.MapFold
import JobParameters.Proofs.Agendas

namespace JobParameters

/-! ### Totals -/

/-- What work comes to: its result, with the calls it made and the handles it read in no
order, or nothing if it did not end well. -/
inductive Total (α : Type) where
  | nothing
  | done (a : α) (calls : Multiset Call) (reads : Multiset Nat)

namespace Total

variable {α β γ : Type}

/-- The total with more calls and reads. -/
def adding (cs : Multiset Call) (rs : Multiset Nat) : Total α → Total α
  | nothing => nothing
  | done a cs' rs' => done a (cs + cs') (rs + rs')

instance : Monad Total where
  pure a := done a 0 0
  bind x k :=
    match x with
    | nothing => nothing
    | done a cs rs => (k a).adding cs rs

theorem done_bind (a : α) (cs : Multiset Call) (rs : Multiset Nat) (k : α → Total β) :
    (done a cs rs >>= k) = (k a).adding cs rs := rfl

theorem adding_zero (x : Total α) : x.adding 0 0 = x := by
  cases x with
  | nothing => rfl
  | done a cs rs => simp only [adding, zero_add]

theorem adding_adding (cs cs' : Multiset Call) (rs rs' : Multiset Nat) (x : Total α) :
    (x.adding cs' rs').adding cs rs = x.adding (cs + cs') (rs + rs') := by
  cases x with
  | nothing => rfl
  | done a ds qs => simp only [adding, add_assoc]

theorem adding_bind (cs : Multiset Call) (rs : Multiset Nat) (x : Total α) (k : α → Total β) :
    (x.adding cs rs >>= k) = (x >>= k).adding cs rs := by
  cases x with
  | nothing => rfl
  | done a ds qs => exact (adding_adding cs ds rs qs (k a)).symm

instance : LawfulMonad Total := LawfulMonad.mk' Total
  (fun x => by
    cases x with
    | nothing => rfl
    | done a cs rs => exact congrArg₂ (done a) (add_zero cs) (add_zero rs))
  (fun a k => adding_zero (k a))
  (fun x f g => by
    cases x with
    | nothing => rfl
    | done a cs rs => exact adding_bind cs rs (f a) g)

/-- **The order does not matter** to two pieces of work that do not need each other's
result. -/
theorem bind_comm (x : Total α) (y : Total β) (k : α → β → Total γ) :
    (x >>= fun a => y >>= fun b => k a b) = y >>= fun b => x >>= fun a => k a b := by
  cases x with
  | nothing => cases y <;> rfl
  | done a cs rs =>
    cases y with
    | nothing => rfl
    | done b ds qs =>
      simp only [done_bind, adding_adding]
      rw [add_comm cs ds, add_comm rs qs]

end Total

namespace Agenda

variable {ε δ α β σ : Type} {A : Nat → Option Reading} {t : Thread}

/-- What an agenda comes to when the handles answer like that. -/
def total (A : Nat → Option Reading) : Agenda ε α → Total α
  | ended (.done a) => pure a
  | ended (.failed _) => .nothing
  | ended .panicked => .nothing
  | call c next => (next.total A).adding {c} 0
  | read h next =>
    match A h with
    | some r => ((next r).total A).adding 0 {h}
    | none => .nothing

theorem total_pure (a : α) : (pure a : Agenda ε α).total A = pure a := rfl

/-- Only what ends well is followed by anything that counts. -/
theorem total_followed (m : Agenda ε α) (k : α → Agenda δ β) {f : ε → Agenda δ β}
    (hf : ∀ e, (f e).total A = .nothing) :
    (m.followed k f).total A = m.total A >>= fun a => (k a).total A := by
  induction m with
  | ended o =>
    cases o with
    | done a => exact (pure_bind a fun a => (k a).total A).symm
    | failed e => exact hf e
    | panicked => rfl
  | call c next ih => simp only [followed, total, ih, Total.adding_bind]
  | read h next ih =>
    simp only [followed, total]
    cases A h with
    | none => rfl
    | some r => simp only [ih, Total.adding_bind]

theorem total_bind (m : Agenda ε α) (k : α → Agenda ε β) :
    (m >>= k).total A = m.total A >>= fun a => (k a).total A :=
  total_followed m k fun _ => rfl

theorem total_mapFail (f : ε → δ) (m : Agenda ε α) : (m.mapFail f).total A = m.total A :=
  (total_followed m _ fun _ => rfl).trans (bind_pure _)

/-! ### The two orders -/

theorem total_processingAll_cons (i : Instance σ) (x : Json) (xs : List Json) :
    (i.processingAll t (x :: xs)).total A =
      (i.processing t x).total A >>= fun p => (p.1.processingAll t xs).total A >>= fun q =>
        pure (q.1, p.2 ++ q.2) := by
  show (i.processing t x >>= fun p => p.1.processingAll t xs >>= fun q =>
    pure (q.1, p.2 ++ q.2)).total A = _
  simp only [total_bind, total_pure]

theorem total_passing_cons (i : Instance σ) (is : List (Instance σ)) (xs : List Json) :
    (passing t (i :: is) xs).total A =
      (i.processingAll t xs).total A >>= fun p => (passing t is p.2).total A >>= fun q =>
        pure (p.1 :: q.1, q.2) := by
  show ((i.processingAll t xs).mapFail (fun e => (e.1, e.2 :: is)) >>= fun p =>
    (passing t is p.2).mapFail (fun e => (e.1, p.1 :: e.2)) >>= fun q =>
      pure (p.1 :: q.1, q.2)).total A = _
  simp only [total_bind, total_mapFail, total_pure]

theorem total_passingEach_cons (is : List (Instance σ)) (x : Json) (xs : List Json) :
    (passingEach t is (x :: xs)).total A =
      (passing t is [x]).total A >>= fun p => (passingEach t p.1 xs).total A >>= fun q =>
        pure (q.1, p.2 ++ q.2) := by
  show (passing t is [x] >>= fun p => passingEach t p.1 xs >>= fun q =>
    pure (q.1, p.2 ++ q.2)).total A = _
  simp only [total_bind, total_pure]

/-- An instance is given tuples in two parts. -/
theorem total_processingAll_append (i : Instance σ) (xs ys : List Json) :
    (i.processingAll t (xs ++ ys)).total A =
      (i.processingAll t xs).total A >>= fun p => (p.1.processingAll t ys).total A >>= fun q =>
        pure (q.1, p.2 ++ q.2) := by
  induction xs generalizing i with
  | nil =>
    show _ = (pure (i, []) : Total _) >>= _
    simp only [pure_bind, List.nil_append, Prod.mk.eta, bind_pure]
  | cons x xs ih =>
    rw [List.cons_append, total_processingAll_cons, total_processingAll_cons]
    simp only [ih, bind_assoc, pure_bind, List.append_assoc]

/-- **Tuples may be passed in two parts.** While the first part goes through the later
instances, the first instance can already be given the second part. -/
theorem total_passing_append (is : List (Instance σ)) (xs ys : List Json) :
    (passing t is (xs ++ ys)).total A =
      (passing t is xs).total A >>= fun p => (passing t p.1 ys).total A >>= fun q =>
        pure (q.1, p.2 ++ q.2) := by
  induction is generalizing xs ys with
  | nil => simp only [passing, total_pure, pure_bind]
  | cons i is ih =>
    calc (passing t (i :: is) (xs ++ ys)).total A
      _ = (i.processingAll t xs).total A >>= fun p => (p.1.processingAll t ys).total A >>=
            fun p' => (passing t is p.2).total A >>= fun q => (passing t q.1 p'.2).total A >>=
              fun q' => pure (p'.1 :: q'.1, q.2 ++ q'.2) := by
        rw [total_passing_cons, total_processingAll_append]
        simp only [ih, bind_assoc, pure_bind]
      -- The first instance does not need what the later ones make of the first part.
      _ = (i.processingAll t xs).total A >>= fun p => (passing t is p.2).total A >>=
            fun q => (p.1.processingAll t ys).total A >>= fun p' => (passing t q.1 p'.2).total A >>=
              fun q' => pure (p'.1 :: q'.1, q.2 ++ q'.2) :=
        bind_congr fun p => Total.bind_comm _ _ _
      _ = _ := by
        rw [total_passing_cons]
        simp only [total_passing_cons, bind_assoc, pure_bind]

theorem total_passing_nil (is : List (Instance σ)) : (passing t is []).total A = pure (is, []) := by
  induction is with
  | nil => rfl
  | cons i is ih =>
    rw [total_passing_cons]
    show (pure (i, []) : Total _) >>= _ = _
    simp only [pure_bind, ih]

/-- One tuple after the other passes as all of them do. -/
theorem total_passingEach (is : List (Instance σ)) (xs : List Json) :
    (passingEach t is xs).total A = (passing t is xs).total A := by
  induction xs generalizing is with
  | nil => exact (total_passing_nil is).symm
  | cons x xs ih =>
    rw [total_passingEach_cons]
    simp only [ih]
    exact (total_passing_append is [x] xs).symm

end Agenda

/-! ### What a total tells -/

namespace Store

variable {s : Store} {current : Option ExecutionContext}

/-- A read changes a handle at its place. -/
theorem read_fst (s : Store) (current : Option ExecutionContext) (i : Nat) :
    (s.read current i).1 =
      ⟨s.topologies, s.handles.modify i fun h => h.keep (h.lookup current (s.bound? h))⟩ := by
  unfold read
  cases hi : s.handles[i]? with
  | none => rw [List.modify_eq_self (List.getElem?_eq_none_iff.mp hi)]
  | some h =>
    obtain ⟨hlt, rfl⟩ := List.getElem?_eq_some_iff.mp hi
    refine congrArg (mk s.topologies) (List.ext_getElem? fun j => ?_)
    rw [List.getElem?_modify, List.getElem?_set]
    by_cases hij : i = j
    · subst hij
      simp [hlt]
    · simp [hij]

/-- Handles may be read in either order. -/
theorem read_comm (s : Store) (current : Option ExecutionContext) (i j : Nat) :
    ((s.read current i).1.read current j).1 = ((s.read current j).1.read current i).1 := by
  by_cases hij : i = j
  · rw [hij]
  · simp only [read_fst]
    exact congrArg (mk s.topologies) (List.modify_modify_ne _ _ s.handles hij)

instance (current : Option ExecutionContext) :
    RightCommutative fun (s : Store) i => (s.read current i).1 :=
  ⟨fun s i j => read_comm s current i j⟩

/-- The store after handles were read. -/
def readEach (current : Option ExecutionContext) (s : Store) (is : Multiset Nat) : Store :=
  is.foldl (fun s i => (s.read current i).1) s

end Store

namespace Total

variable {ε α : Type} {current : Option ExecutionContext} {s s' : Store} {x : Total α}

/-- Work on a store went as the total tells. -/
def Tells (current : Option ExecutionContext) (s : Store) :
    Total α → Outcome ε α × List Call × Store → Prop
  | nothing, w => ∀ a, w.1 ≠ .done a
  | done a cs rs, w =>
    w.1 = .done a ∧ (w.2.1 : Multiset Call) = cs ∧ w.2.2 = s.readEach current rs

theorem Tells.call {o : Outcome ε α} {cs : List Call} (h : x.Tells current s (o, cs, s'))
    (c : Call) : (x.adding {c} 0).Tells current s (o, c :: cs, s') := by
  cases x with
  | nothing => exact h
  | done a ds rs =>
    obtain ⟨hend, hcalls, hstore⟩ := h
    refine ⟨hend, ?_, ?_⟩
    · rw [← hcalls]
      rfl
    · rw [zero_add]
      exact hstore

theorem Tells.read {w : Outcome ε α × List Call × Store} {i : Nat}
    (h : x.Tells current (s.read current i).1 w) : (x.adding 0 {i}).Tells current s w := by
  cases x with
  | nothing => exact h
  | done a cs rs =>
    obtain ⟨hend, hcalls, hstore⟩ := h
    refine ⟨hend, hcalls.trans (zero_add cs).symm, ?_⟩
    rw [hstore, Store.readEach, Store.readEach, Multiset.singleton_add, Multiset.foldl_cons]

end Total

namespace Agenda

variable {ε α σ : Type} {A : Nat → Option Reading} {t : Thread}

/-- **A total tells how work ends**, which calls it made and what the store is then. -/
theorem carryOut_of_total (m : Agenda ε α) {s : Store} (hs : s.answers t.current = A) :
    (m.total A).Tells t.current s (m.carryOut t s) := by
  induction m generalizing s with
  | ended o =>
    cases o with
    | done a => exact ⟨rfl, rfl, rfl⟩
    | failed e =>
      intro a ha
      cases ha
    | panicked =>
      intro a ha
      cases ha
  | call c next ih => exact (ih hs).call c
  | read h next ih =>
    have hA : A h = (s.read t.current h).2 := by rw [← hs]; rfl
    have hkept : (s.read t.current h).1.answers t.current = A := (s.answers_read _ h).trans hs
    simp only [total, carryOut, hA]
    -- The read leaves all answers as they are, so the rest is evaluated with the same.
    rcases hr : s.read t.current h with ⟨s', _ | r⟩
    · intro a ha
      cases ha
    · rw [hr] at hkept
      have hnext := ih r hkept
      refine Total.Tells.read ?_
      rw [hr]
      exact hnext

/-- Agendas that come to the same end well alike, with the same calls, though maybe in another
order, and leave the same store. -/
theorem carryOut_of_total_eq {m n : Agenda ε α} {s : Store}
    (h : m.total (s.answers t.current) = n.total (s.answers t.current)) :
    (∀ a, (m.carryOut t s).1 = .done a ↔ (n.carryOut t s).1 = .done a) ∧
      ∀ a, (m.carryOut t s).1 = .done a → (m.carryOut t s).2.1.Perm (n.carryOut t s).2.1 ∧
        (m.carryOut t s).2.2 = (n.carryOut t s).2.2 := by
  have hm := carryOut_of_total m (s := s) (t := t) rfl
  have hn := carryOut_of_total n (s := s) (t := t) rfl
  rw [h] at hm
  cases hsum : n.total (s.answers t.current) with
  | nothing =>
    rw [hsum] at hm hn
    exact ⟨fun a => iff_of_false (hm a) (hn a), fun a ha => absurd ha (hm a)⟩
  | done a cs rs =>
    rw [hsum] at hm hn
    obtain ⟨hmend, hmcalls, hmstore⟩ := hm
    obtain ⟨hnend, hncalls, hnstore⟩ := hn
    refine ⟨fun b => by rw [hmend, hnend], fun b _ => ⟨?_, hmstore.trans hnstore.symm⟩⟩
    exact Multiset.coe_eq_coe.mp (hmcalls.trans hncalls.symm)

end Agenda

/-! ### Stage by stage -/

section

variable {σ : Type}

/-- Opens instances and takes the tuples through them stage by stage: all of them through the
first, what comes out through the second, and so on. -/
def driveByStage (t : Thread) (is : List (Instance σ)) (batch : List Json) :
    Work (Fault × List (Instance σ)) (List (Instance σ) × List Json) := do
  let is ← openAll t is
  through t is batch

/-- **Tuple by tuple is stage by stage.** Whatever the instances of a worker do with their
states, to take one tuple after the other through all of them goes well exactly if it goes
well to take all tuples through one after the other. Then the outputs are the same, in the
same order, the instances end in the same states, the same calls were made, though in another
order, and the store is the same. -/
theorem drive_stage_by_stage (t : Thread) (is : List (Instance σ)) (batch : List Json)
    (s : Store) :
    (∀ is' out, (drive t is batch s).1 = .done (is', out) ↔
      (driveByStage t is batch s).1 = .done (is', out)) ∧
    ∀ is' out, (drive t is batch s).1 = .done (is', out) →
      (drive t is batch s).2.1.Perm (driveByStage t is batch s).2.1 ∧
      (drive t is batch s).2.2 = (driveByStage t is batch s).2.2 := by
  let A := s.answers t.current
  let byStage : Agenda (Fault × List (Instance σ)) (List (Instance σ) × List Json) :=
    Agenda.openingAll t is >>= fun is => Agenda.passing t is batch
  have hbyStage : byStage.carryOut t = driveByStage t is batch := by
    simp only [byStage, driveByStage, Agenda.carryOut_bind, Agenda.carryOut_openingAll,
      Agenda.carryOut_passing]
  have htotal : (Agenda.driving t is batch).total A = byStage.total A := by
    simp only [byStage, Agenda.driving, Agenda.total_bind, Agenda.total_passingEach]
  obtain ⟨hends, hrest⟩ := Agenda.carryOut_of_total_eq htotal
  rw [Agenda.carryOut_driving, hbyStage] at hends hrest
  exact ⟨fun is' out => hends (is', out), fun is' out => hrest (is', out)⟩

/-- Lets every second tuple pass. -/
def thinning : Operator Nat where
  create _ := .done 0
  start := .done
  process n x := .done (n + 1, if n % 2 = 0 then [x] else [])
  close _ := .done ()

/-- Puts its number after each tuple, of which it takes no more than three. -/
def numbering : Operator Nat where
  create _ := .done 0
  start := .done
  process n x :=
    if n < 3 then .done (n + 1, [x, .integer n]) else .fail (.stated "no more numbers", n)
  close _ := .done ()

/-- Five tuples of which three are numbered, in either order. -/
theorem drive_stage_by_stage_numbered :
    let stage (name : String) (o : Operator Nat) : PlannedStage Nat :=
      ⟨name, .operator, .empty, o⟩
    let instances (thinned numbered : Nat) : List (Instance Nat) :=
      [⟨0, stage "thin" thinning, thinned⟩, ⟨1, stage "number" numbering, numbered⟩]
    let batch : List Json := [.null, .bool true, .null, .bool false, .string "last"]
    let out : List Json :=
      [.null, .integer 0, .null, .integer 1, .string "last", .integer 2]
    (drive .idle (instances 0 0) batch .empty).1 = .done (instances 5 3, out) ∧
      (driveByStage .idle (instances 0 0) batch .empty).1 = .done (instances 5 3, out) := by
  intro stage instances batch out
  have hdrive : (drive .idle (instances 0 0) batch .empty).1 = .done (instances 5 3, out) := by
    with_unfolding_all rfl
  exact ⟨hdrive, ((drive_stage_by_stage _ _ _ _).1 _ out).mp hdrive⟩

end

end JobParameters
