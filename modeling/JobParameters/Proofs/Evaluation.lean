/-
# What code gives

Reading a handle fills its cache and nothing else, so a store goes on to give the answers
it gave before (`Store.answers_read`). Code can therefore be evaluated with the answers of
the store it starts from (`Code.eval`), and running it does just that and leaves the
answers as they are (`Code.run_eq`). Where in the graph a worker stands makes no
difference to what handles answer (`Thread.answers_stationed`).
-/
import JobParameters.Operator

namespace JobParameters
namespace Handle

/-- A handle that was read answers alike the next time. -/
theorem lookup_keep (h : Handle) (current : Option ExecutionContext) (bound : Option Value) :
    (h.keep (h.lookup current bound)).lookup current bound = h.lookup current bound := by
  cases hl : h.lookup current bound with
  | resolved v => exact lookup_of_cached rfl current bound
  | fallback v => exact hl
  | absent => exact hl
  | unresolved => exact hl

theorem spec_keep (h : Handle) (a : Lookup) : (h.keep a).spec = h.spec := by
  cases a <;> rfl

theorem topology_keep (h : Handle) (a : Lookup) : (h.keep a).topology = h.topology := by
  cases a <;> rfl

/-- Only the values of a context matter to a read. -/
theorem lookup_congr (h : Handle) {c c' : ExecutionContext} (hc : c.values = c'.values)
    (bound : Option Value) : h.lookup (some c) bound = h.lookup (some c') bound := by
  have hv : c.value? h.spec.name = c'.value? h.spec.name := by
    unfold ExecutionContext.value?
    rw [hc]
  unfold lookup
  cases h.cached with
  | none => simp only [hv]
  | some v => rfl

end Handle

namespace Store

/-- What each handle answers under a context. -/
def answers (s : Store) (current : Option ExecutionContext) (i : Nat) : Option Reading :=
  (s.read current i).2

theorem answers_eq (s : Store) (current : Option ExecutionContext) (i : Nat) :
    s.answers current i =
      (s.handles[i]?).map fun h => ⟨h.spec, h.lookup current (s.bound? h)⟩ := by
  unfold answers read
  cases s.handles[i]? <;> rfl

/-- Reading a handle changes no answer. -/
theorem answers_read (s : Store) (current : Option ExecutionContext) (i : Nat) :
    (s.read current i).1.answers current = s.answers current := by
  funext j
  unfold read
  split
  · rfl
  · next h hh =>
    rw [answers_eq, answers_eq]
    by_cases hij : i = j
    · subst hij
      have hi : i < s.handles.length := (List.getElem?_eq_some_iff.mp hh).1
      simp only [List.getElem?_set_self hi, hh, Option.map_some, Handle.spec_keep]
      -- The slot that is looked up is that of the same parameter.
      have hb : bound? ⟨s.topologies, s.handles.set i (h.keep (h.lookup current (s.bound? h)))⟩
          (h.keep (h.lookup current (s.bound? h))) = s.bound? h := by
        simp only [bound?, Handle.spec_keep, Handle.topology_keep]
      rw [hb, Handle.lookup_keep]
    · rw [List.getElem?_set_ne hij]
      rfl

end Store

namespace Thread

/-- The thread with its context at a place in the graph. -/
def stationed (t : Thread) (a : Station) : Thread := ⟨t.current.map fun c => c.stationed a⟩

theorem answers_stationed (s : Store) (t : Thread) (a : Station) :
    s.answers (t.stationed a).current = s.answers t.current := by
  funext i
  rw [Store.answers_eq, Store.answers_eq]
  cases hc : t.current with
  | none => simp [stationed, hc]
  | some c =>
    simp only [stationed, hc, Option.map_some]
    congr 1
    funext h
    rw [h.lookup_congr (show (c.stationed a).values = c.values from rfl)]

end Thread

namespace Outcome

variable {ε α : Type}

/-- The result, if there is one. -/
def result? : Outcome ε α → Option α
  | done a => some a
  | failed _ => none
  | panicked => none

end Outcome

namespace Code

variable {ε δ α β : Type} (A : Nat → Option Reading) (t : Thread)

/-- What code gives on a thread when the handles answer like that. -/
def eval : Code ε α → Outcome ε α
  | done a => .done a
  | fail e => .failed e
  | panic => .panicked
  | read h next =>
    match A h with
    | some r => (next r).eval
    | none => .panicked
  | look next => (next t).eval

theorem eval_bind (k : α → Code ε β) : ∀ m : Code ε α, (m >>= k).eval A t =
    match m.eval A t with
    | .done a => (k a).eval A t
    | .failed e => .failed e
    | .panicked => .panicked
  | done _ => rfl
  | fail _ => rfl
  | panic => rfl
  | read h next => by
    show (Code.read h fun r => next r >>= k).eval A t = _
    cases hA : A h with
    | none => simp only [eval, hA]
    | some r =>
      simp only [eval, hA]
      exact eval_bind k (next r)
  | look next => eval_bind k (next t)

theorem eval_mapFail (f : ε → δ) : ∀ m : Code ε α, (m.mapFail f).eval A t =
    match m.eval A t with
    | .done a => .done a
    | .failed e => .failed (f e)
    | .panicked => .panicked
  | done _ => rfl
  | fail _ => rfl
  | panic => rfl
  | read h next => by
    cases hA : A h with
    | none => simp only [mapFail, eval, hA]
    | some r =>
      simp only [mapFail, eval, hA]
      exact eval_mapFail f (next r)
  | look next => eval_mapFail f (next t)

/-- The result of code that does one thing more to it, whatever a failure leaves. -/
theorem result?_eval_map (f : ε → δ) (k : α → β) (m : Code ε α) :
    ((m.mapFail f >>= fun a => pure (k a)).eval A t).result? = (m.eval A t).result?.map k := by
  rw [eval_bind, eval_mapFail]
  cases m.eval A t <;> rfl

/-- **Running code evaluates it** and changes no answer. -/
theorem run_eq {A : Nat → Option Reading} {t : Thread} : ∀ (m : Code ε α) {s : Store},
    s.answers t.current = A →
      (m.run t s).1 = m.eval A t ∧ (m.run t s).2.answers t.current = A
  | done _, _, hs => ⟨rfl, hs⟩
  | fail _, _, hs => ⟨rfl, hs⟩
  | panic, _, hs => ⟨rfl, hs⟩
  | read h next, s, hs => by
    have hA : A h = (s.read t.current h).2 := by rw [← hs]; rfl
    have hkept : (s.read t.current h).1.answers t.current = A := (s.answers_read _ h).trans hs
    unfold run eval
    rw [hA]
    split
    · next s' r hr =>
      rw [hr] at hkept ⊢
      exact run_eq (next r) hkept
    · next s' hr =>
      rw [hr] at hkept ⊢
      exact ⟨rfl, hkept⟩
  | look next, _, hs => run_eq (next t) hs

end Code
end JobParameters
