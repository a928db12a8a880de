/-
# Stateless stages

Workers have instances of their own, on threads that differ in where in the graph they
stand. A stage is `Stateless` if that cannot be seen from outside: it opens on every
channel or on none, whatever an instance has done before, it gives for a tuple what a
fresh one would give (`PlannedStage.once?`), and it is closed without a panic if a fresh
one is. Maps are stateless unless their code asks where it runs, and so are the operators
in stock.

What such stages give can be said of one tuple at a time (`pass`), and what a worker gives
for its share of the tuples is `share?`.
-/
import JobParameters.Proofs.Dealing
import JobParameters.Proofs.Evaluation
import JobParameters.Stages

namespace JobParameters

variable {σ : Type}

namespace PlannedStage

section

variable (p : PlannedStage σ) (A : Nat → Option Reading) (t : Thread)

/-- The state of a new instance. -/
def made? : Option σ := ((p.operator.create p.params).eval A t).result?

/-- The state of an instance that was opened. -/
def opened? : Option σ := (p.made? A t).bind fun s => ((p.operator.start s).eval A t).result?

/-- Whether an instance in a state can be closed. -/
def closes (s : σ) : Bool := ((p.operator.close s).eval A t).result?.isSome

/-- Whether an instance can be opened and then closed. -/
def lasts : Bool := (p.opened? A t).any (p.closes A t)

/-- What an instance in a state gives for a tuple. -/
def gives? (s : σ) (x : Json) : Option (List Json) :=
  ((p.operator.process s x).eval A t).result?.map Prod.snd

/-- What a fresh instance gives for a tuple. -/
def once? (x : Json) : Option (List Json) := (p.opened? A t).bind fun s => p.gives? A t s x

/-- The states that an instance comes to. -/
inductive Reaches : σ → Prop where
  | opened {s : σ} (h : p.opened? A t = some s) : Reaches s
  | processed {s s' : σ} {x : Json} {out : List Json} (hs : Reaches s)
      (h : ((p.operator.process s x).eval A t).result? = some (s', out)) : Reaches s'

/-- What a stage gives, and whether it can be opened and closed, depends neither on the
channel nor on earlier tuples. -/
structure Stateless : Prop where
  opens : ∀ a, (p.opened? A (t.stationed a)).isSome = (p.opened? A t).isSome
  gives : ∀ a s, p.Reaches A (t.stationed a) s → ∀ x,
    p.gives? A (t.stationed a) s x = p.once? A t x
  closes : ∀ a s, p.Reaches A (t.stationed a) s → p.closes A (t.stationed a) s = p.lasts A t

end

variable {p : PlannedStage σ} {A : Nat → Option Reading} {t : Thread}

/-- An instance reaches states only if it can be opened. -/
theorem Reaches.isSome {s : σ} (h : p.Reaches A t s) : (p.opened? A t).isSome = true := by
  induction h with
  | opened h => rw [h]; rfl
  | processed _ _ ih => exact ih

/-- A stage is stateless if its code is the same wherever it runs, and leaves the state. -/
theorem stateless_of_keeps (ho : ∀ a, p.opened? A (t.stationed a) = p.opened? A t)
    (hk : ∀ s x s' out, ((p.operator.process s x).eval A t).result? = some (s', out) → s' = s)
    (hp : ∀ a s x, ((p.operator.process s x).eval A (t.stationed a)).result? =
      ((p.operator.process s x).eval A t).result?)
    (hc : ∀ a s, p.closes A (t.stationed a) s = p.closes A t s) : p.Stateless A t := by
  have hopen : ∀ a s, p.Reaches A (t.stationed a) s → p.opened? A t = some s := by
    intro a s hs
    induction hs with
    | opened h => rw [← ho a, h]
    | processed _ h ih =>
      rw [hp] at h
      rw [ih, hk _ _ _ _ h]
  refine ⟨fun a => by rw [ho], fun a s hs x => ?_, fun a s hs => ?_⟩
  · rw [once?, hopen a s hs, Option.bind_some, gives?, gives?, hp]
  · rw [lasts, hopen a s hs, Option.any_some, hc]

end PlannedStage

namespace Stages.OperatorKind

variable {A : Nat → Option Reading} {t : Thread}

theorem eval_start_stationed (k : OperatorKind Nat) (a : Station) (s : OperatorState) :
    (k.start s).eval A (t.stationed a) = (k.start s).eval A t := by
  have hex : ∀ {α : Type} (x : Except ParameterError α),
      (Code.ofExcept x).eval A (t.stationed a) = (Code.ofExcept x).eval A t :=
    fun x => by cases x <;> rfl
  cases k with
  | scope n y =>
    have hs : (t.stationed a).resolveScope n y = t.resolveScope n y := by
      unfold Thread.resolveScope Thread.context Thread.stationed
      cases t.current <;> rfl
    simp only [start, Code.eval, hs, hex]
  | handleScope h =>
    simp only [start, Code.eval]
    cases A h with
    | none => rfl
    | some r => exact hex _
  | _ => rfl

/-- The code of an instance neither reads handles nor looks at its thread. -/
theorem eval_process_stationed (k : OperatorKind Nat) (a : Station) (s : OperatorState)
    (x : Json) : (k.process s x).eval A (t.stationed a) = (k.process s x).eval A t := by
  cases k with
  | repeats =>
    simp only [process]
    split <;> rfl
  | _ => rfl

/-- The operators in stock are stateless. -/
theorem stateless {p : PlannedStage OperatorState} {k : OperatorKind Nat}
    (hp : p.operator = k.operator) : p.Stateless A t := by
  refine PlannedStage.stateless_of_keeps (fun a => ?_) (fun s x s' out h => ?_) (fun a s x => ?_)
    (fun a s => ?_)
  · simp only [PlannedStage.opened?, PlannedStage.made?, hp, operator, Code.eval,
      Outcome.result?, Option.bind_some, Code.eval_mapFail, eval_start_stationed]
  · simp only [hp, operator, Code.result?_eval_map, Option.map_eq_some_iff] at h
    obtain ⟨y, -, h⟩ := h
    exact (Prod.mk.inj h).1.symm
  · simp only [hp, operator, Code.result?_eval_map, eval_process_stationed]
  · rw [PlannedStage.closes, PlannedStage.closes, hp]
    rfl

end Stages.OperatorKind

variable (A : Nat → Option Reading) (t : Thread)

/-- What comes out of stages for a tuple that is pushed through them in order. -/
def pass : List (PlannedStage σ) → Json → Option (List Json)
  | [], x => some [x]
  | p :: ps, x => (p.once? A t x).bind (concatEach (pass ps))

end JobParameters
