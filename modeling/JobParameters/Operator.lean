/-
# Operators

What the code of an operator may do in one call is a `Code`: read captured
handles, look at the installed context, and then give a result, fail or panic.
Nothing else of the process is within its reach, so a call changes nothing but
the caches of the handles it reads.

An `Operator` makes an instance from its parameters, opens it, gives each tuple
to it for any number of new ones, and closes it; each of these is code. Its
instances have states of one type `σ`. A call that fails leaves a state behind
as well, since the instance is still closed. A filter or a map has no state to
speak of.

Key definitions: `Code`, `Code.run`, `Outcome`, `Operator`, `Operator.filter`,
`Operator.map`.
Key theorems: `Code.bind_assoc`, `Code.topologies_run`.
-/
import JobParameters.Store

namespace JobParameters

/-- Why a call fails. -/
inductive Failure where
  | parameter (e : ParameterError)
  | stated (text : String)

/-- A failure in words. -/
def Failure.message : Failure → String
  | parameter e => e.message
  | stated text => text

/-- What a call does, step by step. Where it fails it leaves an `ε`. -/
inductive Code (ε α : Type) where
  | done (a : α)
  | fail (e : ε)
  | panic
  /-- Reads the handle with that number. -/
  | read (handle : Nat) (next : Reading → Code ε α)
  /-- Looks at the thread it runs on. -/
  | look (next : Thread → Code ε α)

/-- How a call ends. -/
inductive Outcome (ε α : Type) where
  | done (a : α)
  | failed (e : ε)
  | panicked

namespace Code

variable {ε δ α β γ : Type}

/-- One piece of code after the other. -/
protected def bind : Code ε α → (α → Code ε β) → Code ε β
  | done a, k => k a
  | fail e, _ => fail e
  | panic, _ => panic
  | read h next, k => read h fun r => (next r).bind k
  | look next, k => look fun t => (next t).bind k

instance : Monad (Code ε) where
  pure := done
  bind := Code.bind

/-- The same code, which leaves something else where it fails. -/
def mapFail (f : ε → δ) : Code ε α → Code δ α
  | done a => done a
  | fail e => fail (f e)
  | panic => panic
  | read h next => read h fun r => (next r).mapFail f
  | look next => look fun t => (next t).mapFail f

/-- The result of something that may go wrong. -/
def ofExcept : Except ParameterError α → Code Failure α
  | .ok a => done a
  | .error e => fail (.parameter e)

/-- Runs code on a thread. Reading a handle that does not exist panics. -/
def run : Code ε α → Thread → Store → Outcome ε α × Store
  | done a, _, s => (.done a, s)
  | fail e, _, s => (.failed e, s)
  | panic, _, s => (.panicked, s)
  | read h next, t, s =>
    match s.read t.current h with
    | (s, some r) => (next r).run t s
    | (s, none) => (.panicked, s)
  | look next, t, s => (next t).run t s

theorem bind_assoc : ∀ (m : Code ε α) (f : α → Code ε β) (g : β → Code ε γ),
    (m.bind f).bind g = m.bind fun a => (f a).bind g
  | done _, _, _ => rfl
  | fail _, _, _ => rfl
  | panic, _, _ => rfl
  | read h next, f, g => by
    simp only [Code.bind]
    congr 1
    funext r
    exact bind_assoc (next r) f g
  | look next, f, g => by
    simp only [Code.bind]
    congr 1
    funext t
    exact bind_assoc (next t) f g

/-- Code binds nothing. -/
theorem topologies_run : ∀ (m : Code ε α) (t : Thread) (s : Store),
    (m.run t s).2.topologies = s.topologies
  | done _, _, _ => rfl
  | fail _, _, _ => rfl
  | panic, _, _ => rfl
  | read h next, t, s => by
    have hs := Store.topologies_read s t.current h
    unfold run
    split
    · next s' r he =>
      rw [topologies_run (next r) t s', ← hs, he]
    · next s' he =>
      rw [← hs, he]
  | look next, t, s => topologies_run (next t) t s

end Code

/-- The code of an operator whose instances have states of type `σ`. Making an instance
and closing one cannot fail, but both may panic. -/
structure Operator (σ : Type) where
  create : OrderedMap Value → Code Empty σ
  start : σ → Code (Failure × σ) σ
  process : σ → Json → Code (Failure × σ) (σ × List Json)
  close : σ → Code Empty Unit

namespace Operator

variable {σ : Type} [Inhabited σ]

/-- Keeps the tuples that satisfy a test. -/
def filter (test : Json → Code Failure Bool) : Operator σ where
  create _ := .done default
  start := .done
  process s tuple := do
    let keep ← (test tuple).mapFail fun f => (f, s)
    return (s, if keep then [tuple] else [])
  close _ := .done ()

/-- Puts another tuple in the place of each. -/
def map (f : Json → Code Failure Json) : Operator σ where
  create _ := .done default
  start := .done
  process s tuple := do
    let tuple ← (f tuple).mapFail fun e => (e, s)
    return (s, [tuple])
  close _ := .done ()

end Operator
end JobParameters
