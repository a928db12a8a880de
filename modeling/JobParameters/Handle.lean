/-
# Handles

A `Handle` stands for one parameter of one topology and is read once there is a
value: the one read before, else that of the installed context, else the one the
parameter is bound to, else the default. The first two kinds of answer and the
third are kept, so that a handle answers alike ever after; a default is not, and
a worker whose context lacks the name gets no value at all.

Key definitions: `Handle`, `Lookup`, `Handle.lookup`, `Lookup.value?`,
`Lookup.require`.
Key theorem: `Handle.lookup_of_cached`.
-/
import JobParameters.Resolver

namespace JobParameters

/-- A placeholder for a parameter of the topology with that number. -/
structure Handle where
  topology : Nat
  spec : ParameterSpec
  cached : Option Value

/-- How a read is answered. -/
inductive Lookup where
  /-- A value that was bound. -/
  | resolved (v : Value)
  /-- The default, nothing being bound yet. -/
  | fallback (v : Value)
  /-- The installed context has no such name. -/
  | absent
  /-- Nothing is bound and there is no default. -/
  | unresolved
deriving DecidableEq

namespace Handle

/-- A handle that was never read. -/
def fresh (topology : Nat) (spec : ParameterSpec) : Handle := ⟨topology, spec, none⟩

/-- A copy, which was never read. -/
def copy (h : Handle) : Handle := fresh h.topology h.spec

/-- The answer to a read under a context, for a parameter bound to a value. -/
def lookup (h : Handle) (current : Option ExecutionContext) (bound : Option Value) : Lookup :=
  match h.cached, current, bound with
  | some v, _, _ => .resolved v
  | none, some c, _ =>
    match c.value? h.spec.name with
    | some v => .resolved v
    | none => .absent
  | none, none, some v => .resolved v
  | none, none, none =>
    match h.spec.default with
    | some v => .fallback v
    | none => .unresolved

/-- The handle after a read with that answer. -/
def keep (h : Handle) : Lookup → Handle
  | .resolved v => { h with cached := some v }
  | _ => h

/-- A handle with all there is to know about it, for a parameter bound to a value. -/
def shown (h : Handle) (bound : Option Value) : String :=
  "ParameterHandle \x7b name: " ++ Text.quoted h.spec.name ++ ", type: " ++ h.spec.type.title ++
    ", bound: " ++ (if bound.isSome then "true" else "false") ++ ", cached: " ++
    (match h.cached with
      | some v => "Some(" ++ v.shown ++ ")"
      | none => "None") ++ " \x7d"

/-- A handle that has answered once answers alike ever after. -/
theorem lookup_of_cached {h : Handle} {v : Value} (hc : h.cached = some v)
    (current : Option ExecutionContext) (bound : Option Value) :
    h.lookup current bound = .resolved v := by
  simp [lookup, hc]

end Handle

namespace Lookup

/-- The value of an answer; where a context lacks the name, the default. -/
def value? (default : Option Value) : Lookup → Option Value
  | resolved v => some v
  | fallback v => some v
  | absent => default
  | unresolved => none

/-- The value of an answer, or why there is none. -/
def require (name : String) : Lookup → Except ParameterError Value
  | resolved v => .ok v
  | fallback v => .ok v
  | absent => .error (.unknown name)
  | unresolved => .error (.unresolved name)

end Lookup
end JobParameters
