/-
# What is bound is read back in a worker

A value is coerced when it is bound, and again when a worker reads it as one of the declared
type. The second coercion changes nothing and refuses nothing, since what is bound is finite
and of that type (`Registry.suits_of_bind`), and such a value stands for itself
(`Value.toType?_self`). So every way to read a parameter on a thread that has the payload of
the set installed comes to the one payload of its value (`Thread.Finds`), by its name or
through a handle that was never read; and a name that is not declared is not in the payload
at all (`Registry.reads_back`).
-/
import JobParameters.Proofs.Outcome
import JobParameters.Store

namespace JobParameters

/-! ### Ways to read -/

/-- What is found for a parameter on a thread, as it is or as one of the declared type, by
its name or through a handle that was never read. -/
structure Thread.Finds (t : Thread) (s : ParameterSpec) (a : s.type.Carrier) : Prop where
  untyped : t.resolve s.name none = .ok (s.type.inject a)
  asType : t.resolve s.name (some s.type) = .ok (s.type.inject a)
  scope : t.resolveScope s.name (some s.type) = .ok ⟨s.name, s.type.inject a⟩
  payload : t.resolveAs s.name s.type = .ok a
  handle : ∀ (store : Store) (i : Nat) (h : Handle), store.handles[i]? = some h →
    h.spec.name = s.name → h.cached = none → ∃ r, (store.read t.current i).2 = some r ∧
      r.require = .ok (s.type.inject a) ∧ r.requireAs s.type = .ok a

namespace ExecutionContext

variable {c : ExecutionContext} {n : String} {v : Value}

theorem resolve_of_value? (hv : c.value? n = some v) : c.resolve n none = .ok v := by
  simp only [resolve, hv]

theorem resolve_type_of_value? (hv : c.value? n = some v) (t : ParamType) :
    c.resolve n (some t) = coerce n v t := by
  simp only [resolve, hv]

theorem resolve_of_absent (hv : c.value? n = none) (t : Option ParamType) :
    c.resolve n t = .error (.unknown n) := by
  simp only [resolve, hv]

end ExecutionContext

namespace Thread

variable {t : Thread} {c : ExecutionContext}

theorem resolve_of_current (hc : t.current = some c) (n : String) (type : Option ParamType) :
    t.resolve n type = c.resolve n type := by
  simp only [resolve, context, hc]

/-- A handle that was never read takes the value from the context. -/
theorem read_of_current (hc : t.current = some c) {n : String} {v : Value}
    (hv : c.value? n = some v) {store : Store} {i : Nat} {h : Handle}
    (hi : store.handles[i]? = some h) (hn : h.spec.name = n) (hnew : h.cached = none) :
    (store.read t.current i).2 = some ⟨h.spec, .resolved v⟩ := by
  subst hn
  have hlookup : h.lookup t.current (store.bound? h) = .resolved v := by
    simp only [Handle.lookup, hnew, hc, hv]
  simp only [Store.read, hi, hlookup]

/-- A finite value of the declared type is found by every way to read. -/
theorem finds_of_value? (hc : t.current = some c) {s : ParameterSpec} {v : Value}
    (hv : c.value? s.name = some v) (htype : v.type = s.type) (hf : v.isFinite = true) :
    ∃ a, s.type.inject a = v ∧ t.Finds s a := by
  have hself : v.toType? s.type = some v := htype ▸ Value.toType?_self hf
  obtain ⟨a, hread, rfl⟩ : ∃ a, typed s.name v s.type = .ok a ∧ s.type.inject a = v :=
    typed_of_type_eq htype hf
  have huntyped : c.resolve s.name none = .ok (s.type.inject a) :=
    ExecutionContext.resolve_of_value? hv
  have htyped : c.resolve s.name (some s.type) = .ok (s.type.inject a) := by
    rw [ExecutionContext.resolve_type_of_value? hv, coerce_eq_ok]
    exact hself
  refine ⟨a, rfl, ⟨?_, ?_, ?_, ?_, fun store i h hi hn hnew => ?_⟩⟩
  · rw [resolve_of_current hc, huntyped]
  · rw [resolve_of_current hc, htyped]
  · simp only [resolveScope, context, hc, ExecutionContext.resolveScope, htyped]
    rfl
  · simp only [resolveAs, context, hc, ExecutionContext.resolveAs, huntyped, hread]
  · refine ⟨_, read_of_current hc hv hi hn hnew, rfl, ?_⟩
    have hrequire : Reading.require ⟨h.spec, .resolved (s.type.inject a)⟩ =
        .ok (s.type.inject a) := rfl
    simp only [Reading.requireAs, hrequire, hn, hread]

end Thread

/-! ### Bound sets -/

/-- The context of a set's payload has the values of the set. -/
theorem ExecutionContext.value?_ofPayload (b : BindingSet) (n : String) :
    (ofPayload b.payload).value? n = b.value? n :=
  OrderedMap.find?_mapValues Binding.value b.bindings n

namespace Registry

variable {r : Registry} {strict : Bool} {now : Timestamp} {c : Config} {b : BindingSet}

/-- A declared parameter is bound to a finite value of its type. -/
theorem value?_of_bind (hr : r.Reachable) (hb : r.bind strict now c = .ok b) {s : ParameterSpec}
    (hs : s ∈ r.specs) :
    ∃ v, b.value? s.name = some v ∧ v.type = s.type ∧ v.isFinite = true := by
  obtain ⟨hsuits, hkeys⟩ := suits_of_bind hr.sound hb
  have hname : s.name ∈ b.bindings.keys := by
    rw [hkeys, names_eq_map_specs]
    exact List.mem_map_of_mem hs
  obtain ⟨⟨n, x⟩, hx, hn⟩ := List.mem_map.mp hname
  obtain rfl : n = s.name := hn
  obtain ⟨-, hf, q, hq, hqn, htype⟩ := hsuits _ x hx
  obtain rfl := spec_eq_of_name hs hq hqn
  exact ⟨x.value, BindingSet.value?_eq_some_iff.mpr ⟨x, hx, rfl⟩, htype, hf⟩

/-- A name that is not declared has no value. -/
theorem value?_of_bind_of_notMem (hr : r.Reachable) (hb : r.bind strict now c = .ok b)
    {n : String} (hn : n ∉ r.names) : b.value? n = none := by
  obtain ⟨-, hkeys⟩ := suits_of_bind hr.sound hb
  rw [Option.eq_none_iff_forall_ne_some]
  intro v hv
  obtain ⟨x, hx, -⟩ := BindingSet.value?_eq_some_iff.mp hv
  have hmem : n ∈ b.bindings.keys := List.mem_map.mpr ⟨(n, x), hx, rfl⟩
  exact hn (hkeys ▸ hmem)

/-- **What is bound is read back.** In a reachable registry, strict or not, a configuration
is bound. Wherever in the graph the payload of the set is then installed on a thread, each
declared parameter is bound to a value of its type that every way to read finds, and a name
that is not declared is unknown whatever type is asked for. -/
theorem reads_back (hr : r.Reachable) (hb : r.bind strict now c = .ok b) (outside : Thread)
    (place : Option Station) :
    let t := (outside.install { ExecutionContext.ofPayload b.payload with station := place }).1
    (∀ s ∈ r.specs, ∃ a, b.value? s.name = some (s.type.inject a) ∧ t.Finds s a) ∧
    ∀ n, n ∉ r.names → ∀ type, t.resolve n type = .error (.unknown n) := by
  intro t
  have hvalue : ∀ n, ExecutionContext.value?
      { ExecutionContext.ofPayload b.payload with station := place } n = b.value? n :=
    ExecutionContext.value?_ofPayload b
  constructor
  · intro s hs
    obtain ⟨v, hv, htype, hf⟩ := value?_of_bind hr hb hs
    obtain ⟨a, rfl, ha⟩ := Thread.finds_of_value? (t := t) rfl ((hvalue _).trans hv) htype hf
    exact ⟨a, hv, ha⟩
  · intro n hn type
    rw [Thread.resolve_of_current (t := t) rfl]
    exact ExecutionContext.resolve_of_absent
      ((hvalue n).trans (value?_of_bind_of_notMem hr hb hn)) type

/-- A registry with a parameter of each type. -/
def eachType : Registry where
  parameters := [⟨⟨"topic", .string, none, none⟩, none⟩,
    ⟨⟨"count", .integer, some (.integer 2), none⟩, none⟩,
    ⟨⟨"ratio", .float, none, none⟩, none⟩, ⟨⟨"flag", .boolean, none, none⟩, none⟩]
  distinct := by decide

/-- Each value is supplied as one of another type, with blanks around the texts; the ratio
is minus zero. On the first worker of a region it is found with its sign. -/
theorem reads_back_eachType :
    let c := ((Config.empty.set "flag" (.string " TRUE ")).set "ratio" (.string " -0.0 ")).set
      "topic" (.integer 7)
    ∃ b, eachType.Reachable ∧ eachType.bind true ⟨0, 0, 0⟩ c = .ok b ∧
      b.payload.values.entries = [("topic", .string "7"), ("count", .integer 2),
        ("ratio", .float (Binary64.zero true)), ("flag", .boolean true)] ∧
      let t := (Thread.idle.install
        { ExecutionContext.ofPayload b.payload with station := some ⟨"parallel-0", 0⟩ }).1
      t.Finds ⟨"ratio", .float, none, none⟩ (Binary64.zero true) ∧
        t.resolve "rate" (some .float) = .error (.unknown "rate") := by
  intro c
  have hall : Registry.empty.registerAll [("topic", ⟨none, none, none⟩),
      ("count", ⟨none, some (.integer 2), none⟩), ("ratio", ⟨some .float, none, none⟩),
      ("flag", ⟨some .boolean, none, none⟩)] = .ok eachType := by
    rfl
  have hr : eachType.Reachable := (reachable_registerAll .empty hall).1
  have hbound : ((eachType.bind true ⟨0, 0, 0⟩ c).map fun b => b.payload.values.entries) =
      .ok [("topic", .string "7"), ("count", .integer 2),
        ("ratio", .float (Binary64.zero true)), ("flag", .boolean true)] := by
    decide +kernel
  obtain ⟨b, hb, he⟩ := map_eq_ok_iff.mp hbound
  obtain ⟨hfinds, hunknown⟩ := reads_back hr hb Thread.idle (some ⟨"parallel-0", 0⟩)
  refine ⟨b, hr, hb, he, ?_, hunknown "rate" (by decide) _⟩
  obtain ⟨a, ha, hfound⟩ := hfinds ⟨"ratio", .float, none, none⟩ (by decide)
  have hvalue : b.value? "ratio" = some (.float (Binary64.zero true)) := by
    rw [← ExecutionContext.value?_ofPayload, ExecutionContext.value?, ExecutionContext.ofPayload,
      OrderedMap.find?, he]
    rfl
  obtain rfl : a = Binary64.zero true := by
    rw [hvalue] at ha
    exact (Value.float.inj (Option.some.inj ha)).symm
  exact hfound

end Registry
end JobParameters
