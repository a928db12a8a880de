/-
# A rejected job leaves no trace

A job is rejected when its configuration cannot be bound, its pipeline cannot be planned,
or a slot holds another value; once it runs, whatever goes wrong is the failure of a worker
(`submitAndRun_cases`). A rejected job changes nothing and makes no call; any other binds
every parameter to what the configuration came to. So attempts that were rejected might as
well not have been made (`Store.after_unrejected`).
-/
import JobParameters.Proofs.Resolution
import JobParameters.Proofs.Workers

namespace JobParameters
namespace Registry

variable {r : Registry} {b : BindingSet} {e : ParameterError}

/-- A set that was bound for the registry is refused only for a slot that holds another
value. -/
theorem alreadyBound_of_commit (hb : b.Suits r) (hk : b.bindings.keys = r.names)
    (h : r.commit b = .error e) : ∃ n v w, e = .alreadyBound n ∧ b.value? n = some v ∧
      r.bound? n = some w ∧ w.same v = false := by
  have hlisted : ∀ x ∈ b.toList, (x.name, x) ∈ b.bindings.entries := fun x hx => by
    obtain ⟨n, hn⟩ := BindingSet.mem_toList_iff.mp hx
    rwa [(hb n x hn).1]
  unfold commit at h
  split at h
  · next x hx =>
    have hmem := List.mem_of_find?_eq_some hx
    have hn : x.name ∈ r.names := hk ▸ List.mem_map_of_mem (hlisted x hmem)
    have hc := List.find?_some hx
    rw [(contains_iff r x.name).mpr hn] at hc
    cases hc
  · split at h
    · next n ns hl =>
      have hn : n ∈ r.lacking b := hl ▸ List.mem_cons_self
      obtain ⟨hn, hc⟩ := List.mem_filter.mp hn
      have hb : b.contains n = true := OrderedMap.contains_eq_true_iff.mpr (hk ▸ hn)
      rw [hb] at hc
      cases hc
    · split at h
      · next x hx =>
        cases h
        have hmem := List.mem_of_find?_eq_some hx
        have hd := List.find?_some hx
        unfold disagrees at hd
        split at hd
        · next w hw =>
          exact ⟨x.name, x.value, w, rfl,
            BindingSet.value?_eq_some_iff.mpr ⟨x, hlisted x hmem, rfl⟩, hw, by simpa using hd⟩
        · cases hd
      · cases h

end Registry

section

variable {σ : Type} {s : Store} {i : Nat} {t : Topology} {now : Timestamp} {p : Pipeline σ}
  {c : Config}

/-- A job that runs fails in a worker if at all. -/
theorem isSome_station_of_runRegions {payload : String} {rs : List (Region σ)}
    {tuples : List Json} {e : RunError} (h : (runRegions payload rs tuples s).result = .error e) :
    e.station?.isSome = true := by
  induction rs generalizing tuples s with
  | nil => cases h
  | cons r rs ih =>
    unfold runRegions at h
    dsimp only at h
    split at h
    · next e' he =>
      cases h
      have hl := region_of_gather he
      rw [← Option.isSome_map, hl]
      rfl
    · exact ih (map_eq_error_iff.mp h)

theorem result_execute_ne {source : List Json} {b : BindingSet} {rs : List (Region σ)}
    (e : ParameterError) : (execute source b rs s).result ≠ .error (.parameter e) := by
  intro h
  cases isSome_station_of_runRegions (map_eq_error_iff.mp h)

/-- How a submission goes: it is refused at one of three points, or the job runs on the
store with its values. -/
theorem submitAndRun_cases (s : Store) (i : Nat) (t : Topology) (now : Timestamp)
    (p : Pipeline σ) (c : Config) :
    (∃ e, t.preflight now c = .error e ∧
      s.submitAndRun i t now p c = ⟨.error (.parameter e), [], s⟩) ∨
    (∃ b e, t.preflight now c = .ok b ∧ p.plan b = .error e ∧
      s.submitAndRun i t now p c = ⟨.error (.parameter e), [], s⟩) ∨
    (∃ b rs e, t.preflight now c = .ok b ∧ p.plan b = .ok rs ∧ t.registry.commit b = .error e ∧
      s.submitAndRun i t now p c = ⟨.error (.parameter e), [], s⟩) ∨
    (∃ b rs r, t.preflight now c = .ok b ∧ p.plan b = .ok rs ∧ t.registry.commit b = .ok r ∧
      s.submitAndRun i t now p c =
        execute p.source b rs (s.setTopology i { t with registry := r })) := by
  unfold Store.submitAndRun
  cases hb : t.preflight now c with
  | error e => exact Or.inl ⟨e, rfl, rfl⟩
  | ok b =>
    refine Or.inr ?_
    cases hp : p.plan b with
    | error e => exact Or.inl ⟨b, e, rfl, hp, by simp only [hp]⟩
    | ok rs =>
      refine Or.inr ?_
      cases hr : t.registry.commit b with
      | error e =>
        exact Or.inl ⟨b, rs, e, rfl, hp, hr, by simp only [hp, Topology.commit, hr, Except.map]⟩
      | ok r =>
        exact Or.inr ⟨b, rs, r, rfl, hp, hr, by simp only [hp, Topology.commit, hr, Except.map]⟩

/-- A rejected job changes nothing and calls nothing, not even to make an instance. -/
theorem of_rejected {e : ParameterError}
    (h : (s.submitAndRun i t now p c).result = .error (.parameter e)) :
    (s.submitAndRun i t now p c).store = s ∧ (s.submitAndRun i t now p c).calls = [] := by
  rcases submitAndRun_cases s i t now p c with
    ⟨_, -, hs⟩ | ⟨_, _, -, -, hs⟩ | ⟨_, _, _, -, -, -, hs⟩ | ⟨b, rs, r, -, -, -, hs⟩
  · rw [hs]
    exact ⟨rfl, rfl⟩
  · rw [hs]
    exact ⟨rfl, rfl⟩
  · rw [hs]
    exact ⟨rfl, rfl⟩
  · rw [hs] at h
    exact absurd h (result_execute_ne e)

/-- Why a job is rejected: its configuration, its pipeline, or a slot with another value. -/
theorem reason_of_rejected (hr : t.registry.Reachable) {e : ParameterError}
    (h : (s.submitAndRun i t now p c).result = .error (.parameter e)) :
    t.preflight now c = .error e ∨ ∃ b, t.preflight now c = .ok b ∧
      (p.plan b = .error e ∨ ∃ n v w, e = .alreadyBound n ∧ b.value? n = some v ∧
        t.registry.bound? n = some w ∧ w.same v = false) := by
  rcases submitAndRun_cases s i t now p c with
    ⟨_, hb, hs⟩ | ⟨b, _, hb, hp, hs⟩ | ⟨b, _, _, hb, -, hc, hs⟩ | ⟨b, rs, r, -, -, -, hs⟩
  · rw [hs] at h
    cases h
    exact Or.inl hb
  · rw [hs] at h
    cases h
    exact Or.inr ⟨b, hb, Or.inl hp⟩
  · rw [hs] at h
    cases h
    obtain ⟨hsuits, hkeys⟩ := Registry.suits_of_bind hr.sound hb
    exact Or.inr ⟨b, hb, Or.inr (Registry.alreadyBound_of_commit hsuits hkeys hc)⟩
  · rw [hs] at h
    exact absurd h (result_execute_ne e)

/-- A job that is not rejected binds every parameter to the value that was computed. -/
theorem bound_of_not_rejected (hi : s.topologies[i]? = some t) (hr : t.registry.Reachable)
    (h : ∀ e, (s.submitAndRun i t now p c).result ≠ .error (.parameter e)) :
    ∃ b t', t.preflight now c = .ok b ∧
      (s.submitAndRun i t now p c).store.topologies[i]? = some t' ∧
      t'.registry.specs = t.registry.specs ∧
      ∀ n ∈ t.registry.names, ∃ v w, b.value? n = some v ∧ t'.registry.bound? n = some w ∧
        w.same v = true := by
  rcases submitAndRun_cases s i t now p c with
    ⟨e, -, hs⟩ | ⟨_, e, -, -, hs⟩ | ⟨_, _, e, -, -, -, hs⟩ | ⟨b, rs, r, hb, -, hc, hs⟩
  · exact absurd (by rw [hs]) (h e)
  · exact absurd (by rw [hs]) (h e)
  · exact absurd (by rw [hs]) (h e)
  · obtain ⟨hsuits, hkeys⟩ := Registry.suits_of_bind hr.sound hb
    have hlt : i < s.topologies.length := (List.getElem?_eq_some_iff.mp hi).1
    refine ⟨b, { t with registry := r }, hb, ?_, Registry.specs_commit hc, fun n hn => ?_⟩
    · rw [hs, topologies_execute, Store.setTopology, List.getElem?_set_self hlt]
    · obtain ⟨⟨k, x⟩, hx, rfl⟩ := List.mem_map.mp (hkeys.symm ▸ hn)
      have hv : b.value? k = some x.value := BindingSet.value?_eq_some_iff.mpr ⟨x, hx, rfl⟩
      obtain ⟨w, hw, hvw⟩ := Registry.bound?_of_commit hsuits hc hv
      exact ⟨x.value, w, hv, hw, Value.same_symm hvw⟩

end

/-! ### Attempts on one topology -/

/-- A pipeline that is to be run with a configuration, and when. -/
structure Attempt where
  State : Type
  now : Timestamp
  pipeline : Pipeline State
  config : Config

/-- Whether a run was refused before it started. -/
def Ran.isRejected {α : Type} (r : Ran α) : Bool :=
  match r.result with
  | .error (.parameter _) => true
  | _ => false

theorem Ran.isRejected_iff {α : Type} {r : Ran α} :
    r.isRejected = true ↔ ∃ e, r.result = .error (.parameter e) := by
  unfold isRejected
  constructor
  · intro h
    split at h
    · next e he => exact ⟨e, he⟩
    · cases h
  · rintro ⟨e, he⟩
    rw [he]

namespace Store

/-- What comes of an attempt on the topology of a number, if there is one. -/
def attempt? (s : Store) (i : Nat) (a : Attempt) : Option (Ran Report) :=
  (s.topologies[i]?).map fun t => s.submitAndRun i t a.now a.pipeline a.config

/-- Whether an attempt is rejected. -/
def rejects (s : Store) (i : Nat) (a : Attempt) : Bool :=
  (s.attempt? i a).any Ran.isRejected

/-- The store after an attempt. -/
def afterOne (s : Store) (i : Nat) (a : Attempt) : Store :=
  ((s.attempt? i a).map Ran.store).getD s

/-- The store after attempts, one after the other. -/
def after (s : Store) (i : Nat) (as : List Attempt) : Store :=
  as.foldl (fun s a => s.afterOne i a) s

/-- The attempts that are not rejected when they are made one after the other. -/
def unrejected (s : Store) (i : Nat) : List Attempt → List Attempt
  | [] => []
  | a :: as =>
    let rest := (s.afterOne i a).unrejected i as
    if s.rejects i a then rest else a :: rest

theorem afterOne_of_rejects {s : Store} {i : Nat} {a : Attempt} (h : s.rejects i a = true) :
    s.afterOne i a = s := by
  unfold afterOne
  unfold rejects at h
  cases ha : s.attempt? i a with
  | none => rfl
  | some ran =>
    rw [ha, Option.any_some] at h
    obtain ⟨t, ht, hran⟩ := Option.map_eq_some_iff.mp ha
    obtain ⟨e, he⟩ := Ran.isRejected_iff.mp h
    rw [← hran] at he
    rw [Option.map_some, Option.getD_some, ← hran]
    exact (of_rejected he).1

/-- Attempts that are rejected make no difference to those that are not. -/
theorem after_unrejected (s : Store) (i : Nat) (as : List Attempt) :
    s.after i (s.unrejected i as) = s.after i as := by
  induction as generalizing s with
  | nil => rfl
  | cons a as ih =>
    have hrest :
        (s.afterOne i a).after i ((s.afterOne i a).unrejected i as) = s.after i (a :: as) :=
      ih (s.afterOne i a)
    unfold unrejected
    split
    · next hr =>
      rw [afterOne_of_rejects hr] at hrest ⊢
      exact hrest
    · exact hrest

/-- **A rejected job leaves no trace.** On any topology of a store, a job that is rejected
leaves the store as it is and calls nothing; its configuration could not be bound, its
pipeline could not be planned, or a slot held another value. Any other job, however it
ends, binds every parameter to what the configuration came to. And whatever attempts were
made on the topology, the next one goes as if the rejected ones among them had not been
made. -/
theorem rejected_leaves_no_trace {s : Store} {i : Nat} {t : Topology}
    (hi : s.topologies[i]? = some t) (hr : t.registry.Reachable) {σ : Type} (now : Timestamp)
    (p : Pipeline σ) (c : Config) :
    let ran := s.submitAndRun i t now p c
    (∀ e, ran.result = .error (.parameter e) → ran.store = s ∧ ran.calls = [] ∧
      (t.preflight now c = .error e ∨ ∃ b, t.preflight now c = .ok b ∧
        (p.plan b = .error e ∨ ∃ n v w, e = .alreadyBound n ∧ b.value? n = some v ∧
          t.registry.bound? n = some w ∧ w.same v = false))) ∧
    ((∀ e, ran.result ≠ .error (.parameter e)) → ∃ b t', t.preflight now c = .ok b ∧
      ran.store.topologies[i]? = some t' ∧ t'.registry.specs = t.registry.specs ∧
      ∀ n ∈ t.registry.names, ∃ v w, b.value? n = some v ∧ t'.registry.bound? n = some w ∧
        w.same v = true) ∧
    ∀ as a, (s.after i (s.unrejected i as)).attempt? i a = (s.after i as).attempt? i a := by
  intro ran
  refine ⟨fun e he => ?_, fun h => bound_of_not_rejected hi hr h, fun as a => ?_⟩
  · obtain ⟨hstore, hcalls⟩ := of_rejected he
    exact ⟨hstore, hcalls, reason_of_rejected hr he⟩
  · rw [after_unrejected]

/-- A pipeline whose only region is as wide as a parameter says, with three tuples. -/
def sized : Pipeline Unit :=
  .build [.integer 1, .integer 2, .integer 3]
    [.parallel (.parameter (.fresh 0 ⟨"width", .integer, none, none⟩)), .map .done]

/-- Four attempts: the width zero cannot be planned, the width two is run, the width three
is not that of the slot, and the width two may be run again. -/
def sizes : List Attempt :=
  [0, 2, 3, 2].map fun n =>
    ⟨Unit, ⟨0, 0, 0⟩, sized, Config.empty.set "width" (.integer n)⟩

theorem rejected_leaves_no_trace_sizes :
    let spec : ParameterSpec := ⟨"width", .integer, none, none⟩
    let t : Topology := ⟨"jobs", false, Registry.empty.append spec rfl⟩
    let s : Store := ⟨[t], [.fresh 0 spec]⟩
    let zero := Config.empty.set "width" (.integer 0)
    s.topologies[0]? = some t ∧ t.registry.Reachable ∧
    (s.unrejected 0 sizes).length = 2 ∧
    (∃ e, (s.submitAndRun 0 t ⟨0, 0, 0⟩ sized zero).result = .error (.parameter e) ∧
      (s.submitAndRun 0 t ⟨0, 0, 0⟩ sized zero).store = s ∧
      (s.submitAndRun 0 t ⟨0, 0, 0⟩ sized zero).calls = []) ∧
    ∀ a, (s.after 0 (s.unrejected 0 sizes)).attempt? 0 a = (s.after 0 sizes).attempt? 0 a := by
  intro spec t s zero
  have hd : ParameterSpec.declare "width" none (some .integer) none = .ok spec := by
    decide +kernel
  have hr : t.registry.Reachable := .register .empty hd rfl
  have h := rejected_leaves_no_trace (s := s) (i := 0) (t := t) rfl hr ⟨0, 0, 0⟩ sized zero
  obtain ⟨e, he⟩ := Ran.isRejected_iff.mp
    (show (s.submitAndRun 0 t ⟨0, 0, 0⟩ sized zero).isRejected = true by decide +kernel)
  obtain ⟨hstore, hcalls, -⟩ := h.1 e he
  exact ⟨rfl, hr, by decide +kernel, ⟨e, he, hstore, hcalls⟩, h.2.2 sizes⟩

end Store
end JobParameters
