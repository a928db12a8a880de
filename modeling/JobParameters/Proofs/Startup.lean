/-
# The startup payload crosses to the workers

A payload is encoded as a JSON document and decoded from it again. The job name, the names
and their order always come back as they were, and so does every value that is not a float,
whatever its text looks like. A float that is not finite makes the document one that no
payload is decoded from; a finite one comes back as a float, if at all, and never as an
integer (`Payload.Recalls`). That it is the same float is what the numbers of the document
have to be good for: the numeral written for it, taken for a float, denotes it
(`Binary64.ReadsBack`).

What an accepted submission sends has finite values only (`Topology.finite_of_submit`), so
the workers decode it (`Payload.crosses`).
-/
import JobParameters.Context
import JobParameters.Proofs.Agreement
import JobParameters.Proofs.Rereading

namespace JobParameters

open Json

/-! ### Payloads -/

namespace Payload

variable {p q : Payload}

/-- Every value is finite. -/
def Finite (p : Payload) : Prop := ∀ v ∈ p.values.values, v.isFinite = true

/-- Every float is read back from the numeral that is written for it. -/
def ReadsBack (p : Payload) : Prop := ∀ v ∈ p.values.values, v.ReadsBack

instance : DecidablePred Finite := fun p => by unfold Finite; infer_instance

instance : DecidablePred ReadsBack := fun p => by unfold ReadsBack; infer_instance

/-- The same job name and the same names in the same order, each with the same value, or
with a float in place of a float. -/
def Recalls (p q : Payload) : Prop :=
  q.jobName = p.jobName ∧
    List.Forall₂ (fun e e' => e'.1 = e.1 ∧ e.2.Recalls e'.2) p.values.entries q.values.entries

/-- **Decoding an encoded payload decodes its values, each under its name.** -/
theorem decode?_encode_eq_some_iff : decode? p.encode = some q ↔ q.jobName = p.jobName ∧
    List.Forall₂ (fun e e' => e'.1 = e.1 ∧ e.2.returned? = some e'.2)
      p.values.entries q.values.entries := by
  have hfields : (toJson p).reread.fields? ["job_name", "values"] =
      some [some (nullOr Json.string p.jobName).reread,
        some (p.values.toJson Value.toJson).reread] := by
    simp [toJson, reread, rereadMembers, fields?, membersOf, onlyOne?]
  have hdecode : decode? p.encode =
      (mapOf? Value.ofJson? (p.values.toJson Value.toJson).reread).map fun vs =>
        ⟨p.jobName, vs⟩ := by
    rw [decode?, encode, parse?_compact, Option.bind_some, ofJson?, hfields]
    simp only [Option.bind_eq_bind, Option.bind_some, absentOr?_string_nullOr, orDefault?]
    cases mapOf? Value.ofJson? (p.values.toJson Value.toJson).reread <;> rfl
  rw [hdecode, Option.map_eq_some_iff]
  simp only [OrderedMap.mapOf?_reread_toJson_eq_some_iff]
  constructor
  · rintro ⟨vs, hvs, rfl⟩
    exact ⟨rfl, hvs⟩
  · rintro ⟨hj, hvs⟩
    exact ⟨q.values, hvs, by rw [← hj]⟩

theorem decode?_encode_of_finite (h : p.Finite) (hp : p.ReadsBack) :
    decode? p.encode = some p := by
  refine decode?_encode_eq_some_iff.mpr ⟨rfl, List.forall₂_same.mpr fun e he => ⟨rfl, ?_⟩⟩
  have hv : e.2 ∈ p.values.values := List.mem_map_of_mem he
  exact Value.returned?_eq_self (h _ hv) (hp _ hv)

/-- A payload is decoded only if all values are finite. -/
theorem finite_of_decode? (h : decode? p.encode = some q) : p.Finite := by
  obtain ⟨-, hvs⟩ := decode?_encode_eq_some_iff.mp h
  have hfin : ∀ e ∈ p.values.entries, e.2.isFinite = true := by
    refine ((List.forall₂_and_left _ _).mp (hvs.imp fun e e' he => ⟨?_, he⟩)).1
    by_contra hne
    rw [Value.returned?_of_not_finite (Bool.not_eq_true _ ▸ hne)] at he
    exact nomatch he.2
  intro v hv
  obtain ⟨e, he, rfl⟩ := List.mem_map.mp hv
  exact hfin e he

end Payload

/-! ### Accepted submissions -/

namespace Topology

/-- An accepted submission sends finite values only. -/
theorem finite_of_submit {t t' : Topology} (ht : t.registry.Reachable) {now : Timestamp}
    {c : Config} {x : Submission} (h : t.submit now c = .ok (t', x)) :
    x.bindings.payload.Finite := by
  obtain ⟨b, hb, hc⟩ := submit_cases h
  obtain ⟨r, -, -, rfl⟩ := commit_eq_ok_iff.mp hc
  obtain ⟨hsuits, -⟩ := Registry.suits_of_bind ht.sound hb
  intro v hv
  obtain ⟨e, he, rfl⟩ := List.mem_map.mp hv
  obtain ⟨⟨n, y⟩, hy, rfl⟩ := List.mem_map.mp he
  exact (hsuits n y hy).2.1

end Topology

namespace Payload

/-- **A startup payload crosses to the workers.** Decoding what it is encoded as gives it
back if its floats are finite, as far as the numeral of each float is read back as that
float, and fails if one is not. Whatever is decoded has the job name, the names in their
order and for each name the same value, or a float in place of a float. What an accepted
submission sends is finite, so no worker fails to decode it. -/
theorem crosses (p : Payload) :
    (p.Finite → p.ReadsBack → decode? p.encode = some p) ∧
    (¬ p.Finite → decode? p.encode = none) ∧
    (∀ q, decode? p.encode = some q → p.Recalls q) ∧
    ∀ (t t' : Topology) (now : Timestamp) (c : Config) (x : Submission),
      t.registry.Reachable → t.submit now c = .ok (t', x) → x.bindings.payload = p →
        p.Finite ∧ (p.ReadsBack → ExecutionContext.decode? p.encode = some (.ofPayload p)) := by
  refine ⟨decode?_encode_of_finite, fun h => ?_, fun q hq => ?_,
    fun t t' now c x ht hx hp => ?_⟩
  · rw [Option.eq_none_iff_forall_ne_some]
    exact fun q hq => h (finite_of_decode? hq)
  · obtain ⟨hj, hvs⟩ := decode?_encode_eq_some_iff.mp hq
    exact ⟨hj, hvs.imp fun e e' he => ⟨he.1, Value.recalls_of_returned? he.2⟩⟩
  · subst hp
    have hfin := Topology.finite_of_submit ht hx
    refine ⟨hfin, fun hread => ?_⟩
    rw [ExecutionContext.decode?, decode?_encode_of_finite hfin hread]
    rfl

/-- What is easily taken for something else: texts that look like other values or hold what
a document escapes, floats that are whole, minus zero, and the least integer. -/
def lookalikes : OrderedMap Value :=
  .ofList [("", .string "quote \" slash \\ bell \x07 line\nλ😀"), ("digits", .string "42"),
    ("word", .string "true"), ("nothing", .string "null"), ("flag", .boolean false),
    ("whole", .float (Binary64.ofNat 3)), ("zero", .float (Binary64.zero true)),
    ("tenth", .float ⟨0x3fb999999999999a⟩), ("large", .float ⟨0x7fefffffffffffff⟩),
    ("least", .integer Int64.minValue)]

/-- A topology with a rate and a topic that looks like a number. -/
def hourly : Topology where
  name := "jobs"
  strict := false
  registry := {
    parameters := [⟨⟨"rate", .float, none, none⟩, none⟩,
      ⟨⟨"topic", .string, some (.string "7"), none⟩, none⟩]
    distinct := by decide }

/-- All of it comes back, and nothing comes back once there is a NaN. A job that is
submitted with a whole rate is decoded. -/
theorem crosses_lookalikes :
    let p : Payload := ⟨some "night\tly", lookalikes⟩
    let q : Payload := ⟨none, lookalikes.insert "rate" (.float Binary64.nan)⟩
    decode? p.encode = some p ∧ decode? q.encode = none ∧
      ∃ t' x, hourly.submit ⟨0, 0, 0⟩ (Config.empty.set "rate" (.string " 2 ")) = .ok (t', x) ∧
        x.bindings.payload.values.entries =
          [("rate", .float (Binary64.ofNat 2)), ("topic", .string "7")] ∧
        ExecutionContext.decode? x.bindings.payload.encode =
          some (.ofPayload x.bindings.payload) := by
  intro p q
  have hreach : hourly.registry.Reachable :=
    (Topology.reachable_ofManifest (m := ⟨some "jobs", .ofList [("rate", ⟨some .float, none, none⟩),
      ("topic", ⟨none, some (.string "7"), none⟩)]⟩) rfl).1
  have haccepted : ((hourly.submit ⟨0, 0, 0⟩ (Config.empty.set "rate" (.string " 2 "))).map
      fun a => a.2.bindings.payload.values.entries) =
        .ok [("rate", .float (Binary64.ofNat 2)), ("topic", .string "7")] := by
    decide +kernel
  obtain ⟨⟨t', x⟩, hx, he⟩ := map_eq_ok_iff.mp haccepted
  refine ⟨(crosses p).1 (by decide +kernel) (by decide +kernel),
    (crosses q).2.1 (by decide +kernel), t', x, hx, he,
    ((crosses _).2.2.2 hourly t' _ _ x hreach hx rfl).2 ?_⟩
  have hvalues : x.bindings.payload.values.values =
      [.float (Binary64.ofNat 2), .string "7"] := by
    rw [OrderedMap.values, he]
    rfl
  rw [ReadsBack, hvalues]
  decide +kernel

end Payload
end JobParameters
