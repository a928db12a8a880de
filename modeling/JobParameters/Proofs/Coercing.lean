/-
# What a coercion gives

A coercion gives a value of the type that is asked for and no other, and what it gives is
finite (`Value.type_of_toType?`, `Value.isFinite_of_toType?`). A finite value of a type stands
for itself there (`Value.toType?_self`), so to coerce again changes nothing, and the payload
can always be taken out. A typed reading is therefore a coercion and nothing else
(`typed_eq_ok_iff`, `typed_eq_error_iff`): it has no error of its own.
-/
import JobParameters.Proofs.Sameness

namespace JobParameters

variable {name : String} {v w : Value} {t : ParamType} {e : ParameterError}

theorem coerce_eq_error_iff :
    coerce name v t = .error e ↔ v.toType? t = none ∧ e = .typeMismatch name t (.value v) := by
  unfold coerce
  cases v.toType? t with
  | none => simp [eq_comm]
  | some w => simp

/-- What a coercion gave is coerced to itself, whichever parameter it is for. -/
theorem coerce_again (h : coerce name v t = .ok w) (other : String) :
    coerce other w t = .ok w := by
  have hw : v.toType? t = some w := coerce_eq_ok.mp h
  have hself : w.toType? w.type = some w := Value.toType?_self (Value.isFinite_of_toType? hw)
  rw [Value.type_of_toType? hw] at hself
  exact coerce_eq_ok.mpr hself

/-- **A coercion lands in its type for good.** What it gives is of the type asked for and
finite, is coerced to itself, bit by bit, and has its payload taken out by every typed reading,
the first one and those of what was given. A typed reading is refused as the coercion is, with
the same error, and that is the mismatch of the value with the type. A finite value of the
type is left as it is. -/
theorem coercion_settles (name : String) (v : Value) (t : ParamType) :
    (∀ w, coerce name v t = .ok w → w.type = t ∧ w.isFinite = true ∧
      (∀ other, coerce other w t = .ok w) ∧
      ∃ a, t.extract? w = some a ∧ typed name v t = .ok a ∧ ∀ other, typed other w t = .ok a) ∧
    (∀ e, typed name v t = .error e ↔ coerce name v t = .error e) ∧
    (∀ e, coerce name v t = .error e → e = .typeMismatch name t (.value v)) ∧
    (v.type = t → v.isFinite = true → coerce name v t = .ok v) := by
  refine ⟨fun w hw => ?_, fun e => typed_eq_error_iff, fun e he => (coerce_eq_error_iff.mp he).2,
    fun ht hv => ?_⟩
  · have htype : w.type = t := Value.type_of_toType? (coerce_eq_ok.mp hw)
    have hfinite : w.isFinite = true := Value.isFinite_of_toType? (coerce_eq_ok.mp hw)
    obtain ⟨a, ha, hinject⟩ := exists_inject_of_coerce hw
    refine ⟨htype, hfinite, coerce_again hw, a, ha, ?_, fun other => ?_⟩
    · exact typed_eq_ok_iff.mpr (hinject ▸ hw)
    · exact typed_eq_ok_iff.mpr (hinject ▸ coerce_again hw other)
  · subst ht
    exact coerce_eq_ok.mpr (Value.toType?_self hv)

/-- A text is read as minus zero, which stays that for every parameter, while a float that is
no number is refused by a typed reading as it is by the coercion. -/
theorem coercion_settles_minusZero :
    coerce "ratio" (.string " -0e9 ") .float = .ok (.float (Binary64.zero true)) ∧
      typed "rate" (.float (Binary64.zero true)) .float = .ok (Binary64.zero true) ∧
      typed "ratio" (.float Binary64.nan) .float =
        .error (.typeMismatch "ratio" .float (.value (.float Binary64.nan))) := by
  have hzero : coerce "ratio" (.string " -0e9 ") .float = .ok (.float (Binary64.zero true)) := by
    decide +kernel
  obtain ⟨hsettles, -, -, -⟩ := coercion_settles "ratio" (.string " -0e9 ") .float
  obtain ⟨-, -, -, a, ha, -, hagain⟩ := hsettles _ hzero
  obtain ⟨-, hrefused, -, -⟩ := coercion_settles "ratio" (.float Binary64.nan) .float
  cases ha
  exact ⟨hzero, hagain "rate", (hrefused _).mpr rfl⟩

end JobParameters
