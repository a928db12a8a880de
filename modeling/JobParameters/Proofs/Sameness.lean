/-
# Sameness of values, and coercion

On finite values sameness is an equivalence (`Value.same_self`, `Value.same_comm`,
`Value.same_trans`), and it keeps type and finiteness. A coercion lands in the
finite values of its type (`Value.isFinite_of_toType?`), and leaves a finite
value of that type alone (`Value.toType?_self`), so such a value can always be
read as what it is (`typed_of_type_eq`).
-/
import JobParameters.Coerce
import JobParameters.Proofs.Rounding

namespace JobParameters
namespace Value

variable {v w u : Value}

theorem same_self (h : v.isFinite = true) : v.same v = true := by
  cases v with
  | boolean b => simp [same]
  | integer n => simp [same]
  | float x =>
    rw [same, Binary64.sameNumber_self, Binary64.not_isNaN_of_isFinite h]
    rfl
  | string s => simp [same]

theorem same_symm (h : v.same w = true) : w.same v = true := by
  rwa [same_comm]

theorem same_trans (hvw : v.same w = true) (hwu : w.same u = true) : v.same u = true := by
  cases v <;> cases w <;> simp only [same, beq_iff_eq, Bool.false_eq_true] at hvw
  all_goals cases u <;> simp only [same, beq_iff_eq, Bool.false_eq_true] at hwu
  · simp [same, hvw, hwu]
  · simp [same, hvw, hwu]
  · exact Binary64.sameNumber_trans hvw hwu
  · simp [same, hvw, hwu]

/-- Two values that are the same as a third are the same. -/
theorem same_of_same_same (hv : v.same u = true) (hw : w.same u = true) : v.same w = true :=
  same_trans hv (same_symm hw)

theorem isFinite_eq_of_same (h : v.same w = true) : v.isFinite = w.isFinite := by
  cases v <;> cases w <;> simp only [same, Bool.false_eq_true] at h
  · rfl
  · rfl
  · exact Binary64.isFinite_eq_of_sameNumber h
  · rfl

/-- What a coercion gives is neither a NaN nor an infinity. -/
theorem isFinite_of_toType? {t : ParamType} (h : v.toType? t = some w) : w.isFinite = true := by
  cases t with
  | string =>
    simp only [toType?, Option.some.injEq] at h
    rw [← h]
    rfl
  | integer =>
    obtain ⟨n, -, rfl⟩ := Option.map_eq_some_iff.mp h
    rfl
  | boolean =>
    obtain ⟨b, -, rfl⟩ := Option.map_eq_some_iff.mp h
    rfl
  | float =>
    obtain ⟨x, hx, rfl⟩ := Option.map_eq_some_iff.mp h
    cases v with
    | boolean b => cases hx
    | integer n =>
      cases hx
      exact Binary64.isFinite_ofInt n
    | float y =>
      simp only [toFloat?, Option.ite_none_right_eq_some, Option.some.injEq] at hx
      rw [← hx.2]
      exact hx.1
    | string s => exact (Option.filter_eq_some_iff.mp hx).2

/-- A finite value is coerced to its own type as it is. -/
theorem toType?_self (h : v.isFinite = true) : v.toType? v.type = some v := by
  cases v with
  | boolean b => rfl
  | integer n => rfl
  | float x =>
    have hx : x.isFinite = true := h
    simp [type, toType?, toFloat?, hx]
  | string s => rfl

end Value

/-- A finite value is read as one of its own type, and nothing is changed. -/
theorem typed_of_type_eq {name : String} {v : Value} {t : ParamType} (ht : v.type = t)
    (hv : v.isFinite = true) : ∃ a, typed name v t = .ok a ∧ t.inject a = v := by
  subst ht
  have hself : coerce name v v.type = .ok v := coerce_eq_ok.mpr (Value.toType?_self hv)
  obtain ⟨a, -, ha⟩ := exists_inject_of_coerce hself
  refine ⟨a, typed_eq_ok_iff.mpr ?_, ha.symm⟩
  rw [← ha]
  exact hself

end JobParameters
