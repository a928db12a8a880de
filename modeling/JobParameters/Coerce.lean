/-
# Coercion of values to a type

The one table by which a value supplied for a parameter, or read inside a
worker, becomes a value of the type asked for. Texts are read without the blanks
around them; a float stands for an integer only if it is one; an integer stands
for a truth value only as 0 or 1; nothing but a text stands for itself and for
every other type.

Key definitions: `Value.toType?`, `coerce`, `typed`.
Key theorems: `Value.type_of_toType?`, `coerce_eq_ok`, `typed_eq_ok_iff`,
`typed_eq_error_iff`.
-/
import JobParameters.Binary64.Integral
import JobParameters.Decimal.Read
import JobParameters.ParameterError

namespace JobParameters

/-- The 64-bit integer of a number in range. -/
def integerOfInt? (n : Int) : Option Int64 :=
  if Int64.minValue.toInt ≤ n ∧ n ≤ Int64.maxValue.toInt then some (Int64.ofInt n) else none

namespace Value

/-- An integer: itself, an integral float in range, or a text that reads as one. -/
def toInteger? : Value → Option Int64
  | integer n => some n
  | float x => x.toInt64?
  | string s => (readInteger? (Text.trim s.toList)).bind integerOfInt?
  | boolean _ => none

/-- A finite float: itself, the one nearest to an integer, or a text that reads as one. -/
def toFloat? : Value → Option Binary64
  | float x => if x.isFinite then some x else none
  | integer n => some (Binary64.ofInt n.toInt)
  | string s => (Binary64.read? (Text.trim s.toList)).filter Binary64.isFinite
  | boolean _ => none

/-- A truth value: itself, 0 or 1, or a text that is one of these or a word for one. -/
def toBoolean? : Value → Option Bool
  | boolean b => some b
  | integer n => if n = 0 then some false else if n = 1 then some true else none
  | string s =>
    let word := String.ofList ((Text.trim s.toList).map Char.toLower)
    if word = "true" ∨ word = "1" then some true
    else if word = "false" ∨ word = "0" then some false
    else none
  | float _ => none

/-- A value as one of the given type. -/
def toType? (v : Value) : ParamType → Option Value
  | .string => some (string v.display)
  | .integer => v.toInteger?.map integer
  | .float => v.toFloat?.map float
  | .boolean => v.toBoolean?.map boolean

/-- What a coercion gives is of the type asked for. -/
theorem type_of_toType? {v w : Value} {t : ParamType} (h : v.toType? t = some w) :
    w.type = t := by
  cases t
  · simp only [toType?, Option.some.injEq] at h
    subst h
    rfl
  all_goals
    simp only [toType?, Option.map_eq_some_iff] at h
    obtain ⟨_, _, rfl⟩ := h
    rfl

end Value

/-- A value as one of the given type, or an error that names the parameter. -/
def coerce (name : String) (v : Value) (t : ParamType) : Except ParameterError Value :=
  match v.toType? t with
  | some w => .ok w
  | none => .error (.typeMismatch name t (.value v))

/-- A value as the payload of the given type. -/
def typed (name : String) (v : Value) (t : ParamType) : Except ParameterError t.Carrier :=
  match coerce name v t with
  | .error e => .error e
  | .ok w =>
    match t.extract? w with
    | some a => .ok a
    | none => .error (.typeMismatch name t (.stated w.display))

theorem coerce_eq_ok {name : String} {v w : Value} {t : ParamType} :
    coerce name v t = .ok w ↔ v.toType? t = some w := by
  unfold coerce
  cases v.toType? t <;> simp

/-- What a coercion gives has a payload of the type asked for. -/
theorem exists_inject_of_coerce {name : String} {v w : Value} {t : ParamType}
    (h : coerce name v t = .ok w) : ∃ a, t.extract? w = some a ∧ w = t.inject a := by
  have hsome : (t.extract? w).isSome = true := by
    rw [ParamType.isSome_extract?, Value.type_of_toType? (coerce_eq_ok.mp h)]
    exact decide_eq_true rfl
  obtain ⟨a, ha⟩ := Option.isSome_iff_exists.mp hsome
  exact ⟨a, ha, ParamType.extract?_eq_some.mp ha⟩

/-- A typed reading gives what the value is coerced to. -/
theorem typed_eq_ok_iff {name : String} {v : Value} {t : ParamType} {a : t.Carrier} :
    typed name v t = .ok a ↔ coerce name v t = .ok (t.inject a) := by
  unfold typed
  cases hc : coerce name v t with
  | error e => simp
  | ok w =>
    obtain ⟨b, hb, hw⟩ := exists_inject_of_coerce hc
    simp only [hb, Except.ok.injEq]
    constructor
    · rintro rfl
      exact hw
    · intro ha
      exact Option.some.inj (hb.symm.trans (ParamType.extract?_eq_some.mpr ha))

/-- A typed reading is refused only where the coercion is, so the mismatch of its own is
never told. -/
theorem typed_eq_error_iff {name : String} {v : Value} {t : ParamType} {e : ParameterError} :
    typed name v t = .error e ↔ coerce name v t = .error e := by
  unfold typed
  cases hc : coerce name v t with
  | error e' => simp
  | ok w =>
    obtain ⟨b, hb, -⟩ := exists_inject_of_coerce hc
    simp [hb]

end JobParameters
