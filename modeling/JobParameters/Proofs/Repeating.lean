/-
# What is declared or committed a second time

A parameter may be declared again, and a set may be committed to slots that hold values. Both
go through if the value that is there and the one that comes in are the same, as numbers if
they are floats. Of two such values the one that is there stands for the other
(`Value.StandsFor`): they are one value with one text, or the two zeros, whose texts differ. A
NaN is not the same as anything.

So a declaration that goes through gives the default that was there, and that is the default
that was asked for or the other zero (`Registration.answer_eq_ok_iff_of_mem`). After a commit
a slot holds the value of the set, or held the other zero before
(`Registry.stands_of_commit`). To commit the set once more changes nothing, and it goes
through unless the set has a NaN, which is then refused (`Registry.clashes_of_commit`).
-/
import JobParameters.Proofs.Committing
import JobParameters.Proofs.Declaring

namespace JobParameters

/-! ### Values that stand for one another -/

namespace Value

variable {v w : Value}

/-- No number, though a float. -/
def isNaN : Value → Bool
  | float x => x.isNaN
  | _ => false

/-- The two zeros. -/
def Opposite (v w : Value) : Prop :=
  ∃ negative, v = .float (.zero negative) ∧ w = .float (.zero !negative)

/-- A value that is there, for one that comes in: it is that value, with its text, or the
other zero, with another one. -/
structure StandsFor (v w : Value) : Prop where
  type : v.type = w.type
  text : v.display = w.display ↔ v = w
  zeros : v ≠ w ↔ v.Opposite w

/-- Values are the same if they are one value, and no NaN, or the two zeros. -/
theorem same_iff : v.same w = true ↔ (v = w ∧ v.isNaN = false) ∨ v.Opposite w := by
  cases v <;> cases w <;> simp [same, isNaN, Opposite, Binary64.sameNumber_iff_eq_or_zeros]

theorem Opposite.display_ne (h : v.Opposite w) : v.display ≠ w.display := by
  obtain ⟨negative, rfl, rfl⟩ := h
  cases negative <;> decide +kernel

theorem Opposite.ne (h : v.Opposite w) : v ≠ w :=
  fun hvw => h.display_ne (congrArg display hvw)

theorem Opposite.isNaN (h : v.Opposite w) : w.isNaN = false := by
  obtain ⟨negative, rfl, rfl⟩ := h
  cases negative <;> rfl

theorem StandsFor.refl (v : Value) : v.StandsFor v :=
  ⟨rfl, ⟨fun _ => rfl, fun _ => rfl⟩, ⟨fun h => absurd rfl h, fun h => h.ne⟩⟩

/-- What is the same stands for the other. -/
theorem standsFor_of_same (h : v.same w = true) : v.StandsFor w := by
  have htype : v.type = w.type := type_eq_of_same h
  rcases same_iff.mp h with ⟨rfl, -⟩ | hzeros
  · exact .refl v
  · exact ⟨htype, ⟨fun ht => absurd ht hzeros.display_ne, fun hvw => absurd hvw hzeros.ne⟩,
      ⟨fun _ => hzeros, fun _ => hzeros.ne⟩⟩

/-- What stands for a value that is no NaN is the same. -/
theorem StandsFor.same (h : v.StandsFor w) (hw : w.isNaN = false) : v.same w = true := by
  by_cases hvw : v = w
  · subst hvw
    exact same_iff.mpr (Or.inl ⟨rfl, hw⟩)
  · exact same_iff.mpr (Or.inr (h.zeros.mp hvw))

theorem not_isNaN_of_isFinite (h : v.isFinite = true) : v.isNaN = false := by
  cases v with
  | float x => exact Binary64.not_isNaN_of_isFinite h
  | _ => rfl

end Value

/-! ### Declarations -/

namespace Registration

variable {r : Registry} {c : Registration} {s : ParameterSpec}

/-- A call for a name that is there gives the parameter of that name if it is declared the
same. -/
theorem answer_eq_ok_iff_sameDeclaration (hn : c.name ∈ r.names) :
    c.answer r = .ok s ↔
      s ∈ r.specs ∧ ∃ s₀, c.spec = .ok s₀ ∧ s.sameDeclaration s₀ = true := by
  constructor
  · intro h
    obtain ⟨s₀, hs₀, hname, hreg⟩ := perform_cases (perform_of_answer h)
    rcases Registry.register_cases hreg with ⟨-, hmem, hsame⟩ | ⟨-, hnew, -⟩
    · exact ⟨hmem, s₀, hs₀, hsame⟩
    · exact absurd (hname ▸ hn) hnew
  · rintro ⟨hmem, s₀, hs₀, hsame⟩
    have hperform : c.perform r = .ok (r, s) := by
      unfold perform
      rw [hs₀]
      exact Registry.register_of_mem hmem hsame
    rcases c.step_cases r with ⟨e, hp, -, -⟩ | ⟨r', s', hp, ha, -⟩
    · cases hperform.symm.trans hp
    · rw [ha, (Prod.mk.inj (Except.ok.inj (hperform.symm.trans hp))).2]

/-- A call with a default, for a name that is there, goes through exactly if it is in order,
is of the type that is there, and the default that is there stands for the one asked for. -/
theorem answer_eq_ok_iff_of_mem (hn : c.name ∈ r.names) {d : Value} (hd : c.default = some d) :
    c.answer r = .ok s ↔ s ∈ r.specs ∧ s.name = c.name ∧ s.type = c.type ∧
      (∃ s₀, c.spec = .ok s₀) ∧ ∃ v, s.default = some v ∧ v.StandsFor d := by
  rw [answer_eq_ok_iff_sameDeclaration hn]
  refine and_congr_right fun _ => ?_
  constructor
  · rintro ⟨s₀, hs₀, hsame⟩
    obtain ⟨hname, htype, hdefault⟩ := ParameterSpec.sameDeclaration_iff.mp hsame
    obtain ⟨-, -, rfl⟩ := ParameterSpec.declare_eq_ok_iff.mp hs₀
    refine ⟨hname, htype, ⟨_, hs₀⟩, ?_⟩
    dsimp only at hdefault
    rw [hd] at hdefault
    cases hv : s.default with
    | none => simp [hv, sameOption] at hdefault
    | some v =>
      rw [hv] at hdefault
      exact ⟨v, rfl, Value.standsFor_of_same hdefault⟩
  · rintro ⟨hname, htype, ⟨s₀, hs₀⟩, v, hv, hstands⟩
    refine ⟨s₀, hs₀, ?_⟩
    obtain ⟨-, hfinite, rfl⟩ := ParameterSpec.declare_eq_ok_iff.mp hs₀
    refine ParameterSpec.sameDeclaration_iff.mpr ⟨hname, htype, ?_⟩
    rw [hv, hd]
    exact hstands.same (Value.not_isNaN_of_isFinite (hfinite d hd).1)

end Registration

/-! ### Commits -/

namespace Registry

variable {r r' : Registry} {b : BindingSet} {n : String} {w : Value}

/-- After a commit a slot holds a value that stands for that of the set: the value itself, or
the other zero if it was there before. -/
theorem stands_of_commit (hb : b.OwnNames) (h : r.commit b = .ok r') (hw : b.value? n = some w) :
    ∃ v, r'.bound? n = some v ∧ v.StandsFor w ∧ (v = w ∨ r.bound? n = some v) := by
  have hn : n ∈ r.names := by
    cases (commit_eq_iff hb).mp h with
    | filled hk _ _ _ => exact (hk n).mp (BindingSet.mem_keys_iff.mpr ⟨w, hw⟩)
  obtain ⟨w', hw', hv⟩ := bound_of_commit hb h hn
  obtain rfl : w = w' := Option.some.inj (hw.symm.trans hw')
  rcases hv with hv | ⟨v, hu, hv, hsame⟩
  · exact ⟨w, hv, .refl w, Or.inl rfl⟩
  · exact ⟨v, hv, Value.standsFor_of_same hsame, Or.inr hu⟩

/-- What was committed clashes with its slots where it has a NaN, and nowhere else. -/
theorem clashes_of_commit (hb : b.OwnNames) (h : r.commit b = .ok r') :
    r'.Clashes b n ↔ ∃ w, b.value? n = some w ∧ w.isNaN = true := by
  constructor
  · rintro ⟨v, w, hv, hw, hd⟩
    obtain ⟨v', hv', hstands, -⟩ := stands_of_commit hb h hw
    obtain rfl : v = v' := Option.some.inj (hv.symm.trans hv')
    refine ⟨w, hw, ?_⟩
    by_contra hnan
    rw [hstands.same (by simpa using hnan)] at hd
    cases hd
  · rintro ⟨w, hw, hnan⟩
    obtain ⟨v, hv, -, -⟩ := stands_of_commit hb h hw
    refine ⟨v, w, hv, hw, ?_⟩
    by_contra hsame
    rcases Value.same_iff.mp (by simpa using hsame) with ⟨rfl, hv⟩ | hzeros
    · cases hnan.symm.trans hv
    · cases hnan.symm.trans hzeros.isNaN

/-- What was committed is committed again without a change, or refused for its first NaN. -/
theorem commit_again (hb : b.OwnNames) (h : r.commit b = .ok r') :
    (r'.commit b = .ok r' ∧ ∀ n w, b.value? n = some w → w.isNaN = false) ∨
      ∃ n, r'.commit b = .error (.alreadyBound n) ∧
        FirstIn (fun n => ∃ w, b.value? n = some w ∧ w.isNaN = true) b.bindings.keys n := by
  have hkeys := keys_of_commit hb h
  by_cases hnan : ∃ n ∈ b.bindings.keys, ∃ w, b.value? n = some w ∧ w.isNaN = true
  · obtain ⟨n, hfirst⟩ := FirstIn.exists hnan
    refine Or.inr ⟨n, (commit_eq_iff hb).mpr (.alreadyBound hkeys ?_), hfirst⟩
    exact (FirstIn.congr fun m _ => clashes_of_commit hb h).mpr hfirst
  · have hnumbers : ∀ n w, b.value? n = some w → w.isNaN = false := by
      intro n w hw
      by_contra hw'
      exact hnan ⟨n, BindingSet.mem_keys_iff.mpr ⟨w, hw⟩, w, hw, by simpa using hw'⟩
    refine Or.inl ⟨commit_of_held hb hkeys fun n w hw => ?_, hnumbers⟩
    obtain ⟨v, hv, hstands, -⟩ := stands_of_commit hb h hw
    exact ⟨v, hv, hstands.same (hnumbers n w hw)⟩

/-- **What is taken for the same** is one value with one text, but for the two zeros and for
NaNs. Take any registry. A name that is there is declared again with a default exactly if the
declaration is in order and of the type that is there, and the default that is there, which is
what it gives, stands for the new one. Take a set made from any list of bindings that is
committed. Every slot then holds a value that stands for that of the set, and it is another one
only where it was there before. Committed once more the set changes nothing, and that goes
through exactly if no value of the set is a NaN; else it is refused for the first one. -/
theorem repeats_settle (r : Registry) (c : Registration) (j : Option String) (now : Timestamp)
    (bs : List Binding) :
    let b := BindingSet.ofBindings j now bs
    (∀ s d, c.name ∈ r.names → c.default = some d →
      (c.answer r = .ok s ↔ s ∈ r.specs ∧ s.name = c.name ∧ s.type = c.type ∧
        (∃ s₀, c.spec = .ok s₀) ∧ ∃ v, s.default = some v ∧ v.StandsFor d)) ∧
    ∀ r', r.commit b = .ok r' →
      (∀ n w, b.value? n = some w → ∃ v, r'.bound? n = some v ∧ v.StandsFor w ∧
        (v = w ∨ r.bound? n = some v)) ∧
      ((commitInPlace b).run r').2 = r' ∧
      (r'.commit b = .ok r' ↔ ∀ n w, b.value? n = some w → w.isNaN = false) ∧
      ∀ e, r'.commit b = .error e → ∃ n, e = .alreadyBound n ∧
        FirstIn (fun n => ∃ w, b.value? n = some w ∧ w.isNaN = true) b.bindings.keys n := by
  intro b
  have hb : b.OwnNames := BindingSet.ownNames_ofBindings j now bs
  refine ⟨fun s d hn hd => Registration.answer_eq_ok_iff_of_mem hn hd, fun r' h => ?_⟩
  refine ⟨fun n w hw => stands_of_commit hb h hw, ?_⟩
  rw [run_commitInPlace]
  rcases commit_again hb h with ⟨hagain, hnumbers⟩ | ⟨n, hrefused, hfirst⟩
  · rw [hagain]
    exact ⟨rfl, ⟨fun _ => hnumbers, fun _ => rfl⟩, nofun⟩
  · obtain ⟨-, w, hw, hnan⟩ := hfirst.mem
    rw [hrefused]
    refine ⟨rfl, ⟨nofun, fun hnumbers => ?_⟩, fun e he => ?_⟩
    · cases hnan.symm.trans (hnumbers n w hw)
    · cases he
      exact ⟨n, rfl, hfirst⟩

/-- A ratio of zero is declared again as minus zero, and a commit of minus zero goes through
where it is bound to zero; both times the text is another one. A NaN that was committed is
refused when it is committed again. -/
theorem repeats_differ_ratio :
    let zero := Value.float (.zero false)
    let minusZero := Value.float (.zero true)
    let ratio : ParameterSpec := ⟨"ratio", .float, some zero, none⟩
    let r : Registry := ⟨[⟨ratio, none⟩], by decide⟩
    let set (v : Value) := BindingSet.ofBindings none ⟨0, 0, 0⟩
      [⟨"ratio", .float, v, .override, ⟨0, 0, 0⟩⟩]
    ((Registration.plain "ratio" (some zero) none).answer .empty = .ok ratio ∧
      (Registration.plain "ratio" (some minusZero) none).answer r = .ok ratio ∧
      zero.display ≠ minusZero.display) ∧
      (∃ r₁, r.commit (set zero) = .ok r₁ ∧ r₁.commit (set minusZero) = .ok r₁ ∧
        r₁.bound? "ratio" = some zero) ∧
      ∃ r₁, r.commit (set (.float .nan)) = .ok r₁ ∧
        r₁.commit (set (.float .nan)) = .error (.alreadyBound "ratio") := by
  intro zero minusZero ratio r set
  have hzero : r.commit (set zero) = .ok (r.fill (set zero).toList) := by rfl
  have hnan : r.commit (set (.float .nan)) = .ok (r.fill (set (.float .nan)).toList) := by rfl
  exact ⟨⟨by decide +kernel, by decide +kernel, by decide +kernel⟩, ⟨_, hzero, by rfl, by rfl⟩,
    _, hnan, by rfl⟩

end Registry
end JobParameters
