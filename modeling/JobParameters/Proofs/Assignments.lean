/-
# Assignments on the command line

An override is a name, an equality sign and a text. It is split at its first equality sign,
and the name is trimmed (`CommandLine.override?_eq_ok_iff`). So the names that can be assigned
to are those without an equality sign in them and without blanks around them (`Assignable`).

Two halves meet at the configuration. Arguments become overrides (`readOptions_attached`,
`readOptions_separate`), which are supplied in turn, so that the last assignment to a name is
what the configuration has for it. A configuration is bound exactly if each parameter is due a
binding (`Registry.exists_bind_iff`), and what is supplied for a parameter is what it is bound
from (`Registry.get?_of_bind`).

Key definitions: `Assignable`, `CommandLine.assignment`, `CommandLine.Sets`.
-/
import JobParameters.Proofs.Overrides

namespace JobParameters

/-! ### Trimmed texts -/

namespace Text

/-- No blank at either end. -/
def Unpadded (cs : List Char) : Prop :=
  (∀ c ∈ cs.head?, isBlank c = false) ∧ ∀ c ∈ cs.getLast?, isBlank c = false

theorem trimStart_of_head? {cs : List Char} (h : ∀ c ∈ cs.head?, isBlank c = false) :
    trimStart cs = cs := by
  cases cs with
  | nil => rfl
  | cons c cs => exact trimStart_eq_self c cs (h c rfl)

theorem head?_trimStart (cs : List Char) : ∀ c ∈ (trimStart cs).head?, isBlank c = false := by
  intro c hc
  have h := List.head?_dropWhile_not isBlank cs
  rw [trimStart] at hc
  rw [Option.mem_def.mp hc] at h
  simpa using h

theorem unpadded_trim (cs : List Char) : Unpadded (trim cs) := by
  have hsuffix : trimStart (trimStart cs).reverse <:+ (trimStart cs).reverse :=
    List.dropWhile_suffix _
  constructor
  · intro c hc
    have hprefix : trim cs <+: trimStart cs := by
      have h := List.reverse_prefix.mpr hsuffix
      rwa [List.reverse_reverse] at h
    obtain ⟨ds, hds⟩ := hprefix
    have hne : trim cs ≠ [] := by
      intro h
      rw [h] at hc
      cases hc
    refine head?_trimStart cs c ?_
    rw [← hds, List.head?_append_of_ne_nil _ hne]
    exact hc
  · intro c hc
    rw [trim, trimEnd, List.getLast?_reverse] at hc
    exact head?_trimStart _ c hc

/-- Blanks around a text without any at its ends are all that is trimmed. -/
theorem trim_around {a b cs : List Char} (ha : a.all isBlank = true) (hb : b.all isBlank = true)
    (h : Unpadded cs) : trim (a ++ cs ++ b) = cs := by
  have hreverse : b.reverse.all isBlank = true := by rwa [List.all_reverse]
  rw [trim, List.append_assoc, trimStart_append_blank _ _ ha]
  cases cs with
  | nil =>
    have hstart : trimStart b = [] := by
      have := trimStart_append_blank b [] hb
      rwa [List.append_nil] at this
    rw [List.nil_append, hstart]
    rfl
  | cons c cs =>
    have hstart : trimStart (c :: cs ++ b) = c :: cs ++ b := trimStart_of_head? h.1
    have hend : trimStart (c :: cs).reverse = (c :: cs).reverse := by
      refine trimStart_of_head? ?_
      rw [List.head?_reverse]
      exact h.2
    rw [hstart, trimEnd, List.reverse_append, trimStart_append_blank _ _ hreverse, hend,
      List.reverse_reverse]

theorem trim_eq_self {cs : List Char} (h : Unpadded cs) : trim cs = cs := by
  have := trim_around (a := []) (b := []) rfl rfl h
  rwa [List.nil_append, List.append_nil] at this

theorem trim_trim (cs : List Char) : trim (trim cs) = trim cs :=
  trim_eq_self (unpadded_trim cs)

theorem mem_of_mem_trim {c : Char} {cs : List Char} (h : c ∈ trim cs) : c ∈ cs := by
  have hend : c ∈ (trimStart cs).reverse :=
    (List.dropWhile_suffix _).subset (List.mem_reverse.mp h)
  exact (List.dropWhile_suffix _).subset (List.mem_reverse.mp hend)

end Text

/-! ### Names that can be assigned to -/

/-- A name without an equality sign in it and without blanks around it. -/
def Assignable (name : String) : Prop :=
  '=' ∉ name.toList ∧ Text.trim name.toList = name.toList

instance : DecidablePred Assignable := fun _ => inferInstanceAs (Decidable (_ ∧ _))

namespace CommandLine

variable {raw name text : String} {v : Value} {before after : List Char}

/-- A name, an equality sign and a text. -/
def assignment (name text : String) : String := name ++ "=" ++ text

theorem toList_assignment (name text : String) :
    (assignment name text).toList = name.toList ++ '=' :: text.toList := by
  simp [assignment]

theorem ne_of_notMem {cs : List Char} (h : '=' ∉ cs) : ∀ c ∈ cs, (c != '=') = true := by
  intro c hc
  rw [bne_iff_ne]
  rintro rfl
  exact h hc

theorem override?_of_split (hraw : raw.toList = before ++ '=' :: after) (h : '=' ∉ before) :
    override? raw = if Text.trim before = [] then .error (.nameless raw)
      else .ok (String.ofList (Text.trim before), .string (String.ofList after)) := by
  have hall := ne_of_notMem h
  have hspan : raw.toList.span (· != '=') = (before, '=' :: after) := by
    rw [List.span_eq_takeWhile_dropWhile, hraw, List.takeWhile_append_of_pos hall,
      List.dropWhile_append_of_pos hall]
    simp
  simp only [override?, hspan, List.isEmpty_iff]

theorem override?_of_notMem (h : '=' ∉ raw.toList) : override? raw = .error (.unassigned raw) := by
  have hspan : raw.toList.span (· != '=') = (raw.toList, []) := by
    have hall := ne_of_notMem h
    rw [List.span_eq_takeWhile_dropWhile, List.takeWhile_eq_self_iff.mpr hall,
      List.dropWhile_eq_nil_iff.mpr hall]
  simp only [override?, hspan]

/-- **An override is split at its first equality sign**, the name before it is trimmed and may
not be empty, and the text after it is kept. -/
theorem override?_eq_ok_iff : override? raw = .ok (name, v) ↔
    ∃ before after : List Char, raw.toList = before ++ '=' :: after ∧ '=' ∉ before ∧
      Text.trim before ≠ [] ∧ name = String.ofList (Text.trim before) ∧
      v = .string (String.ofList after) := by
  constructor
  · intro h
    by_cases hmem : '=' ∈ raw.toList
    · obtain ⟨before, after, hraw, hbefore⟩ := List.eq_append_cons_of_mem hmem
      rw [override?_of_split hraw hbefore] at h
      split at h
      · cases h
      · next hne =>
        cases h
        exact ⟨before, after, hraw, hbefore, hne, rfl, rfl⟩
    · rw [override?_of_notMem hmem] at h
      cases h
  · rintro ⟨before, after, hraw, hbefore, hne, rfl, rfl⟩
    rw [override?_of_split hraw hbefore, if_neg hne]

/-- A name that an override has can be assigned to. -/
theorem assignable_of_override? (h : override? raw = .ok (name, v)) : Assignable name := by
  obtain ⟨before, after, -, hbefore, -, rfl, -⟩ := override?_eq_ok_iff.mp h
  rw [Assignable, String.toList_ofList]
  exact ⟨fun hmem => hbefore (Text.mem_of_mem_trim hmem), Text.trim_trim before⟩

/-- **An assignment to such a name is an override of it with that text.** -/
theorem override?_assignment (h : Assignable name) (hne : name ≠ "") (text : String) :
    override? (assignment name text) = .ok (name, .string text) := by
  refine override?_eq_ok_iff.mpr ⟨name.toList, text.toList, toList_assignment name text, h.1, ?_⟩
  rw [h.2]
  refine ⟨?_, by simp, by simp⟩
  simpa using hne

/-! ### Overrides in a configuration -/

variable {raws : List String} {c c' : Config}

/-- A name that no override has keeps what the configuration has for it. -/
theorem find?_supply (h : supply c raws = .ok c')
    (hname : ∀ raw ∈ raws, ∀ v, override? raw ≠ .ok (name, v)) :
    c'.parameters.find? name = c.parameters.find? name := by
  induction raws generalizing c with
  | nil =>
    cases h
    rfl
  | cons raw raws ih =>
    simp only [supply] at h
    split at h
    · cases h
    · next n v hraw =>
      have hne : name ≠ n := by
        rintro rfl
        exact hname raw List.mem_cons_self v hraw
      rw [ih h fun raw hmem => hname raw (List.mem_cons_of_mem _ hmem), Config.set,
        OrderedMap.find?_insert, if_neg hne]

end CommandLine

/-! ### A text that is supplied -/

theorem exists_forall₂_iff {α β : Type} {R : α → β → Prop} :
    ∀ {as : List α}, (∃ bs, List.Forall₂ R as bs) ↔ ∀ a ∈ as, ∃ b, R a b
  | [] => by simp
  | a :: as => by
    rw [List.forall_mem_cons, ← exists_forall₂_iff]
    constructor
    · rintro ⟨_, hab⟩
      cases hab with
      | cons h has => exact ⟨⟨_, h⟩, _, has⟩
    · rintro ⟨⟨b, h⟩, bs, has⟩
      exact ⟨b :: bs, .cons h has⟩

theorem exists_mem_of_forall₂ {α β : Type} {R : α → β → Prop} {as : List α} {bs : List β}
    (h : List.Forall₂ R as bs) {a : α} (ha : a ∈ as) : ∃ b ∈ bs, R a b := by
  induction h with
  | nil => cases ha
  | cons hab _ ih =>
    rcases List.mem_cons.mp ha with rfl | ha
    · exact ⟨_, List.mem_cons_self, hab⟩
    · obtain ⟨b, hb, hr⟩ := ih ha
      exact ⟨b, List.mem_cons_of_mem _ hb, hr⟩

theorem ParameterSpec.Sound.name_ne_empty {s : ParameterSpec} (h : s.Sound) : s.name ≠ "" := by
  intro hempty
  have hnamed := h.named
  rw [hempty] at hnamed
  cases hnamed

/-- Where a value is supplied, a binding is due exactly if the value can be coerced. -/
theorem ParameterSpec.exists_due_iff {s : ParameterSpec} {now : Timestamp}
    {supplied : OrderedMap Value} {v : Value} (hv : supplied.find? s.name = some v) :
    (∃ x, s.Due now supplied x) ↔ ∃ w, coerce s.name v s.type = .ok w := by
  constructor
  · rintro ⟨x, hx⟩
    rcases hx.value with ⟨v', hv', hw, -⟩ | ⟨hnone, -, -⟩
    · obtain rfl : v' = v := Option.some.inj (hv'.symm.trans hv)
      exact ⟨_, hw⟩
    · rw [hnone] at hv
      cases hv
  · rintro ⟨w, hw⟩
    exact ⟨⟨s.name, s.type, w, .override, now⟩, rfl, rfl, rfl, Or.inl ⟨v, hv, hw, rfl⟩⟩

namespace Registry

variable {r : Registry} {strict : Bool} {now : Timestamp} {c : Config} {b : BindingSet}
  {s q : ParameterSpec} {v w : Value}

/-- A configuration is bound exactly if it is admitted and each parameter is due a binding. -/
theorem exists_bind_iff : (∃ b, r.bind strict now c = .ok b) ↔
    r.Admits strict c.parameters ∧ ∀ s ∈ r.specs, ∃ x, s.Due now c.parameters x := by
  rw [← exists_forall₂_iff]
  constructor
  · rintro ⟨b, hb⟩
    obtain ⟨hforeign, bs, hbs, -⟩ := bind_eq_ok_iff.mp hb
    exact ⟨firstForeign?_eq_none_iff.mp hforeign, bs, map_resolve_eq_iff.mp hbs⟩
  · rintro ⟨hadmits, bs, hbs⟩
    exact ⟨_, bind_eq_ok_iff.mpr
      ⟨firstForeign?_eq_none_iff.mpr hadmits, bs, map_resolve_eq_iff.mpr hbs, rfl⟩⟩

/-- What is supplied for a parameter is coerced, and that is what the parameter is bound to. -/
theorem get?_of_bind (hb : r.bind strict now c = .ok b) (hs : s ∈ r.specs)
    (hv : c.parameters.find? s.name = some v) :
    ∃ w, coerce s.name v s.type = .ok w ∧
      b.get? s.name = some ⟨s.name, s.type, w, .override, now⟩ := by
  obtain ⟨-, -, -, hdue⟩ := bind_eq_ok_iff_due.mp hb
  obtain ⟨⟨n, x⟩, hx, rfl, hname, htype, hnow, hvalue⟩ := exists_mem_of_forall₂ hdue hs
  rcases hvalue with ⟨v', hv', hw, horigin⟩ | ⟨hnone, -, -⟩
  · obtain rfl : v' = v := Option.some.inj (hv'.symm.trans hv)
    refine ⟨x.value, hw, OrderedMap.find?_eq_some_iff.mpr ?_⟩
    obtain ⟨name, type, value, origin, resolvedAt⟩ := x
    cases hname
    cases htype
    cases hnow
    cases horigin
    exact hx
  · rw [hnone] at hv
    cases hv

/-- Two values that a declaration coerces alike are bound alike. -/
theorem bind_set_congr (hs : s ∈ r.specs) (h : coerce s.name v s.type = coerce s.name w s.type) :
    r.bind strict now (c.set s.name v) = r.bind strict now (c.set s.name w) := by
  have hkeys : (c.set s.name v).parameters.keys = (c.set s.name w).parameters.keys := by
    rw [Config.set, Config.set, OrderedMap.keys_insert, OrderedMap.keys_insert]
  have hresolve : (r.specs.map fun q => q.resolve now (c.set s.name v).parameters) =
      r.specs.map fun q => q.resolve now (c.set s.name w).parameters := by
    refine List.map_congr_left fun q hq => ?_
    simp only [ParameterSpec.resolve, Config.set, OrderedMap.find?_insert]
    by_cases hname : q.name = s.name
    · obtain rfl := spec_eq_of_name hs hq hname
      simp only [if_pos, h]
    · simp only [if_neg hname]
  have hforeign : r.firstForeign? strict (c.set s.name v).parameters =
      r.firstForeign? strict (c.set s.name w).parameters := by
    rw [firstForeign?, firstForeign?, hkeys]
  unfold bind
  rw [hforeign, hresolve]
  rfl

end Registry

namespace CommandLine

/-! ### Assignments as arguments -/

variable {name text : String} {task : Task}

/-- An assignment starts as its name does. -/
theorem toList_assignment_eq_cons (h : name ≠ "") (text : String) : ∃ c cs,
    name.toList = c :: cs ∧ (assignment name text).toList = c :: (cs ++ '=' :: text.toList) := by
  obtain ⟨c, cs, hcs⟩ := List.exists_cons_of_ne_nil (l := name.toList) (by simpa using h)
  refine ⟨c, cs, hcs, ?_⟩
  rw [toList_assignment, hcs]
  rfl

/-- What is attached to the letter of overrides is the override, unless it starts with the sign
that attaches values. -/
theorem flag?_attached {c : Char} (hc : c ≠ '=') (cs : List Char) :
    flag? ('-' :: 'P' :: c :: cs) = some (.override, some (String.ofList (c :: cs))) := by
  simp [flag?, Flag.ofLetter?, hc]

theorem isFor_override (h : task ≠ .params) : Flag.override.isFor task = true := by
  cases task with
  | params => exact absurd rfl h
  | check => rfl
  | payload => rfl

/-- An argument that comes with an override gives it. -/
theorem readOptions_override {arg raw : String} (htask : task ≠ .params)
    (hflag : flag? arg.toList = some (.override, some raw)) (o : Options) (args : List String) :
    readOptions task none o (arg :: args) =
      readOptions task none { o with overrides := o.overrides ++ [raw] } args := by
  have hends : arg ≠ "--" := by
    rintro rfl
    have hnone : flag? "--".toList = none := by decide
    rw [hnone] at hflag
    cases hflag
  simp only [readOptions, if_neg hends, hflag, Option.filter_some, isFor_override htask, if_true,
    reduceCtorEq, false_and, if_false, Options.give]

/-- An assignment that is attached to the option is taken whatever the name starts with. -/
theorem readOptions_attached (hname : Assignable name) (hne : name ≠ "") (htask : task ≠ .params)
    (o : Options) (args : List String) :
    readOptions task none o (("-P" ++ assignment name text) :: args) =
      readOptions task none { o with overrides := o.overrides ++ [assignment name text] } args := by
  obtain ⟨c, cs, hcs, hraw⟩ := toList_assignment_eq_cons hne text
  have hc : c ≠ '=' := by
    rintro rfl
    exact hname.1 (hcs ▸ List.mem_cons_self)
  have harg : ("-P" ++ assignment name text).toList = '-' :: 'P' :: (assignment name text).toList :=
    String.toList_append
  refine readOptions_override htask ?_ o args
  rw [harg, hraw, flag?_attached hc, ← hraw, String.ofList_toList]

/-- An assignment that is the next argument is taken unless the name starts with a hyphen. -/
theorem readOptions_separate (hne : name ≠ "") (htask : task ≠ .params) (o : Options)
    (args : List String) :
    readOptions task none o ("-P" :: assignment name text :: args) =
      if name.toList.head? = some '-' then .error .invalid
      else readOptions task none { o with overrides := o.overrides ++ [assignment name text] }
        args := by
  obtain ⟨c, cs, hcs, hraw⟩ := toList_assignment_eq_cons hne text
  have hflag : flag? ("-P" : String).toList = some (.override, none) := rfl
  have hdash : (assignment name text != "-") = true := by
    rw [bne_iff_ne]
    intro h
    rw [h] at hraw
    have hlength := congrArg List.length hraw
    simp at hlength
  have hhyphen : isHyphened (assignment name text) = decide (name.toList.head? = some '-') := by
    rw [isHyphened, hdash, Bool.and_true, hraw, hcs, List.head?_cons, List.head?_cons,
      Bool.eq_iff_iff, decide_eq_true_eq, beq_iff_eq]
  have hends : ("-P" : String) ≠ "--" := by decide
  have hvalue : Flag.override.takesValue = true := rfl
  simp only [readOptions, if_neg hends, hflag, Option.filter_some, isFor_override htask, if_true,
    hvalue, hhyphen, decide_eq_true_eq, Options.give]

/-! ### Assignments in a request -/

variable {m : Manifest} {t : Topology} {s : ParameterSpec} {r : Request}
  {before after : List String} {c : Config}

/-- Overrides are supplied in turn. -/
theorem configuration_append (r : Request) (sur : Surroundings) (before after : List String) :
    { r with overrides := before ++ after }.configuration sur =
      { r with overrides := before }.configuration sur >>= fun c => supply c after := by
  have hbase : { r with overrides := before ++ after }.base sur = r.base sur := rfl
  have hbase' : { r with overrides := before }.base sur = r.base sur := rfl
  rw [Request.configuration, Request.configuration, hbase, hbase']
  cases r.base sur with
  | error e => rfl
  | ok c => exact supply_append _ _ _

/-- What it comes to that a declared parameter is assigned a text. -/
structure Sets (g : Registry) (s : ParameterSpec) (text : String) : Prop where
  /-- Attached to its option, the assignment is one more override. -/
  attached : ∀ task o args, task ≠ .params →
    readOptions task none o (("-P" ++ assignment s.name text) :: args) =
      readOptions task none { o with overrides := o.overrides ++ [assignment s.name text] } args
  /-- So it is as the next argument, if the name does not start with a hyphen. -/
  separate : ∀ task o args, task ≠ .params → s.name.toList.head? ≠ some '-' →
    readOptions task none o ("-P" :: assignment s.name text :: args) =
      readOptions task none { o with overrides := o.overrides ++ [assignment s.name text] } args
  /-- The last override sets the parameter to the text, and nothing else. -/
  last : ∀ (r : Request) (sur : Surroundings),
    { r with overrides := r.overrides ++ [assignment s.name text] }.configuration sur =
      (r.configuration sur).map fun c => c.set s.name (.string text)
  /-- Overrides of other names leave it at that. -/
  kept : ∀ (r : Request) (sur : Surroundings) (before after : List String) (c : Config),
    r.overrides = before ++ assignment s.name text :: after →
    (∀ raw ∈ after, ∀ v, override? raw ≠ .ok (s.name, v)) → r.configuration sur = .ok c →
    c.parameters.find? s.name = some (.string text)
  /-- What the parameter is then bound to is the text, coerced to its type. -/
  bound : ∀ (strict : Bool) (now : Timestamp) (c : Config) (b : BindingSet),
    c.parameters.find? s.name = some (.string text) → g.bind strict now c = .ok b →
    ∃ w, coerce s.name (.string text) s.type = .ok w ∧
      b.get? s.name = some ⟨s.name, s.type, w, .override, now⟩
  /-- And it is bound if the text can be coerced and nothing else is amiss. -/
  binds : ∀ (strict : Bool) (now : Timestamp) (c : Config),
    c.parameters.find? s.name = some (.string text) →
    ((∃ b, g.bind strict now c = .ok b) ↔ g.Admits strict c.parameters ∧
      (∃ w, coerce s.name (.string text) s.type = .ok w) ∧
      ∀ q ∈ g.specs, q ≠ s → ∃ x, q.Due now c.parameters x)

theorem configuration_assignment (hname : Assignable s.name) (hne : s.name ≠ "") (r : Request)
    (sur : Surroundings) (before after : List String) :
    { r with overrides := before ++ assignment s.name text :: after }.configuration sur =
      { r with overrides := before }.configuration sur >>= fun c =>
        supply (c.set s.name (.string text)) after := by
  rw [configuration_append]
  simp only [supply, override?_assignment hname hne]

theorem sets_of_assignable {g : Registry} (hs : s ∈ g.specs) (hsound : s.Sound)
    (hname : Assignable s.name) (text : String) : Sets g s text where
  attached _ o args htask := readOptions_attached hname hsound.name_ne_empty htask o args
  separate _ o args htask hhyphen := by
    rw [readOptions_separate hsound.name_ne_empty htask, if_neg hhyphen]
  last r sur := by
    rw [configuration_assignment hname hsound.name_ne_empty]
    cases r.configuration sur <;> rfl
  kept r sur before after c hr hafter hc := by
    have hself : r = { r with overrides := before ++ assignment s.name text :: after } := by
      rw [← hr]
    rw [hself, configuration_assignment hname hsound.name_ne_empty] at hc
    cases hbefore : { r with overrides := before }.configuration sur with
    | error e =>
      rw [hbefore] at hc
      cases hc
    | ok c₀ =>
      rw [hbefore] at hc
      have hafter := find?_supply hc hafter
      rw [hafter, Config.set, OrderedMap.find?_insert, if_pos rfl]
  bound _ _ _ _ hc hb := Registry.get?_of_bind hb hs hc
  binds strict now c hc := by
    rw [Registry.exists_bind_iff, ← ParameterSpec.exists_due_iff hc]
    refine and_congr_right fun _ => ⟨fun h => ⟨h s hs, fun q hq _ => h q hq⟩, ?_⟩
    rintro ⟨hdue, hothers⟩ q hq
    by_cases hqs : q = s
    · exact hqs ▸ hdue
    · exact hothers q hq hqs

/-- A name that cannot be assigned to has what the configuration without overrides has. -/
theorem find?_of_not_assignable {name : String} (h : ¬ Assignable name) {sur : Surroundings}
    (hc : r.configuration sur = .ok c) :
    ∃ c₀, { r with overrides := [] }.configuration sur = .ok c₀ ∧
      c.parameters.find? name = c₀.parameters.find? name := by
  have hsplit : r.configuration sur = { r with overrides := [] }.configuration sur >>= fun c =>
      supply c r.overrides := configuration_append r sur [] r.overrides
  rw [hsplit] at hc
  cases hnone : { r with overrides := [] }.configuration sur with
  | error e =>
    rw [hnone] at hc
    cases hc
  | ok c₀ =>
    rw [hnone] at hc
    refine ⟨c₀, rfl, find?_supply hc fun raw _ v hraw => h (assignable_of_override? hraw)⟩

/-- **A declared parameter can be set from the command line if its name is assignable, and
otherwise not.** Of each parameter that a manifest declares: if its name has no equality sign in
it and no blanks around it, to assign it a text sets it to that text and nothing else, and it
is bound from that text. If not, no overrides change what is supplied for it. -/
theorem assignments_set_parameters (ht : Topology.ofManifest m = .ok t)
    (hs : s ∈ t.registry.specs) :
    (Assignable s.name → ∀ text, Sets t.registry s text) ∧
    (¬ Assignable s.name → ∀ (r : Request) (sur : Surroundings) (c : Config),
      r.configuration sur = .ok c → ∃ c₀, { r with overrides := [] }.configuration sur = .ok c₀ ∧
        c.parameters.find? s.name = c₀.parameters.find? s.name) := by
  have hsound : s.Sound := (Topology.reachable_ofManifest ht).1.sound s hs
  exact ⟨fun hname text => sets_of_assignable hs hsound hname text,
    fun hname r sur c hc => find?_of_not_assignable hname hc⟩

/-- One name that can be assigned to, and two that cannot. -/
def threeNames : List (String × ParamType) :=
  [("width", .integer), (" width ", .integer), ("a=b", .string)]

/-- The manifest that declares them. -/
def ofThreeNames : Manifest :=
  ⟨none, .ofList (threeNames.map fun (n, t) => (n, ⟨some t, none, none⟩))⟩

/-- The topology that it describes. -/
def threeNamed : Topology := ⟨"default", false, .ofTypes threeNames (by decide)⟩

/-- A request with overrides only. -/
def overriding (raws : List String) : Request := ⟨.payload, "jobs.json", none, raws, none, false⟩

/-- Nothing to be seen. -/
def noFiles : Surroundings := ⟨fun _ => none, none, ⟨0, 0, 0⟩⟩

/-- A width is set with blanks in the text, and one with blanks in the name is not. -/
theorem assignments_set_parameters_width :
    Topology.ofManifest ofThreeNames = .ok threeNamed ∧
    (let s : ParameterSpec := ⟨"width", .integer, none, none⟩
     s ∈ threeNamed.registry.specs ∧ Assignable s.name ∧ Sets threeNamed.registry s " 3 ") ∧
    (let s : ParameterSpec := ⟨" width ", .integer, none, none⟩
     s ∈ threeNamed.registry.specs ∧ ¬ Assignable s.name ∧
      ∃ c, (overriding [" width = 3 "]).configuration noFiles = .ok c ∧
        c.parameters.find? s.name = none) := by
  have ht : Topology.ofManifest ofThreeNames = .ok threeNamed := rfl
  refine ⟨ht, ?_, ?_⟩
  · intro s
    have hs : s ∈ threeNamed.registry.specs := by decide
    have hname : Assignable s.name := by decide
    exact ⟨hs, hname, (assignments_set_parameters ht hs).1 hname " 3 "⟩
  · intro s
    have hs : s ∈ threeNamed.registry.specs := by decide
    have hname : ¬ Assignable s.name := by decide
    have hc : (overriding [" width = 3 "]).configuration noFiles =
      .ok (Config.empty.set "width" (.string " 3 ")) := rfl
    obtain ⟨c₀, hc₀, hfind⟩ := (assignments_set_parameters ht hs).2 hname _ _ _ hc
    cases hc₀
    exact ⟨hs, hname, _, hc, hfind⟩

/-- Not every declared parameter can be set by an assignment: the first equality sign ends its
name, and the blanks around it are dropped. -/
theorem not_every_name_set : ¬ ∀ (m : Manifest) (t : Topology), Topology.ofManifest m = .ok t →
    ∀ s ∈ t.registry.specs, ∀ (text : String) (sur : Surroundings) (c : Config),
      (overriding [assignment s.name text]).configuration sur = .ok c →
        c.parameters.find? s.name = some (.string text) := by
  intro h
  have hs : (⟨"a=b", .string, none, none⟩ : ParameterSpec) ∈ threeNamed.registry.specs := by
    decide
  have hc : (overriding [assignment "a=b" "x"]).configuration noFiles =
      .ok (Config.empty.set "a" (.string "b=x")) := rfl
  have hfind := h ofThreeNames threeNamed rfl _ hs "x" noFiles _ hc
  cases hfind

end CommandLine
end JobParameters
