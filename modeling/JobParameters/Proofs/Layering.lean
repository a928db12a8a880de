/-
# Layers of configuration

A configuration over another supplies what both supply, and where both do, the later one
counts. A map is told by its names in their order and by what is found for each
(`OrderedMap.ext_find?`), and both are known of `Config.add`: the names of the first come
first, then the new ones of the second (`Config.keys_add`), and a name has the value of the
second, if it has one there (`Config.find?_add`). Hence layers can be put together in any
grouping, a configuration over itself changes nothing, and the empty one changes nothing on
either side.

To name a job or to supply a value is to add a configuration that does only that, so a whole
run of such steps adds the configuration that they make by themselves
(`Config.setAll_eq_add`). The command line takes such steps, and so puts one layer over the
configuration it is given, unless one of its overrides is malformed
(`CommandLine.layers_hold`).

Key definitions: `Config.layer`, `CommandLine.Malformed`, `CommandLine.Assigns`.
-/
import JobParameters.Proofs.Assignments

namespace JobParameters

/-! ### Maps told by what is found in them -/

theorem eraseDups_of_nodup {ks : List String} (h : ks.Nodup) : ks.eraseDups = ks := by
  induction ks with
  | nil => rfl
  | cons k ks ih =>
    obtain ⟨hk, hks⟩ := List.nodup_cons.mp h
    have hothers : (ks.filter fun n => !n == k) = ks := by
      refine List.filter_eq_self.mpr fun n hn => ?_
      have hne : n ≠ k := fun heq => hk (heq ▸ hn)
      simpa using hne
    rw [List.eraseDups_cons, hothers, ih hks]

namespace OrderedMap

variable {α : Type} {m m' : OrderedMap α}

/-- The entries are the names, each with what is found for it. -/
theorem entries_eq_filterMap (m : OrderedMap α) :
    m.entries = m.keys.filterMap fun n => (m.find? n).map fun a => (n, a) := by
  have hentry : ∀ e ∈ m.entries, (m.find? e.1).map (fun a => (e.1, a)) = some e := by
    intro e he
    rw [find?_eq_some_iff.mpr he]
    rfl
  rw [keys, List.filterMap_map]
  calc m.entries
      = m.entries.filterMap some := List.filterMap_some.symm
    _ = _ := List.filterMap_congr fun e he => (hentry e he).symm

/-- **Maps are equal** if they have the same names in the same order and the same is found for
each name. -/
theorem ext_find? (hkeys : m.keys = m'.keys) (hfind : ∀ n, m.find? n = m'.find? n) : m = m' := by
  refine ext_entries ?_
  rw [entries_eq_filterMap m, entries_eq_filterMap m', hkeys]
  simp only [hfind]

end OrderedMap

/-! ### One configuration over another -/

namespace Config

variable {a b c : Config}

theorem jobName_setAll (c : Config) (vs : List (String × Value)) :
    (c.setAll vs).jobName = c.jobName := by
  induction vs generalizing c with
  | nil => rfl
  | cons v vs ih => exact ih (c.set v.1 v.2)

theorem parameters_setAll (c : Config) (vs : List (String × Value)) :
    (c.setAll vs).parameters = vs.foldl (fun m v => m.insert v.1 v.2) c.parameters := by
  induction vs generalizing c with
  | nil => rfl
  | cons v vs ih => exact ih (c.set v.1 v.2)

theorem jobName_add (a b : Config) : (a.add b).jobName = b.jobName.or a.jobName :=
  jobName_setAll _ _

theorem parameters_add (a b : Config) : (a.add b).parameters =
    b.parameters.entries.foldl (fun m v => m.insert v.1 v.2) a.parameters :=
  parameters_setAll _ _

/-- The names of the first come first, and then the new ones of the second. -/
theorem keys_add (a b : Config) : (a.add b).parameters.keys =
    a.parameters.keys ++ b.parameters.keys.filter fun n => n ∉ a.parameters.keys := by
  have hdistinct : (b.parameters.keys.filter fun n => n ∉ a.parameters.keys).Nodup :=
    b.parameters.distinct.filter _
  have hnames : b.parameters.entries.map Prod.fst = b.parameters.keys := rfl
  rw [parameters_add, OrderedMap.keys_foldl_insert, hnames, eraseDups_of_nodup hdistinct]

/-- A name has what the second has for it, else what the first has. -/
theorem find?_add (a b : Config) (n : String) :
    (a.add b).parameters.find? n = (b.parameters.find? n).or (a.parameters.find? n) := by
  have hlast : (b.parameters.entries.reverse.find? fun e => e.1 == n).map Prod.snd =
      b.parameters.find? n := by
    rw [← OrderedMap.find?_ofList, OrderedMap.ofList_entries]
  rw [parameters_add, OrderedMap.find?_foldl_insert, hlast]

theorem ext_find? (hjob : a.jobName = b.jobName) (hkeys : a.parameters.keys = b.parameters.keys)
    (hfind : ∀ n, a.parameters.find? n = b.parameters.find? n) : a = b := by
  have hparameters := OrderedMap.ext_find? hkeys hfind
  cases a
  cases b
  cases hjob
  cases hparameters
  rfl

/-- **Layers can be put together in any grouping.** -/
theorem add_assoc (a b c : Config) : (a.add b).add c = a.add (b.add c) := by
  refine ext_find? ?_ ?_ fun n => ?_
  · simp only [jobName_add, Option.or_assoc]
  · -- What is new of the third is neither in the first nor in the second.
    have hnew : (c.parameters.keys.filter fun n => n ∉ (a.add b).parameters.keys) =
        (c.parameters.keys.filter fun n => n ∉ b.parameters.keys).filter
          fun n => n ∉ a.parameters.keys := by
      rw [List.filter_filter]
      refine List.filter_congr fun n _ => ?_
      rw [keys_add]
      by_cases ha : n ∈ a.parameters.keys <;> simp [ha]
    rw [keys_add (a.add b) c, hnew, keys_add a b, keys_add a (b.add c), keys_add b c,
      List.filter_append, List.append_assoc]
  · simp only [find?_add, Option.or_assoc]

/-- **A configuration over itself changes nothing.** -/
theorem add_self (a : Config) : a.add a = a := by
  refine ext_find? ?_ ?_ fun n => ?_
  · rw [jobName_add, Option.or_self]
  · have hnone : (a.parameters.keys.filter fun n => n ∉ a.parameters.keys) = [] := by
      simp [List.filter_eq_nil_iff]
    rw [keys_add, hnone, List.append_nil]
  · rw [find?_add, Option.or_self]

/-- Over the empty configuration, a configuration is as it was. -/
theorem empty_add (a : Config) : empty.add a = a := by
  have hnokeys : empty.parameters.keys = [] := rfl
  have hnothing (n : String) : empty.parameters.find? n = none := rfl
  refine ext_find? ?_ ?_ fun n => ?_
  · exact (jobName_add empty a).trans Option.or_none
  · simp [keys_add, hnokeys]
  · rw [find?_add, hnothing, Option.or_none]

/-! ### Steps are layers -/

/-- The configuration that names a job, or none, and supplies values one after the other. -/
def layer (jobName : Option String) (vs : List (String × Value)) : Config :=
  (⟨jobName, OrderedMap.empty⟩ : Config).setAll vs

/-- To supply a value is to add a configuration that supplies just that. -/
theorem set_eq_add (c : Config) (n : String) (v : Value) : c.set n v = c.add (empty.set n v) :=
  rfl

/-- So it is with values that are supplied one after the other. -/
theorem setAll_eq_add (c : Config) (vs : List (String × Value)) :
    c.setAll vs = c.add (empty.setAll vs) := by
  induction vs generalizing c with
  | nil => exact (add_empty c).symm
  | cons v vs ih =>
    calc c.setAll (v :: vs)
        = (c.set v.1 v.2).add (empty.setAll vs) := ih (c.set v.1 v.2)
      _ = c.add ((empty.set v.1 v.2).add (empty.setAll vs)) := by
          rw [set_eq_add c, add_assoc]
      _ = c.add (empty.setAll (v :: vs)) := by
          rw [← ih (empty.set v.1 v.2)]
          rfl

/-- And to name the job is to add a configuration that does only that. -/
theorem getD_named_eq_add (c : Config) (jobName : Option String) :
    (jobName.map c.named).getD c = c.add ⟨jobName, OrderedMap.empty⟩ := by
  cases jobName <;> rfl

/-- **To name the job and supply values is to add the layer that does both.** -/
theorem setAll_named_eq_add (c : Config) (jobName : Option String) (vs : List (String × Value)) :
    ((jobName.map c.named).getD c).setAll vs = c.add (layer jobName vs) := by
  rw [setAll_eq_add, getD_named_eq_add, add_assoc, ← setAll_eq_add]
  rfl

/-- A layer names that job. -/
theorem jobName_layer (jobName : Option String) (vs : List (String × Value)) :
    (layer jobName vs).jobName = jobName :=
  jobName_setAll _ _

/-- Its values are those of the list: of a repeated name the first place and the last value. -/
theorem parameters_layer (jobName : Option String) (vs : List (String × Value)) :
    (layer jobName vs).parameters = OrderedMap.ofList vs :=
  parameters_setAll _ _

end Config

/-! ### The layer of the command line -/

theorem Text.trim_eq_nil_iff {cs : List Char} : trim cs = [] ↔ cs.all isBlank = true := by
  constructor
  · intro h
    have hend : (trimStart cs).reverse.dropWhile isBlank = [] := List.reverse_eq_nil_iff.mp h
    have hblank := List.dropWhile_eq_nil_iff.mp hend
    have hstart : trimStart cs = [] := by
      -- The first character that is left would be a blank.
      by_contra hne
      obtain ⟨c, ds, hcs⟩ := List.exists_cons_of_ne_nil hne
      have hnot : isBlank c = false := head?_trimStart cs c (by rw [hcs]; rfl)
      have hc : isBlank c = true := hblank c (by simp [hcs])
      rw [hnot] at hc
      cases hc
    rw [List.all_eq_true]
    exact List.dropWhile_eq_nil_iff.mp hstart
  · intro h
    have hstart : trimStart cs = [] := by
      have := trimStart_append_blank cs [] h
      rwa [List.append_nil] at this
    rw [trim, hstart]
    rfl

namespace CommandLine

variable {raw : String} {raws : List String} {base c d : Config} {e : RequestError}
  {p : String × Value} {task : Task}

/-- Why an override is none: there is no equality sign in it, or nothing but blanks comes
before the first. -/
inductive Malformed (raw : String) : RequestError → Prop
  | unassigned : '=' ∉ raw.toList → Malformed raw (.unassigned raw)
  | nameless {before after : List Char} : raw.toList = before ++ '=' :: after → '=' ∉ before →
      before.all Text.isBlank = true → Malformed raw (.nameless raw)

/-- The name before the first equality sign, without the blanks around it, is given the text
after the sign. -/
def Assigns (raw : String) (p : String × Value) : Prop :=
  ∃ before after : List Char, raw.toList = before ++ '=' :: after ∧ '=' ∉ before ∧
    before.all Text.isBlank = false ∧
    p = (String.ofList (Text.trim before), .string (String.ofList after))

theorem override?_eq_ok_iff_assigns : override? raw = .ok p ↔ Assigns raw p := by
  obtain ⟨name, v⟩ := p
  rw [override?_eq_ok_iff]
  simp only [Assigns, ne_eq, Text.trim_eq_nil_iff, Bool.not_eq_true, Prod.mk.injEq]

/-- An override is refused for what is wrong with it. -/
theorem override?_eq_error_iff : override? raw = .error e ↔ Malformed raw e := by
  constructor
  · intro h
    by_cases hmem : '=' ∈ raw.toList
    · obtain ⟨before, after, hraw, hbefore⟩ := List.eq_append_cons_of_mem hmem
      rw [override?_of_split hraw hbefore] at h
      split at h
      · next hblank =>
        cases h
        exact .nameless hraw hbefore (Text.trim_eq_nil_iff.mp hblank)
      · cases h
    · rw [override?_of_notMem hmem] at h
      cases h
      exact .unassigned hmem
  · intro h
    cases h with
    | unassigned hmem => exact override?_of_notMem hmem
    | nameless hraw hbefore hblank =>
      rw [override?_of_split hraw hbefore, if_pos (Text.trim_eq_nil_iff.mpr hblank)]

/-- Overrides are supplied one after the other if each is an assignment. -/
theorem supply_eq_ok_iff : supply c raws = .ok d ↔
    ∃ ps, List.Forall₂ Assigns raws ps ∧ d = c.setAll ps := by
  induction raws generalizing c with
  | nil =>
    constructor
    · intro h
      cases h
      exact ⟨[], .nil, rfl⟩
    · rintro ⟨ps, hps, rfl⟩
      cases hps
      rfl
  | cons raw raws ih =>
    rw [supply]
    constructor
    · intro h
      split at h
      · cases h
      · next n v hraw =>
        obtain ⟨ps, hps, rfl⟩ := ih.mp h
        exact ⟨(n, v) :: ps, .cons (override?_eq_ok_iff_assigns.mp hraw) hps, rfl⟩
    · rintro ⟨ps, hps, rfl⟩
      obtain ⟨p, ps, hraw, hraws, rfl⟩ := List.forall₂_cons_left_iff.mp hps
      rw [override?_eq_ok_iff_assigns.mpr hraw]
      exact ih.mpr ⟨ps, hraws, rfl⟩

/-- Nothing is supplied if an override is malformed, and the first that is decides why. -/
theorem supply_eq_error_iff : supply c raws = .error e ↔
    ∃ raw, FirstIn (fun raw => ∃ e, Malformed raw e) raws raw ∧ Malformed raw e := by
  induction raws generalizing c with
  | nil => simp [supply, FirstIn]
  | cons raw raws ih =>
    rw [supply]
    cases hraw : override? raw with
    | error e' =>
      have hmalformed := override?_eq_error_iff.mp hraw
      have hfirst (raw' : String) :
          FirstIn (fun raw => ∃ e, Malformed raw e) (raw :: raws) raw' ↔ raw' = raw :=
        firstIn_cons_of_pos ⟨e', hmalformed⟩
      simp only [hfirst, exists_eq_left]
      rw [← override?_eq_error_iff, hraw, Except.error.injEq, Except.error.injEq]
    | ok p =>
      have hfine : ¬ ∃ e, Malformed raw e := by
        rintro ⟨e', he'⟩
        rw [override?_eq_error_iff.mpr he'] at hraw
        cases hraw
      have hfirst (raw' : String) : FirstIn (fun raw => ∃ e, Malformed raw e) (raw :: raws) raw' ↔
          FirstIn (fun raw => ∃ e, Malformed raw e) raws raw' :=
        firstIn_cons_of_neg hfine
      simp only [hfirst]
      exact ih

/-- An override that is attached to the long name of its option is taken as it is. -/
theorem readOptions_param (htask : task ≠ .params) (o : Options) (args : List String) :
    readOptions task none o (("--param=" ++ raw) :: args) =
      readOptions task none { o with overrides := o.overrides ++ [raw] } args := by
  have hoption : "--param=".toList = ['-', '-', 'p', 'a', 'r', 'a', 'm', '='] := by decide
  have harg : ("--param=" ++ raw).toList =
      '-' :: '-' :: (['p', 'a', 'r', 'a', 'm'] ++ '=' :: raw.toList) := by
    rw [String.toList_append, hoption]
    rfl
  refine readOptions_override htask ?_ o args
  have hname : ∀ c ∈ ['p', 'a', 'r', 'a', 'm'], (c != '=') = true := by simp
  rw [harg, flag?, List.span_eq_takeWhile_dropWhile, List.takeWhile_append_of_pos hname,
    List.dropWhile_append_of_pos hname]
  simp [Flag.ofName?]

/-- Whatever overrides are, they can be given, and are taken in their order. -/
theorem readOptions_params (htask : task ≠ .params) (o : Options) (raws args : List String) :
    readOptions task none o ((raws.map fun raw => "--param=" ++ raw) ++ args) =
      readOptions task none { o with overrides := o.overrides ++ raws } args := by
  induction raws generalizing o with
  | nil => rw [List.map_nil, List.nil_append, List.append_nil]
  | cons raw raws ih =>
    rw [List.map_cons, List.cons_append, readOptions_param htask, ih]
    simp

/-- What is to come of a job name and overrides over a configuration. -/
structure Layered (base : Config) (jobName : Option String) (raws : List String)
    (made : Except RequestError Config) : Prop where
  /-- The first malformed override decides why there is nothing. -/
  error_iff : ∀ e, made = .error e ↔
    ∃ raw, FirstIn (fun raw => ∃ e, Malformed raw e) raws raw ∧ Malformed raw e
  /-- If none is malformed, one layer is added. -/
  ok_iff : ∀ c, made = .ok c ↔
    ∃ ps, List.Forall₂ Assigns raws ps ∧ c = base.add (Config.layer jobName ps)

theorem layered_configuration {r : Request} {sur : Surroundings} (h : r.base sur = .ok base) :
    Layered base r.jobName r.overrides (r.configuration sur) := by
  have hconfiguration : r.configuration sur =
      supply ((r.jobName.map base.named).getD base) r.overrides := by
    rw [Request.configuration, h]
  constructor
  · intro e
    rw [hconfiguration, supply_eq_error_iff]
  · intro c
    simp only [hconfiguration, supply_eq_ok_iff, Config.setAll_named_eq_add]

/-- **Layers of configuration.** With the later one counting, configurations are an idempotent
monoid, job name, values and order included: they can be put together in any grouping, and one
over itself, or the empty one on either side, changes nothing. One over another has the job
name and the values of the second, else of the first; the names of the first come first. The
command line puts one such layer over the configuration it starts from, made of the job name
and the assignments in their order, where the last one to a name counts; but if an override is
malformed, the first that is decides why there is no configuration. Any overrides can be given. -/
theorem layers_hold :
    (∀ a b c : Config, (a.add b).add c = a.add (b.add c)) ∧
    (∀ a : Config, a.add a = a ∧ a.add .empty = a ∧ Config.empty.add a = a) ∧
    (∀ a b : Config, (a.add b).jobName = b.jobName.or a.jobName ∧
      (a.add b).parameters.keys =
        a.parameters.keys ++ (b.parameters.keys.filter fun n => n ∉ a.parameters.keys) ∧
      ∀ n, (a.add b).parameters.find? n = (b.parameters.find? n).or (a.parameters.find? n)) ∧
    (∀ (jobName : Option String) (ps : List (String × Value)),
      (Config.layer jobName ps).jobName = jobName ∧
      (Config.layer jobName ps).parameters.keys = (ps.map Prod.fst).eraseDups ∧
      ∀ n, (Config.layer jobName ps).parameters.find? n =
        (ps.reverse.find? fun p => p.1 == n).map Prod.snd) ∧
    (∀ (r : Request) (sur : Surroundings) (base : Config), r.base sur = .ok base →
      Layered base r.jobName r.overrides (r.configuration sur)) ∧
    ∀ (task : Task) (o : Options) (raws args : List String), task ≠ .params →
      readOptions task none o ((raws.map fun raw => "--param=" ++ raw) ++ args) =
        readOptions task none { o with overrides := o.overrides ++ raws } args := by
  refine ⟨Config.add_assoc, fun a => ⟨Config.add_self a, Config.add_empty a, Config.empty_add a⟩,
    fun a b => ⟨Config.jobName_add a b, Config.keys_add a b, Config.find?_add a b⟩,
    fun jobName ps => ⟨Config.jobName_layer jobName ps, ?_, fun n => ?_⟩,
    fun r sur base h => layered_configuration h,
    fun task o raws args htask => readOptions_params htask o raws args⟩
  · rw [Config.parameters_layer, OrderedMap.keys_ofList]
  · rw [Config.parameters_layer, OrderedMap.find?_ofList]

/-- A request for the configuration of the night under another name. -/
def renamed (raws : List String) : Request :=
  ⟨.payload, "jobs.yaml", none, raws, some "daily", true⟩

/-- A width that is assigned twice comes after the ratio of the file, which is replaced; and a
name that is nothing but a blank is refused before an override without a sign is. -/
theorem layers_hold_renamed :
    (∃ c, (renamed ["width=3", " ratio =5", "width=4"]).configuration nightly = .ok c ∧
      c.jobName = some "daily" ∧
      c.parameters.entries = [("ratio", .string "5"), ("width", .string "4")]) ∧
    (renamed ["width=3", " =5", "ratio"]).configuration nightly = .error (.nameless " =5") ∧
    Task.check ≠ .params ∧
    readOptions .check none .none ["--param=width=3", "--param= =5"] =
      readOptions .check none { Options.none with overrides := ["width=3", " =5"] } [] := by
  obtain ⟨-, -, -, -, hlayered, hgiven⟩ := layers_hold
  have hfile : ((renamed []).base nightly).toOption.map (fun c => c.parameters.entries) =
      some [("ratio", .string " -2 ")] := by
    decide +kernel
  obtain ⟨base, hbase, hentries⟩ := toOption_map_eq_some_iff.mp hfile
  have hbases (raws : List String) : (renamed raws).base nightly = .ok base := by
    simp only [Request.base, renamed] at hbase ⊢
    exact hbase
  refine ⟨?_, ?_, by decide, hgiven .check .none ["width=3", " =5"] [] (by decide)⟩
  · have hassigns : List.Forall₂ Assigns ["width=3", " ratio =5", "width=4"]
        [("width", .string "3"), ("ratio", .string "5"), ("width", .string "4")] := by
      simp only [List.forall₂_cons, ← override?_eq_ok_iff_assigns]
      exact ⟨rfl, rfl, rfl, .nil⟩
    refine ⟨_, ((hlayered _ nightly base (hbases _)).ok_iff _).mpr ⟨_, hassigns, rfl⟩, ?_, ?_⟩
    · rw [Config.jobName_add, Config.jobName_layer]
      rfl
    · rw [Config.parameters_add, Config.parameters_layer]
      obtain ⟨_, entries, _⟩ := base
      cases hentries
      rfl
  · have hblank : Malformed " =5" (.nameless " =5") :=
      @Malformed.nameless " =5" [' '] ['5'] (by decide) (by decide) (by decide)
    have hassigned : ¬ ∃ e, Malformed "width=3" e := by
      rintro ⟨e, he⟩
      rw [← override?_eq_error_iff] at he
      cases he
    have hfirst : FirstIn (fun raw => ∃ e, Malformed raw e) ["width=3", " =5", "ratio"] " =5" :=
      (firstIn_cons_of_neg (p := fun raw => ∃ e, Malformed raw e) hassigned).mpr
        ((firstIn_cons_of_pos ⟨_, hblank⟩).mpr rfl)
    exact ((hlayered _ nightly base (hbases _)).error_iff _).mpr ⟨" =5", hfirst, hblank⟩

end CommandLine
end JobParameters
