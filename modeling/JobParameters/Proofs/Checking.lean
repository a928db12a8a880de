/-
# What is checked is what is shipped

To check a submission is to bind it; to print its payload is to bind it, commit the bindings
and ship their values. On a topology where nothing is bound yet a commit of what was bound for
it goes through (`Registry.commit_of_bind`), and the time of day shows in nothing but the times
that a set notes (`Registry.bind_at`). So a submission is accepted exactly if a check of it is,
and is refused with the same error (`Topology.submit_eq_preflight`).

The command line makes a topology from a manifest, on which nothing is bound, and reads the
arguments of both requests alike (`CommandLine.parse_payload`). So the two answers agree on
all arguments and surroundings (`CommandLine.payload_follows_check`), and what is printed of
the set shows the job name, the names and the values of the payload
(`BindingSet.toJson_shows_payload`).
-/
import JobParameters.CommandLine.Run
import JobParameters.Proofs.Committing

namespace JobParameters

/-! ### The time of a set -/

/-- The binding with another time. -/
def Binding.noted (x : Binding) (now : Timestamp) : Binding := { x with resolvedAt := now }

/-- The set with another time, that of its bindings included. -/
def BindingSet.noted (b : BindingSet) (now : Timestamp) : BindingSet :=
  ⟨b.jobName, now, b.bindings.mapValues fun x => x.noted now⟩

/-- Workers do not receive the time. -/
theorem BindingSet.payload_noted (b : BindingSet) (now : Timestamp) :
    (b.noted now).payload = b.payload := by
  have hvalues : ((b.bindings.mapValues fun x => x.noted now).mapValues Binding.value) =
      b.bindings.mapValues Binding.value := by
    refine OrderedMap.ext_entries ?_
    simp only [OrderedMap.mapValues, List.map_map]
    rfl
  unfold payload noted
  rw [hvalues]

/-- What a parameter is due at one time it is due at another. -/
theorem ParameterSpec.Due.noted {s : ParameterSpec} {now : Timestamp}
    {supplied : OrderedMap Value} {x : Binding} (h : s.Due now supplied x) (later : Timestamp) :
    s.Due later supplied (x.noted later) :=
  ⟨h.name, h.type, rfl, h.value⟩

namespace Registry

variable {r : Registry} {strict : Bool} {now : Timestamp} {c : Config} {b : BindingSet}

/-- A configuration comes to the same at any time, but for the time. -/
theorem bind_at (r : Registry) (strict : Bool) (now later : Timestamp) (c : Config) :
    r.bind strict later c = (r.bind strict now c).map fun b => b.noted later := by
  have houtcome := outcome_bind r strict now c
  cases hb : r.bind strict now c with
  | error e =>
    rw [hb] at houtcome
    refine bind_eq_of_outcome ?_
    cases houtcome with
    | unknown hs hf => exact .unknown hs hf
    | mismatch ha hf hv => exact .mismatch ha hf hv
    | missing ha hn hne => exact .missing ha hn hne
  | ok b =>
    obtain ⟨ha, hj, -, hdue⟩ := bind_eq_ok_iff_due.mp hb
    refine bind_eq_ok_iff_due.mpr ⟨ha, hj, rfl, ?_⟩
    refine List.forall₂_map_right_iff.mpr (hdue.imp fun s e hse => ?_)
    exact ⟨hse.1, hse.2.noted later⟩

/-- A bound set lists the declared names, in their order. -/
theorem keys_of_bind (h : r.bind strict now c = .ok b) : b.bindings.keys = r.names := by
  obtain ⟨-, -, -, hdue⟩ := bind_eq_ok_iff_due.mp h
  obtain ⟨bs, hbs, he⟩ := forall₂_entries_iff.mp hdue
  rw [names_eq_map_specs, ← map_name_of_due hbs, OrderedMap.keys, he, List.map_map]
  rfl

/-- Where nothing is bound yet, a commit of a bound set goes through. -/
theorem commit_of_bind (hu : ∀ n, r.bound? n = none) (h : r.bind strict now c = .ok b) :
    r.commit b = .ok (r.fill b.toList) := by
  have hkeys : b.bindings.keys = r.names := keys_of_bind h
  have hown : b.OwnNames := by
    obtain ⟨-, bs, -, rfl⟩ := bind_eq_ok_iff.mp h
    exact BindingSet.ownNames_ofBindings _ _ _
  refine commit_eq_ok_iff.mpr ⟨fun x hx => ?_, fun n hn => ?_, fun x _ v hv => ?_, rfl⟩
  · rw [← hkeys, ← hown.map_name]
    exact List.mem_map_of_mem hx
  · exact BindingSet.contains_iff.mpr (hkeys ▸ hn)
  · rw [hu] at hv
    cases hv

end Registry

/-- **A submission is accepted exactly if a check of it is**, on a topology where nothing is
bound yet: with the set that was checked, or refused with the same error. -/
theorem Topology.submit_eq_preflight {t : Topology} (hu : ∀ n, t.registry.bound? n = none)
    (now later : Timestamp) (c : Config) :
    (t.submit later c).map Prod.snd =
      (t.preflight now c).map fun b => ⟨t.name, b.noted later⟩ := by
  have hbind : t.preflight later c = (t.preflight now c).map fun b => b.noted later :=
    t.registry.bind_at t.strict now later c
  unfold submit
  cases hp : t.preflight now c with
  | error e =>
    rw [hp] at hbind
    rw [hbind]
    rfl
  | ok b =>
    rw [hp] at hbind
    rw [hbind]
    show (t.commit (b.noted later)).map Prod.snd = _
    rw [commit, Registry.commit_of_bind hu hbind]
    rfl

/-- **A printed set shows what workers receive**: the job name, and under each name of the
payload, in its order, an object with the value that the payload has there. -/
theorem BindingSet.toJson_shows_payload (b : BindingSet) :
    ∃ job shown values,
      b.toJson.fields? ["job_name", "bindings"] = some [some job, some (.object shown)] ∧
      b.payload.toJson.fields? ["job_name", "values"] = some [some job, some (.object values)] ∧
      (shown.map fun m => (m.1, m.2.fields? ["value"])) =
        values.map fun m => (m.1, some [some m.2]) := by
  refine ⟨Json.nullOr .string b.jobName, b.bindings.entries.map fun e => (e.1, e.2.toJson),
    b.payload.values.entries.map fun e => (e.1, e.2.toJson), rfl, rfl, ?_⟩
  rw [payload, OrderedMap.mapValues, List.map_map, List.map_map, List.map_map]
  rfl

namespace CommandLine

/-! ### The arguments -/

/-- Tasks that know the same options read arguments alike. -/
theorem readOptions_congr {task task' : Task} (h : ∀ f : Flag, f.isFor task = f.isFor task')
    (waiting : Option Flag) (o : Options) (args : List String) :
    readOptions task waiting o args = readOptions task' waiting o args := by
  have hfor : (fun f : Flag × Option String => f.1.isFor task) = fun f => f.1.isFor task' :=
    funext fun f => h f.1
  induction args generalizing waiting o with
  | nil => cases waiting <;> rfl
  | cons arg args ih =>
    cases waiting with
    | some f => simp only [readOptions, ih]
    | none => simp only [readOptions, hfor, ih]

/-- The payload is asked for with the arguments that a check is asked for with. -/
theorem parse_payload (args : List String) :
    parse ("payload" :: args) =
      (parse ("check" :: args)).map fun r => { r with task := .payload } := by
  have hfor : ∀ f : Flag, f.isFor .payload = f.isFor .check := fun _ => rfl
  have hread : readOptions .payload none Options.none args =
      readOptions .check none Options.none args := readOptions_congr hfor _ _ _
  simp only [parse, Task.ofName?, hread]
  cases readOptions .check none Options.none args with
  | error u => rfl
  | ok o =>
    dsimp only
    cases o.manifest <;> rfl

theorem task_of_parse_check {args : List String} {r : Request}
    (h : parse ("check" :: args) = .ok r) : r.task = .check := by
  simp only [parse, Task.ofName?] at h
  split at h
  · cases h
  · split at h <;> cases h
    rfl

/-! ### The answers -/

variable {r : Request} {s : Surroundings}

theorem bound?_of_topology {t : Topology} (h : r.topology s = .ok t) (n : String) :
    t.registry.bound? n = none := by
  unfold Request.topology at h
  split at h
  · cases h
  · split at h
    · cases h
    · next t' ht =>
      cases h
      exact (Topology.reachable_ofManifest ht).2 n

/-- On the topology of a submission nothing is bound. -/
theorem bound?_of_submission {t : Topology} {c : Config} (h : r.submission s = .ok (t, c))
    (n : String) : t.registry.bound? n = none := by
  unfold Request.submission at h
  split at h
  · cases h
  · next t' ht =>
    obtain ⟨c', -, hq⟩ := map_eq_ok_iff.mp h
    obtain ⟨rfl, -⟩ := Prod.mk.inj hq
    exact bound?_of_topology ht n

/-- What workers would receive is the payload of the set that a check prints. -/
theorem payload_eq_check (r : Request) (task : Task) (s : Surroundings) (later : Timestamp) :
    { r with task := task }.payload { s with now := later } =
      (r.check s).map BindingSet.payload := by
  -- Neither the task nor the time has a part in the topology or the configuration.
  have hsubmission : { r with task := task }.submission { s with now := later } =
      r.submission s := rfl
  unfold Request.payload Request.check
  rw [hsubmission]
  cases hs : r.submission s with
  | error e => rfl
  | ok q =>
    obtain ⟨t, c⟩ := q
    have hsubmit := Topology.submit_eq_preflight (bound?_of_submission hs) s.now later c
    dsimp only
    cases hp : t.preflight s.now c with
    | error e =>
      rw [hp] at hsubmit
      rw [map_eq_error_iff.mp hsubmit]
      rfl
    | ok b =>
      rw [hp] at hsubmit
      obtain ⟨accepted, ha, hq⟩ := map_eq_ok_iff.mp hsubmit
      rw [ha]
      show Except.ok accepted.2.bindings.payload = Except.ok b.payload
      rw [hq, BindingSet.payload_noted]

/-- The error of a request is reported, and its answer is printed. -/
theorem run_of_parse {args : List String} (hr : parse args = .ok r) :
    (∀ e, r.answer s = .error e → run args s = ⟨1, "", e.report⟩) ∧
      ∀ text, r.answer s = .ok text → run args s = ⟨0, text ++ "\n", ""⟩ := by
  unfold run
  rw [hr]
  constructor
  · intro e he
    dsimp only
    rw [he]
  · intro text ht
    dsimp only
    rw [ht]

/-- What comes of a check in some surroundings and of the payload that is asked for with the
same arguments in others. -/
inductive Agree (args : List String) (s s' : Surroundings) : Prop
  /-- Neither request can be read, for the same reason. -/
  | unread {u : Usage} : parse ("check" :: args) = .error u →
      parse ("payload" :: args) = .error u → Agree args s s'
  /-- Both are refused with the same error. -/
  | refused {r : Request} {e : RequestError} : parse ("check" :: args) = .ok r →
      parse ("payload" :: args) = .ok { r with task := .payload } →
      r.check s = .error e → { r with task := .payload }.payload s' = .error e →
      run ("check" :: args) s = ⟨1, "", e.report⟩ →
      run ("payload" :: args) s' = ⟨1, "", e.report⟩ → Agree args s s'
  /-- A set is printed, and a payload with its job name, its names and its values, in its
  order. -/
  | answered {r : Request} {b : BindingSet} {p : Payload} : parse ("check" :: args) = .ok r →
      parse ("payload" :: args) = .ok { r with task := .payload } →
      r.check s = .ok b → { r with task := .payload }.payload s' = .ok p →
      p.jobName = b.jobName →
      p.values.entries = b.bindings.entries.map (fun (n, x) => (n, x.value)) →
      run ("check" :: args) s = ⟨0, b.toJson.pretty ++ "\n", ""⟩ →
      run ("payload" :: args) s' = ⟨0, p.encode ++ "\n", ""⟩ → Agree args s s'

/-- **What is checked is what is shipped.** Whatever the arguments, the files and the variable,
a check and the payload agree, at whatever times they are asked for. On any topology where
nothing is bound, to submit a configuration comes to what a preflight of it comes to: the same
error, or the same set but for the time. -/
theorem payload_follows_check (args : List String) (s : Surroundings) (later : Timestamp) :
    Agree args s { s with now := later } ∧
    ∀ t : Topology, (∀ n, t.registry.bound? n = none) → ∀ now c,
      (t.submit later c).map Prod.snd =
        (t.preflight now c).map fun b => ⟨t.name, b.noted later⟩ := by
  refine ⟨?_, fun t hu now c => Topology.submit_eq_preflight hu now later c⟩
  have hpayload := parse_payload args
  cases hr : parse ("check" :: args) with
  | error u =>
    rw [hr] at hpayload
    exact .unread hr hpayload
  | ok r =>
    rw [hr] at hpayload
    have hr' : parse ("payload" :: args) = .ok { r with task := .payload } := hpayload
    have htask : r.task = .check := task_of_parse_check hr
    have hship := payload_eq_check r .payload s later
    cases hb : r.check s with
    | error e =>
      rw [hb] at hship
      refine .refused hr hr' hb hship ?_ ?_
      · refine (run_of_parse hr).1 e ?_
        rw [Request.answer, htask, hb]
        rfl
      · refine (run_of_parse hr').1 e ?_
        rw [Request.answer, hship]
        rfl
    | ok b =>
      rw [hb] at hship
      refine .answered hr hr' hb hship rfl rfl ?_ ?_
      · refine (run_of_parse hr).2 b.toJson.pretty ?_
        rw [Request.answer, htask, hb]
        rfl
      · refine (run_of_parse hr').2 b.payload.encode ?_
        rw [Request.answer, hship]
        rfl

/-- A manifest, and a configuration that the variable names. -/
def nightly : Surroundings where
  contents path :=
    if path = "jobs.yaml" then
      some "parameters:\n  width: \x7btype: integer\x7d\n  ratio: \x7bdefault: 0.5\x7d\n".toUTF8
    else if path = "nightly.yaml" then
      some "job_name: nightly\nsubmission_parameters:\n  ratio: ' -2 '\n".toUTF8
    else none
  configPath := some "nightly.yaml"
  now := ⟨20000, 0, 0⟩

/-- The width comes from the command line and the ratio from the file, both as text. -/
theorem payload_follows_check_nightly :
    let args := ["-m", "jobs.yaml", "-P", " width = 3", "--strict"]
    let later : Timestamp := ⟨20001, 0, 0⟩
    let t : Topology := ⟨"jobs", true, .ofTypes [("width", .integer)] (by decide)⟩
    let c : Config := Config.empty.set "width" (.string "3")
    (run ("payload" :: args) { nightly with now := later }).output =
      "\x7b\"job_name\":\"nightly\",\"values\":\x7b\"width\":3,\"ratio\":-2.0\x7d\x7d\n" ∧
    Agree args nightly { nightly with now := later } ∧
    (∀ n, t.registry.bound? n = none) ∧ (t.preflight nightly.now c).toOption.isSome = true ∧
    (t.submit later c).map Prod.snd =
      (t.preflight nightly.now c).map fun b => ⟨t.name, b.noted later⟩ := by
  intro args later t c
  have hu : ∀ n, t.registry.bound? n = none := by
    intro n
    by_cases hn : "width" = n
    · subst hn
      rfl
    · simp [t, Registry.ofTypes, Registry.bound?, Registry.find?, hn]
  obtain ⟨hagree, hsubmit⟩ := payload_follows_check args nightly later
  exact ⟨by decide +kernel, hagree, hu, by decide +kernel, hsubmit t hu nightly.now c⟩

end CommandLine
end JobParameters
