/-
# What the command line does

A request is answered from the contents of files, the value of one environment
variable and the time. The topology comes from the manifest; the configuration
from a file, with the job name and the overrides of the command line over it, in
their order. `check` binds the configuration, `payload` submits it.

Key definitions: `CommandLine.override?`, `CommandLine.supply`,
`CommandLine.Request.topology`, `CommandLine.Request.configuration`,
`CommandLine.Request.check`, `CommandLine.Request.payload`, `CommandLine.run`.
Key theorem: `CommandLine.supply_append`.
-/
import JobParameters.CommandLine.Request
import JobParameters.Files
import JobParameters.Topology

namespace JobParameters.CommandLine

/-- What the program can see: files by their paths, the variable that names a
configuration file, and the time. -/
structure Surroundings where
  contents : String → Option ByteArray
  configPath : Option String
  now : Timestamp

/-- Why a request is refused. -/
inductive RequestError where
  | file (e : FileError)
  /-- The declarations of the manifest at that path are refused. -/
  | declarations (path : String) (e : ParameterError)
  /-- An override without an equality sign. -/
  | unassigned (override : String)
  /-- An override without a name. -/
  | nameless (override : String)
  | rejected (e : ParameterError)

namespace RequestError

/-- An error in words. -/
def message : RequestError → String
  | file e => e.message
  | declarations path _ => "Invalid parameter declarations in " ++ path
  | unassigned raw => "invalid parameter override '" ++ raw ++ "', expected NAME=VALUE"
  | nameless raw => "invalid parameter override '" ++ raw ++ "', name is empty"
  | rejected _ => "submission would be rejected"

/-- What an error comes from. -/
def cause? : RequestError → Option ParameterError
  | declarations _ e => some e
  | rejected e => some e
  | _ => none

/-- Text with every line indented. -/
def indented (s : String) : String :=
  "\n".intercalate ((s.splitOn "\n").map fun line => "    " ++ line)

/-- An error as it is reported. -/
def report (e : RequestError) : String :=
  "Error: " ++ e.message ++ "\n" ++
    (match e.cause? with
      | some c => "\nCaused by:\n" ++ indented c.message ++ "\n"
      | none => "")

end RequestError

/-- An override: a name before the first equality sign, without the blanks around it,
and the text after the sign as it is. -/
def override? (raw : String) : Except RequestError (String × Value) :=
  let (name, rest) := raw.toList.span (· != '=')
  match rest with
  | [] => .error (.unassigned raw)
  | _ :: value =>
    let name := Text.trim name
    if name.isEmpty then .error (.nameless raw)
    else .ok (String.ofList name, .string (String.ofList value))

/-- Overrides over a configuration, one after the other. -/
def supply (c : Config) : List String → Except RequestError Config
  | [] => .ok c
  | raw :: raws =>
    match override? raw with
    | .error e => .error e
    | .ok (name, v) => supply (c.set name v) raws

/-- Overrides can be supplied in two parts. -/
theorem supply_append : ∀ (c : Config) (raws raws' : List String),
    supply c (raws ++ raws') = supply c raws >>= fun c => supply c raws'
  | _, [], _ => rfl
  | c, raw :: raws, raws' => by
    simp only [List.cons_append, supply]
    cases override? raw with
    | error e => rfl
    | ok p => exact supply_append (c.set p.1 p.2) raws raws'

namespace Request

/-- The topology of the manifest. -/
def topology (r : Request) (s : Surroundings) : Except RequestError Topology :=
  match Manifest.ofFile r.manifest (s.contents r.manifest) with
  | .error e => .error (.file e)
  | .ok m =>
    match Topology.ofManifest m with
    | .error e => .error (.declarations r.manifest e)
    | .ok t => .ok { t with strict := r.strict }

/-- The configuration in a file, or an empty one where no file is named. -/
def base (r : Request) (s : Surroundings) : Except RequestError Config :=
  match choosePath r.config s.configPath with
  | none => .ok Config.empty
  | some path =>
    match Config.ofFile path (s.contents path) with
    | .error e => .error (.file e)
    | .ok c => .ok c

/-- The configuration with the job name and the overrides of the command line. -/
def configuration (r : Request) (s : Surroundings) : Except RequestError Config :=
  match r.base s with
  | .error e => .error e
  | .ok c => supply ((r.jobName.map c.named).getD c) r.overrides

/-- The topology and the configuration, in this order. -/
def submission (r : Request) (s : Surroundings) : Except RequestError (Topology × Config) :=
  match r.topology s with
  | .error e => .error e
  | .ok t => (r.configuration s).map fun c => (t, c)

/-- The bindings of the submission. -/
def check (r : Request) (s : Surroundings) : Except RequestError BindingSet :=
  match r.submission s with
  | .error e => .error e
  | .ok (t, c) => (t.preflight s.now c).mapError .rejected

/-- What workers would receive of the submission. -/
def payload (r : Request) (s : Surroundings) : Except RequestError Payload :=
  match r.submission s with
  | .error e => .error e
  | .ok (t, c) =>
    ((t.submit s.now c).mapError .rejected).map fun accepted => accepted.2.bindings.payload

end Request

/-- A declared parameter, its fields in the order of their names. -/
def listed (p : ParameterSpec) : Json :=
  .object [("default", Json.nullOr Value.toJson p.default),
    ("description", Json.nullOr Json.string p.description), ("name", .string p.name),
    ("required", .bool p.isRequired), ("type", p.type.toJson)]

/-- All declared parameters, with the name of the topology. -/
def listing (t : Topology) : Json :=
  .object [("parameters", .array (t.registry.specs.map listed)), ("topology", .string t.name)]

/-- The answer to a request in words. -/
def Request.answer (r : Request) (s : Surroundings) : Except RequestError String :=
  match r.task with
  | .params => (r.topology s).map fun t => (listing t).pretty
  | .check => (r.check s).map fun b => b.toJson.pretty
  | .payload => (r.payload s).map Payload.encode

/-- How a run ends: the exit code, and what is written to both outputs. -/
structure Outcome where
  code : UInt32
  output : String
  error : String

/-- How to use the command line. -/
def help : String :=
  "Inspect and validate submission parameters\n\n" ++
  "  params   List declared submission parameters\n" ++
  "  check    Validate a submission and print the resolved bindings\n" ++
  "  payload  Print the startup payload each worker would receive\n\n" ++
  "  -m, --manifest PATH      Path to the parameter manifest (YAML or JSON)\n" ++
  "  -c, --config PATH        Job configuration file\n" ++
  "  -P, --param NAME=VALUE   Override a submission parameter; may be repeated\n" ++
  "      --job-name NAME      Job name for the submission\n" ++
  "      --strict             Reject overrides for undeclared parameters\n"

/-- Runs the command line with arguments. -/
def run (args : List String) (s : Surroundings) : Outcome :=
  match parse args with
  | .error .help => ⟨0, help, ""⟩
  | .error .invalid => ⟨2, "", help⟩
  | .ok r =>
    match r.answer s with
    | .error e => ⟨1, "", e.report⟩
    | .ok text => ⟨0, text ++ "\n", ""⟩

/-- The files that a run may look into. -/
def paths (args : List String) (configPath : Option String) : List String :=
  match parse args with
  | .error _ => []
  | .ok r => r.manifest :: (choosePath r.config configPath).toList

/-- The variable that names the configuration file to use when none is asked for. -/
def configVariable : String := "FLOWPARAM_JOB_CONFIG"

end JobParameters.CommandLine
