/-
# Requests of the command line

Arguments are a task and options for it. The value of an option is the next
argument or is attached to it; an argument that starts with a hyphen is never
taken for a value unless it is attached. Every option but the overrides may be
given once.

Key definitions: `CommandLine.Task`, `CommandLine.Flag`, `CommandLine.Request`,
`CommandLine.readOptions`, `CommandLine.parse`.
-/
import JobParameters.Value

namespace JobParameters.CommandLine

/-- What can be asked for. -/
inductive Task where
  /-- The declared parameters. -/
  | params
  /-- The bindings of a submission. -/
  | check
  /-- What workers would receive of it. -/
  | payload
deriving DecidableEq

/-- The task of a name. -/
def Task.ofName? : String → Option Task
  | "params" => some params
  | "check" => some check
  | "payload" => some payload
  | _ => none

/-- What an option is for. -/
inductive Flag where
  | manifest
  | config
  | override
  | jobName
  | strict
  | help
deriving DecidableEq

namespace Flag

/-- The option of a long name. -/
def ofName? : String → Option Flag
  | "manifest" => some manifest
  | "config" => some config
  | "param" => some override
  | "job-name" => some jobName
  | "strict" => some strict
  | "help" => some help
  | _ => none

/-- The option of a letter. -/
def ofLetter? : Char → Option Flag
  | 'm' => some manifest
  | 'c' => some config
  | 'P' => some override
  | 'h' => some help
  | _ => none

/-- Whether a task knows the option. -/
def isFor (f : Flag) : Task → Bool
  | .params => f == manifest || f == help
  | _ => true

/-- Whether the option has a value. -/
def takesValue (f : Flag) : Bool :=
  f != strict && f != help

end Flag

/-- The options that are given so far. -/
structure Options where
  manifest : Option String
  config : Option String
  overrides : List String
  jobName : Option String
  strict : Bool

/-- No options. -/
def Options.none : Options := ⟨.none, .none, [], .none, false⟩

/-- Why nothing is done. -/
inductive Usage where
  /-- Help was asked for. -/
  | help
  /-- The arguments make no sense. -/
  | invalid
deriving DecidableEq

/-- A value for an option that is given once; a path may not be empty. -/
def once (path : Bool) (former : Option String) (value : String) : Except Usage (Option String) :=
  if former.isSome || (path && value.isEmpty) then .error .invalid else .ok (some value)

/-- The options with one more value. -/
def Options.give (o : Options) (f : Flag) (value : String) : Except Usage Options :=
  match f with
  | .manifest => (once true o.manifest value).map fun v => { o with manifest := v }
  | .config => (once true o.config value).map fun v => { o with config := v }
  | .override => .ok { o with overrides := o.overrides ++ [value] }
  | .jobName => (once false o.jobName value).map fun v => { o with jobName := v }
  | .strict => .error .invalid
  | .help => .error .invalid

/-- The options with one more that has no value. -/
def Options.switch (o : Options) (f : Flag) : Except Usage Options :=
  match f with
  | .strict => if o.strict then .error .invalid else .ok { o with strict := true }
  | .help => .error .help
  | _ => .error .invalid

/-- An option with what is attached to it. A long one is attached to its value by an
equality sign; after a letter the sign may be left out. -/
def flag? : List Char → Option (Flag × Option String)
  | '-' :: '-' :: cs =>
    let (name, rest) := cs.span (· != '=')
    (Flag.ofName? (String.ofList name)).map fun f =>
      (f, match rest with
        | [] => none
        | _ :: value => some (String.ofList value))
  | '-' :: c :: cs =>
    (Flag.ofLetter? c).map fun f =>
      (f, match cs with
        | [] => none
        | '=' :: value => some (String.ofList value)
        | value => some (String.ofList value))
  | _ => none

/-- Whether an argument stands for no value. -/
def isHyphened (arg : String) : Bool :=
  arg.toList.head? == some '-' && arg != "-"

/-- Reads options; one of them may be waiting for its value. A double hyphen ends them,
and nothing may come after it. -/
def readOptions (task : Task) : Option Flag → Options → List String → Except Usage Options
  | some _, _, [] => .error .invalid
  | none, o, [] => .ok o
  | some f, o, arg :: args =>
    if isHyphened arg then .error .invalid
    else match o.give f arg with
      | .error e => .error e
      | .ok o => readOptions task none o args
  | none, o, arg :: args =>
    if arg = "--" then (if args.isEmpty then .ok o else .error .invalid)
    else match (flag? arg.toList).filter fun f => f.1.isFor task with
      | none => .error .invalid
      | some (f, some value) =>
        if f = .help ∧ arg.toList[1]? ≠ some '-' then .error .help
        else match o.give f value with
          | .error e => .error e
          | .ok o => readOptions task none o args
      | some (f, none) =>
        if f.takesValue then readOptions task (some f) o args
        else match o.switch f with
          | .error e => .error e
          | .ok o => readOptions task none o args

/-- A task with its options. -/
structure Request where
  task : Task
  manifest : String
  config : Option String
  overrides : List String
  jobName : Option String
  strict : Bool

/-- Whether help is asked for without a task, about a known one or in general. -/
def isHelp : List String → Bool
  | ["help"] => true
  | ["help", name] => (Task.ofName? name).isSome || name == "help"
  | arg :: _ => arg == "--help" || arg.toList.take 2 == ['-', 'h']
  | [] => false

/-- The request that arguments make; every task needs a manifest. -/
def parse (args : List String) : Except Usage Request :=
  match args with
  | [] => .error .invalid
  | name :: args' =>
    match Task.ofName? name with
    | none => .error (if isHelp args then .help else .invalid)
    | some task =>
      match readOptions task none Options.none args' with
      | .error e => .error e
      | .ok o =>
        match o.manifest with
        | none => .error .invalid
        | some m => .ok ⟨task, m, o.config, o.overrides, o.jobName, o.strict⟩

end JobParameters.CommandLine
