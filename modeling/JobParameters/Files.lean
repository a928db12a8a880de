/-
# Configuration files

Reading a job configuration or a manifest from the bytes of a file: the file may
not be there or hold no text, and the text may not be what was asked for.

Key definitions: `FileKind`, `FileError`, `FileError.message`, `readFile`,
`Config.ofFile`, `Manifest.ofFile`.
-/
import JobParameters.Documents.Yaml

namespace JobParameters

/-- What is asked for. -/
inductive FileKind where
  | configuration
  | manifest
deriving DecidableEq

/-- The words for what is asked for. -/
def FileKind.name : FileKind → String
  | configuration => "job configuration"
  | manifest => "parameter manifest"

/-- Why a file is refused. -/
inductive FileError where
  /-- There is no such file, or it holds no text. -/
  | unreadable (kind : FileKind) (path : String)
  /-- The text is not what was asked for. -/
  | invalid (kind : FileKind) (path : String)
deriving DecidableEq

/-- A refusal in words. -/
def FileError.message : FileError → String
  | unreadable k path => "Failed to read " ++ k.name ++ ": " ++ path
  | invalid k path => "Invalid " ++ k.name ++ ": " ++ path

/-- Reads the contents of a file, if there is one. -/
def readFile {α : Type} (kind : FileKind) (read? : String → Option α) (path : String)
    (contents : Option ByteArray) : Except FileError α :=
  match contents.bind String.fromUTF8? with
  | none => .error (.unreadable kind path)
  | some text =>
    match read? text with
    | some a => .ok a
    | none => .error (.invalid kind path)

/-- The job configuration in a file. -/
def Config.ofFile : String → Option ByteArray → Except FileError Config :=
  readFile .configuration (Yaml.read? Config.references Config.ofYaml?)

/-- The manifest in a file. -/
def Manifest.ofFile : String → Option ByteArray → Except FileError Manifest :=
  readFile .manifest (Yaml.read? Manifest.references Manifest.ofYaml?)

end JobParameters
