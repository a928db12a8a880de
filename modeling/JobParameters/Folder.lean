/-
# Folders

What paths lead to that start in a folder whose files are known. A path is
followed step by step: an empty step and one dot stay, two dots go up, and a name
goes into the folder of that name, which has to be there even where the path
leaves it again. Only a name at the end leads to a file. Nothing outside of the
folder is known but the null device, which is always empty.

Key definitions: `Folder.Step`, `Folder.steps`, `Folder.follow`, `Folder.read?`.
-/
namespace JobParameters

/-- The files in a folder and below it, each with the names on the way to it. -/
structure Folder where
  files : List (List String × ByteArray)

namespace Folder

/-- A step of a path. -/
inductive Step where
  | stay
  | up
  | into (name : String)
deriving DecidableEq

/-- The step of what stands between two slashes. -/
def Step.ofName : String → Step
  | "" => stay
  | "." => stay
  | ".." => up
  | name => into name

/-- A text cut at its slashes. -/
def pieces : List Char → List (List Char)
  | [] => [[]]
  | '/' :: cs => [] :: pieces cs
  | c :: cs =>
    match pieces cs with
    | [] => [[c]]
    | p :: ps => (c :: p) :: ps

/-- The steps of a path. -/
def steps (path : String) : List Step :=
  (pieces path.toList).map fun p => Step.ofName (String.ofList p)

/-- The names that steps go into. -/
def names (ss : List Step) : List String :=
  ss.filterMap fun s =>
    match s with
    | .into name => some name
    | _ => none

/-- The folder of some files. -/
def ofFiles (files : List (String × ByteArray)) : Folder :=
  ⟨files.map fun (path, bytes) => (names (steps path), bytes)⟩

variable (f : Folder)

/-- Whether there is a folder at the end of some names: one with a file in it. -/
def isFolder (way : List String) : Bool :=
  f.files.any fun (file, _) => way.isPrefixOf file && way.length < file.length

/-- The names on the way to the file that steps lead to. -/
def follow : List String → List Step → Option (List String)
  | _, [] => none
  | here, [.into name] => some (here ++ [name])
  | here, .into name :: ss =>
    if f.isFolder (here ++ [name]) then follow (here ++ [name]) ss else none
  | here, .stay :: ss => follow here ss
  | here, .up :: ss => if here.isEmpty then none else follow here.dropLast ss

/-- The path of the null device. -/
def nullDevice : String := "/dev/null"

/-- The contents of the file that a path leads to. -/
def read? (path : String) : Option ByteArray :=
  if path.toList.head? = some '/' then
    if path = nullDevice then some ByteArray.empty else none
  else (f.follow [] (steps path)).bind fun way => f.files.lookup way

end Folder
end JobParameters
