/-
# Records in JSON documents

How a record is found in a JSON value: as an object with a member for each
field, in any order and among others, or as an array of the fields in their
declared order, the last ones possibly absent. A field given twice is refused; a
member that is no field is skipped, whatever it holds.

Key definitions: `Json.fields?`, `Json.absentOr?`, `Json.mapOf?`.
-/
import JobParameters.Json
import JobParameters.OrderedMap

namespace JobParameters.Json

/-- The members of a name. -/
def membersOf (name : String) (members : List (String × Json)) : List Json :=
  (members.filter fun m => m.1 == name).map Prod.snd

/-- The only value given for a field, if one is; nothing if there are several. -/
def onlyOne? : List Json → Option (Option Json)
  | [] => some none
  | [j] => some (some j)
  | _ => none

/-- What a record gives for each of its fields. -/
def fields? (names : List String) : Json → Option (List (Option Json))
  | object members => names.mapM fun n => onlyOne? (membersOf n members)
  | array items =>
    if items.length ≤ names.length then
      some (items.map some ++ List.replicate (names.length - items.length) none)
    else none
  | _ => none

/-- A string. -/
def string? : Json → Option String
  | string s => some s
  | _ => none

/-- A field that may be absent or null. -/
def absentOr? {α : Type} (f : Json → Option α) : Option Json → Option (Option α)
  | none => some none
  | some null => some none
  | some j => (f j).map some

/-- A field that has to be there. -/
def required? {α : Type} (f : Json → Option α) (field : Option Json) : Option α :=
  field.bind f

/-- The values of an object's members under their names. -/
def mapOf? {α : Type} (f : Json → Option α) : Json → Option (OrderedMap α)
  | object members =>
    (members.mapM fun m => (f m.2).map fun a => (m.1, a)).map OrderedMap.ofList
  | _ => none

/-- A constant written as its name, or as an object that gives the name nothing. -/
def constant? {α : Type} (named : String → Option α) : Json → Option α
  | string s => named s
  | object [(name, null)] => named name
  | _ => none

/-- Something or null. -/
def nullOr {α : Type} (f : α → Json) (a : Option α) : Json :=
  (a.map f).getD null

end JobParameters.Json
