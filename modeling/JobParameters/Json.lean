/-
# JSON values

The values of a JSON document, with integers and floats kept apart: an integer
is a number written without a point or an exponent that fits 64 bits, signed or
not. Some texts are grammatical and yet denote nothing, such as a number beyond
every float or a string with half a surrogate pair; they are `unrepresentable`,
and only a reader that skips them accepts them.

Members of an object are listed as written. `Json.canonical` is the value where
order and repetition no longer show: members sorted by name, the last of each.

Key definitions: `Json`, `Json.canonical`, `Json.same`, `Json.shown`.
-/
import JobParameters.Decimal.Layout
import JobParameters.Text.Quoted

namespace JobParameters

/-- A JSON value. -/
inductive Json where
  | null
  | bool (b : Bool)
  | integer (n : Int)
  | float (x : Binary64)
  | string (s : String)
  | array (items : List Json)
  | object (members : List (String × Json))
  /-- Grammatical text that denotes no value. -/
  | unrepresentable

namespace Json

instance : Inhabited Json := ⟨null⟩

/-- Puts a member in its place by name, instead of an earlier one of that name. -/
def putSorted (name : String) (j : Json) : List (String × Json) → List (String × Json)
  | [] => [(name, j)]
  | m :: ms =>
    if name < m.1 then (name, j) :: m :: ms
    else if m.1 = name then (name, j) :: ms
    else m :: putSorted name j ms

mutual

/-- The value with the members of every object sorted by name, the last of each. -/
def canonical : Json → Json
  | array items => array (canonicalItems items)
  | object members =>
    object ((canonicalMembers members).foldl (fun ms m => putSorted m.1 m.2 ms) [])
  | j => j

def canonicalItems : List Json → List Json
  | [] => []
  | j :: js => canonical j :: canonicalItems js

def canonicalMembers : List (String × Json) → List (String × Json)
  | [] => []
  | (name, j) :: ms => (name, canonical j) :: canonicalMembers ms

end

mutual

/-- Equality of values with numeric equality of floats; an integer is never a float. -/
def same : Json → Json → Bool
  | null, null => true
  | bool a, bool b => a == b
  | integer a, integer b => a == b
  | float a, float b => a.sameNumber b
  | string a, string b => a == b
  | array a, array b => sameItems a b
  | object a, object b => sameMembers a b
  | _, _ => false

def sameItems : List Json → List Json → Bool
  | [], [] => true
  | a :: as, b :: bs => same a b && sameItems as bs
  | _, _ => false

def sameMembers : List (String × Json) → List (String × Json) → Bool
  | [], [] => true
  | (m, a) :: as, (n, b) :: bs => m == n && same a b && sameMembers as bs
  | _, _ => false

end

/-- A number in a document; one that is not finite has no numeral there. -/
def numeral (x : Binary64) : String :=
  if x.isFinite then x.written .interchange else "null"

mutual

/-- A value shown with the kind of each part, as in `Array [Number(1), Null]`. -/
def shown : Json → String
  | null => "Null"
  | bool b => if b then "Bool(true)" else "Bool(false)"
  | integer n => "Number(" ++ toString n ++ ")"
  | float x => "Number(" ++ numeral x ++ ")"
  | string s => "String(" ++ Text.quoted s ++ ")"
  | array items => "Array [" ++ ", ".intercalate (shownItems items) ++ "]"
  | object members => "Object \x7b" ++ ", ".intercalate (shownMembers members) ++ "\x7d"
  | unrepresentable => "Null"

def shownItems : List Json → List String
  | [] => []
  | j :: js => shown j :: shownItems js

def shownMembers : List (String × Json) → List String
  | [] => []
  | (name, j) :: ms => (Text.quoted name ++ ": " ++ shown j) :: shownMembers ms

end

end Json
end JobParameters
