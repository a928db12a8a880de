/-
# Writing JSON

Two forms of a document: `compact`, without any blanks, and `pretty`, with a
line for every item and member and two blanks for every level. Both write only
the quote, the backslash and the control characters of a string as escapes.

Key definitions: `Json.escapeChar`, `Json.writeString`, `Json.compact`,
`Json.pretty`.
-/
import JobParameters.Json

namespace JobParameters.Json

/-- A character inside a string of a document. -/
def escapeChar (c : Char) : List Char :=
  if c = '"' ∨ c = '\\' then ['\\', c]
  else if c = '\x08' then ['\\', 'b']
  else if c = '\x0c' then ['\\', 'f']
  else if c = '\n' then ['\\', 'n']
  else if c = '\r' then ['\\', 'r']
  else if c = '\t' then ['\\', 't']
  else if c.toNat < 0x20 then ['\\', 'u'] ++ Text.hexPadded 4 c.toNat
  else [c]

/-- A string of a document. -/
def writeString (s : String) : List Char :=
  ['"'] ++ s.toList.flatMap escapeChar ++ ['"']

mutual

/-- A value without blanks. -/
def writeCompact : Json → List Char
  | null => "null".toList
  | bool b => if b then "true".toList else "false".toList
  | integer n => (toString n).toList
  | float x => (numeral x).toList
  | string s => writeString s
  | array items => ['['] ++ writeItems items ++ [']']
  | object members => ['{'] ++ writeMembers members ++ ['}']
  | unrepresentable => "null".toList

def writeItems : List Json → List Char
  | [] => []
  | [j] => writeCompact j
  | j :: js => writeCompact j ++ [','] ++ writeItems js

def writeMembers : List (String × Json) → List Char
  | [] => []
  | [(name, j)] => writeString name ++ [':'] ++ writeCompact j
  | (name, j) :: ms => writeString name ++ [':'] ++ writeCompact j ++ [','] ++ writeMembers ms

end

/-- A document without blanks. -/
def compact (j : Json) : String :=
  String.ofList (writeCompact j)

/-- A new line at a level. -/
def newLine (level : Nat) : List Char :=
  '\n' :: List.replicate (2 * level) ' '

mutual

/-- A value over several lines, its inner lines below the given level. -/
def writePretty (level : Nat) : Json → List Char
  | array [] => ['[', ']']
  | array (j :: js) =>
    ['['] ++ prettyItems (level + 1) (j :: js) ++ newLine level ++ [']']
  | object [] => ['{', '}']
  | object (m :: ms) =>
    ['{'] ++ prettyMembers (level + 1) (m :: ms) ++ newLine level ++ ['}']
  | j => writeCompact j

def prettyItems (level : Nat) : List Json → List Char
  | [] => []
  | [j] => newLine level ++ writePretty level j
  | j :: js => newLine level ++ writePretty level j ++ [','] ++ prettyItems level js

def prettyMembers (level : Nat) : List (String × Json) → List Char
  | [] => []
  | [(name, j)] => newLine level ++ writeString name ++ [':', ' '] ++ writePretty level j
  | (name, j) :: ms =>
    newLine level ++ writeString name ++ [':', ' '] ++ writePretty level j ++ [','] ++
      prettyMembers level ms

end

/-- A document over several lines. -/
def pretty (j : Json) : String :=
  String.ofList (writePretty 0 j)

end JobParameters.Json
