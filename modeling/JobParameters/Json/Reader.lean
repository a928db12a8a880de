/-
# Reading JSON

`Json.parse?` reads a whole text as one JSON value with blanks around it, and
refuses anything else. A string is read as a list of characters and of UTF-16
surrogates that escapes gave; paired surrogates are one character, and a string
with a single one is unrepresentable. So is an object with such a member name.

Key definitions: `Json.readString`, `Json.readValue`, `Json.parse?`.
-/
import JobParameters.Json.Numeral

namespace JobParameters.Json

/-- The text without leading blanks. -/
def skipBlanks (cs : List Char) : List Char :=
  cs.dropWhile fun c => c == ' ' || c == '\n' || c == '\t' || c == '\r'

/-- The value of a hexadecimal digit. -/
def hexValue? (c : Char) : Option Nat :=
  if c.isDigit then some (c.toNat - 48)
  else if 'a' ≤ c ∧ c ≤ 'f' then some (c.toNat - 87)
  else if 'A' ≤ c ∧ c ≤ 'F' then some (c.toNat - 55)
  else none

/-- The code unit of four hexadecimal digits, and the rest. -/
def readUnit? : List Char → Option (Nat × List Char)
  | a :: b :: c :: d :: rest => do
    let a ← hexValue? a
    let b ← hexValue? b
    let c ← hexValue? c
    let d ← hexValue? d
    some (((a * 16 + b) * 16 + c) * 16 + d, rest)
  | _ => none

/-- A piece of a string: a character, or half a surrogate pair. -/
inductive Piece where
  | char (c : Char)
  | surrogate (unit : Nat)

/-- The piece that a code unit is. -/
def Piece.ofUnit (unit : Nat) : Piece :=
  if 0xD800 ≤ unit ∧ unit ≤ 0xDFFF then surrogate unit else char (Char.ofNat unit)

/-- The character that an escape letter stands for. -/
def escaped? : Char → Option Char
  | '"' => some '"'
  | '\\' => some '\\'
  | '/' => some '/'
  | 'b' => some '\x08'
  | 'f' => some '\x0c'
  | 'n' => some '\n'
  | 'r' => some '\r'
  | 't' => some '\t'
  | _ => none

/-- One piece of a string, or its closing quote, and the rest. -/
def readPiece? : List Char → Option (Option Piece × List Char)
  | [] => none
  | '"' :: cs => some (none, cs)
  | '\\' :: 'u' :: cs => (readUnit? cs).map fun (unit, rest) => (some (Piece.ofUnit unit), rest)
  | '\\' :: c :: cs => (escaped? c).map fun c => (some (.char c), cs)
  | c :: cs => if c.toNat < 0x20 then none else some (some (.char c), cs)

/-- The pieces of a string up to its closing quote, and the rest. The text bounds
their number. -/
def readPieces : Nat → List Char → Option (List Piece × List Char)
  | 0, _ => none
  | fuel + 1, cs => do
    let (piece, rest) ← readPiece? cs
    match piece with
    | none => some ([], rest)
    | some p =>
      let (ps, rest) ← readPieces fuel rest
      some (p :: ps, rest)

/-- The characters of a string, unless it has half a surrogate pair. -/
def assemble? : List Piece → Option (List Char)
  | [] => some []
  | .char c :: ps => (assemble? ps).map (c :: ·)
  | .surrogate h :: .surrogate l :: ps =>
    if h < 0xDC00 ∧ 0xDC00 ≤ l then
      (assemble? ps).map (Char.ofNat (0x10000 + (h - 0xD800) * 0x400 + (l - 0xDC00)) :: ·)
    else none
  | .surrogate _ :: _ => none

/-- A string after its opening quote: its characters, if it has a value, and the rest. -/
def readString (cs : List Char) : Option (Option String × List Char) :=
  (readPieces (cs.length + 1) cs).map fun (ps, rest) => ((assemble? ps).map String.ofList, rest)

/-- Drops an expected word. -/
def expect? : List Char → List Char → Option (List Char)
  | [], cs => some cs
  | w :: ws, c :: cs => if w = c then expect? ws cs else none
  | _ :: _, [] => none

/-- Members whose names have a value, if all have. -/
def namedMembers? : List (Option String × Json) → Option (List (String × Json))
  | [] => some []
  | (some name, j) :: ms => (namedMembers? ms).map ((name, j) :: ·)
  | (none, _) :: _ => none

mutual

/-- A value at the start of a text, and the rest. -/
def readValue : Nat → List Char → Option (Json × List Char)
  | 0, _ => none
  | fuel + 1, cs =>
    match skipBlanks cs with
    | '"' :: cs => (readString cs).map fun (s, rest) =>
      ((s.map Json.string).getD .unrepresentable, rest)
    | '[' :: cs =>
      match skipBlanks cs with
      | ']' :: rest => some (.array [], rest)
      | cs => (readItems fuel cs).map fun (items, rest) => (.array items, rest)
    | '{' :: cs =>
      match skipBlanks cs with
      | '}' :: rest => some (.object [], rest)
      | cs => (readMembers fuel cs).map fun (members, rest) =>
        (((namedMembers? members).map Json.object).getD .unrepresentable, rest)
    | 'n' :: cs => (expect? "ull".toList cs).map fun rest => (.null, rest)
    | 't' :: cs => (expect? "rue".toList cs).map fun rest => (.bool true, rest)
    | 'f' :: cs => (expect? "alse".toList cs).map fun rest => (.bool false, rest)
    | cs => (Numeral.read? cs).map fun (l, rest) => (l.value, rest)

/-- The items of an array up to its closing bracket, and the rest. -/
def readItems : Nat → List Char → Option (List Json × List Char)
  | 0, _ => none
  | fuel + 1, cs =>
    match readValue fuel cs with
    | none => none
    | some (j, rest) =>
      match skipBlanks rest with
      | ']' :: rest => some ([j], rest)
      | ',' :: rest => (readItems fuel rest).map fun (js, rest) => (j :: js, rest)
      | _ => none

/-- The members of an object up to its closing brace, and the rest. -/
def readMembers : Nat → List Char → Option (List (Option String × Json) × List Char)
  | 0, _ => none
  | fuel + 1, cs =>
    match skipBlanks cs with
    | '"' :: cs =>
      match readString cs with
      | none => none
      | some (name, rest) =>
        match skipBlanks rest with
        | ':' :: rest =>
          match readValue fuel rest with
          | none => none
          | some (j, rest) =>
            match skipBlanks rest with
            | '}' :: rest => some ([(name, j)], rest)
            | ',' :: rest => (readMembers fuel rest).map fun (ms, rest) => ((name, j) :: ms, rest)
            | _ => none
        | _ => none
    | _ => none

end

/-- A whole text as one value. -/
def parse? (text : String) : Option Json :=
  let cs := text.toList
  match readValue (2 * cs.length + 2) cs with
  | some (j, rest) => if (skipBlanks rest).isEmpty then some j else none
  | none => none

end JobParameters.Json
