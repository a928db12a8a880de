/-
# Anchors, tags and directives

The tokens that say something about a node or about the whole document: a name
for a node to be referred to by, the type of a node, and the lines before a
document that give the version and abbreviations of tags.

Key definitions: `Yaml.name?`, `Yaml.tag?`, `Yaml.directive?`.
-/
import JobParameters.Yaml.Scalar.Quoted
import JobParameters.Yaml.Token

namespace JobParameters.Yaml

/-- Whether a character may follow a name without a gap. -/
def endsName (c : Char) : Bool :=
  ['?', ':', ',', ']', '}', '%', '@', '\x60'].contains c

/-- The name after the mark of an anchor or an alias. -/
def name? (c : Cursor) : Option (List Char × Cursor) :=
  let (name, c) := c.next.takeWhile isWord
  if name.isEmpty || !(atGap c.rest || c.rest.head?.any endsName) then none else some (name, c)

namespace Tag

/-- The characters of a tag; between angle brackets there may be more. -/
def isTagChar (verbatim : Bool) (c : Char) : Bool :=
  isWord c ||
    [';', '/', '?', ':', '@', '&', '=', '+', '$', '.', '!', '~', '*', '\'', '(', ')'].contains c ||
    (verbatim && [',', '[', ']'].contains c)

/-- The byte that a percent sign and two hexadecimal digits stand for, and the rest. -/
def byte? : List Char → Option (Nat × List Char)
  | '%' :: a :: b :: cs => do some (16 * (← Json.hexValue? a) + (← Json.hexValue? b), cs)
  | _ => none

/-- The low bits of so many bytes that continue a character, after those before. -/
def continued? : Nat → Nat → List Char → Option (Nat × List Char)
  | 0, code, cs => some (code, cs)
  | n + 1, code, cs => do
    let (b, cs) ← byte? cs
    if 0x80 ≤ b ∧ b < 0xC0 then continued? n (code * 64 + (b - 0x80)) cs else none

/-- A character that is written in bytes. The bytes may be such as spell none: too many
of them, or for half of a pair, or beyond all characters. -/
def escaped? (cs : List Char) : Option (Letter × List Char) := do
  let (b, cs) ← byte? cs
  let (width, low) ←
    if b < 0x80 then some (1, b)
    else if 0xC0 ≤ b ∧ b < 0xE0 then some (2, b - 0xC0)
    else if 0xE0 ≤ b ∧ b < 0xF0 then some (3, b - 0xE0)
    else if 0xF0 ≤ b ∧ b < 0xF8 then some (4, b - 0xF0)
    else none
  let (code, cs) ← continued? (width - 1) low cs
  let x := Char.ofNat code
  some (if code.isValidChar && x.utf8Size == width then some x else none, cs)

/-- The characters of a tag, and the rest. -/
def letters? (verbatim : Bool) : Nat → List Char → Option (List Letter × List Char)
  | 0, cs => some ([], cs)
  | fuel + 1, cs =>
    match cs with
    | [] => some ([], [])
    | '%' :: _ => do
      let (x, cs) ← escaped? cs
      let (xs, cs) ← letters? verbatim fuel cs
      some (x :: xs, cs)
    | x :: rest =>
      if isTagChar verbatim x then
        (letters? verbatim fuel rest).map fun (xs, cs) => (some x :: xs, cs)
      else some ([], x :: rest)

/-- The characters of a tag, and the place after them. -/
def read? (verbatim : Bool) (c : Cursor) : Option (List Letter × Cursor) :=
  (letters? verbatim c.rest.length c.rest).map fun (xs, rest) =>
    (xs, c.advance (c.rest.length - rest.length))

/-- A handle: an exclamation mark and a word, perhaps between two such marks. -/
def handle? (c : Cursor) : Option (List Char × Cursor) := do
  let c ← c.expect? '!'
  let (word, c) := c.takeWhile isWord
  match c.expect? '!' with
  | some c => some (['!'] ++ word ++ ['!'], c)
  | none => some (['!'] ++ word, c)

/-- A tag between angle brackets. -/
def verbatim? (c : Cursor) : Option (Token × Cursor) := do
  let (suffix, c) ← read? true (c.advance 2)
  let c ← c.expect? '>'
  if suffix.isEmpty then none else some (.tag [] (beforeNull suffix), c)

/-- A tag with a handle between two marks, or with the primary handle. A lone mark is a
tag of its own. -/
def shorthand? (c : Cursor) : Option (Token × Cursor) := do
  let (handle, c) ← handle? c
  let (suffix, c) ← read? false c
  if 1 < handle.length && handle.getLast? == some '!' then
    if suffix.isEmpty then none else some (.tag handle (beforeNull suffix), c)
  else
    let suffix := (handle.drop 1).map some ++ beforeNull suffix
    some (if suffix.isEmpty then .tag [] [some '!'] else .tag ['!'] suffix, c)

end Tag

/-- A tag, after which there has to be a gap; inside brackets a comma will do. -/
def tag? (flow : Bool) (c : Cursor) : Option (Token × Cursor) := do
  let (t, c) ← if c.rest[1]? = some '<' then Tag.verbatim? c else Tag.shorthand? c
  if atGap c.rest || (flow && c.rest.head? == some ',') then some (t, c) else none

namespace Directive

/-- A number of nine digits at most. -/
def number? (c : Cursor) : Option (Nat × Cursor) :=
  let (ds, c) := c.takeWhile Char.isDigit
  if ds.isEmpty || 9 < ds.length then none
  else some (ds.foldl (fun n d => 10 * n + (d.toNat - 48)) 0, c)

/-- The version of the language. -/
def version? (c : Cursor) : Option (Token × Cursor) := do
  let (major, c) ← number? (c.skipWhile isWhite)
  let c ← c.expect? '.'
  let (minor, c) ← number? c
  some (.version major minor, c)

/-- An abbreviation for tags. -/
def tagHandle? (c : Cursor) : Option (Token × Cursor) := do
  let (handle, c) ← Tag.handle? (c.skipWhile isWhite)
  let whole := handle == ['!'] || (1 < handle.length && handle.getLast? == some '!')
  if !whole || !(c.rest.head?.any isWhite) then none
  else
    let (expansion, c) ← Tag.read? true (c.skipWhile isWhite)
    if expansion.isEmpty || !atGap c.rest then none
    else some (.tagHandle handle (Tag.beforeNull expansion), c)

end Directive

/-- A directive and its line. -/
def directive? (c : Cursor) : Option (Token × Cursor) := do
  let (name, c) := c.next.takeWhile isWord
  if !atGap c.rest then none
  else
    let (t, c) ←
      if name = "YAML".toList then Directive.version? c
      else if name = "TAG".toList then Directive.tagHandle? c
      else none
    let c := c.skipComment
    if atLineEnd c.rest then some (t, c.lineBreak.2) else none

end JobParameters.Yaml
