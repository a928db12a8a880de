/-
# From characters to tokens

Outside of brackets the structure of a stream is in its columns. A `Scan` keeps
the columns of the open block collections, and for every level of brackets the
place where a key may have started: only the colon after it shows that it was a
key, and then its token, and perhaps the start of a mapping, are put in before.
A key is found so only in the line it started in, and within 1024 bytes.

Key definitions: `Yaml.Scan`, `Yaml.Scan.token?`, `Yaml.tokens?`.
-/
import JobParameters.Yaml.Scalar.Block
import JobParameters.Yaml.Scalar.Plain
import JobParameters.Yaml.Token.Property

namespace JobParameters.Yaml

/-- Where a key may have started. -/
structure KeyStart where
  /-- Whether there has to be a key, because a block mapping goes on here. -/
  required : Bool
  /-- How many tokens come before. -/
  number : Nat
  index : Nat
  line : Nat
  column : Nat

/-- A stream that is partly read as tokens. -/
structure Scan where
  cursor : Cursor
  tokens : Array Token
  /-- The columns of the open block collections, the innermost first. -/
  columns : List Nat
  /-- Whether a key may start at the next token. -/
  keyAllowed : Bool
  /-- Where a key may have started, on this level of brackets. -/
  key : Option KeyStart
  /-- The same for the levels around this one, the innermost first. -/
  outer : List (Option KeyStart)

namespace Scan

/-- A stream of which nothing is read. -/
def start (cs : List Char) : Scan where
  cursor := Cursor.ofText cs
  tokens := #[]
  columns := []
  keyAllowed := true
  key := none
  outer := []

/-- Whether this is inside brackets. -/
def isFlow (s : Scan) : Bool := !s.outer.isEmpty

/-- The least column that belongs to the innermost block collection's items. -/
def least (s : Scan) : Nat :=
  match s.columns with
  | [] => 0
  | n :: _ => n + 1

/-- One more token. -/
def push (s : Scan) (t : Token) : Scan := { s with tokens := s.tokens.push t }

/-- Past some characters that are a token. -/
def mark (s : Scan) (n : Nat) (t : Token) : Scan :=
  { s.push t with cursor := s.cursor.advance n }

/-- Past white space, comments and line ends in so many steps. A line may start with a
byte order mark, which takes a column. A tab that may be indentation is left. -/
def skipGap : Nat → Scan → Scan
  | 0, s => s
  | fuel + 1, s =>
    let c := if s.cursor.column = 0 then s.cursor.skipOrderMark else s.cursor
    let c := c.skipWhile fun x => x == ' ' || (x == '\t' && (s.isFlow || !s.keyAllowed))
    let c := if c.rest.head? = some '#' then c.skipWhile fun x => !isBreak x else c
    if c.rest.head?.any isBreak then
      skipGap fuel { s with cursor := c.lineBreak.2, keyAllowed := s.keyAllowed || !s.isFlow }
    else { s with cursor := c }

/-- Whether a key can no longer have started there. -/
def isStale (c : Cursor) (k : KeyStart) : Bool :=
  k.line < c.line || k.index + 1024 < c.index

/-- Forgets a start that is too far away, unless there has to be a key. -/
def refresh? (c : Cursor) : Option KeyStart → Option (Option KeyStart)
  | none => some none
  | some k => if isStale c k then (if k.required then none else some none) else some (some k)

/-- Forgets all starts that are too far away. -/
def refreshAll? (s : Scan) : Option Scan := do
  let key ← refresh? s.cursor s.key
  let outer ← s.outer.mapM (refresh? s.cursor)
  some { s with key := key, outer := outer }

/-- Forgets the start on this level, unless there has to be a key. -/
def dropKey? (s : Scan) : Option Scan :=
  if s.key.any KeyStart.required then none else some { s with key := none }

/-- Remembers that a key may start here. -/
def saveKey? (s : Scan) : Option Scan :=
  if s.keyAllowed then
    (dropKey? s).map fun s =>
      { s with key := some {
          required := !s.isFlow && s.columns.head? == some s.cursor.column
          number := s.tokens.size
          index := s.cursor.index
          line := s.cursor.line
          column := s.cursor.column } }
  else some s

/-- Closes the block collections at the columns that satisfy a test. -/
def closeBlocks (s : Scan) (deeper : Nat → Bool) : Scan :=
  if s.isFlow then s
  else
    let closed := (s.columns.takeWhile deeper).length
    { s with
      columns := s.columns.drop closed
      tokens := s.tokens ++ (List.replicate closed Token.blockEnd).toArray }

/-- Opens a block collection at a column that is deeper than the open ones; its token is
put in before those from the given one on. -/
def openBlock (s : Scan) (column number : Nat) (t : Token) : Scan :=
  if !s.isFlow && s.columns.all (· < column) then
    { s with
      columns := column :: s.columns
      tokens := s.tokens.insertIdxIfInBounds number t }
  else s

/-- Opens a block collection here. -/
def openBlockHere (s : Scan) (t : Token) : Scan :=
  s.openBlock s.cursor.column s.tokens.size t

/-- A directive, or a mark between documents: no block collection goes on, and no key. -/
def betweenDocuments? (s : Scan) : Option Scan :=
  (dropKey? (s.closeBlocks fun _ => true)).map fun s => { s with keyAllowed := false }

/-- An opening bracket. -/
def openFlow? (s : Scan) (t : Token) : Option Scan :=
  (saveKey? s).map fun s =>
    { s.mark 1 t with keyAllowed := true, key := none, outer := s.key :: s.outer }

/-- A closing bracket. -/
def closeFlow? (s : Scan) (t : Token) : Option Scan :=
  (dropKey? s).map fun s =>
    let s := { s.mark 1 t with keyAllowed := false }
    match s.outer with
    | [] => s
    | k :: ks => { s with key := k, outer := ks }

/-- The start of an item or of a marked key, outside of brackets only where a key may start. -/
def entry? (s : Scan) (opening t : Token) (keyAllowed : Bool) : Option Scan :=
  if s.isFlow || s.keyAllowed then
    (dropKey? (s.openBlockHere opening)).map fun s => { s.mark 1 t with keyAllowed := keyAllowed }
  else none

/-- The colon before a value: what comes before it was a key if one may have started, and
else it has none. -/
def value? (s : Scan) : Option Scan :=
  match s.key with
  | some k =>
    let s := { s with tokens := s.tokens.insertIdxIfInBounds k.number .key }
    let s := s.openBlock k.column k.number .blockMapping
    some { s.mark 1 .value with key := none, keyAllowed := false }
  | none =>
    if s.isFlow || s.keyAllowed then
      some { (s.openBlockHere .blockMapping).mark 1 .value with keyAllowed := !s.isFlow }
    else none

/-- A token that may be the start of a key, and after which none may start. -/
def word? (s : Scan) (read? : Cursor → Option (Token × Cursor)) : Option Scan := do
  let s ← saveKey? s
  let (t, c) ← read? s.cursor
  some { s.push t with cursor := c, keyAllowed := false }

/-- A plain scalar. After a line end that follows it a key may start again. -/
def plain? (s : Scan) : Option Scan := do
  let s ← saveKey? s
  let (text, broken, c) ← Plain.read? s.isFlow s.least s.cursor
  some { s.push (.scalar true text) with cursor := c, keyAllowed := broken }

/-- A block scalar. -/
def block? (s : Scan) (folded : Bool) : Option Scan := do
  let s ← dropKey? s
  let (text, c) ← Block.read? folded s.least s.cursor
  some { s.push (.scalar false text) with cursor := c, keyAllowed := true }

/-- The characters that no plain scalar starts with, save for some where a word follows. -/
def isIndicator (c : Char) : Bool :=
  ['-', '?', ':', ',', '[', ']', '{', '}', '#', '&', '*', '!', '|', '>', '\'', '"', '%', '@',
    '\x60'].contains c

/-- Whether a plain scalar starts with a character, given those after it. -/
def startsPlain (flow : Bool) (x : Char) (xs : List Char) : Bool :=
  !(isWhite x || isBreak x || isIndicator x) ||
    (x == '-' && !xs.head?.any isWhite) ||
    (!flow && (x == '?' || x == ':') && !atGap xs)

/-- Reads the token that starts with a character. -/
def token? (s : Scan) (x : Char) (xs : List Char) : Option Scan :=
  let inside := s.isFlow || atGap xs
  if s.cursor.column = 0 ∧ x = '%' then do
    let s ← betweenDocuments? s
    let (t, c) ← directive? s.cursor
    some { s.push t with cursor := c }
  else if s.cursor.atDocumentMark then
    (betweenDocuments? s).map fun s =>
      s.mark 3 (if x = '-' then .documentStart else .documentEnd)
  else if x = '[' then s.openFlow? .flowSequence
  else if x = '{' then s.openFlow? .flowMapping
  else if x = ']' then s.closeFlow? .flowSequenceEnd
  else if x = '}' then s.closeFlow? .flowMappingEnd
  else if x = ',' then
    (dropKey? s).map fun s => { s.mark 1 .flowEntry with keyAllowed := true }
  else if x = '-' ∧ atGap xs then s.entry? .blockSequence .blockEntry true
  else if x = '?' ∧ inside then s.entry? .blockMapping .key (!s.isFlow)
  else if x = ':' ∧ inside then s.value?
  else if x = '*' then s.word? fun c => (name? c).map fun (n, c) => (.aliasTo n, c)
  else if x = '&' then s.word? fun c => (name? c).map fun (n, c) => (.anchor n, c)
  else if x = '!' then s.word? (tag? s.isFlow)
  else if x = '|' ∧ !s.isFlow then s.block? false
  else if x = '>' ∧ !s.isFlow then s.block? true
  else if x = '\'' ∨ x = '"' then
    s.word? fun c => (Quoted.read? x c).map fun (text, c) => (.scalar false text, c)
  else if startsPlain s.isFlow x xs then s.plain?
  else none

/-- The end of the stream closes everything. -/
def finish? (s : Scan) : Option (List Token) :=
  (dropKey? (s.closeBlocks fun _ => true)).map fun s => s.tokens.toList

/-- Reads tokens to the end. The text bounds their number. -/
def run? : Nat → Scan → Option (List Token)
  | 0, _ => none
  | fuel + 1, s => do
    let s ← refreshAll? (skipGap (fuel + 1) s)
    let s := s.closeBlocks fun n => s.cursor.column < n
    match s.cursor.rest with
    | [] => s.finish?
    | x :: xs => run? fuel (← s.token? x xs)

end Scan

/-- The tokens of a text. -/
def tokens? (text : String) : Option (List Token) :=
  let cs := text.toList
  if cs.all isAllowed then Scan.run? (cs.length + 1) (Scan.start cs) else none

end JobParameters.Yaml
