/-
# A place in a YAML stream

A `Cursor` is what is left of a stream, with how many bytes and lines come before
and which column it is in. Bytes are those of UTF-8, columns are characters. A
line end is one step, also when it is written as two characters.

Key definitions: `Yaml.Cursor`, `Yaml.Cursor.next`, `Yaml.Cursor.lineBreak`,
`Yaml.Cursor.takeWhile`, `Yaml.Cursor.atDocumentMark`.
-/
import JobParameters.Yaml.Charset

namespace JobParameters.Yaml

/-- How many bytes a text takes. -/
def byteCount (cs : List Char) : Nat :=
  cs.foldl (fun n c => n + c.utf8Size) 0

/-- What is left of a stream, and where that is. -/
structure Cursor where
  rest : List Char
  /-- How many bytes come before. -/
  index : Nat
  line : Nat
  column : Nat

namespace Cursor

/-- The start of a text. -/
def ofText (cs : List Char) : Cursor := ⟨cs, 0, 0, 0⟩

/-- Past some characters of a line. -/
def advance (c : Cursor) (n : Nat) : Cursor :=
  { c with
    rest := c.rest.drop n
    index := c.index + byteCount (c.rest.take n)
    column := c.column + n }

/-- Past one character of a line. -/
def next (c : Cursor) : Cursor := c.advance 1

/-- Past a line end of so many characters. -/
def newLine (c : Cursor) (n : Nat) : Cursor :=
  { rest := c.rest.drop n
    index := c.index + byteCount (c.rest.take n)
    line := c.line + 1
    column := 0 }

/-- The text that a line end stands for, and the place past it. The separators
stand for themselves, all others for a line feed. -/
def lineBreak (c : Cursor) : List Char × Cursor :=
  match c.rest with
  | '\r' :: '\n' :: _ => (['\n'], c.newLine 2)
  | '\u2028' :: _ => (['\u2028'], c.newLine 1)
  | '\u2029' :: _ => (['\u2029'], c.newLine 1)
  | x :: _ => if isBreak x then (['\n'], c.newLine 1) else ([], c)
  | [] => ([], c)

/-- The characters that satisfy a test, none of which ends a line, and the place past them. -/
def takeWhile (c : Cursor) (p : Char → Bool) : List Char × Cursor :=
  let cs := c.rest.takeWhile p
  (cs, c.advance cs.length)

/-- The place past the characters that satisfy a test. -/
def skipWhile (c : Cursor) (p : Char → Bool) : Cursor := (c.takeWhile p).2

/-- The place past a given character. -/
def expect? (c : Cursor) (x : Char) : Option Cursor :=
  if c.rest.head? = some x then some c.next else none

/-- The place past a byte order mark, if there is one. -/
def skipOrderMark (c : Cursor) : Cursor :=
  (c.expect? '\uFEFF').getD c

/-- Whether a line that starts here is a mark between documents. -/
def atDocumentMark (c : Cursor) : Bool :=
  c.column == 0 && (c.rest.take 3 == ['-', '-', '-'] || c.rest.take 3 == ['.', '.', '.']) &&
    atGap (c.rest.drop 3)

/-- The rest of a line after its contents: white space and a comment. -/
def skipComment (c : Cursor) : Cursor :=
  let c := c.skipWhile isWhite
  if c.rest.head? = some '#' then c.skipWhile fun x => !isBreak x else c

end Cursor
end JobParameters.Yaml
