/-
# Block scalars

A block scalar is a header and the indented lines after it. The header says
whether the lines are kept (`|`) or folded (`>`), what becomes of the line ends
after the last one, and perhaps how far the lines are indented; else the first
of them that is not empty says it.

Key definitions: `Yaml.Block.Header`, `Yaml.Block.Lines`, `Yaml.Block.read?`.
-/
import JobParameters.Yaml.Cursor

namespace JobParameters.Yaml.Block

/-- What becomes of the line ends after the last line. -/
inductive Chomping where
  /-- All are dropped. -/
  | strip
  /-- The first is kept. -/
  | clip
  /-- All are kept. -/
  | keep
deriving DecidableEq

/-- What the header says after its first character. -/
structure Header where
  chomping : Chomping
  indent : Option Nat

/-- The sign for what becomes of the last line ends. -/
def chomping? : Char → Option Chomping
  | '+' => some .keep
  | '-' => some .strip
  | _ => none

/-- The digit for how far lines are indented, which is not zero. -/
def digit? (c : Char) : Option Nat :=
  if c.isDigit && c != '0' then some (c.toNat - 48) else none

/-- The header in either order of its parts, and its length; a zero is refused. -/
def header? (cs : List Char) : Option (Header × Nat) :=
  match cs.head?.bind chomping? with
  | some k =>
    match cs[1]? with
    | some d => if d.isDigit then (digit? d).map fun n => (⟨k, some n⟩, 2) else some (⟨k, none⟩, 1)
    | none => some (⟨k, none⟩, 1)
  | none =>
    match cs.head? with
    | some d =>
      if d.isDigit then
        (digit? d).map fun n =>
          match cs[1]?.bind chomping? with
          | some k => (⟨k, some n⟩, 2)
          | none => (⟨.clip, some n⟩, 1)
      else some (⟨.clip, none⟩, 0)
    | none => some (⟨.clip, none⟩, 0)

/-- Whether a column is in the margin of lines that are indented so far; while that is
not known, every column is. -/
def inMargin (indent : Option Nat) (column : Nat) : Bool :=
  match indent with
  | some n => column < n
  | none => true

/-- Past the blanks in the margin. -/
def skipMargin (indent : Option Nat) (c : Cursor) : Cursor :=
  let line := match indent with
    | some n => c.rest.take (n - c.column)
    | none => c.rest
  c.advance (line.takeWhile (· == ' ')).length

/-- Empty lines in so many steps, their indentation dropped: the line ends, the widest
indentation, and the place after them. A tab in the margin is refused. -/
def emptyLines? (indent : Option Nat) : Nat → Nat → Cursor → Option (List Char × Nat × Cursor)
  | 0, widest, c => some ([], widest, c)
  | fuel + 1, widest, c =>
    let c := skipMargin indent c
    let widest := max widest c.column
    match c.rest with
    | [] => some ([], widest, c)
    | x :: _ =>
      if x = '\t' ∧ inMargin indent c.column then none
      else if isBreak x then do
        let (b, c) := c.lineBreak
        let (bs, widest, c) ← emptyLines? indent fuel widest c
        some (b ++ bs, widest, c)
      else some ([], widest, c)

/-- The text so far of a block scalar, while its lines are read. -/
structure Lines where
  text : List Char
  /-- The end of the last line that is not empty. -/
  lineEnd : List Char
  /-- The ends of the empty lines after it. -/
  empties : List Char
  /-- Whether that line starts with white space. -/
  indented : Bool

/-- The line ends between the last line and one more. -/
def Lines.between (ls : Lines) (folded indented : Bool) : List Char :=
  if folded ∧ ls.lineEnd.head? = some '\n' ∧ !ls.indented ∧ !indented then
    (if ls.empties.isEmpty then [' '] else []) ++ ls.empties
  else ls.lineEnd ++ ls.empties

/-- The lines that are indented to a column, after those that were read. The text bounds
the number of steps. -/
def lines? (folded : Bool) (indent : Nat) : Nat → Lines → Cursor → Option (Lines × Cursor)
  | 0, ls, c => some (ls, c)
  | fuel + 1, ls, c =>
    if c.column = indent ∧ !c.rest.isEmpty then do
      let indented := match c.rest with
        | x :: _ => isWhite x
        | [] => false
      let (line, c) := c.takeWhile fun x => !isBreak x
      let (lineEnd, c) := c.lineBreak
      let (empties, _, c) ← emptyLines? (some indent) (fuel + 1) 0 c
      lines? folded indent fuel
        ⟨ls.text ++ ls.between folded indented ++ line, lineEnd, empties, indented⟩ c
    else some (ls, c)

/-- A block scalar at its first character: its text, and the place after it. The
lines around it are indented to less than the column `least`. -/
def read? (folded : Bool) (least : Nat) (c : Cursor) : Option (List Char × Cursor) := do
  let c := c.next
  let (h, n) ← header? c.rest
  let c := (c.advance n).skipComment
  if !atLineEnd c.rest then none
  else
    let c := c.lineBreak.2
    let given := h.indent.map fun n => least - 1 + n
    let (empties, widest, c) ← emptyLines? given (c.rest.length + 1) 0 c
    let indent := given.getD (max (max widest least) 1)
    let (ls, c) ← lines? folded indent (c.rest.length + 1) ⟨[], [], empties, false⟩ c
    some (ls.text ++ (if h.chomping = .strip then [] else ls.lineEnd) ++
      (if h.chomping = .keep then ls.empties else []), c)

end JobParameters.Yaml.Block
