/-
# Folding

Between two words of a plain or quoted scalar there is a `Gap`: white space on
one line, or line ends with white space around them. It is read as that white
space, or the line ends are folded: a single one into a blank, several into all
but the first.

Key definitions: `Yaml.Gap`, `Yaml.Gap.text`, `Yaml.Gap.read`.
-/
import JobParameters.Yaml.Cursor

namespace JobParameters.Yaml

/-- What stands between two words: white space, or a first line end and more. -/
structure Gap where
  white : List Char
  first : Option (List Char)
  more : List Char

namespace Gap

/-- Nothing between two words. -/
def none : Gap := ⟨[], .none, []⟩

/-- A line end that is written as an escape. -/
def escaped : Gap := ⟨[], some [], []⟩

/-- Whether there is a line end in it. -/
def isBroken (g : Gap) : Bool := g.first.isSome

/-- What the gap stands for. -/
def text (g : Gap) : List Char :=
  match g.first with
  | .none => g.white
  | some b =>
    if b = ['\n'] then (if g.more.isEmpty then [' '] else g.more) else b ++ g.more

/-- The gap with one more line end. -/
def addBreak (g : Gap) (b : List Char) : Gap :=
  match g.first with
  | .none => ⟨[], some b, []⟩
  | some _ => { g with more := g.more ++ b }

/-- The gap with one more character of white space; on a new line it is indentation. -/
def addWhite (g : Gap) (c : Char) : Gap :=
  if g.isBroken then g else { g with white := g.white ++ [c] }

/-- Reads the rest of a gap in so many steps. A tab that indents a line to less than the
given column is refused. -/
def read (least : Nat) : Nat → Gap → Cursor → Option (Gap × Cursor)
  | 0, g, c => some (g, c)
  | fuel + 1, g, c =>
    match c.rest with
    | [] => some (g, c)
    | x :: _ =>
      if isWhite x then
        if x = '\t' ∧ g.isBroken ∧ c.column < least then .none
        else read least fuel (g.addWhite x) c.next
      else if isBreak x then
        let (b, c) := c.lineBreak
        read least fuel (g.addBreak b) c
      else some (g, c)

end Gap
end JobParameters.Yaml
