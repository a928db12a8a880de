/-
# Plain scalars

A plain scalar has no quotes. It ends before a colon or a comment that stands
apart, before a mark between documents, at a line that is not indented far
enough, and inside brackets also before any of the characters that structure
them.

Key definitions: `Yaml.Plain.word?`, `Yaml.Plain.read?`.
-/
import JobParameters.Yaml.Scalar.Fold

namespace JobParameters.Yaml.Plain

/-- The characters that structure a collection in brackets. -/
def isFlowMark (c : Char) : Bool :=
  c == ',' || c == '[' || c == ']' || c == '{' || c == '}'

/-- Whether the scalar ends here, in the middle of a line. -/
def stops (flow : Bool) : List Char → Bool
  | [] => true
  | ':' :: cs => atGap cs
  | c :: _ => flow && isFlowMark c

/-- Whether a colon inside brackets is followed by what may not follow it. -/
def isMisplacedColon (flow : Bool) : List Char → Bool
  | ':' :: c :: _ => flow && (isFlowMark c || c == '?')
  | _ => false

/-- The characters up to white space or the end of the scalar, and how many they are. -/
def word? (flow : Bool) : List Char → Option (List Char)
  | [] => some []
  | c :: cs =>
    if atGap (c :: cs) then some []
    else if isMisplacedColon flow (c :: cs) then none
    else if stops flow (c :: cs) then some []
    else (word? flow cs).map (c :: ·)

/-- Words with the gaps between them, the first one after the given gap: their text,
whether a line end comes after the last, and the place after them. The text bounds the
number of steps. -/
def words? (flow : Bool) (least : Nat) :
    Nat → Gap → Cursor → Option (List Char × Bool × Cursor)
  | 0, g, c => some ([], g.isBroken, c)
  | fuel + 1, g, c =>
    if c.atDocumentMark || c.rest.head? == some '#' then some ([], g.isBroken, c)
    else do
      let w ← word? flow c.rest
      let c := c.advance w.length
      let text := if w.isEmpty then [] else g.text ++ w
      if !atGap c.rest || c.rest.isEmpty then
        some (text, w.isEmpty && g.isBroken, c)
      else
        let (g, c) ← Gap.read least fuel Gap.none c
        if !flow && c.column < least then some (text, g.isBroken, c)
        else
          let (more, broken, c) ← words? flow least fuel g c
          some (text ++ more, broken, c)

/-- A plain scalar: its text, whether a line end comes after it, and the place
after both. Its lines have to be indented to the given column. -/
def read? (flow : Bool) (least : Nat) (c : Cursor) : Option (List Char × Bool × Cursor) :=
  words? flow least (c.rest.length + 1) Gap.none c

end JobParameters.Yaml.Plain
