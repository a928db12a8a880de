/-
# Characters of a YAML stream

The classes of characters that YAML is written in: which ones a stream may hold
at all, which end a line, and which a word is made of.

Key definitions: `Yaml.isAllowed`, `Yaml.isBreak`, `Yaml.isWhite`, `Yaml.isWord`.
-/
namespace JobParameters.Yaml

/-- What a stream may hold: no control characters but the tab and the line ends. -/
def isAllowed (c : Char) : Bool :=
  let n := c.toNat
  n == 0x09 || n == 0x0A || n == 0x0D || (0x20 ≤ n && n ≤ 0x7E) || n == 0x85 ||
    (0xA0 ≤ n && n ≤ 0xFFFD) || 0x10000 ≤ n

/-- A line end: line feed, carriage return, next line, or a line or paragraph separator. -/
def isBreak (c : Char) : Bool :=
  c == '\n' || c == '\r' || c == '\u0085' || c == '\u2028' || c == '\u2029'

/-- A blank or a tab. -/
def isWhite (c : Char) : Bool :=
  c == ' ' || c == '\t'

/-- A letter, a digit, a hyphen or an underscore, of ASCII alone. -/
def isWord (c : Char) : Bool :=
  c.isAlphanum || c == '-' || c == '_'

/-- Whether a text is at its end, at a line end or at white space. -/
def atGap : List Char → Bool
  | [] => true
  | c :: _ => isWhite c || isBreak c

/-- Whether a text is at its end or at a line end. -/
def atLineEnd : List Char → Bool
  | [] => true
  | c :: _ => isBreak c

end JobParameters.Yaml
