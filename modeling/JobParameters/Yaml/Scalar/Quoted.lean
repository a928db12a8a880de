/-
# Quoted scalars

Between single quotes, two of them stand for one, and nothing else is special.
Between double quotes a backslash starts an escape. In both, the line ends are
folded, and a mark between documents is refused.

Key definitions: `Yaml.Quoted.escape?`, `Yaml.Quoted.word?`, `Yaml.Quoted.read?`.
-/
import JobParameters.Json.Reader
import JobParameters.Yaml.Scalar.Fold

namespace JobParameters.Yaml.Quoted

/-- The character that an escape of one letter stands for. -/
def letter? (c : Char) : Option Char :=
  (List.lookup c [('0', '\x00'), ('a', '\x07'), ('b', '\x08'), ('t', '\t'), ('\t', '\t'),
    ('n', '\n'), ('v', '\x0b'), ('f', '\x0c'), ('r', '\r'), ('e', '\x1b'), (' ', ' '),
    ('"', '"'), ('/', '/'), ('\\', '\\'), ('N', '\u0085'), ('_', '\u00a0'), ('L', '\u2028'),
    ('P', '\u2029')])

/-- How many hexadecimal digits follow a letter. -/
def digits? (c : Char) : Option Nat :=
  List.lookup c [('x', 2), ('u', 4), ('U', 8)]

/-- The character of a code point; surrogates are none. -/
def charOf? (n : Nat) : Option Char :=
  if n.isValidChar then some (Char.ofNat n) else none

/-- The number that hexadecimal digits stand for. -/
def hexNumber? (cs : List Char) : Option Nat :=
  (cs.mapM Json.hexValue?).map fun ds => ds.foldl (fun n d => 16 * n + d) 0

/-- The character of an escape after its backslash, and how long that is. -/
def escape? : List Char → Option (Char × Nat)
  | [] => none
  | c :: cs =>
    match letter? c, digits? c with
    | some x, _ => some (x, 1)
    | none, some n =>
      if (cs.take n).length < n then none
      else ((hexNumber? (cs.take n)).bind charOf?).map fun x => (x, n + 1)
    | none, none => none

/-- How a word of a quoted scalar ends. -/
inductive Stop where
  /-- At white space, a line end, the closing quote or the end of the stream. -/
  | plain
  /-- At a line end that is escaped. -/
  | escapedBreak

/-- A word of a quoted scalar in so many steps, how it ends, and the place after it. -/
def word? (quote : Char) : Nat → Cursor → Option (List Char × Stop × Cursor)
  | 0, c => some ([], .plain, c)
  | fuel + 1, c =>
    match c.rest with
    | [] => some ([], .plain, c)
    | x :: xs =>
      if atGap (x :: xs) then some ([], .plain, c)
      else if x = '\'' ∧ quote = '\'' ∧ xs.head? = some '\'' then
        (word? quote fuel (c.advance 2)).map fun (w, s, c) => ('\'' :: w, s, c)
      else if x = quote then some ([], .plain, c)
      else if x = '\\' ∧ quote = '"' then
        if !xs.isEmpty && atLineEnd xs then some ([], .escapedBreak, c.next.lineBreak.2)
        else do
          let (y, n) ← escape? xs
          let (w, s, c) ← word? quote fuel (c.advance (n + 1))
          some (y :: w, s, c)
      else (word? quote fuel c.next).map fun (w, s, c) => (x :: w, s, c)

/-- Words with the gaps between them, up to the closing quote: their text and the
place after the quote. The text bounds the number of steps. -/
def words? (quote : Char) : Nat → Cursor → Option (List Char × Cursor)
  | 0, _ => none
  | fuel + 1, c =>
    if c.atDocumentMark || c.rest.isEmpty then none
    else do
      let (w, stop, c) ← word? quote (fuel + 1) c
      if c.rest.head? = some quote then some (w, c.next)
      else
        let gap := match stop with
          | .plain => Gap.none
          | .escapedBreak => Gap.escaped
        let (g, c) ← Gap.read 0 fuel gap c
        let (more, c) ← words? quote fuel c
        some (w ++ g.text ++ more, c)

/-- A quoted scalar at its opening quote: its text, and the place after it. -/
def read? (quote : Char) (c : Cursor) : Option (List Char × Cursor) :=
  words? quote (c.rest.length + 1) c.next

end JobParameters.Yaml.Quoted
