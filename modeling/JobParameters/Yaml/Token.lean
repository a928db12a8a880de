/-
# Tokens of a YAML stream

A stream read as tokens has its indentation spelled out: block collections open
and close with tokens of their own, and a key is marked before it although it is
recognized only by the colon after it.

Key definition: `Yaml.Token`.
-/
import JobParameters.Yaml.Tag

namespace JobParameters.Yaml

/-- A token; texts are lists of characters. -/
inductive Token where
  | version (major minor : Nat)
  | tagHandle (handle : List Char) (expansion : List Letter)
  | documentStart
  | documentEnd
  | blockSequence
  | blockMapping
  | blockEnd
  | flowSequence
  | flowSequenceEnd
  | flowMapping
  | flowMappingEnd
  | blockEntry
  | flowEntry
  | key
  | value
  | aliasTo (name : List Char)
  | anchor (name : List Char)
  | tag (handle : List Char) (suffix : List Letter)
  /-- A scalar, written plain or in another style. -/
  | scalar (plain : Bool) (text : List Char)
deriving DecidableEq

end JobParameters.Yaml
