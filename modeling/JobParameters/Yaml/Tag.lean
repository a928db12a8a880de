/-
# Tags

A tag says what type a node is of. Its characters may be written as the bytes of
UTF-8; bytes that spell no character leave the tag without a text. A tag ends
before a null character. One that starts with an exclamation mark is the
application's own, all others are shared by everyone.

Key definitions: `Yaml.Tag`, `Yaml.Tag.ofLetters`.
-/
namespace JobParameters.Yaml

/-- A character of a tag, or bytes that spell none. -/
abbrev Letter := Option Char

/-- The tag of a node. -/
inductive Tag where
  /-- A tag of the application's own, by what follows the exclamation mark. -/
  | own (name : Option String)
  /-- A tag that means the same everywhere, in full. -/
  | shared (name : Option String)
deriving DecidableEq

namespace Tag

/-- The text of some letters, if all of them are characters. -/
def spelled? (cs : List Letter) : Option String :=
  (cs.mapM id).map String.ofList

/-- The letters before a null character. -/
def beforeNull (cs : List Letter) : List Letter :=
  cs.takeWhile (· != some '\x00')

/-- The tag of some letters. -/
def ofLetters : List Letter → Tag
  | some '!' :: cs => own (spelled? cs)
  | cs => shared (spelled? cs)

end Tag
end JobParameters.Yaml
