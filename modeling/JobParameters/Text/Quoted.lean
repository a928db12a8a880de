/-
# Quoted text

How a text is shown inside a message: between double quotes, on one line, with
every character either itself or an escape. The quote, the backslash and the
common control characters have escapes of two characters; any other character
that `isShown` refuses is written by its code point in hexadecimal.

Key definitions: `hexDigits`, `escape`, `quoted`.
-/
import JobParameters.Text.Shown

namespace JobParameters.Text

/-- A number in lower-case hexadecimal, without leading zeros. -/
def hexDigits (n : Nat) : List Char :=
  Nat.toDigits 16 n

/-- A number in lower-case hexadecimal with at least `width` digits. -/
def hexPadded (width n : Nat) : List Char :=
  let ds := hexDigits n
  List.replicate (width - ds.length) '0' ++ ds

/-- The written form of one character inside quotes. -/
def escape (c : Char) : List Char :=
  if c = '"' ∨ c = '\\' then ['\\', c]
  else if c = '\n' then ['\\', 'n']
  else if c = '\r' then ['\\', 'r']
  else if c = '\t' then ['\\', 't']
  else if c.toNat = 0 then ['\\', '0']
  else if isShown c then [c]
  else ['\\', 'u', '{'] ++ hexDigits c.toNat ++ ['}']

/-- A text between double quotes, each character escaped as it needs. -/
def quoted (s : String) : String :=
  String.ofList (['"'] ++ s.toList.flatMap escape ++ ['"'])

end JobParameters.Text
