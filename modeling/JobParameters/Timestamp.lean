/-
# Moments in time

A `Timestamp` is a moment in UTC: days since 1970-01-01, the second of the day,
and the nanosecond, where a leap second counts as nanoseconds beyond the last
second of its minute. Dates are those of the Gregorian calendar at all times.

A written time may leave blanks between its parts, may put a blank or a `t`
between date and time, and names its distance from UTC. It is shown in full,
with as many groups of three digits below the second as it needs.

Key definitions: `Timestamp`, `CivilDate.toDays`, `CivilDate.ofDays`,
`Timestamp.parse?`, `Timestamp.display`.
-/
import JobParameters.Decimal.Read
import JobParameters.Text.Blank

namespace JobParameters

/-- A moment in UTC. -/
structure Timestamp where
  day : Int
  second : Nat
  nanosecond : Nat
deriving DecidableEq

/-- A date of the Gregorian calendar. -/
structure CivilDate where
  year : Int
  month : Nat
  day : Nat
deriving DecidableEq

namespace CivilDate

/-- Whether a year has a 29th of February. -/
def isLeap (year : Int) : Bool :=
  year % 4 == 0 && (year % 100 != 0 || year % 400 == 0)

/-- The number of days of a month. -/
def daysInMonth (year : Int) (month : Nat) : Nat :=
  if month = 2 then (if isLeap year then 29 else 28)
  else if month = 4 ∨ month = 6 ∨ month = 9 ∨ month = 11 then 30
  else 31

/-- Whether the calendar has the date. -/
def isValid (d : CivilDate) : Bool :=
  1 ≤ d.month && d.month ≤ 12 && 1 ≤ d.day && d.day ≤ daysInMonth d.year d.month

/-- Days since 1970-01-01. The year is taken to begin in March, so that a leap day
comes last in it. -/
def toDays (d : CivilDate) : Int :=
  let y := if d.month ≤ 2 then d.year - 1 else d.year
  let era := y.fdiv 400
  let yearOfEra := y - era * 400
  let monthFromMarch : Int := (d.month + 9) % 12
  let dayOfYear := (153 * monthFromMarch + 2) / 5 + d.day - 1
  let dayOfEra := yearOfEra * 365 + yearOfEra / 4 - yearOfEra / 100 + dayOfYear
  era * 146097 + dayOfEra - 719468

/-- The date that many days after 1970-01-01. -/
def ofDays (days : Int) : CivilDate :=
  let z := days + 719468
  let era := z.fdiv 146097
  let dayOfEra := z - era * 146097
  let yearOfEra := (dayOfEra - dayOfEra / 1460 + dayOfEra / 36524 - dayOfEra / 146096) / 365
  let dayOfYear := dayOfEra - (365 * yearOfEra + yearOfEra / 4 - yearOfEra / 100)
  let monthFromMarch := (5 * dayOfYear + 2) / 153
  let day := dayOfYear - (153 * monthFromMarch + 2) / 5 + 1
  let month := if monthFromMarch < 10 then monthFromMarch + 3 else monthFromMarch - 9
  let year := yearOfEra + era * 400 + (if month ≤ 2 then 1 else 0)
  ⟨year, month.toNat, day.toNat⟩

example : toDays ⟨2000, 3, 1⟩ = 11017 ∧ ofDays 11017 = ⟨2000, 3, 1⟩ := by decide
example : toDays ⟨1969, 12, 31⟩ = -1 ∧ ofDays (-1) = ⟨1969, 12, 31⟩ := by decide

end CivilDate

namespace Timestamp

/-- The first moment of 1970. -/
def epoch : Timestamp := ⟨0, 0, 0⟩

/-- How many nanoseconds a second has. -/
def nanosecondsPerSecond : Nat := 1000000000

/-- The moment that many nanoseconds after the first one of 1970. -/
def ofNanoseconds (n : Int) : Timestamp :=
  let seconds := n.fdiv nanosecondsPerSecond
  ⟨seconds.fdiv 86400, (seconds.fmod 86400).toNat, (n.fmod nanosecondsPerSecond).toNat⟩

/-- Between `least` and `most` digits as a number, and the rest. -/
def readNumber? (least most : Nat) (cs : List Char) : Option (Nat × List Char) :=
  let ds := (cs.take most).takeWhile Char.isDigit
  if ds.length < least then none else some (appendDigits 0 ds, cs.drop ds.length)

/-- A two-digit field after blanks. -/
def readField? (cs : List Char) : Option (Nat × List Char) :=
  readNumber? 1 2 (Text.trimStart cs)

/-- Drops a separator that may have blanks before it. -/
def readMark? (mark : Char) (cs : List Char) : Option (List Char) :=
  match Text.trimStart cs with
  | c :: cs => if c = mark then some cs else none
  | [] => none

/-- A year: four digits at most, or any number of them after a sign. -/
def readYear? (cs : List Char) : Option (Int × List Char) :=
  match Text.trimStart cs with
  | '-' :: cs => (readNumber? 1 cs.length cs).map fun (n, rest) => (-(n : Int), rest)
  | '+' :: cs => (readNumber? 1 cs.length cs).map fun (n, rest) => ((n : Int), rest)
  | cs => (readNumber? 1 4 cs).map fun (n, rest) => ((n : Int), rest)

/-- The nanoseconds after a point, digits beyond the ninth dropped; none without a point. -/
def readFraction? : List Char → Option (Nat × List Char)
  | '.' :: cs =>
    let (ds, rest) := readDigits cs
    if ds.isEmpty then none
    else some (appendDigits 0 (ds.take 9) * Nat.pow 10 (9 - (ds.take 9).length), rest)
  | cs => some (0, cs)

/-- Minutes east of UTC: `UTC`, `Z`, or a sign, two digits of hours and two of
minutes, with colons or blanks between. -/
def readOffset? (cs : List Char) : Option (Int × List Char) :=
  if String.ofList ((cs.take 3).map Char.toUpper) = "UTC" then some (0, cs.drop 3)
  else match cs with
    | [] => none
    | s :: cs =>
      if s = 'Z' ∨ s = 'z' then some (0, cs)
      else if s = '+' ∨ s = '-' ∨ s = '−' then do
        let (hours, cs) ← readNumber? 2 2 cs
        let (minutes, cs) ← readNumber? 2 2 (cs.dropWhile fun c => c == ':' || Text.isBlank c)
        if 60 ≤ minutes then none
        else
          let n : Int := hours * 60 + minutes
          some (if s = '+' then n else -n, cs)
      else none

/-- The years that a moment may fall in. -/
def isRepresentable (days : Int) : Bool :=
  let year := (CivilDate.ofDays days).year
  year ≤ 262142 && -262143 ≤ year

/-- The moment of a date, a time of day in seconds and nanoseconds, and minutes east of UTC. -/
def ofLocal? (date : CivilDate) (second nanosecond : Nat) (east : Int) : Option Timestamp :=
  if date.isValid && isRepresentable date.toDays && east.natAbs < 1440 then
    let total := date.toDays * 86400 + second - east * 60
    let day := total.fdiv 86400
    if isRepresentable day then some ⟨day, (total - day * 86400).toNat, nanosecond⟩ else none
  else none

/-- A written moment. Second 60 is the last second of its minute, prolonged. -/
def parse? (text : String) : Option Timestamp := do
  let (year, cs) ← readYear? text.toList
  let cs ← readMark? '-' cs
  let (month, cs) ← readField? cs
  let cs ← readMark? '-' cs
  let (day, cs) ← readField? cs
  let cs ← match cs with
    | c :: cs => if c = 'T' ∨ c = 't' ∨ c = ' ' then some cs else none
    | [] => none
  let (hour, cs) ← readField? cs
  let cs ← readMark? ':' cs
  let (minute, cs) ← readField? cs
  let cs ← readMark? ':' cs
  let (second, cs) ← readField? cs
  let (nanosecond, cs) ← readFraction? cs
  let (east, cs) ← readOffset? (Text.trimStart cs)
  if !(Text.trimStart cs).isEmpty || 23 < hour || 59 < minute || 60 < second then none
  else
    let leap := second == 60
    ofLocal? ⟨year, month, day⟩ (hour * 3600 + minute * 60 + if leap then 59 else second)
      (if leap then nanosecond + nanosecondsPerSecond else nanosecond) east

/-- A natural with at least `width` digits. -/
def padded (width n : Nat) : String :=
  let ds := Nat.toDigits 10 n
  String.ofList (List.replicate (width - ds.length) '0' ++ ds)

/-- A year in four digits, or with its sign when it needs more or is negative. -/
def showYear (year : Int) : String :=
  if 0 ≤ year ∧ year ≤ 9999 then padded 4 year.toNat
  else (if year < 0 then "-" else "+") ++ padded 4 year.natAbs

/-- Nanoseconds in groups of three digits, as many as are needed. -/
def showFraction (nanosecond : Nat) : String :=
  if nanosecond = 0 then ""
  else if nanosecond % 1000000 = 0 then "." ++ padded 3 (nanosecond / 1000000)
  else if nanosecond % 1000 = 0 then "." ++ padded 6 (nanosecond / 1000)
  else "." ++ padded 9 nanosecond

/-- A moment as date and time, without its zone. -/
def showLocal (t : Timestamp) : String :=
  let d := CivilDate.ofDays t.day
  let leap := nanosecondsPerSecond ≤ t.nanosecond
  let second := t.second % 60 + if leap then 1 else 0
  showYear d.year ++ "-" ++ padded 2 d.month ++ "-" ++ padded 2 d.day ++ "T" ++
    padded 2 (t.second / 3600) ++ ":" ++ padded 2 (t.second / 60 % 60) ++ ":" ++
    padded 2 second ++ showFraction (t.nanosecond % nanosecondsPerSecond)

/-- A moment with its distance from UTC. -/
def display (t : Timestamp) : String :=
  t.showLocal ++ "+00:00"

/-- A moment with the short sign of UTC, as documents have it. -/
def displayZulu (t : Timestamp) : String :=
  t.showLocal ++ "Z"

end Timestamp
end JobParameters
