import Sweep.Number.Reading
import Sweep.Text.Blank

/-!
# Points in time

A timestamp counts seconds from the beginning of 1970 in universal time, and nanoseconds within the
second. It is written as a date and a time of the proleptic Gregorian calendar, with a fraction of
three, six or nine digits if it is not a whole second. Reading allows white space between the parts
and any offset from universal time.

A leap second is a second nanosecond count of the second that it follows, so that it comes before
the next one. Timestamps are read within a range of years, about 262 thousand to either side.
-/

namespace Sweep

/-- A point in time. -/
structure Timestamp where
  seconds : Int
  /-- The nanoseconds since the beginning of the second. From a whole second on they lie in a leap
  second that follows it. -/
  fraction : Nat := 0
deriving DecidableEq, Repr

namespace Timestamp

instance : Inhabited Timestamp := ⟨{ seconds := 0 }⟩

def nanosecondsPerSecond : Nat := 1000000000

def secondsPerDay : Int := 86400

/-- The point in time a number of seconds after the beginning of 1970. -/
def ofSeconds (seconds : Int) : Timestamp := { seconds }

/-- The point in time a number of nanoseconds after the beginning of 1970. -/
def ofNanoseconds (n : Int) : Timestamp :=
  ⟨n / nanosecondsPerSecond, (n % nanosecondsPerSecond).toNat⟩

def nanoseconds (t : Timestamp) : Int := t.seconds * nanosecondsPerSecond + t.fraction

/-- The point in time a number of nanoseconds later. -/
def after (t : Timestamp) (n : Int) : Timestamp := ofNanoseconds (t.nanoseconds + n)

/-- Earlier is an earlier second, or less of the same second. -/
def lt (a b : Timestamp) : Bool :=
  a.seconds < b.seconds || (a.seconds == b.seconds && a.fraction < b.fraction)

/-- A day of the calendar. -/
structure Date where
  year : Int
  month : Nat
  day : Nat
deriving DecidableEq, Repr

namespace Date

def isLeapYear (year : Int) : Bool :=
  year % 4 == 0 && (year % 100 != 0 || year % 400 == 0)

def daysInMonth (year : Int) (month : Nat) : Nat :=
  if month = 2 then (if isLeapYear year then 29 else 28)
  else if month = 4 ∨ month = 6 ∨ month = 9 ∨ month = 11 then 30
  else 31

/-- Whether there is such a day. -/
def isValid (d : Date) : Bool :=
  1 ≤ d.month && d.month ≤ 12 && 1 ≤ d.day && d.day ≤ daysInMonth d.year d.month

/-- The number of days from the beginning of 1970. Years are counted from March, so that the leap
day comes last, and in cycles of 400 years. -/
def toDays (d : Date) : Int :=
  let year := if d.month ≤ 2 then d.year - 1 else d.year
  let month : Int := (d.month + 9) % 12
  let cycle := year / 400
  let yearOfCycle := year % 400
  let dayOfYear := (153 * month + 2) / 5 + d.day - 1
  let dayOfCycle := yearOfCycle * 365 + yearOfCycle / 4 - yearOfCycle / 100 + dayOfYear
  cycle * 146097 + dayOfCycle - 719468

/-- The day a number of days after the beginning of 1970. -/
def ofDays (days : Int) : Date :=
  let shifted := days + 719468
  let cycle := shifted / 146097
  let dayOfCycle := shifted % 146097
  let yearOfCycle :=
    (dayOfCycle - dayOfCycle / 1460 + dayOfCycle / 36524 - dayOfCycle / 146096) / 365
  let dayOfYear := dayOfCycle - (365 * yearOfCycle + yearOfCycle / 4 - yearOfCycle / 100)
  let month := (5 * dayOfYear + 2) / 153
  let day := dayOfYear - (153 * month + 2) / 5 + 1
  let year := yearOfCycle + cycle * 400
  if month < 10 then ⟨year, (month + 3).toNat, day.toNat⟩
  else ⟨year + 1, (month - 9).toNat, day.toNat⟩

end Date

def firstDay : Int := Date.toDays ⟨-262143, 1, 1⟩

def lastDay : Int := Date.toDays ⟨262142, 12, 31⟩

/-- A number with zeros in front up to a width. -/
def padded (width n : Nat) : String :=
  let digits := toString n
  "".pushn '0' (width - digits.length) ++ digits

/-- A year with four digits or more, after a sign if it is not one of the first ten thousand. -/
def showYear (year : Int) : String :=
  (if year < 0 then "-" else if year ≤ 9999 then "" else "+") ++ padded 4 year.natAbs

/-- The day, counted from the beginning of 1970. -/
def day (t : Timestamp) : Int := t.seconds / secondsPerDay

def secondOfDay (t : Timestamp) : Nat := (t.seconds % secondsPerDay).toNat

/-- The date and the time of day with the given mark in between. The second of a minute that a leap
second belongs to is its sixtieth. -/
def showWith (between : String) (t : Timestamp) : String :=
  let date := Date.ofDays t.day
  let second := t.secondOfDay
  showYear date.year ++ "-" ++ padded 2 date.month ++ "-" ++ padded 2 date.day ++ between ++
    padded 2 (second / 3600) ++ ":" ++ padded 2 (second / 60 % 60) ++ ":" ++
    padded 2 (second % 60 + t.fraction / nanosecondsPerSecond)

/-- The date and the time of day for a reader, to the second. -/
def display (t : Timestamp) : String := t.showWith " "

/-- The fraction of the second with as many digits as it needs. -/
def showFraction (nanoseconds : Nat) : String :=
  if nanoseconds = 0 then ""
  else if nanoseconds % 1000000 = 0 then "." ++ padded 3 (nanoseconds / 1000000)
  else if nanoseconds % 1000 = 0 then "." ++ padded 6 (nanoseconds / 1000)
  else "." ++ padded 9 nanoseconds

/-- The written form of a timestamp. -/
def write (t : Timestamp) : String :=
  t.showWith "T" ++ showFraction (t.fraction % nanosecondsPerSecond) ++ "Z"

/-- Reads a number of at most so many digits, and at least one. -/
def readDigits? (width : Nat) (cs : List Char) : Option (Nat × List Char) :=
  let digits := (cs.take width).takeWhile Char.isDigit
  if digits.isEmpty then none
  else some (Number.digitsValue digits, cs.drop digits.length)

/-- Reads a number of at most so many digits after white space. -/
def readNumber? (width : Nat) (cs : List Char) : Option (Nat × List Char) :=
  readDigits? width (cs.dropWhile Text.isBlank)

/-- Reads a year after white space. With a sign before it, it has any number of digits. -/
def readYear? (cs : List Char) : Option (Int × List Char) :=
  match cs.dropWhile Text.isBlank with
  | '-' :: rest => (readDigits? rest.length rest).map fun (n, rest) => (-(n : Int), rest)
  | '+' :: rest => (readDigits? rest.length rest).map fun (n, rest) => ((n : Int), rest)
  | rest => (readDigits? 4 rest).map fun (n, rest) => ((n : Int), rest)

/-- Reads one given character after white space. -/
def readMark? (mark : Char) (cs : List Char) : Option (List Char) :=
  match cs.dropWhile Text.isBlank with
  | c :: rest => if c = mark then some rest else none
  | [] => none

/-- Reads a fraction of a second; digits after the ninth do not count. -/
def readFraction? : List Char → Option (Nat × List Char)
  | '.' :: rest =>
    let digits := rest.takeWhile Char.isDigit
    if digits.isEmpty then none
    else
      let counted := digits.take 9
      some (Number.digitsValue counted * Nat.pow 10 (9 - counted.length), rest.drop digits.length)
  | rest => some (0, rest)

def readTwoDigits? : List Char → Option (Nat × List Char)
  | a :: b :: rest =>
    if a.isDigit && b.isDigit then some (Number.digitsValue [a, b], rest) else none
  | _ => none

def readOffset? (cs : List Char) : Option (Int × List Char) :=
  match cs.dropWhile Text.isBlank with
  | 'Z' :: rest | 'z' :: rest => some (0, rest)
  | u :: t :: c :: rest =>
    if u.toUpper = 'U' ∧ t.toUpper = 'T' ∧ c.toUpper = 'C' then some (0, rest)
    else if u = '+' ∨ u = '-' ∨ u = '\u2212' then do
      let (hours, rest) ← readTwoDigits? (t :: c :: rest)
      let rest := rest.dropWhile fun c => c == ':' || Text.isBlank c
      let (minutes, rest) ← readTwoDigits? rest
      if minutes < 60 ∧ hours < 24 then
        let seconds : Int := hours * 3600 + minutes * 60
        return (if u = '+' then seconds else -seconds, rest)
      else none
    else none
  | _ => none

/-- Whether a day is one that timestamps reach. -/
def reaches (day : Int) : Bool := firstDay ≤ day && day ≤ lastDay

/-- Reads a timestamp. A second numbered 60 is a leap second after the one before it. The day has to
be within reach both as it is written and in universal time. -/
def read? (text : String) : Option Timestamp := do
  let (year, rest) ← readYear? text.toList
  let (month, rest) ← readNumber? 2 (← readMark? '-' rest)
  let (day, rest) ← readNumber? 2 (← readMark? '-' rest)
  let rest ←
    match rest with
    | 'T' :: rest | 't' :: rest | ' ' :: rest => some rest
    | _ => none
  let (hour, rest) ← readNumber? 2 rest
  let (minute, rest) ← readNumber? 2 (← readMark? ':' rest)
  let (second, rest) ← readNumber? 2 (← readMark? ':' rest)
  let (fraction, rest) ← readFraction? rest
  let (offset, rest) ← readOffset? rest
  let date : Date := ⟨year, month, day⟩
  if date.isValid ∧ hour < 24 ∧ minute < 60 ∧ second ≤ 60 ∧ rest.all Text.isBlank then
    let leap := second / 60
    let t : Timestamp := {
      seconds := date.toDays * secondsPerDay + hour * 3600 + minute * 60 + second - leap - offset
      fraction := leap * nanosecondsPerSecond + fraction }
    if reaches date.toDays && reaches t.day then some t else none
  else none

end Timestamp

end Sweep
