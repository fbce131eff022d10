import Sweep.Shell.Tool.Basic
import Sweep.Timestamp

/-!
# Dates

`date` prints a point in time as a format says. Which time it is now is not known here, so that it
is always the same one.
-/

namespace Sweep.Tool

/-- A point in time as it is shown. -/
structure ClockTime where
  seconds : Int
  date : Timestamp.Date
  hour : Nat
  minute : Nat
  second : Nat
  /-- The days since Sunday. -/
  weekday : Nat
  /-- The days since the beginning of the year. -/
  yearDay : Nat

/-- The time that counts as now. -/
def currentSeconds : Int := 1767225600

def ClockTime.ofSeconds (seconds : Int) : ClockTime :=
  let days := seconds / Timestamp.secondsPerDay
  let rest := (seconds % Timestamp.secondsPerDay).toNat
  let date := Timestamp.Date.ofDays days
  { seconds, date, hour := rest / 3600, minute := rest / 60 % 60, second := rest % 60
    weekday := ((days + 4) % 7).toNat
    yearDay := (days - Timestamp.Date.toDays ⟨date.year, 1, 1⟩).toNat }

def monthNames : List String :=
  ["January", "February", "March", "April", "May", "June", "July", "August", "September", "October",
   "November", "December"]

def weekdayNames : List String :=
  ["Sunday", "Monday", "Tuesday", "Wednesday", "Thursday", "Friday", "Saturday"]

namespace ClockTime

def monthName (t : ClockTime) : String := monthNames.getD (t.date.month - 1) ""

def weekdayName (t : ClockTime) : String := weekdayNames.getD t.weekday ""

def week (t : ClockTime) (first : Nat) : Nat := (t.yearDay + 7 - (t.weekday + 7 - first) % 7) / 7

/-- The year and the number of the week in which most days of the week lie. -/
def commonWeek (t : ClockTime) : Int × Nat :=
  -- The Thursday of the week decides.
  let days := t.seconds / Timestamp.secondsPerDay
  let thursday := days - ((t.weekday + 6) % 7 : Nat) + 3
  let year := (Timestamp.Date.ofDays thursday).year
  (year, ((thursday - Timestamp.Date.toDays ⟨year, 1, 1⟩) / 7 + 1).toNat)

end ClockTime

/-- The text of a value with its usual width and filling. -/
structure ClockField where
  text : Octets
  width : Nat := 0
  fill : Char := '0'

def clockNumber (n : Int) (width : Nat) (fill : Char) : ClockField := ⟨Octets.ofInt n, width, fill⟩

/-- What a letter stands for that is no combination of others. -/
def clockField? (t : ClockTime) : Char → Option ClockField
  | 'a' => some { text := (t.weekdayName.toList).take 3 }
  | 'A' => some { text := t.weekdayName.toList }
  | 'b' | 'h' => some { text := (t.monthName.toList).take 3 }
  | 'B' => some { text := t.monthName.toList }
  | 'C' => some (clockNumber (t.date.year / 100) 2 '0')
  | 'd' => some (clockNumber t.date.day 2 '0')
  | 'e' => some (clockNumber t.date.day 2 ' ')
  | 'g' => some (clockNumber (t.commonWeek.1 % 100) 2 '0')
  | 'G' => some (clockNumber t.commonWeek.1 4 '0')
  | 'H' => some (clockNumber t.hour 2 '0')
  | 'I' => some (clockNumber ((t.hour + 11) % 12 + 1) 2 '0')
  | 'j' => some (clockNumber (t.yearDay + 1) 3 '0')
  | 'k' => some (clockNumber t.hour 2 ' ')
  | 'l' => some (clockNumber ((t.hour + 11) % 12 + 1) 2 ' ')
  | 'm' => some (clockNumber t.date.month 2 '0')
  | 'M' => some (clockNumber t.minute 2 '0')
  | 'n' => some { text := ['\n'] }
  | 'N' => some (clockNumber 0 9 '0')
  | 'p' => some { text := if t.hour < 12 then ['A', 'M'] else ['P', 'M'] }
  | 'P' => some { text := if t.hour < 12 then ['a', 'm'] else ['p', 'm'] }
  | 'q' => some (clockNumber ((t.date.month - 1) / 3 + 1 : Nat) 1 '0')
  | 's' => some (clockNumber t.seconds 1 '0')
  | 'S' => some (clockNumber t.second 2 '0')
  | 't' => some { text := ['\t'] }
  | 'u' => some (clockNumber ((t.weekday + 6) % 7 + 1 : Nat) 1 '0')
  | 'U' => some (clockNumber (t.week 0) 2 '0')
  | 'V' => some (clockNumber t.commonWeek.2 2 '0')
  | 'w' => some (clockNumber t.weekday 1 '0')
  | 'W' => some (clockNumber (t.week 1) 2 '0')
  | 'y' => some (clockNumber (t.date.year % 100) 2 '0')
  | 'Y' => some (clockNumber t.date.year 4 '0')
  | 'z' => some { text := "+0000".toList }
  | 'Z' => some { text := "UTC".toList }
  | '%' => some { text := ['%'] }
  | _ => none

/-- What a letter stands for that combines others. -/
def clockFormat? : Char → Option String
  | 'c' => some "%a %b %e %H:%M:%S %Y"
  | 'D' | 'x' => some "%m/%d/%y"
  | 'F' => some "%Y-%m-%d"
  | 'r' => some "%I:%M:%S %p"
  | 'R' => some "%H:%M"
  | 'T' | 'X' => some "%H:%M:%S"
  | _ => none

/-- A time as a format says. The numbers bound the steps. -/
def clockText (t : ClockTime) : Nat → Octets → Octets
  | 0, o => o
  | _, [] => []
  | fuel + 1, '%' :: rest =>
    let flags := rest.takeWhile fun c => "-_0^#+".toList.contains c
    let after := rest.drop flags.length
    let digits := after.takeWhile Char.isDigit
    let after := after.drop digits.length
    let (hasColon, after) : Bool × Octets := match after with
      | ':' :: 'z' :: more => (true, 'z' :: more)
      | after => (false, after)
    match after with
    | [] => '%' :: rest
    | c :: after =>
      let field? : Option ClockField :=
        if hasColon then some { text := "+00:00".toList }
        else (clockField? t c).or
          ((clockFormat? c).map fun f => { text := clockText t fuel f.toList, fill := ' ' })
      match field? with
      | none => '%' :: rest.take (rest.length - after.length) ++ clockText t fuel after
      | some f =>
        let fill := match flags.getLast? with
          | some '_' => ' '
          | some '0' => '0'
          | _ => f.fill
        let width := if flags.contains '-' then 0
          else if digits.isEmpty then f.width else Octets.digitsValue digits
        let text := List.replicate (width - f.text.length) fill ++ f.text
        (if flags.contains '^' then text.map Char.toUpper else text) ++ clockText t fuel after
  | fuel + 1, c :: rest => c :: clockText t fuel rest

/-- The seconds that a text stands for, which is a number after a sign, a date, or a date and a
time. -/
def clockSeconds? (o : Octets) : Option Int :=
  match o with
  | '@' :: rest => Octets.toInt? (rest.takeWhile (· != '.'))
  | o =>
    if o == "now".toList then some currentSeconds
    else
    let trimmed := if o.getLast? == some 'Z' then o.dropLast else o
    let date := trimmed.takeWhile fun c => c != ' ' && c != 'T'
    let time := trimmed.drop (date.length + 1)
    let numbers (separator : Char) (o : Octets) : Option (List Nat) :=
      (Octets.splitAtEach separator o).mapM fun digits =>
        if digits.isEmpty || !digits.all Char.isDigit then none
        else some (Octets.digitsValue digits)
    let clock? : Option (List Nat) := if time.isEmpty then some [] else numbers ':' time
    match numbers '-' date, clock? with
    | some [y, m, d], some clock =>
      let day : Timestamp.Date := ⟨y, m, d⟩
      let hour := clock.getD 0 0
      let minute := clock.getD 1 0
      let second := clock.getD 2 0
      if day.isValid && hour < 24 && minute < 60 && second < 60 && clock.length ≤ 3 then
        some (day.toDays * Timestamp.secondsPerDay + (hour * 3600 + minute * 60 + second : Nat))
      else none
    | _, _ => none

/-- Prints the time, or another one. -/
def showDate : Tool := fun c => do
  let forms : OptionForms := {
    plain := "uRI", valued := "drsf", optional := "I"
    long := [("utc", 'u'), ("universal", 'u'), ("date", 'd'), ("rfc-email", 'R'), ("iso-8601", 'I'),
      ("reference", 'r')] }
  let (found, operands) ← forms.read c
  let seconds ← match found.value? 'd' with
    | none => pure currentSeconds
    | some o =>
      match clockSeconds? o with
      | some n => pure n
      | none => c.fail 1 (Octets.ofString "invalid date " ++ Octets.quoted o)
  let t := ClockTime.ofSeconds seconds
  let format : Octets ← match operands with
    | ('+' :: o) :: _ => pure o
    | o :: _ => c.fail 1 (Octets.ofString "invalid date " ++ Octets.quoted o)
    | [] =>
      if found.has 'R' then pure "%a, %d %b %Y %H:%M:%S %z".toList
      else match (found.value? 'I').map String.ofList with
      | some "s" | some "seconds" => pure "%Y-%m-%dT%H:%M:%S%:z".toList
      | some _ => pure "%Y-%m-%d".toList
      | none => pure "%a %b %e %H:%M:%S %Z %Y".toList
  printLine (clockText t (format.length + 8) format)

end Sweep.Tool
