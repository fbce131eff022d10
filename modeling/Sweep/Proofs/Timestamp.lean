import Mathlib.Tactic.IntervalCases
import Sweep.Proofs.Number.Notation
import Sweep.Timestamp

/-!
# A written timestamp reads back

The calendar counts every day once. A cycle of 400 years is four centuries, a century is 25 spans of
four years, and the last of each may be a day longer or shorter than the others. A day of the cycle
is a day of one year among them (`Place`), and both directions of the count are read off that place.

The parts of a written timestamp are numbers with as many digits as their places have, and marks
between them, so each part is read up to the next one. The date that is read counts back to the day
it was written for, and the time of day to the second of the day.
-/

namespace Sweep.Timestamp

/-! ## The calendar -/

namespace Date

def daysBefore (year : Int) : Int := 365 * year + year / 4 - year / 100

/-- A day of a cycle by its place: the century, the span of four years, the year of the span and the
day of the year. Only the last year of a span has a 366th day, and in the last span of a century
only that of the last century. -/
structure Place (dayOfCycle century span year day : Int) : Prop where
  century_nonneg : 0 ≤ century
  century_le : century ≤ 3
  span_nonneg : 0 ≤ span
  span_le : span ≤ 24
  year_nonneg : 0 ≤ year
  year_le : year ≤ 3
  day_nonneg : 0 ≤ day
  day_le : day ≤ 365
  sum : dayOfCycle = 36524 * century + 1461 * span + 365 * year + day
  leap : day = 365 → year = 3 ∧ (span = 24 → century = 3)

/-- Every day of a cycle has a place. -/
theorem exists_place {dayOfCycle : Int} (nonneg : 0 ≤ dayOfCycle) (lt : dayOfCycle < 146097) :
    ∃ century span year day, Place dayOfCycle century span year day := by
  -- a last day that would begin another century or year belongs to the one before
  let century := min (dayOfCycle / 36524) 3
  let dayOfCentury := dayOfCycle - 36524 * century
  let span := dayOfCentury / 1461
  let dayOfSpan := dayOfCentury - 1461 * span
  let year := min (dayOfSpan / 365) 3
  refine ⟨century, span, year, dayOfSpan - 365 * year, ?_⟩
  constructor <;> omega

namespace Place

variable {dayOfCycle century span year day : Int}

/-- The year of the cycle of a place. -/
theorem yearOfCycle (place : Place dayOfCycle century span year day) :
    (dayOfCycle - dayOfCycle / 1460 + dayOfCycle / 36524 - dayOfCycle / 146096) / 365 =
      100 * century + 4 * span + year := by
  obtain ⟨c0, c3, s0, s24, y0, y3, d0, d365, sum, leap⟩ := place
  rcases eq_or_ne dayOfCycle 146096 with last | inner
  · omega
  have centuries : dayOfCycle / 36524 = century := by omega
  have cycles : dayOfCycle / 146096 = 0 := by omega
  have spans : dayOfCycle / 1460 = 25 * century + span ∨
      (dayOfCycle / 1460 = 25 * century + span + 1 ∧ 1 ≤ day) := by omega
  rw [centuries, cycles]
  omega

theorem daysBefore (place : Place dayOfCycle century span year day) :
    Date.daysBefore (100 * century + 4 * span + year) + day = dayOfCycle := by
  obtain ⟨c0, c3, s0, s24, y0, y3, d0, d365, sum, leap⟩ := place
  unfold Date.daysBefore
  omega

end Place

/-- The year that begins in March of a year of a cycle, and the date of one of its days. -/
def ofMarch (marchYear dayOfYear : Int) : Date :=
  let month := (5 * dayOfYear + 2) / 153
  let day := dayOfYear - (153 * month + 2) / 5 + 1
  if month < 10 then ⟨marchYear, (month + 3).toNat, day.toNat⟩
  else ⟨marchYear + 1, (month - 9).toNat, day.toNat⟩

/-- A day by its cycle and its place there. -/
theorem ofDays_of_place {cycle century span year day dayOfCycle : Int}
    (place : Place dayOfCycle century span year day) :
    ofDays (cycle * 146097 + dayOfCycle - 719468) =
      ofMarch (cycle * 400 + (100 * century + 4 * span + year)) day := by
  have before := place.daysBefore
  have inCycle : 0 ≤ dayOfCycle ∧ dayOfCycle < 146097 := by
    obtain ⟨c0, c3, s0, s24, y0, y3, d0, d365, sum, leap⟩ := place
    omega
  have cycles : (cycle * 146097 + dayOfCycle - 719468 + 719468) / 146097 = cycle := by omega
  have rest : (cycle * 146097 + dayOfCycle - 719468 + 719468) % 146097 = dayOfCycle := by omega
  have remaining : dayOfCycle - (365 * (100 * century + 4 * span + year) +
      (100 * century + 4 * span + year) / 4 - (100 * century + 4 * span + year) / 100) = day := by
    unfold daysBefore at before
    omega
  simp only [ofDays, cycles, rest, place.yearOfCycle, remaining, ofMarch]
  rw [Int.add_comm (100 * century + 4 * span + year)]

/-- The days before a date of the year that begins in March. -/
theorem toDays_ofMarch {marchYear dayOfYear : Int} (nonneg : 0 ≤ dayOfYear)
    (le : dayOfYear ≤ 365) :
    (ofMarch marchYear dayOfYear).toDays =
      marchYear / 400 * 146097 + daysBefore (marchYear % 400) + dayOfYear - 719468 := by
  unfold ofMarch
  dsimp only
  have low : 0 ≤ (5 * dayOfYear + 2) / 153 := by omega
  have high : (5 * dayOfYear + 2) / 153 ≤ 11 := by omega
  generalize eq : (5 * dayOfYear + 2) / 153 = month at low high
  have early : 0 ≤ dayOfYear - (153 * month + 2) / 5 := by omega
  split
  · next spring =>
    have behind : ¬ (month + 3).toNat ≤ 2 := by omega
    have turned : (((month + 3).toNat : Int) + 9) % 12 = month := by omega
    simp only [toDays, behind, if_false, turned, daysBefore]
    omega
  · next winter =>
    have ahead : (month - 9).toNat ≤ 2 := by omega
    have turned : (((month - 9).toNat : Int) + 9) % 12 = month := by omega
    simp only [toDays, ahead, if_true, turned, daysBefore]
    omega

/-- A month of the year that begins in March has the days before the next one. Only of February,
which comes last, it depends on the year. -/
theorem le_daysInMonth (year : Int) {month day : Int} (low : 0 ≤ month) (high : month ≤ 10)
    (inMonth : day ≤ (153 * (month + 1) + 2) / 5 - (153 * month + 2) / 5) :
    day.toNat ≤ daysInMonth year (if month < 10 then month + 3 else month - 9).toNat := by
  interval_cases month <;> simp [daysInMonth] <;> omega

/-- A day of the year that begins in March is a day of the calendar; its 366th only before the end
of February of a leap year. -/
theorem isValid_ofMarch {marchYear dayOfYear : Int} (nonneg : 0 ≤ dayOfYear)
    (le : dayOfYear ≤ 365) (leap : dayOfYear = 365 → isLeapYear (marchYear + 1) = true) :
    (ofMarch marchYear dayOfYear).isValid = true := by
  unfold ofMarch
  dsimp only
  have low : 0 ≤ (5 * dayOfYear + 2) / 153 := by omega
  have high : (5 * dayOfYear + 2) / 153 ≤ 11 := by omega
  generalize eq : (5 * dayOfYear + 2) / 153 = month at low high
  have first : 1 ≤ (dayOfYear - (153 * month + 2) / 5 + 1).toNat := by omega
  rcases eq_or_lt_of_le high with rfl | before
  · have last : (dayOfYear - (153 * 11 + 2) / 5 + 1).toNat ≤ daysInMonth (marchYear + 1) 2 := by
      by_cases whole : dayOfYear = 365
      · simp only [daysInMonth, if_true, leap whole]
        omega
      · simp only [daysInMonth, if_true]
        split <;> omega
    rw [if_neg (by decide)]
    simp only [isValid, Bool.and_eq_true, decide_eq_true_eq]
    exact ⟨⟨by decide, first⟩, last⟩
  · have last year := @le_daysInMonth year month (dayOfYear - (153 * month + 2) / 5 + 1) low
      (by omega) (by omega)
    split
    · next spring =>
      have last := last marchYear
      rw [if_pos spring] at last
      simp only [isValid, Bool.and_eq_true, decide_eq_true_eq]
      omega
    · next winter =>
      have last := last (marchYear + 1)
      rw [if_neg winter] at last
      simp only [isValid, Bool.and_eq_true, decide_eq_true_eq]
      omega

variable (days : Int)

/-- The date of a day, read off its place in a cycle. -/
theorem exists_ofDays : ∃ cycle dayOfCycle century span year day,
    days = cycle * 146097 + dayOfCycle - 719468 ∧ Place dayOfCycle century span year day ∧
      ofDays days = ofMarch (cycle * 400 + (100 * century + 4 * span + year)) day := by
  obtain ⟨century, span, year, day, place⟩ :=
    exists_place (Int.emod_nonneg (days + 719468) (by decide : (146097 : Int) ≠ 0))
      (Int.emod_lt_of_pos (days + 719468) (by decide : (0 : Int) < 146097))
  have sum : days = (days + 719468) / 146097 * 146097 + (days + 719468) % 146097 - 719468 := by
    omega
  refine ⟨_, _, century, span, year, day, sum, place, ?_⟩
  conv_lhs => rw [sum]
  exact ofDays_of_place place

/-- Counting the days to the date of a day gives the day. -/
theorem toDays_ofDays : (ofDays days).toDays = days := by
  obtain ⟨cycle, dayOfCycle, century, span, year, day, sum, place, date⟩ := exists_ofDays days
  have before := place.daysBefore
  have within : 0 ≤ 100 * century + 4 * span + year ∧ 100 * century + 4 * span + year < 400 := by
    obtain ⟨c0, c3, s0, s24, y0, y3, d0, d365, -, -⟩ := place
    omega
  have cycles : (cycle * 400 + (100 * century + 4 * span + year)) / 400 = cycle := by omega
  have rest : (cycle * 400 + (100 * century + 4 * span + year)) % 400 =
      100 * century + 4 * span + year := by omega
  rw [date, toDays_ofMarch place.day_nonneg place.day_le, cycles, rest]
  omega

/-- The date of a day is one of the calendar. -/
theorem isValid_ofDays : (ofDays days).isValid = true := by
  obtain ⟨cycle, dayOfCycle, century, span, year, day, sum, place, date⟩ := exists_ofDays days
  rw [date]
  apply isValid_ofMarch place.day_nonneg place.day_le
  intro whole
  obtain ⟨c0, c3, s0, s24, y0, y3, -, -, -, leap⟩ := place
  simp only [isLeapYear, Bool.and_eq_true, Bool.or_eq_true, beq_iff_eq, bne_iff_ne]
  omega

end Date

open Number (AllDigits)

/-! ## Digits -/

theorem toList_pushn (s : String) (c : Char) (n : Nat) :
    (s.pushn c n).toList = s.toList ++ List.replicate n c := by
  unfold String.pushn
  induction n with
  | zero => rw [Nat.repeat, List.replicate_zero, List.append_nil]
  | succ n ih => rw [Nat.repeat, String.toList_push, ih, List.replicate_succ', List.append_assoc]

theorem toList_padded (width n : Nat) : (padded width n).toList =
    List.replicate (width - (Nat.toDigits 10 n).length) '0' ++ Nat.toDigits 10 n := by
  unfold padded
  simp only [String.toList_append, toList_pushn, Nat.toString_eq_ofList_toDigits,
    String.length_ofList, String.toList_ofList, String.toList_empty, List.nil_append]

section Padded

variable (width n : Nat)

theorem allDigits_padded : AllDigits (padded width n).toList := by
  rw [toList_padded]
  exact (AllDigits.replicate_zero _).append fun _ mem =>
    Nat.isDigit_of_mem_toDigits (by decide) (by decide) mem

theorem digitsValue_padded : Number.digitsValue (padded width n).toList = n := by
  change Nat.ofDigitChars 10 (padded width n).toList 0 = n
  rw [toList_padded, Nat.ofDigitChars_append, Nat.ofDigitChars_replicate_zero, Nat.mul_zero,
    Nat.ofDigitChars_ten_toDigits]

theorem padded_ne_nil : (padded width n).toList ≠ [] := by
  rw [toList_padded]
  exact List.append_ne_nil_of_right_ne_nil _ Nat.toDigits_ne_nil

variable {width n}

theorem length_padded (places : 0 < width) (fits : n < 10 ^ width) :
    (padded width n).toList.length = width := by
  have digits := (Nat.length_toDigits_le_iff (by decide) places).2 fits
  rw [toList_padded, List.length_append, List.length_replicate]
  omega

end Padded

theorem isBlank_of_isDigit {c : Char} (digit : c.isDigit = true) : Text.isBlank c = false := by
  simp only [Char.isDigit, Bool.and_eq_true, decide_eq_true_eq, ge_iff_le,
    UInt32.le_iff_toNat_le] at digit
  have low : 48 ≤ c.toNat := digit.1
  have high : c.toNat ≤ 57 := digit.2
  simp only [Text.isBlank, Bool.or_eq_false_iff, Bool.and_eq_false_iff, decide_eq_false_iff_not,
    beq_eq_false_iff_ne]
  omega

/-- Nothing but a digit stands at the start of a text. -/
def EndsDigits (rest : List Char) : Prop := ∀ c ∈ rest.head?, c.isDigit = false

/-- As many digits as there are at the start of a text are read, and no more than allowed. -/
theorem readDigits?_append {width : Nat} {digits rest : List Char} (all : AllDigits digits)
    (some_ : digits ≠ []) (fits : digits.length ≤ width)
    (ends : digits.length = width ∨ EndsDigits rest) :
    readDigits? width (digits ++ rest) = some (Number.digitsValue digits, rest) := by
  have none_ : (rest.take (width - digits.length)).takeWhile Char.isDigit = [] := by
    rcases ends with full | ends
    · rw [full, Nat.sub_self, List.take_zero, List.takeWhile_nil]
    · cases rest with
      | nil => rw [List.take_nil, List.takeWhile_nil]
      | cons c rest =>
        have other := ends c rfl
        cases width - digits.length with
        | zero => rfl
        | succ more => rw [List.take_succ_cons, List.takeWhile_cons_of_neg (by simp [other])]
  have read : ((digits ++ rest).take width).takeWhile Char.isDigit = digits := by
    rw [List.take_append, List.take_of_length_le fits, List.takeWhile_append_of_pos all, none_,
      List.append_nil]
  simp only [readDigits?, read, List.isEmpty_eq_false_iff.2 some_, Bool.false_eq_true, if_false,
    List.drop_left]

theorem readDigits?_padded {width n : Nat} (places : 0 < width) (fits : n < 10 ^ width)
    (rest : List Char) :
    readDigits? width ((padded width n).toList ++ rest) = some (n, rest) := by
  have length := length_padded places fits
  rw [readDigits?_append (allDigits_padded width n) (padded_ne_nil width n) length.le (.inl length),
    digitsValue_padded]

/-- No white space is left out before digits. -/
theorem dropWhile_padded (width n : Nat) (rest : List Char) :
    ((padded width n).toList ++ rest).dropWhile Text.isBlank = (padded width n).toList ++ rest := by
  have digits := allDigits_padded width n
  cases shape : (padded width n).toList with
  | nil => exact absurd shape (padded_ne_nil width n)
  | cons c more =>
    have first : c.isDigit = true := digits c (shape ▸ List.mem_cons_self)
    rw [List.cons_append, List.dropWhile_cons_of_neg (by simp [isBlank_of_isDigit first])]

theorem readNumber?_padded {width n : Nat} (places : 0 < width) (fits : n < 10 ^ width)
    (rest : List Char) :
    readNumber? width ((padded width n).toList ++ rest) = some (n, rest) := by
  rw [readNumber?, dropWhile_padded, readDigits?_padded places fits]

/-! ## Parts -/

/-- A number after a sign has all the digits that follow. -/
theorem readDigits?_signed (n : Nat) {rest : List Char} (ends : EndsDigits rest) :
    readDigits? ((padded 4 n).toList ++ rest).length ((padded 4 n).toList ++ rest) =
      some (n, rest) := by
  rw [readDigits?_append (allDigits_padded 4 n) (padded_ne_nil 4 n)
    (by rw [List.length_append]; omega) (.inr ends), digitsValue_padded]

/-- A year without sign has four digits. -/
theorem readYear?_padded {n : Nat} (fits : n < 10000) (rest : List Char) :
    readYear? ((padded 4 n).toList ++ rest) = some ((n : Int), rest) := by
  have digits := allDigits_padded 4 n
  have read := readDigits?_padded (by decide) (show n < 10 ^ 4 from fits) rest
  rw [readYear?, dropWhile_padded]
  split
  · next more shape =>
    have first := congrArg List.head? shape
    rw [List.head?_append_of_ne_nil _ (padded_ne_nil 4 n)] at first
    exact absurd (digits '-' (List.mem_of_mem_head? first)) (by decide)
  · next more shape =>
    have first := congrArg List.head? shape
    rw [List.head?_append_of_ne_nil _ (padded_ne_nil 4 n)] at first
    exact absurd (digits '+' (List.mem_of_mem_head? first)) (by decide)
  · rw [read, Option.map_some]

theorem readYear?_showYear (year : Int) {rest : List Char} (ends : EndsDigits rest) :
    readYear? ((showYear year).toList ++ rest) = some (year, rest) := by
  unfold showYear
  rw [String.toList_append, List.append_assoc]
  split
  · next negative =>
    have minus : "-".toList = ['-'] := rfl
    rw [minus, List.singleton_append, readYear?, List.dropWhile_cons_of_neg (by decide)]
    simp only [readDigits?_signed _ ends, Option.map_some]
    congr 2
    omega
  split
  · next unsigned =>
    rw [String.toList_empty, List.nil_append, readYear?_padded (by omega)]
    congr 2
    omega
  · next large =>
    have plus : "+".toList = ['+'] := rfl
    rw [plus, List.singleton_append, readYear?, List.dropWhile_cons_of_neg (by decide)]
    simp only [readDigits?_signed _ ends, Option.map_some]
    congr 2
    omega

/-- The digits of a fraction are read up to the mark of universal time. -/
theorem readFraction?_padded {width n : Nat} (places : 0 < width) (most : width ≤ 9)
    (fits : n < 10 ^ width) (rest : List Char) :
    readFraction? ('.' :: ((padded width n).toList ++ 'Z' :: rest)) =
      some (n * 10 ^ (9 - width), 'Z' :: rest) := by
  have length := length_padded places fits
  have digits : ((padded width n).toList ++ 'Z' :: rest).takeWhile Char.isDigit =
      (padded width n).toList := by
    rw [List.takeWhile_append_of_pos (allDigits_padded width n),
      List.takeWhile_cons_of_neg (by decide), List.append_nil]
  have counted : (padded width n).toList.take 9 = (padded width n).toList :=
    List.take_of_length_le (by omega)
  simp only [readFraction?, digits, List.isEmpty_eq_false_iff.2 (padded_ne_nil width n),
    Bool.false_eq_true, if_false, counted, digitsValue_padded, length,
    List.drop_left']
  rfl

/-- A fraction is written with as few digits as it needs, and nothing of it is lost. -/
theorem readFraction?_showFraction {nanoseconds : Nat} (lt : nanoseconds < nanosecondsPerSecond)
    (rest : List Char) :
    readFraction? ((showFraction nanoseconds).toList ++ 'Z' :: rest) =
      some (nanoseconds, 'Z' :: rest) := by
  have point : ".".toList = ['.'] := rfl
  unfold nanosecondsPerSecond at lt
  unfold showFraction
  split
  · next none_ => rw [none_]; rfl
  split
  · next thousandths =>
    rw [String.toList_append, point, List.append_assoc, List.singleton_append,
      readFraction?_padded (by decide) (by decide) (by omega)]
    congr 2
    omega
  split
  · next millionths =>
    rw [String.toList_append, point, List.append_assoc, List.singleton_append,
      readFraction?_padded (by decide) (by decide) (by omega)]
    congr 2
    omega
  · rw [String.toList_append, point, List.append_assoc, List.singleton_append,
      readFraction?_padded (by decide) (by decide) (by omega)]
    congr 2
    omega

/-! ## Timestamps -/

/-- A point in time that can be written: its day is within reach, and a second count of nanoseconds
is a leap second at the end of a minute. -/
structure Proper (t : Timestamp) : Prop where
  reached : reaches t.day = true
  fraction_lt : t.fraction < 2 * nanosecondsPerSecond
  leap : nanosecondsPerSecond ≤ t.fraction → t.seconds % 60 = 59

instance (t : Timestamp) : Decidable t.Proper :=
  decidable_of_iff (reaches t.day = true ∧ t.fraction < 2 * nanosecondsPerSecond ∧
      (nanosecondsPerSecond ≤ t.fraction → t.seconds % 60 = 59))
    ⟨fun ⟨reached, lt, leap⟩ => ⟨reached, lt, leap⟩, fun h => ⟨h.reached, h.fraction_lt, h.leap⟩⟩

theorem readMark?_cons {mark : Char} (solid : Text.isBlank mark = false) (rest : List Char) :
    readMark? mark (mark :: rest) = some rest := by
  rw [readMark?, List.dropWhile_cons_of_neg (by simp [solid])]
  exact if_pos rfl

theorem toList_write (t : Timestamp) : t.write.toList =
    (showYear (Date.ofDays t.day).year).toList ++ '-' ::
    ((padded 2 (Date.ofDays t.day).month).toList ++ '-' ::
    ((padded 2 (Date.ofDays t.day).day).toList ++ 'T' ::
    ((padded 2 (t.secondOfDay / 3600)).toList ++ ':' ::
    ((padded 2 (t.secondOfDay / 60 % 60)).toList ++ ':' ::
    ((padded 2 (t.secondOfDay % 60 + t.fraction / nanosecondsPerSecond)).toList ++
    ((showFraction (t.fraction % nanosecondsPerSecond)).toList ++ ['Z'])))))) := by
  have dash : "-".toList = ['-'] := rfl
  have colon : ":".toList = [':'] := rfl
  have time : "T".toList = ['T'] := rfl
  have zone : "Z".toList = ['Z'] := rfl
  simp only [write, showWith, String.toList_append, dash, colon, time, zone, List.append_assoc,
    List.cons_append, List.nil_append]

/-- The parts of a valid date have two digits at most. -/
theorem Date.lt_of_isValid {d : Date} (valid : d.isValid = true) : d.month < 100 ∧ d.day < 100 := by
  have most : daysInMonth d.year d.month ≤ 31 := by
    unfold daysInMonth
    split
    · split <;> omega
    · split <;> omega
  simp only [isValid, Bool.and_eq_true, decide_eq_true_eq] at valid
  omega

theorem secondOfDay_lt (t : Timestamp) : t.secondOfDay < 86400 := by
  unfold secondOfDay secondsPerDay
  omega

theorem seconds_eq (t : Timestamp) : t.seconds = t.day * secondsPerDay + t.secondOfDay := by
  unfold day secondOfDay secondsPerDay
  omega

namespace Proper

variable {t : Timestamp}

/-- A second is written as the sixtieth exactly for a leap second. -/
theorem leap_eq (proper : t.Proper) :
    (t.secondOfDay % 60 + t.fraction / nanosecondsPerSecond) / 60 =
      t.fraction / nanosecondsPerSecond := by
  obtain ⟨-, lt, leap⟩ := proper
  unfold secondOfDay secondsPerDay
  unfold nanosecondsPerSecond at *
  omega

theorem second_le (proper : t.Proper) :
    t.secondOfDay % 60 + t.fraction / nanosecondsPerSecond ≤ 60 := by
  have lt := proper.fraction_lt
  unfold nanosecondsPerSecond at *
  omega

end Proper

/-- A written timestamp is read as the one it was written for. -/
theorem read?_write {t : Timestamp} (proper : t.Proper) : read? t.write = some t := by
  have valid := Date.isValid_ofDays t.day
  have parts := Date.lt_of_isValid valid
  have inDay := t.secondOfDay_lt
  have second := proper.second_le
  have dash (rest : List Char) : EndsDigits ('-' :: rest) := by
    rintro c ⟨⟩
    decide
  have dashMark := readMark?_cons (show Text.isBlank '-' = false by decide)
  have colonMark := readMark?_cons (show Text.isBlank ':' = false by decide)
  unfold read?
  rw [toList_write]
  refine Option.bind_eq_some_iff.2 ⟨_, readYear?_showYear _ (dash _), ?_⟩
  refine Option.bind_eq_some_iff.2 ⟨_, dashMark _, ?_⟩
  refine Option.bind_eq_some_iff.2 ⟨_, readNumber?_padded (by decide) parts.1 _, ?_⟩
  refine Option.bind_eq_some_iff.2 ⟨_, dashMark _, ?_⟩
  refine Option.bind_eq_some_iff.2 ⟨_, readNumber?_padded (by decide) parts.2 _, ?_⟩
  refine Option.bind_eq_some_iff.2 ⟨_, rfl, ?_⟩
  refine Option.bind_eq_some_iff.2
    ⟨_, readNumber?_padded (by decide) (show t.secondOfDay / 3600 < 10 ^ 2 by omega) _, ?_⟩
  refine Option.bind_eq_some_iff.2 ⟨_, colonMark _, ?_⟩
  refine Option.bind_eq_some_iff.2
    ⟨_, readNumber?_padded (by decide) (show t.secondOfDay / 60 % 60 < 10 ^ 2 by omega) _, ?_⟩
  refine Option.bind_eq_some_iff.2 ⟨_, colonMark _, ?_⟩
  refine Option.bind_eq_some_iff.2
    ⟨_, readNumber?_padded (by decide) (Nat.lt_of_le_of_lt second (by decide)) _, ?_⟩
  refine Option.bind_eq_some_iff.2
    ⟨_, readFraction?_showFraction (Nat.mod_lt _ (by decide)) [], ?_⟩
  refine Option.bind_eq_some_iff.2 ⟨_, show readOffset? ['Z'] = some (0, []) from rfl, ?_⟩
  dsimp only
  -- what was read is put together again
  have same : (⟨(Date.ofDays t.day).toDays * secondsPerDay + (t.secondOfDay / 3600 : Nat) * 3600 +
      (t.secondOfDay / 60 % 60 : Nat) * 60 +
      (t.secondOfDay % 60 + t.fraction / nanosecondsPerSecond : Nat) -
      ((t.secondOfDay % 60 + t.fraction / nanosecondsPerSecond) / 60 : Nat) - 0,
      (t.secondOfDay % 60 + t.fraction / nanosecondsPerSecond) / 60 * nanosecondsPerSecond +
        t.fraction % nanosecondsPerSecond⟩ : Timestamp) = t := by
    rw [proper.leap_eq, Nat.div_add_mod', Date.toDays_ofDays]
    have whole := t.seconds_eq
    have seconds : t.day * secondsPerDay + (t.secondOfDay / 3600 : Nat) * 3600 +
        (t.secondOfDay / 60 % 60 : Nat) * 60 +
        (t.secondOfDay % 60 + t.fraction / nanosecondsPerSecond : Nat) -
        (t.fraction / nanosecondsPerSecond : Nat) - 0 = t.seconds := by
      omega
    rw [seconds]
  rw [if_pos ⟨valid, by omega, by omega, second, rfl⟩, same, Date.toDays_ofDays,
    if_pos (by rw [proper.reached]; rfl)]

end Sweep.Timestamp
