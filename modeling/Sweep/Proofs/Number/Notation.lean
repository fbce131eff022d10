import Mathlib.Data.List.TakeWhile
import Sweep.Number.Reading
import Sweep.Number.Shortest
import Sweep.Proofs.Number.Shortest

/-!
# The data form of a number names it

A text in data form is read back by counting its digits as one natural number, shifted by the place
of its point and by its exponent. What is read is the value of the shortest decimal, and that names
the number; so different numbers have different data forms.

A text that reads as a number consists of letters, digits, signs and points, whichever notation it
is in. So do the texts in which messages write numbers.
-/

namespace Sweep.Number

open Shortest

/-- The number that an exponent stands for, given what follows the letter. -/
def exponentValue : List Char → ℤ
  | '-' :: digits => -(Nat.ofDigitChars 10 digits 0 : ℤ)
  | _ :: digits => Nat.ofDigitChars 10 digits 0
  | [] => 0

/-- The number that a text without sign stands for. -/
def textValue (text : List Char) : ℚ :=
  let mantissa := text.takeWhile (· != 'e')
  let whole := mantissa.takeWhile (· != '.')
  let fraction := mantissa.drop (whole.length + 1)
  (Nat.ofDigitChars 10 (whole ++ fraction) 0 : ℚ) *
    10 ^ (exponentValue (text.drop (mantissa.length + 1)) - fraction.length)

def AllDigits (text : List Char) : Prop := ∀ c ∈ text, c.isDigit = true

namespace AllDigits

variable {s t : List Char}

theorem append (hs : AllDigits s) (ht : AllDigits t) : AllDigits (s ++ t) := by
  intro c mem
  rcases List.mem_append.1 mem with mem | mem
  · exact hs c mem
  · exact ht c mem

theorem replicate_zero (n : Nat) : AllDigits (List.replicate n '0') := by
  intro c mem
  rw [List.eq_of_mem_replicate mem]
  rfl

theorem zero : AllDigits ['0'] := replicate_zero 1

theorem digitChars (d : Decimal) : AllDigits d.digitChars :=
  fun _ mem => Nat.isDigit_of_mem_toDigits (by norm_num) (by norm_num) mem

theorem mono (hs : AllDigits s) (within : ∀ c ∈ t, c ∈ s) : AllDigits t :=
  fun c mem => hs c (within c mem)

/-- What ends at the first character of a kind ends there after digits. -/
theorem takeWhile_append (hs : AllDigits s) (mark : Char) (other : mark.isDigit = false) :
    (s ++ t).takeWhile (· != mark) = s ++ t.takeWhile (· != mark) := by
  apply List.takeWhile_append_of_pos
  intro c mem
  rw [bne_iff_ne]
  rintro rfl
  rw [hs c mem] at other
  cases other

end AllDigits

theorem ofDigitChars_digitChars (d : Decimal) : Nat.ofDigitChars 10 d.digitChars 0 = d.digits :=
  Nat.ofDigitChars_ten_toDigits

theorem digitChars_ne_nil (d : Decimal) : d.digitChars ≠ [] := Nat.toDigits_ne_nil

/-- A text without exponent has the value of its digits, shifted by those behind the point. -/
theorem textValue_point {whole fraction : List Char} (hw : AllDigits whole)
    (hf : AllDigits fraction) :
    textValue (whole ++ '.' :: fraction) =
      Nat.ofDigitChars 10 (whole ++ fraction) 0 * 10 ^ (-(fraction.length : ℤ)) := by
  have mantissa : (whole ++ '.' :: fraction).takeWhile (· != 'e') = whole ++ '.' :: fraction := by
    rw [hw.takeWhile_append 'e' rfl]
    have rest := hf.takeWhile_append (t := []) 'e' rfl
    rw [List.append_nil, List.takeWhile_nil, List.append_nil] at rest
    rw [List.takeWhile_cons_of_pos (by decide), rest]
  have split : (whole ++ '.' :: fraction).takeWhile (· != '.') = whole := by
    rw [hw.takeWhile_append '.' rfl, List.takeWhile_cons_of_neg (by decide), List.append_nil]
  have none : (whole ++ '.' :: fraction).drop ((whole ++ '.' :: fraction).length + 1) = [] :=
    List.drop_of_length_le (Nat.le_succ _)
  have behind : (whole ++ '.' :: fraction).drop (whole.length + 1) = fraction := by
    simp
  simp only [textValue, mantissa, split, none, behind, exponentValue, zero_sub]

/-- The digits around the point stand for the decimal. -/
theorem textValue_positional (d : Decimal) :
    textValue ((positional d).1 ++ '.' ::
      (if (positional d).2.isEmpty then ['0'] else (positional d).2)) = d.value := by
  have digits := AllDigits.digitChars d
  have length : d.point = d.digitChars.length + d.exponent := rfl
  rw [positional]
  split
  · next low =>
    have shown : (List.replicate (-d.point).toNat '0' ++ d.digitChars).isEmpty = false := by
      simp [digitChars_ne_nil]
    simp only [shown, Bool.false_eq_true, if_false]
    rw [textValue_point AllDigits.zero ((AllDigits.replicate_zero _).append digits)]
    have zeros : Nat.ofDigitChars 10 (['0'] ++ (List.replicate (-d.point).toNat '0' ++
        d.digitChars)) 0 = d.digits := by
      rw [Nat.ofDigitChars_append, Nat.ofDigitChars_append, Nat.ofDigitChars_replicate_zero]
      exact ofDigitChars_digitChars d
    rw [zeros, Decimal.value]
    congr 2
    rw [List.length_append, List.length_replicate]
    omega
  · next high =>
    have whole : AllDigits (d.digitChars.take d.point.toNat) :=
      digits.mono fun c mem => List.mem_of_mem_take mem
    have fraction : AllDigits (d.digitChars.drop d.point.toNat) :=
      digits.mono fun c mem => List.mem_of_mem_drop mem
    rcases Nat.lt_or_ge d.point.toNat d.digitChars.length with inside | beyond
    · have shown : (d.digitChars.drop d.point.toNat).isEmpty = false := by
        rw [List.isEmpty_eq_false_iff, ne_eq, List.drop_eq_nil_iff]
        omega
      have unpadded : d.point.toNat - (d.digitChars.take d.point.toNat).length = 0 := by
        rw [List.length_take]
        omega
      simp only [shown, unpadded, Bool.false_eq_true, if_false, List.replicate_zero,
        List.append_nil]
      rw [textValue_point whole fraction, List.take_append_drop, ofDigitChars_digitChars,
        Decimal.value, List.length_drop]
      congr 2
      omega
    · rw [List.take_of_length_le beyond, List.drop_of_length_le beyond]
      simp only [List.isEmpty_nil, if_true]
      rw [textValue_point (digits.append (AllDigits.replicate_zero _)) AllDigits.zero,
        Nat.ofDigitChars_append, Nat.ofDigitChars_append, ofDigitChars_digitChars,
        Nat.ofDigitChars_replicate_zero, show ['0'] = List.replicate 1 '0' from rfl,
        Nat.ofDigitChars_replicate_zero, Decimal.value, List.length_replicate]
      obtain ⟨k, shift⟩ : ∃ k : ℕ, d.exponent = k := ⟨d.exponent.toNat, by omega⟩
      have pad : d.point.toNat - d.digitChars.length = k := by omega
      rw [pad, shift, zpow_natCast, zpow_neg, Nat.cast_one, zpow_one]
      push_cast
      field_simp

/-- The mantissa and the exponent stand for the decimal. -/
theorem textValue_scientific (d : Decimal) : textValue (scientific d) = d.value := by
  have digits := AllDigits.digitChars d
  have length : d.point = d.digitChars.length + d.exponent := rfl
  have sum := ofDigitChars_digitChars d
  unfold scientific
  extract_lets exponent mantissa sign
  have ending : exponentValue (sign :: Nat.toDigits 10 exponent.natAbs) = exponent := by
    simp only [sign]
    split
    · rw [exponentValue, Nat.ofDigitChars_ten_toDigits]
      omega
    · rw [exponentValue, Nat.ofDigitChars_ten_toDigits]
      · omega
      · decide
  have noE : ∀ c ∈ mantissa, c ≠ 'e' := by
    rintro _ mem rfl
    have among : 'e' ∈ d.digitChars := by
      simp only [mantissa] at mem
      split at mem
      · cases mem
      · next only => simpa [only] using mem
      · next shape => simpa [shape] using mem
    exact absurd (digits _ among) (by decide)
  have start : (mantissa ++ 'e' :: sign :: Nat.toDigits 10 exponent.natAbs).takeWhile (· != 'e') =
      mantissa := by
    rw [List.takeWhile_append_of_pos fun c mem => by simpa using noE c mem,
      List.takeWhile_cons_of_neg (by decide), List.append_nil]
  have rest : (mantissa ++ 'e' :: sign :: Nat.toDigits 10 exponent.natAbs).drop
      (mantissa.length + 1) = sign :: Nat.toDigits 10 exponent.natAbs := by
    simp
  simp only [textValue, start, rest, ending]
  have places : exponent = d.exponent + d.digitChars.length - 1 := by
    simp only [exponent]
    omega
  clear start rest ending noE
  simp only [mantissa]
  split
  · next empty => exact absurd empty (digitChars_ne_nil d)
  · next c only =>
    have whole : [c].takeWhile (· != '.') = [c] := by
      have alone := digits.takeWhile_append (t := []) '.' rfl
      rwa [only, List.append_nil, List.takeWhile_nil, List.append_nil] at alone
    rw [only] at sum
    simp only [whole, List.drop_of_length_le (Nat.le_succ _), List.append_nil, sum, Decimal.value,
      List.length_nil]
    rw [places, only]
    congr 2
    simp
  · next c rest _ shape =>
    have whole : (c :: '.' :: rest).takeWhile (· != '.') = [c] := by
      have first : AllDigits [c] := by
        apply digits.mono
        intro x mem
        rw [shape, List.mem_singleton.1 mem]
        exact List.mem_cons_self
      have alone := first.takeWhile_append (t := '.' :: rest) '.' rfl
      rwa [List.takeWhile_cons_of_neg (by decide)] at alone
    rw [shape] at sum
    simp only [whole, List.length_singleton, List.drop_succ_cons, List.drop_zero,
      List.singleton_append, sum, Decimal.value]
    rw [places, shape]
    congr 2
    push_cast [List.length_cons]
    omega

/-! ## Reading data forms back -/

/-- The data form without its sign. -/
def dataBody (x : Binary64) : List Char :=
  let d := Shortest.decimal .toEven x
  if x.isZero then ['0', '.', '0']
  else if -4 ≤ d.point ∧ d.point ≤ 16 then
    let (whole, fraction) := positional d
    whole ++ '.' :: (if fraction.isEmpty then ['0'] else fraction)
  else scientific d

theorem dataForm_eq (x : Binary64) : dataForm x = signChars x ++ dataBody x := rfl

theorem textValue_dataBody (x : Binary64) :
    textValue (dataBody x) = (Shortest.decimal .toEven x).value := by
  rw [dataBody]
  split
  · next zero =>
    rw [show ['0', '.', '0'] = ['0'] ++ '.' :: ['0'] from rfl,
      textValue_point AllDigits.zero AllDigits.zero, Shortest.decimal, if_pos zero, Decimal.value]
    norm_num [Nat.ofDigitChars]
  · split
    · exact textValue_positional _
    · exact textValue_scientific _

/-! ## Different numbers have different data forms -/

theorem value_decimal_ne_zero (tie : Tie) {x : Binary64} (nonzero : x.isZero = false) :
    (Shortest.decimal tie x).value ≠ 0 := by
  have around := around_interval nonzero
  have step := around.step_pos
  have significand : (1 : ℚ) ≤ x.significand := by exact_mod_cast around.significand_pos
  have positive : (0 : ℚ) < (interval x).lower := by
    rcases around.lower_eq with same | ⟨-, same⟩ <;> rw [same, around.value_eq] <;> nlinarith
  have contains := contains_decimal tie nonzero
  intro zero
  rw [Interval.Contains, zero, zero_mul] at contains
  split at contains <;> linarith [contains.1]

def StartsWithDigit (text : List Char) : Prop := ∃ c rest, text = c :: rest ∧ c.isDigit = true

theorem StartsWithDigit.append {s t : List Char} (h : StartsWithDigit s) :
    StartsWithDigit (s ++ t) := by
  obtain ⟨c, rest, rfl, digit⟩ := h
  exact ⟨c, rest ++ t, rfl, digit⟩

theorem AllDigits.startsWithDigit {s : List Char} (h : AllDigits s) (some : s ≠ []) :
    StartsWithDigit s := by
  obtain ⟨c, rest, rfl⟩ := List.exists_cons_of_ne_nil some
  exact ⟨c, rest, rfl, h c List.mem_cons_self⟩

theorem startsWithDigit_dataBody (x : Binary64) : StartsWithDigit (dataBody x) := by
  rw [dataBody]
  split
  · exact ⟨'0', _, rfl, rfl⟩
  have digits := AllDigits.digitChars (Shortest.decimal .toEven x)
  have first := digits.startsWithDigit (digitChars_ne_nil _)
  generalize Shortest.decimal .toEven x = d at digits first
  split
  · show StartsWithDigit ((positional d).1 ++ _)
    refine StartsWithDigit.append ?_
    rw [positional]
    split
    · exact ⟨'0', _, rfl, rfl⟩
    · have taken (n : Nat) : AllDigits (d.digitChars.take n) :=
        digits.mono fun c mem => List.mem_of_mem_take mem
      refine StartsWithDigit.append ((taken _).startsWithDigit ?_)
      rw [ne_eq, List.take_eq_nil_iff, not_or]
      exact ⟨by omega, digitChars_ne_nil d⟩
  · obtain ⟨c, rest, shape, digit⟩ := first
    rw [scientific, shape]
    cases rest with
    | nil => exact ⟨c, _, rfl, digit⟩
    | cons => exact ⟨c, _, rfl, digit⟩

/-- Different numbers have different data forms. -/
theorem dataForm_injective : Function.Injective dataForm := by
  intro x y same
  rw [dataForm_eq, dataForm_eq] at same
  obtain ⟨c, s, hx, digit⟩ := startsWithDigit_dataBody x
  obtain ⟨c', s', hy, digit'⟩ := startsWithDigit_dataBody y
  have noSign {c : Char} (digit : c.isDigit = true) : c ≠ '-' := by
    rintro rfl
    cases digit
  have signs : x.negative = y.negative ∧ dataBody x = dataBody y := by
    rw [signChars, signChars, hx, hy] at same
    rw [hx, hy]
    generalize x.negative = b at same ⊢
    generalize y.negative = b' at same ⊢
    cases b <;> cases b'
    · exact ⟨rfl, same⟩
    · exact absurd (List.cons.inj same).1 (noSign digit)
    · exact absurd (List.cons.inj same).1.symm (noSign digit')
    · exact ⟨rfl, (List.cons.inj same).2⟩
  have values := congrArg textValue signs.2
  rw [textValue_dataBody, textValue_dataBody] at values
  have zero {x : Binary64} (h : x.isZero = true) : (Shortest.decimal .toEven x).value = 0 := by
    rw [Shortest.decimal, if_pos h, Decimal.value]
    norm_num
  have magnitudes : x.magnitude = y.magnitude := by
    cases zx : x.isZero <;> cases zy : y.isZero
    · exact magnitude_eq_of_decimal .toEven zx zy values
    · exact absurd (values.trans (zero zy)) (value_decimal_ne_zero .toEven zx)
    · exact absurd (values.symm.trans (zero zx)) (value_decimal_ne_zero .toEven zy)
    · rw [Binary64.isZero, beq_iff_eq] at zx zy
      rw [zx, zy]
  obtain ⟨b, m⟩ := x
  obtain ⟨b', m'⟩ := y
  exact congrArg₂ Binary64.mk signs.1 magnitudes

def isNumberChar (c : Char) : Bool :=
  c.isDigit || c == '-' || c == '+' || c == '.' || c == 'e'

theorem AllDigits.isNumberChar {s : List Char} (h : AllDigits s) :
    ∀ c ∈ s, isNumberChar c = true := by
  intro c mem
  simp [Number.isNumberChar, h c mem]

/-- Around its point a decimal has digits only. -/
theorem allDigits_positional (d : Decimal) :
    AllDigits (positional d).1 ∧ AllDigits (positional d).2 := by
  have digits := AllDigits.digitChars d
  rw [positional]
  split
  · exact ⟨.zero, (AllDigits.replicate_zero _).append digits⟩
  · have taken : AllDigits (d.digitChars.take d.point.toNat) :=
      digits.mono fun c mem => List.mem_of_mem_take mem
    exact ⟨taken.append (.replicate_zero _), digits.mono fun c mem => List.mem_of_mem_drop mem⟩

/-- A data form is written with a point or an exponent. -/
theorem isNumberChar_dataForm (x : Binary64) :
    (∀ c ∈ dataForm x, isNumberChar c = true) ∧ ('.' ∈ dataForm x ∨ 'e' ∈ dataForm x) := by
  have sign : ∀ c ∈ signChars x, isNumberChar c = true := by
    rw [signChars]
    split
    · simp [isNumberChar]
    · simp
  have body : (∀ c ∈ dataBody x, isNumberChar c = true) ∧
      ('.' ∈ dataBody x ∨ 'e' ∈ dataBody x) := by
    rw [dataBody]
    split
    · exact ⟨by simp [isNumberChar], .inl (by simp)⟩
    have digits := AllDigits.digitChars (Shortest.decimal .toEven x)
    generalize Shortest.decimal .toEven x = d at digits
    split
    · have parts := allDigits_positional d
      have behind : AllDigits (if (positional d).2.isEmpty then ['0'] else (positional d).2) := by
        split
        · exact .zero
        · exact parts.2
      refine ⟨?_, .inl (by simp)⟩
      intro c mem
      rcases List.mem_append.1 mem with mem | mem
      · exact parts.1.isNumberChar c mem
      · rcases List.mem_cons.1 mem with rfl | mem
        · rfl
        · exact behind.isNumberChar c mem
    · have exponent : AllDigits (Nat.toDigits 10 (d.point - 1).natAbs) := fun _ mem =>
        Nat.isDigit_of_mem_toDigits (by norm_num) (by norm_num) mem
      rw [scientific]
      refine ⟨?_, .inr (by simp)⟩
      intro c mem
      rcases List.mem_append.1 mem with mem | mem
      · have among : c = '.' ∨ c ∈ d.digitChars := by
          split at mem
          · cases mem
          · next only => exact .inr (only ▸ mem)
          · next shape =>
            rw [shape]
            simp only [List.mem_cons] at mem ⊢
            tauto
        rcases among with rfl | digit
        · rfl
        · exact digits.isNumberChar c digit
      · rcases List.mem_cons.1 mem with rfl | mem
        · rfl
        · rcases List.mem_cons.1 mem with rfl | mem
          · split <;> rfl
          · exact exponent.isNumberChar c mem
  rw [dataForm_eq]
  constructor
  · intro c mem
    rcases List.mem_append.1 mem with mem | mem
    · exact sign c mem
    · exact body.1 c mem
  · exact body.2.imp (List.mem_append_right _) (List.mem_append_right _)

/-! ## The characters of numbers -/

/-- A character of a number in some notation. -/
def isNumeralChar (c : Char) : Bool := c.isAlphanum || c == '+' || c == '-' || c == '.'

variable {s : List Char} {c : Char}

theorem isNumeralChar_of_isAlpha (letter : c.isAlpha = true) : isNumeralChar c = true := by
  simp [isNumeralChar, Char.isAlphanum, letter]

theorem isNumeralChar_of_isDigit (digit : c.isDigit = true) : isNumeralChar c = true := by
  simp [isNumeralChar, Char.isAlphanum, digit]

/-- Letters are read in either case. -/
theorem isAlpha_of_toLower (letter : c.toLower.isAlpha = true) : c.isAlpha = true := by
  by_cases upper : c.val ≥ 'A'.val ∧ c.val ≤ 'Z'.val
  · exact Bool.or_eq_true_iff.2 (.inl (decide_eq_true upper))
  · have same : c.toLower = c := dif_neg upper
    rwa [same] at letter

theorem isNumeralChar_of_map_toLower {word : List Char} (letters : ∀ c ∈ word, c.isAlpha = true)
    (spelt : s.map Char.toLower = word) : ∀ c ∈ s, isNumeralChar c = true := by
  intro c mem
  apply isNumeralChar_of_isAlpha
  apply isAlpha_of_toLower
  exact letters _ (spelt ▸ List.mem_map_of_mem mem)

theorem spanDigits_append (s : List Char) :
    AllDigits (spanDigits s).1 ∧ s = (spanDigits s).1 ++ (spanDigits s).2 := by
  rw [spanDigits, List.span_eq_takeWhile_dropWhile]
  exact ⟨fun c mem => List.mem_takeWhile_imp mem, List.takeWhile_append_dropWhile.symm⟩

/-- Before the digits of a number there may be a sign. -/
theorem isNumeralChar_of_takeSign (h : ∀ c ∈ (takeSign s).2, isNumeralChar c = true) :
    ∀ c ∈ s, isNumeralChar c = true := by
  rw [takeSign.eq_def] at h
  split at h
  · exact List.forall_mem_cons.2 ⟨by decide, h⟩
  · exact List.forall_mem_cons.2 ⟨by decide, h⟩
  · exact h

theorem isNumeralChar_of_spanDigits (h : ∀ c ∈ (spanDigits s).2, isNumeralChar c = true) :
    ∀ c ∈ s, isNumeralChar c = true := by
  obtain ⟨digits, split⟩ := spanDigits_append s
  rw [split, List.forall_mem_append]
  exact ⟨fun c mem => isNumeralChar_of_isDigit (digits c mem), h⟩

theorem isNumeralChar_of_readExponent? {exponent : Int}
    (h : readExponent? s = some exponent) : ∀ c ∈ s, isNumeralChar c = true := by
  cases s with
  | nil => exact nofun
  | cons mark rest =>
    rw [readExponent?] at h
    split at h
    · next isMark =>
      have first : isNumeralChar mark = true := by
        rcases Bool.or_eq_true_iff.1 isMark with e | e <;> cases beq_iff_eq.1 e <;> rfl
      refine List.forall_mem_cons.2 ⟨first, isNumeralChar_of_takeSign ?_⟩
      apply isNumeralChar_of_spanDigits
      simp only at h
      split at h
      · cases h
      · next all => rw [all]; exact nofun
      · cases h
    · cases h

theorem isNumeralChar_of_readUnsigned? {isNegative : Bool} {x : Binary64}
    (h : readUnsigned? isNegative s = some x) : ∀ c ∈ s, isNumeralChar c = true := by
  rw [readUnsigned?] at h
  simp only at h
  split at h
  · next word =>
    simp only [Bool.or_eq_true, decide_eq_true_eq] at word
    rcases word with word | word <;>
      exact isNumeralChar_of_map_toLower (List.all_eq_true.1 (by decide)) word
  split at h
  · next word => exact isNumeralChar_of_map_toLower (List.all_eq_true.1 (by decide)) word
  -- What stands behind the digits is read as an exponent, whether there is a point or not.
  have behind {b : Bool} {t : List Char} {f : Int → Binary64}
      (h : (if b = true then none else (readExponent? t).map f) = some x) :
      ∀ c ∈ t, isNumeralChar c = true := by
    split at h
    · cases h
    · obtain ⟨exponent, read, -⟩ := Option.map_eq_some_iff.1 h
      exact isNumeralChar_of_readExponent? read
  apply isNumeralChar_of_spanDigits
  split at h
  · next rest point =>
    rw [point]
    exact List.forall_mem_cons.2 ⟨by decide, isNumeralChar_of_spanDigits (behind h)⟩
  · exact behind h

/-- A text that reads as a number has no other characters. -/
theorem isNumeralChar_of_readChars? {x : Binary64} (h : readChars? s = some x) :
    ∀ c ∈ s, isNumeralChar c = true :=
  isNumeralChar_of_takeSign (isNumeralChar_of_readUnsigned? h)

theorem isNumeralChar_messageForm (x : Binary64) :
    ∀ c ∈ messageForm x, isNumeralChar c = true := by
  have sign : ∀ c ∈ signChars x, isNumeralChar c = true := by
    rw [signChars]
    split <;> exact List.all_eq_true.1 (by decide)
  have digits {t : List Char} (all : AllDigits t) : ∀ c ∈ t, isNumeralChar c = true :=
    fun c mem => isNumeralChar_of_isDigit (all c mem)
  rw [messageForm]
  split
  · exact List.all_eq_true.1 (by decide)
  split
  · exact List.forall_mem_append.2 ⟨sign, List.all_eq_true.1 (by decide)⟩
  split
  · exact List.forall_mem_append.2 ⟨sign, List.all_eq_true.1 (by decide)⟩
  · obtain ⟨whole, fraction⟩ := allDigits_positional (Shortest.decimal .upward x)
    refine List.forall_mem_append.2 ⟨List.forall_mem_append.2 ⟨sign, digits whole⟩, ?_⟩
    split
    · exact List.forall_mem_nil _
    · exact List.forall_mem_cons.2 ⟨by decide, digits fraction⟩

end Sweep.Number
