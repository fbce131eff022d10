import Sweep.Proofs.Condition.Wording
import Sweep.Text.Blank

/-!
# Every piece of a wording is read as its token

A piece that is followed by a space, or by nothing, is cut off the text as one token, and as the
token that it stands for. No alternative takes a part of it: a number is as long as it can be, a
word that begins like a reserved word is a name, and `!`, `<` and `>` are not followed by `=`.
-/

namespace Sweep.Condition

open Number

/-- What follows a piece: a space, or nothing. -/
def Delimits (rest : List Char) : Prop := ∀ c ∈ rest.head?, c = ' '

theorem delimits_nil : Delimits [] := fun _ mem => by cases mem

theorem delimits_space (s : List Char) : Delimits (' ' :: s) := fun _ mem => by
  cases mem
  rfl

/-- Characters of a kind are taken up to the first of another kind. -/
theorem takeWhile_append_stop {p : Char → Bool} {s rest : List Char} (all : ∀ c ∈ s, p c = true)
    (stop : ∀ c ∈ rest.head?, p c = false) : (s ++ rest).takeWhile p = s := by
  rw [List.takeWhile_append_of_pos all]
  cases rest with
  | nil => simp
  | cons c rest => simp [stop c rfl]

theorem Delimits.stops {rest : List Char} (ends : Delimits rest) {p : Char → Bool}
    (space : p ' ' = false) : ∀ c ∈ rest.head?, p c = false := by
  intro c mem
  rw [ends c mem, space]

/-! ## Characters -/

/-- Letters of ASCII lie in two ranges. -/
theorem range_of_isAlpha {c : Char} (letter : c.isAlpha = true) :
    65 ≤ c.toNat ∧ c.toNat ≤ 90 ∨ 97 ≤ c.toNat ∧ c.toNat ≤ 122 := by
  have kinds : decide (c.val ≥ 'A'.val ∧ c.val ≤ 'Z'.val) = true ∨
      (decide (c.val ≥ 'a'.val) && decide (c.val ≤ 'z'.val)) = true :=
    Bool.or_eq_true_iff.1 letter
  simpa [UInt32.le_iff_toNat_le] using kinds

/-- The white space from U+0080 on. -/
def wideBlanks : List Nat :=
  [0x85, 0xA0, 0x1680, 0x2000, 0x2001, 0x2002, 0x2003, 0x2004, 0x2005, 0x2006, 0x2007, 0x2008,
    0x2009, 0x200A, 0x2028, 0x2029, 0x202F, 0x205F, 0x3000]

/-- No letter is white space: below U+0080 by the ranges of both, above by the tables. -/
theorem isBlank_of_isAlphabetic {c : Char} (letter : Text.isAlphabetic c = true) :
    Text.isBlank c = false := by
  rw [Text.isAlphabetic] at letter
  split at letter
  · have range := range_of_isAlpha letter
    simp [Text.isBlank]
    omega
  · next wide =>
    have spaces : ∀ n ∈ wideBlanks, Text.inRanges Text.alphabeticRanges n = false := by
      decide +kernel
    rw [Bool.eq_false_iff]
    intro blank
    have mem : c.toNat ∈ wideBlanks := by
      simp [Text.isBlank, wideBlanks] at blank ⊢
      omega
    rw [spaces _ mem] at letter
    cases letter

theorem range_of_isDigit {c : Char} (digit : c.isDigit = true) :
    48 ≤ c.toNat ∧ c.toNat ≤ 57 := by
  simpa [Char.isDigit, UInt32.le_iff_toNat_le] using digit

theorem isBlank_of_isDigit {c : Char} (digit : c.isDigit = true) : Text.isBlank c = false := by
  have range := range_of_isDigit digit
  simp [Text.isBlank]
  omega

theorem isWordStart_of_isDigit {c : Char} (digit : c.isDigit = true) : isWordStart c = false := by
  have bounds := range_of_isDigit digit
  rw [Bool.eq_false_iff]
  intro start
  obtain letter | underscore := Bool.or_eq_true_iff.1 start
  · rw [Text.isAlphabetic, if_pos (by omega)] at letter
    have range := range_of_isAlpha letter
    omega
  · rw [eq_of_beq underscore] at digit
    cases digit

theorem isBlank_of_isWordStart {c : Char} (start : isWordStart c = true) :
    Text.isBlank c = false := by
  obtain letter | underscore := Bool.or_eq_true_iff.1 start
  · exact isBlank_of_isAlphabetic letter
  · rw [eq_of_beq underscore]
    rfl

/-! ## Numbers -/

/-- A text does not go on with a digit. -/
def StopsDigits (rest : List Char) : Prop := ∀ c ∈ rest.head?, c.isDigit = false

theorem digitCount_append {digits rest : List Char} (all : AllDigits digits)
    (stop : StopsDigits rest) : digitCount (digits ++ rest) = digits.length := by
  rw [digitCount, takeWhile_append_stop all stop]

theorem spanDigits_append_stop {digits rest : List Char} (all : AllDigits digits)
    (stop : StopsDigits rest) : spanDigits (digits ++ rest) = (digits, rest) := by
  have taken := takeWhile_append_stop all stop
  have split := List.takeWhile_append_dropWhile (p := Char.isDigit) (l := digits ++ rest)
  rw [taken] at split
  rw [spanDigits, List.span_eq_takeWhile_dropWhile, taken, List.append_cancel_left split]

/-- The length of the point and the digits behind it, given how many digits stand before it. -/
def fractionLength (whole : Nat) : List Char → Nat
  | '.' :: rest =>
    let n := digitCount rest
    if whole = 0 ∧ n = 0 then 0 else n + 1
  | _ => 0

theorem unsignedLength_eq (s : List Char) : unsignedLength s =
    let whole := digitCount s
    let mantissa := whole + fractionLength whole (s.drop whole)
    if mantissa = 0 then 0 else mantissa + exponentLength (s.drop mantissa) := rfl

theorem toLower_of_isDigit {c : Char} (digit : c.isDigit = true) : c.toLower = c := by
  have bounds : c.val ≥ '0'.val ∧ c.val ≤ '9'.val := by
    simpa [Char.isDigit] using digit
  have below : '9'.val < 'A'.val := by decide
  have small : ¬(c.val ≥ 'A'.val ∧ c.val ≤ 'Z'.val) := by
    rintro ⟨capital, -⟩
    exact UInt32.not_le.2 below (UInt32.le_trans capital bounds.2)
  exact dif_neg small

namespace Exponent

variable (e : Exponent) {rest : List Char}

theorem length_digits_pos : 0 < e.digits.length := List.length_pos_of_ne_nil e.nonempty

/-- The sign and the digits of an exponent begin with a sign or with a digit. -/
theorem exponentLength_chars (stop : StopsDigits rest) :
    exponentLength (e.chars ++ rest) = e.chars.length := by
  have isMark : (e.mark == 'e' || e.mark == 'E') = true := by
    obtain mark | mark := e.isMark <;> rw [mark] <;> rfl
  have count : digitCount (e.digits ++ rest) = e.digits.length :=
    digitCount_append e.allDigits stop
  have some : e.digits.length ≠ 0 := Nat.ne_of_gt e.length_digits_pos
  rw [chars, List.cons_append, List.append_assoc, signChars]
  cases e.sign with
  | none =>
    obtain ⟨d, ds, shape⟩ := List.exists_cons_of_ne_nil e.nonempty
    have digit : d.isDigit = true := e.allDigits d (by simp [shape])
    have noSign : (d == '+' || d == '-') = false := by
      rw [Bool.eq_false_iff, ne_eq, Bool.or_eq_true_iff]
      rintro (same | same) <;> rw [eq_of_beq same] at digit <;> cases digit
    rw [shape] at count some ⊢
    rw [List.cons_append] at count
    simp [exponentLength, isMark, noSign, count]
  | some isMinus =>
    cases isMinus <;> simp [exponentLength, isMark, count, some]

theorem readExponent?_chars : readExponent? e.chars = some e.value := by
  have isMark : (e.mark == 'e' || e.mark == 'E') = true := by
    obtain mark | mark := e.isMark <;> rw [mark] <;> rfl
  have stop : StopsDigits [] := fun _ mem => by cases mem
  have span : spanDigits e.digits = (e.digits, []) := by
    rw [← e.digits.append_nil, spanDigits_append_stop e.allDigits stop, e.digits.append_nil]
  obtain ⟨d, ds, shape⟩ := List.exists_cons_of_ne_nil e.nonempty
  rw [chars, readExponent?, if_pos isMark, signChars, value]
  have unsigned : takeSign e.digits = (false, e.digits) := by
    have digit : d.isDigit = true := e.allDigits d (by simp [shape])
    rw [shape, takeSign]
    · rintro _ ⟨⟩
      cases digit
    · rintro _ ⟨⟩
      cases digit
  cases e.sign with
  | none =>
    simp only [List.nil_append, unsigned, span]
    simp [shape]
  | some isMinus =>
    rw [shape] at span ⊢
    cases isMinus <;> simp [takeSign, span]

end Exponent

namespace Numeral

variable (n : Numeral) {rest : List Char}

/-- An exponent begins with its letter. -/
theorem exponentChars_cases : n.exponentChars = [] ∨
    ∃ c s, n.exponentChars = c :: s ∧ (c = 'e' ∨ c = 'E') := by
  rw [exponentChars]
  cases n.exponent with
  | none => exact .inl rfl
  | some e => exact .inr ⟨e.mark, _, rfl, e.isMark⟩

theorem stopsDigits_exponentChars (stop : StopsDigits rest) :
    StopsDigits (n.exponentChars ++ rest) := by
  obtain none | ⟨c, s, shape, letter⟩ := n.exponentChars_cases
  · rw [none]
    exact stop
  · rw [shape]
    intro d mem
    cases mem
    obtain rfl | rfl := letter <;> rfl

theorem stopsDigits_fractionChars (stop : StopsDigits rest) :
    StopsDigits (n.fractionChars ++ rest) := by
  rw [fractionChars]
  cases n.fraction with
  | none => exact stop
  | some digits =>
    intro c mem
    cases mem
    rfl

theorem exponentLength_exponentChars (ends : Delimits rest) :
    exponentLength (n.exponentChars ++ rest) = n.exponentChars.length := by
  rw [exponentChars]
  cases n.exponent with
  | none =>
    cases rest with
    | nil => rfl
    | cons c rest =>
      rw [ends c rfl]
      rfl
  | some e => exact e.exponentLength_chars (ends.stops rfl)

/-- The digits before the point are all digits at the start. -/
theorem digitCount_body (ends : Delimits rest) :
    digitCount (n.body ++ rest) = n.whole.length := by
  rw [body, List.append_assoc, List.append_assoc]
  exact digitCount_append n.wholeDigits
    (n.stopsDigits_fractionChars (n.stopsDigits_exponentChars (ends.stops rfl)))

theorem drop_body : (n.body ++ rest).drop n.whole.length =
    n.fractionChars ++ (n.exponentChars ++ rest) := by
  rw [body, List.append_assoc, List.append_assoc, List.drop_left]

/-- No point comes behind the digits if there is no fraction. -/
theorem point_ne (ends : Delimits rest) (s : List Char) : n.exponentChars ++ rest ≠ '.' :: s := by
  obtain none | ⟨c, t, shape, letter⟩ := n.exponentChars_cases
  · rw [none]
    rintro rfl
    cases ends '.' rfl
  · rw [shape]
    intro same
    obtain ⟨rfl, -⟩ := List.cons.inj same
    obtain point | point := letter <;> cases point

theorem mantissa_ne_zero : n.whole.length + n.fractionChars.length ≠ 0 := by
  intro zero
  obtain ⟨noWhole, noFraction⟩ := Nat.add_eq_zero_iff.1 zero
  obtain ⟨digits, fraction, -⟩ := n.nonempty (List.length_eq_zero_iff.1 noWhole)
  rw [fractionChars, Option.mem_def.1 fraction] at noFraction
  cases noFraction

theorem fractionLength_fractionChars (ends : Delimits rest) :
    fractionLength n.whole.length (n.fractionChars ++ (n.exponentChars ++ rest)) =
      n.fractionChars.length := by
  have stop : StopsDigits (n.exponentChars ++ rest) :=
    n.stopsDigits_exponentChars (ends.stops rfl)
  rw [fractionChars]
  cases shape : n.fraction with
  | none =>
    rw [List.nil_append, fractionLength]
    · rfl
    · exact n.point_ne ends
  | some digits =>
    have count := digitCount_append (n.fractionDigits digits shape) stop
    have some : ¬(n.whole.length = 0 ∧ digits.length = 0) := by
      rintro ⟨noWhole, noFraction⟩
      obtain ⟨others, fraction, some⟩ := n.nonempty (List.length_eq_zero_iff.1 noWhole)
      cases shape.symm.trans fraction
      exact some (List.length_eq_zero_iff.1 noFraction)
    dsimp only
    rw [List.cons_append, fractionLength, count, if_neg some, List.length_cons]

theorem unsignedLength_body (ends : Delimits rest) :
    unsignedLength (n.body ++ rest) = n.body.length := by
  have dropped : (n.body ++ rest).drop n.whole.length =
      n.fractionChars ++ (n.exponentChars ++ rest) := n.drop_body
  have behind : (n.body ++ rest).drop (n.whole.length + n.fractionChars.length) =
      n.exponentChars ++ rest := by
    rw [← List.drop_drop, dropped, List.drop_left]
  rw [unsignedLength_eq, n.digitCount_body ends]
  dsimp only
  rw [dropped, n.fractionLength_fractionChars ends, if_neg n.mantissa_ne_zero, behind,
    n.exponentLength_exponentChars ends, body, List.length_append, List.length_append,
    Nat.add_assoc]

/-- A number without its minus begins with a digit or with the point. -/
theorem exists_cons_body : ∃ c s, n.body = c :: s ∧ (c.isDigit = true ∨ c = '.') := by
  cases shape : n.whole with
  | cons c s =>
    exact ⟨c, _, by rw [body, shape, List.cons_append], .inl (n.wholeDigits c (by simp [shape]))⟩
  | nil =>
    obtain ⟨digits, fraction, -⟩ := n.nonempty shape
    have point : n.fractionChars = '.' :: digits := by
      rw [fractionChars, Option.mem_def.1 fraction]
    exact ⟨'.', _, by rw [body, shape, point, List.nil_append, List.cons_append], .inr rfl⟩

theorem body_ne_nil : n.body ≠ [] := by
  obtain ⟨c, s, shape, -⟩ := n.exists_cons_body
  rw [shape]
  exact List.cons_ne_nil c s

theorem numberLength_chars (ends : Delimits rest) :
    numberLength (n.chars ++ rest) = n.chars.length := by
  have length := n.unsignedLength_body ends
  have some : n.body.length ≠ 0 := Nat.ne_of_gt (List.length_pos_of_ne_nil n.body_ne_nil)
  rw [chars]
  split
  · rw [List.cons_append, numberLength, length]
    simp [some]
  · obtain ⟨c, s, shape, start⟩ := n.exists_cons_body
    rw [shape, List.cons_append] at length ⊢
    rw [numberLength, length]
    rintro _ ⟨⟩
    obtain digit | point := start
    · cases digit
    · cases point

theorem stopsDigits_nil : StopsDigits [] := fun _ mem => by cases mem

theorem readExponent?_exponentChars :
    readExponent? n.exponentChars = some ((n.exponent.map Exponent.value).getD 0) := by
  rw [exponentChars]
  cases n.exponent with
  | none => rfl
  | some e => exact e.readExponent?_chars

/-- A number is no word for infinity, nor for no number at all. -/
theorem map_toLower_body_ne {c : Char} (letter : c = 'i' ∨ c = 'n') (s : List Char) :
    n.body.map Char.toLower ≠ c :: s := by
  obtain ⟨d, t, shape, start⟩ := n.exists_cons_body
  have lower : d.toLower = d := by
    obtain digit | point := start
    · exact toLower_of_isDigit digit
    · rw [point]
      rfl
  rw [shape, List.map_cons, lower]
  intro same
  obtain ⟨rfl, -⟩ := List.cons.inj same
  obtain rfl | rfl := letter <;> simp at start

theorem takeSign_chars : takeSign n.chars = (n.isNegative, n.body) := by
  obtain ⟨c, s, shape, start⟩ := n.exists_cons_body
  rw [chars]
  cases n.isNegative with
  | true => rfl
  | false =>
    rw [if_neg (by decide), shape, takeSign]
    · rintro _ ⟨⟩
      simp at start
    · rintro _ ⟨⟩
      simp at start

theorem readUnsigned?_body : readUnsigned? n.isNegative n.body = some n.value := by
  have infinite := n.map_toLower_body_ne (.inl rfl) ['n', 'f']
  have infinity := n.map_toLower_body_ne (.inl rfl) ['n', 'f', 'i', 'n', 'i', 't', 'y']
  have nan := n.map_toLower_body_ne (.inr rfl) ['a', 'n']
  have ends : StopsDigits n.exponentChars := by
    have stop := n.stopsDigits_exponentChars stopsDigits_nil
    rwa [List.append_nil] at stop
  have whole : spanDigits n.body = (n.whole, n.fractionChars ++ n.exponentChars) :=
    spanDigits_append_stop n.wholeDigits (n.stopsDigits_fractionChars ends)
  have exponent := n.readExponent?_exponentChars
  rw [readUnsigned?, value]
  simp only [infinite, infinity, nan, whole, decide_false, Bool.or_self, Bool.false_eq_true,
    if_false]
  rw [fractionChars]
  cases shape : n.fraction with
  | none =>
    have some : n.whole ≠ [] := by
      intro noWhole
      obtain ⟨digits, fraction, -⟩ := n.nonempty noWhole
      cases shape.symm.trans fraction
    obtain none | ⟨c, s, letters, rfl | rfl⟩ := n.exponentChars_cases
    · rw [none] at exponent ⊢
      simp [some, exponent]
    · rw [letters] at exponent ⊢
      simp [some, exponent]
    · rw [letters] at exponent ⊢
      simp [some, exponent]
  | some digits =>
    have fraction : spanDigits (digits ++ n.exponentChars) = (digits, n.exponentChars) :=
      spanDigits_append_stop (n.fractionDigits digits shape) ends
    have some : (n.whole.isEmpty && digits.isEmpty) = false := by
      rw [Bool.eq_false_iff, ne_eq, Bool.and_eq_true, List.isEmpty_iff, List.isEmpty_iff]
      rintro ⟨noWhole, noFraction⟩
      obtain ⟨others, found, some⟩ := n.nonempty noWhole
      cases shape.symm.trans found
      exact some noFraction
    simp [fraction, some, exponent]

/-- What is written out as a number is read as that number. -/
theorem readChars?_chars : readChars? n.chars = some n.value := by
  rw [readChars?, n.takeSign_chars]
  exact n.readUnsigned?_body

end Numeral

/-! ## Tokens -/

/-- The characters at which something else than a number or a word begins. -/
def marks : List Char := ['(', ')', '|', '&', '=', '!', '<', '>', '\'', '"']

/-- The token at a character that is no mark: a number, a word, or nothing. -/
theorem token_of_not_mark {c : Char} (plain : c ∉ marks) (s : List Char) : token c s =
    let n := numberLength (c :: s)
    if 0 < n then
      match readChars? (c :: s.take (n - 1)) with
      | some x => (.number x, n - 1)
      | none => (.unknown, 0)
    else if isWordStart c then
      let rest := s.takeWhile isWordChar
      (wordToken (c :: rest), rest.length)
    else (.unknown, 0) := by
  unfold token
  split
  case h_14 => rfl
  all_goals exact absurd (by decide) plain

/-- A character of a kind that no mark is of is no mark. -/
theorem not_mark {p : Char → Bool} {c : Char} (kind : p c = true)
    (none : marks.any p = false) : c ∉ marks := by
  intro mem
  rw [List.any_eq_false] at none
  exact none c mem kind

variable {rest : List Char}

/-- A number is cut off the text as a number. -/
theorem token_numeral (n : Numeral) (ends : Delimits rest) : ∃ c s, n.chars = c :: s ∧
    Text.isBlank c = false ∧ token c (s ++ rest) = (.number n.value, s.length) := by
  have some : n.chars ≠ [] := by
    rw [Numeral.chars]
    split
    · exact List.cons_ne_nil _ _
    · exact n.body_ne_nil
  obtain ⟨c, s, shape⟩ := List.exists_cons_of_ne_nil some
  have start : c = '-' ∨ c = '.' ∨ c.isDigit = true := by
    obtain ⟨d, t, body, start⟩ := n.exists_cons_body
    rw [Numeral.chars] at shape
    split at shape
    · exact .inl (List.cons.inj shape).1.symm
    · obtain ⟨rfl, -⟩ := List.cons.inj (body.symm.trans shape)
      exact .inr start.symm
  have plain : c ∉ marks ∧ Text.isBlank c = false := by
    obtain rfl | rfl | digit := start
    · decide
    · decide
    · exact ⟨not_mark digit (by decide), isBlank_of_isDigit digit⟩
  refine ⟨c, s, shape, plain.2, ?_⟩
  have length := n.numberLength_chars ends
  have read := n.readChars?_chars
  rw [shape, List.cons_append, List.length_cons] at length
  rw [shape] at read
  rw [token_of_not_mark plain.1, length]
  simp [read]

/-- A number begins with a minus, a point or a digit. -/
theorem numberLength_eq_zero {c : Char} (minus : c ≠ '-') (point : c ≠ '.')
    (digit : c.isDigit = false) (s : List Char) : numberLength (c :: s) = 0 := by
  have none : digitCount (c :: s) = 0 := by
    rw [digitCount, List.takeWhile_cons_of_neg (by simp [digit]), List.length_nil]
  rw [numberLength, unsignedLength_eq, none]
  · dsimp only
    rw [List.drop_zero, fractionLength]
    · rfl
    · rintro _ ⟨⟩
      exact point rfl
  · rintro _ ⟨⟩
    exact minus rfl

/-- No number begins where a word begins. -/
theorem numberLength_of_isWordStart {c : Char} (start : isWordStart c = true) (s : List Char) :
    numberLength (c :: s) = 0 := by
  apply numberLength_eq_zero
  · rintro rfl
    cases start
  · rintro rfl
    cases start
  · rw [Bool.eq_false_iff]
    intro digit
    rw [isWordStart_of_isDigit digit] at start
    cases start

/-- A word is cut off the text as what the word is. -/
theorem token_word {first : Char} {others : List Char} (starts : isWordStart first = true)
    (continues : ∀ c ∈ others, isWordChar c = true) (ends : Delimits rest) :
    token first (others ++ rest) = (wordToken (first :: others), others.length) := by
  have plain : first ∉ marks := not_mark starts (by decide)
  rw [token_of_not_mark plain, numberLength_of_isWordStart starts,
    takeWhile_append_stop continues (ends.stops rfl)]
  simp [starts]

theorem wordToken_of_free {word : List Char} (free : String.ofList word ∉ reservedWords) :
    wordToken word = .variable (String.ofList word) := by
  rw [wordToken]
  split <;> simp_all [reservedWords]

/-- A text in quotes is cut off as what stands between them. -/
theorem quotedToken_append {quote : Char} {content : List Char} (absent : quote ∉ content) :
    quotedToken quote (content ++ [quote] ++ rest) =
      (.text (String.ofList content), content.length + 1) := by
  have body : (content ++ ([quote] ++ rest)).takeWhile (· != quote) = content := by
    apply takeWhile_append_stop
    · intro c mem
      rw [bne_iff_ne]
      rintro rfl
      exact absent mem
    · intro c mem
      cases mem
      simp
  rw [List.append_assoc, quotedToken, body]
  simp

theorem token_text (q : Quoted) (rest : List Char) :
    token q.quote (q.content.toList ++ [q.quote] ++ rest) =
      (.text q.content, q.content.toList.length + 1) := by
  have cut : quotedToken q.quote (q.content.toList ++ [q.quote] ++ rest) =
      (.text (String.ofList q.content.toList), q.content.toList.length + 1) :=
    quotedToken_append q.absent
  rw [String.ofList_toList] at cut
  obtain quote | quote := q.isQuote
  · rw [quote] at cut ⊢
    rw [token, cut]
  · rw [quote] at cut ⊢
    rw [token, cut]

/-- Nothing that follows a piece makes one symbol of it and its first character. -/
theorem Delimits.not_equals (ends : Delimits rest) (s : List Char) : rest ≠ '=' :: s := by
  rintro rfl
  cases ends '=' rfl

namespace Piece

/-- What a piece begins with is no white space, and what is cut off there is the piece. -/
theorem token_eq (p : Piece) (ends : Delimits rest) : ∃ c s, p.chars = c :: s ∧
    Text.isBlank c = false ∧ Condition.token c (s ++ rest) = (p.token, s.length) := by
  have word (first : Char) (others : List Char) (starts : isWordStart first = true)
      (continues : others.all isWordChar = true) : Text.isBlank first = false ∧
      Condition.token first (others ++ rest) = (wordToken (first :: others), others.length) :=
    ⟨isBlank_of_isWordStart starts, token_word starts (List.all_eq_true.1 continues) ends⟩
  cases p with
  | number n => exact token_numeral n ends
  | text q =>
    refine ⟨q.quote, _, rfl, ?_, ?_⟩
    · obtain quote | quote := q.isQuote <;> rw [quote] <;> rfl
    · rw [token_text, List.length_append]
      rfl
  | truth t =>
    obtain ⟨value, isCapital⟩ := t
    cases value <;> cases isCapital <;>
      exact ⟨_, _, rfl, word _ _ (by decide) (by decide)⟩
  | «variable» i =>
    refine ⟨i.first, i.others, rfl, isBlank_of_isWordStart i.starts, ?_⟩
    rw [token_word i.starts i.continues ends, wordToken_of_free i.free]
    rfl
  | not spelling =>
    cases spelling with
    | word => exact ⟨_, _, rfl, word 'n' ['o', 't'] (by decide) (by decide)⟩
    | symbol =>
      refine ⟨'!', [], rfl, rfl, ?_⟩
      rw [List.nil_append, Condition.token]
      · rfl
      · exact ends.not_equals
  | and spelling =>
    cases spelling with
    | word => exact ⟨_, _, rfl, word 'a' ['n', 'd'] (by decide) (by decide)⟩
    | symbol => exact ⟨'&', ['&'], rfl, rfl, rfl⟩
  | or spelling =>
    cases spelling with
    | word => exact ⟨_, _, rfl, word 'o' ['r'] (by decide) (by decide)⟩
    | symbol => exact ⟨'|', ['|'], rfl, rfl, rfl⟩
  | compare op =>
    cases op with
    | eq => exact ⟨'=', ['='], rfl, rfl, rfl⟩
    | ne => exact ⟨'!', ['='], rfl, rfl, rfl⟩
    | le => exact ⟨'<', ['='], rfl, rfl, rfl⟩
    | ge => exact ⟨'>', ['='], rfl, rfl, rfl⟩
    | lt =>
      refine ⟨'<', [], rfl, rfl, ?_⟩
      rw [List.nil_append, Condition.token]
      · rfl
      · exact ends.not_equals
    | gt =>
      refine ⟨'>', [], rfl, rfl, ?_⟩
      rw [List.nil_append, Condition.token]
      · rfl
      · exact ends.not_equals
  | opening => exact ⟨'(', [], rfl, rfl, rfl⟩
  | closing => exact ⟨')', [], rfl, rfl, rfl⟩

theorem token_ne_unknown (p : Piece) : p.token ≠ .unknown := by
  cases p <;> exact Token.noConfusion

end Piece

/-! ## Whole texts -/

theorem isGap_of_not_blank {c : Char} (visible : Text.isBlank c = false) : isGap c = false := by
  rw [Bool.eq_false_iff]
  intro gap
  simp only [isGap, Bool.or_eq_true, beq_iff_eq] at gap
  obtain ((rfl | rfl) | rfl) | rfl := gap <;> cases visible

theorem lex_space (s : List Char) : lex (' ' :: s) = lex s := by
  rw [lex]
  rfl

/-- A piece is read as its token, and reading goes on behind it. -/
theorem lex_piece (p : Piece) (ends : Delimits rest) :
    lex (p.chars ++ rest) = ⟨p.token, (p.chars ++ rest).length⟩ :: lex rest := by
  obtain ⟨c, s, shape, visible, cut⟩ := p.token_eq ends
  rw [shape, List.cons_append, lex, if_neg (by simp [isGap_of_not_blank visible]), cut]
  have known := p.token_ne_unknown
  split
  · next unknown => exact absurd (congrArg Prod.fst unknown) known
  · next t more _ same =>
    cases same
    rw [List.drop_left, List.length_cons]

/-- Pieces with single spaces between them are read as their tokens. -/
theorem lex_pieces (ps : List Piece) :
    (lex ([' '].intercalate (ps.map Piece.chars))).map (·.token) = ps.map Piece.token := by
  induction ps with
  | nil =>
    rw [List.map_nil, List.intercalate_nil, lex]
    rfl
  | cons p ps ih =>
    cases ps with
    | nil =>
      have last := lex_piece p delimits_nil
      rw [List.append_nil, lex] at last
      rw [List.map_singleton, List.intercalate_singleton, last]
      rfl
    | cons q qs =>
      have shape : [' '].intercalate ((p :: q :: qs).map Piece.chars) =
          p.chars ++ ' ' :: [' '].intercalate ((q :: qs).map Piece.chars) := by
        rw [List.map_cons, List.map_cons, List.intercalate_cons_cons, List.append_assoc,
          List.singleton_append]
      rw [shape, lex_piece p (delimits_space _), lex_space]
      exact congrArg (p.token :: ·) ih

end Sweep.Condition
