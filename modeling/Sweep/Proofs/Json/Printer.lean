import Mathlib.Tactic
import Sweep.Json.Parser
import Sweep.Json.Printer
import Sweep.Proofs.Number.Notation

/-!
# A compact text determines its value

Texts are read back by the reader of quoted texts, and a number ends where its characters do, which
no comma or bracket is one of. So of two values written before such a mark, the one that stands
first in a text is known together with what follows it, and by induction on the values the compact
layout of a value is that of no other.
-/

namespace Sweep.Json

/-! ## Texts -/

theorem hexValue4?_hexDigit : ∀ n < 0x20,
    hexValue4? '0' '0' (hexDigit (n / 16)) (hexDigit (n % 16)) = some n := by
  decide

/-- What is written for a character is read as that character. -/
theorem pieces?_escapeChar (done : List Piece) (c : Char) (rest : List Char) :
    pieces? done (escapeChar c ++ rest) = pieces? (.char c :: done) rest := by
  unfold escapeChar
  split
  · next same => subst same; rfl
  split
  · next same => subst same; rfl
  split
  · next same => subst same; rfl
  split
  · next same => subst same; rfl
  split
  · next same => subst same; rfl
  split
  · next same => subst same; rfl
  split
  · next same => subst same; rfl
  split
  · next control =>
    have number : Piece.ofNumber c.toNat = .char c := by
      rw [Piece.ofNumber, if_neg (by omega), Char.ofNat_toNat]
    rw [List.cons_append, List.cons_append, List.cons_append, List.cons_append, List.cons_append,
      List.cons_append, List.nil_append, pieces?, hexValue4?_hexDigit c.toNat control]
    simp only [number]
  · next quote backslash _ _ _ _ _ plain =>
    rw [List.singleton_append, pieces?]
    · rw [if_neg plain]
    · exact quote
    · intro _ _ _ _ _ same
      exact absurd same backslash
    · intro _ _ same
      exact absurd same backslash

theorem pieces?_flatMap (done : List Piece) (s : List Char) (rest : List Char) :
    pieces? done (s.flatMap escapeChar ++ '"' :: rest) =
      some ((s.map Piece.char).reverse ++ done, rest) := by
  induction s generalizing done with
  | nil => rfl
  | cons c s ih =>
    rw [List.flatMap_cons, List.append_assoc, pieces?_escapeChar, ih]
    simp

/-- A quoted text at the start of a text is known together with what follows. -/
theorem quoted_append_inj {a b : String} {s t : List Char} (h : quoted a ++ s = quoted b ++ t) :
    a = b ∧ s = t := by
  have read := congrArg (pieces? [] ·.tail) h
  simp only [quoted, List.append_assoc, List.cons_append, List.nil_append, List.tail_cons,
    pieces?_flatMap, List.append_nil, Option.some.injEq, Prod.mk.injEq, List.reverse_inj] at read
  have chars := (List.map_inj_right fun _ _ same => Piece.char.inj same).1 read.1
  exact ⟨String.toList_inj.1 chars, read.2⟩

/-! ## Numbers -/

/-- What follows does not go on with a number. -/
def EndsNumber (rest : List Char) : Prop := ∀ c ∈ rest.head?, Number.isNumberChar c = false

theorem allDigits_toDigits (n : Nat) : Number.AllDigits (Nat.toDigits 10 n) :=
  fun _ mem => Nat.isDigit_of_mem_toDigits (by norm_num) (by norm_num) mem

theorem mem_integerChars {n : ℤ} {c : Char} (mem : c ∈ integerChars n) :
    c = '-' ∨ c.isDigit = true := by
  rw [integerChars] at mem
  split at mem
  · exact (List.mem_cons.1 mem).imp_right (allDigits_toDigits _ c)
  · exact .inr (allDigits_toDigits _ c mem)

theorem isNumberChar_numberChars (n : JsonNumber) :
    ∀ c ∈ numberChars n, Number.isNumberChar c = true := by
  cases n with
  | integer n =>
    intro c mem
    rcases mem_integerChars mem with rfl | digit
    · rfl
    · simp [Number.isNumberChar, digit]
  | double x => exact (Number.isNumberChar_dataForm x).1

theorem numberChars_ne_nil (n : JsonNumber) : numberChars n ≠ [] := by
  cases n with
  | integer n =>
    rw [numberChars, integerChars]
    split
    · exact List.cons_ne_nil _ _
    · exact Nat.toDigits_ne_nil
  | double x =>
    rcases (Number.isNumberChar_dataForm x).2 with mem | mem <;> exact List.ne_nil_of_mem mem

theorem integerChars_injective : Function.Injective integerChars := by
  intro m n same
  have digits {k : ℕ} {c : Char} (mem : c ∈ Nat.toDigits 10 k) : c ≠ '-' := by
    rintro rfl
    cases allDigits_toDigits k _ mem
  have value (k l : ℕ) (h : Nat.toDigits 10 k = Nat.toDigits 10 l) : k = l := by
    rw [← Nat.ofDigitChars_ten_toDigits (n := k), h, Nat.ofDigitChars_ten_toDigits]
  rw [integerChars, integerChars] at same
  split at same <;> split at same
  · have := value _ _ (List.cons.inj same).2
    omega
  · exact absurd rfl (digits (same ▸ List.mem_cons_self))
  · exact absurd rfl (digits (same.symm ▸ List.mem_cons_self))
  · have := value _ _ same
    omega

/-- An integer is written without point and exponent, a double is not. -/
theorem integerChars_ne_dataForm (n : ℤ) (x : Binary64) : integerChars n ≠ Number.dataForm x := by
  intro same
  rcases (Number.isNumberChar_dataForm x).2 with mem | mem
  all_goals
    rw [← same] at mem
    rcases mem_integerChars mem with other | digit
    · cases other
    · cases digit

theorem numberChars_injective : Function.Injective numberChars := by
  intro a b same
  cases a with
  | integer m =>
    cases b with
    | integer n => rw [integerChars_injective same]
    | double y => exact absurd same (integerChars_ne_dataForm m y)
  | double x =>
    cases b with
    | integer n => exact absurd same.symm (integerChars_ne_dataForm n x)
    | double y => rw [Number.dataForm_injective same]

theorem takeWhile_numberChars (n : JsonNumber) {s : List Char} (hs : EndsNumber s) :
    (numberChars n ++ s).takeWhile Number.isNumberChar = numberChars n := by
  rw [List.takeWhile_append_of_pos (isNumberChar_numberChars n)]
  cases s with
  | nil => rw [List.takeWhile_nil, List.append_nil]
  | cons c s =>
    rw [List.takeWhile_cons_of_neg (by simp [hs c rfl]), List.append_nil]

theorem numberChars_append_inj {a b : JsonNumber} {s t : List Char} (hs : EndsNumber s)
    (ht : EndsNumber t) (h : numberChars a ++ s = numberChars b ++ t) : a = b ∧ s = t := by
  have taken := congrArg (List.takeWhile Number.isNumberChar) h
  rw [takeWhile_numberChars a hs, takeWhile_numberChars b ht] at taken
  obtain rfl := numberChars_injective taken
  exact ⟨rfl, List.append_cancel_left h⟩

/-! ## Values -/

/-- The first character of a value tells of what kind it is. -/
inductive Kind where
  | null | bool | number | text | list | record
deriving DecidableEq

def Kind.ofChar : Char → Kind
  | 'n' => .null
  | 't' | 'f' => .bool
  | '"' => .text
  | '[' => .list
  | '\x7b' => .record
  | _ => .number

def kind : Json → Kind
  | .null => .null
  | .bool _ => .bool
  | .number _ => .number
  | .text _ => .text
  | .list _ => .list
  | .record _ => .record

theorem compactChars_head (v : Json) (s : List Char) :
    ∃ c rest, v.compactChars ++ s = c :: rest ∧ c ≠ ']' ∧ Kind.ofChar c = v.kind := by
  match v with
  | .null | .bool true | .bool false | .text _ | .list [] | .list (_ :: _) | .record []
  | .record (_ :: _) => exact ⟨_, _, rfl, by decide, rfl⟩
  | .number n =>
    obtain ⟨c, rest, shape⟩ := List.exists_cons_of_ne_nil (numberChars_ne_nil n)
    have numeric := isNumberChar_numberChars n c (shape ▸ List.mem_cons_self)
    refine ⟨c, rest ++ s, by rw [compactChars, shape, List.cons_append], ?_, ?_⟩
    · rintro rfl
      cases numeric
    · unfold Kind.ofChar
      split <;> first | rfl | cases numeric

theorem kind_eq {a b : Json} {s t : List Char} (h : a.compactChars ++ s = b.compactChars ++ t) :
    a.kind = b.kind := by
  obtain ⟨c, rest, ha, -, kindA⟩ := compactChars_head a s
  obtain ⟨d, rest', hb, -, kindB⟩ := compactChars_head b t
  rw [ha, hb] at h
  rw [← kindA, ← kindB, (List.cons.inj h).1]

theorem endsNumber_compactItems (items : List Json) (s : List Char) :
    EndsNumber (compactItems items ++ ']' :: s) := by
  cases items with
  | nil => rintro _ ⟨⟩; rfl
  | cons => rintro _ ⟨⟩; rfl

theorem endsNumber_compactFields (fields : List (String × Json)) (s : List Char) :
    EndsNumber (compactFields fields ++ '\x7d' :: s) := by
  cases fields with
  | nil => rintro _ ⟨⟩; rfl
  | cons => rintro _ ⟨⟩; rfl

mutual

/-- A value at the start of a text is known together with what follows. -/
theorem compactChars_append_inj : ∀ {a b : Json} {s t : List Char}, EndsNumber s → EndsNumber t →
    a.compactChars ++ s = b.compactChars ++ t → a = b ∧ s = t
  | .null, b, s, t, _, _, h => by
    have kinds := kind_eq h
    cases b with
    | null => exact ⟨rfl, List.append_cancel_left h⟩
    | _ => cases kinds
  | .bool x, b, s, t, _, _, h => by
    have kinds := kind_eq h
    cases b with
    | bool y =>
      cases x <;> cases y
      · exact ⟨rfl, List.append_cancel_left h⟩
      · exact absurd (List.cons.inj h).1 (by decide)
      · exact absurd (List.cons.inj h).1 (by decide)
      · exact ⟨rfl, List.append_cancel_left h⟩
    | _ => cases kinds
  | .number m, b, s, t, hs, ht, h => by
    have kinds := kind_eq h
    cases b with
    | number n =>
      obtain ⟨same, rest⟩ := numberChars_append_inj hs ht h
      exact ⟨congrArg Json.number same, rest⟩
    | _ => cases kinds
  | .text x, b, s, t, _, _, h => by
    have kinds := kind_eq h
    cases b with
    | text y =>
      obtain ⟨same, rest⟩ := quoted_append_inj h
      exact ⟨congrArg Json.text same, rest⟩
    | _ => cases kinds
  | .list [], b, s, t, _, _, h => by
    have kinds := kind_eq h
    cases b with
    | list others =>
      cases others with
      | nil => exact ⟨rfl, List.append_cancel_left h⟩
      | cons y b =>
        simp only [compactChars, List.cons_append, List.append_assoc, List.nil_append,
          List.cons.injEq, true_and] at h
        obtain ⟨c, rest, shape, other, -⟩ := compactChars_head y (compactItems b ++ ']' :: t)
        rw [shape] at h
        exact absurd (List.cons.inj h).1.symm other
    | _ => cases kinds
  | .list (x :: a), b, s, t, _, _, h => by
    have kinds := kind_eq h
    cases b with
    | list others =>
      cases others with
      | nil =>
        simp only [compactChars, List.cons_append, List.append_assoc, List.nil_append,
          List.cons.injEq, true_and] at h
        obtain ⟨c, rest, shape, other, -⟩ := compactChars_head x (compactItems a ++ ']' :: s)
        rw [shape] at h
        exact absurd (List.cons.inj h).1 other
      | cons y b =>
        simp only [compactChars, List.cons_append, List.append_assoc, List.nil_append,
          List.cons.injEq, true_and] at h
        obtain ⟨rfl, items⟩ := compactChars_append_inj (endsNumber_compactItems a s)
          (endsNumber_compactItems b t) h
        obtain ⟨rfl, rest⟩ := compactItems_append_inj items
        exact ⟨rfl, rest⟩
    | _ => cases kinds
  | .record [], b, s, t, _, _, h => by
    have kinds := kind_eq h
    cases b with
    | record others =>
      cases others with
      | nil => exact ⟨rfl, List.append_cancel_left h⟩
      | cons => exact absurd (List.cons.inj (List.cons.inj h).2).1 (by decide)
    | _ => cases kinds
  | .record ((k, x) :: a), b, s, t, _, _, h => by
    have kinds := kind_eq h
    cases b with
    | record others =>
      cases others with
      | nil => exact absurd (List.cons.inj (List.cons.inj h).2).1 (by decide)
      | cons field b =>
        simp only [compactChars, List.cons_append, List.append_assoc, List.nil_append,
          List.cons.injEq, true_and] at h
        obtain ⟨rfl, value⟩ := quoted_append_inj h
        obtain ⟨rfl, fields⟩ := compactChars_append_inj (endsNumber_compactFields a s)
          (endsNumber_compactFields b t) (List.cons.inj value).2
        obtain ⟨rfl, rest⟩ := compactFields_append_inj fields
        exact ⟨rfl, rest⟩
    | _ => cases kinds

/-- Items up to the bracket of their list are known together with what follows. -/
theorem compactItems_append_inj : ∀ {a b : List Json} {s t : List Char},
    compactItems a ++ ']' :: s = compactItems b ++ ']' :: t → a = b ∧ s = t
  | [], [], _, _, h => ⟨rfl, (List.cons.inj h).2⟩
  | [], _ :: _, _, _, h => absurd (List.cons.inj h).1 (by decide)
  | _ :: _, [], _, _, h => absurd (List.cons.inj h).1 (by decide)
  | x :: a, y :: b, s, t, h => by
    simp only [compactItems, List.cons_append, List.append_assoc, List.cons.injEq,
      true_and] at h
    obtain ⟨rfl, items⟩ := compactChars_append_inj (endsNumber_compactItems a s)
      (endsNumber_compactItems b t) h
    obtain ⟨rfl, rest⟩ := compactItems_append_inj items
    exact ⟨rfl, rest⟩

/-- Fields up to the bracket of their record are known together with what follows. -/
theorem compactFields_append_inj : ∀ {a b : List (String × Json)} {s t : List Char},
    compactFields a ++ '\x7d' :: s = compactFields b ++ '\x7d' :: t → a = b ∧ s = t
  | [], [], _, _, h => ⟨rfl, (List.cons.inj h).2⟩
  | [], _ :: _, _, _, h => absurd (List.cons.inj h).1 (by decide)
  | _ :: _, [], _, _, h => absurd (List.cons.inj h).1 (by decide)
  | (k, x) :: a, (l, y) :: b, s, t, h => by
    simp only [compactFields, List.cons_append, List.append_assoc, List.cons.injEq,
      true_and] at h
    obtain ⟨rfl, value⟩ := quoted_append_inj h
    obtain ⟨rfl, fields⟩ := compactChars_append_inj (endsNumber_compactFields a s)
      (endsNumber_compactFields b t) (List.cons.inj value).2
    obtain ⟨rfl, rest⟩ := compactFields_append_inj fields
    exact ⟨rfl, rest⟩

end

/-- Different values have different compact layouts. -/
theorem compact_injective : Function.Injective compact := by
  intro a b same
  have chars : a.compactChars ++ [] = b.compactChars ++ [] := by
    rw [List.append_nil, List.append_nil]
    exact String.ofList_injective same
  have nothing : EndsNumber [] := by
    rintro _ ⟨⟩
  exact (compactChars_append_inj nothing nothing chars).1

end Sweep.Json
