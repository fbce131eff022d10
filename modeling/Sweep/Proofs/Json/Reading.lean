import Mathlib.Data.List.TakeWhile
import Sweep.Json.Parser
import Sweep.Proofs.Json.Printer

/-!
# An indented text is read as the value

The reader of documents takes an indented text apart into the parts of the value it was written
for, whatever follows it, as long as the value is not nested too deep and its numbers are read back
as they were written. By induction on the values: each part is read up to the comma, the line break
or the bracket behind it.
-/

namespace Sweep.Json

/-! ## Numbers -/

/-- What follows a value in a written text: a comma, a line break, or nothing. -/
def Delimits (rest : List Char) : Prop := ∀ c ∈ rest.head?, c = ',' ∨ c = '\n'

theorem spanDigits_append {rest : List Char} (ends : Delimits rest) (s : List Char) :
    Number.spanDigits (s ++ rest) =
      ((Number.spanDigits s).1, (Number.spanDigits s).2 ++ rest) := by
  simp only [Number.spanDigits, List.span_eq_takeWhile_dropWhile]
  induction s with
  | nil =>
    cases rest with
    | nil => rfl
    | cons c rest =>
      rcases ends c rfl with rfl | rfl <;> rfl
  | cons c s ih =>
    obtain ⟨taken, left⟩ := Prod.mk.inj ih
    cases digit : c.isDigit <;> simp [digit, taken, left]

theorem fraction?_append {rest : List Char} (ends : Delimits rest) {s s' : List Char}
    {f : Option (List Char)} (read : fraction? s = some (f, s')) :
    fraction? (s ++ rest) = some (f, s' ++ rest) := by
  cases s with
  | nil =>
    cases read
    cases rest with
    | nil => rfl
    | cons c rest => rcases ends c rfl with rfl | rfl <;> rfl
  | cons c s =>
    by_cases point : c = '.'
    · subst point
      rw [List.cons_append]
      simp only [fraction?, spanDigits_append ends] at read ⊢
      rcases h : Number.spanDigits s with ⟨digits, after⟩
      rw [h] at read
      cases digits with
      | nil => cases read
      | cons d digits =>
        cases read
        rfl
    · have none (t : List Char) : fraction? (c :: t) = some (none, c :: t) := by
        rw [fraction?]
        exact fun _ same => point (List.cons.inj same).1
      rw [none] at read
      cases read
      exact none _

theorem takeSign_append (rest : List Char) {s : List Char} (some_ : s ≠ []) :
    Number.takeSign (s ++ rest) = ((Number.takeSign s).1, (Number.takeSign s).2 ++ rest) := by
  obtain ⟨c, s, rfl⟩ := List.exists_cons_of_ne_nil some_
  rw [List.cons_append]
  by_cases minus : c = '-'
  · subst minus
    rfl
  by_cases plus : c = '+'
  · subst plus
    rfl
  have none (t : List Char) : Number.takeSign (c :: t) = (false, c :: t) := by
    rw [Number.takeSign]
    · exact fun _ same => minus (List.cons.inj same).1
    · exact fun _ same => plus (List.cons.inj same).1
  rw [none, none]
  rfl

theorem exponent?_append {rest : List Char} (ends : Delimits rest) {s s' : List Char}
    {e : Option Int} (read : exponent? s = some (e, s')) :
    exponent? (s ++ rest) = some (e, s' ++ rest) := by
  cases s with
  | nil =>
    cases read
    cases rest with
    | nil => rfl
    | cons c rest => rcases ends c rfl with rfl | rfl <;> rfl
  | cons c s =>
    rw [List.cons_append]
    simp only [exponent?] at read ⊢
    split at read
    · next mark =>
      have some_ : s ≠ [] := by
        rintro rfl
        cases read
      rw [if_pos mark, takeSign_append rest some_]
      rcases sign : Number.takeSign s with ⟨negative, t⟩
      rw [sign] at read
      simp only [spanDigits_append ends] at read ⊢
      rcases h : Number.spanDigits t with ⟨digits, after⟩
      rw [h] at read
      cases digits with
      | nil => cases read
      | cons d digits =>
        cases read
        rfl
    · next other =>
      rw [if_neg other]
      cases read
      rfl

/-- A number from behind its sign. -/
def unsigned? (negative : Bool) (s : List Char) : Option (Option JsonNumber × List Char) :=
  let (whole, rest) := Number.spanDigits s
  if whole.isEmpty || (whole.head? == some '0' && whole.length != 1) then none
  else do
    let (fraction, rest) ← fraction? rest
    let (exponent, rest) ← exponent? rest
    return (numberOfParts? negative whole fraction exponent, rest)

theorem number?_cons (c : Char) (s : List Char) :
    number? (c :: s) = if c = '-' then unsigned? true s else unsigned? false (c :: s) := by
  split_ifs with minus
  · subst minus
    rfl
  · rw [number?]
    · rfl
    · exact fun _ same => minus (List.cons.inj same).1

theorem unsigned?_append {rest : List Char} (ends : Delimits rest) {negative : Bool}
    {s s' : List Char} {n : Option JsonNumber} (read : unsigned? negative s = some (n, s')) :
    unsigned? negative (s ++ rest) = some (n, s' ++ rest) := by
  simp only [unsigned?, spanDigits_append ends] at read ⊢
  split at read
  · cases read
  · next shape =>
    rw [if_neg shape]
    simp only [Option.bind_eq_bind, Option.bind_eq_some_iff, Prod.exists] at read
    obtain ⟨fraction, s₁, first, exponent, s₂, second, same⟩ := read
    cases same
    rw [fraction?_append ends first]
    simp only [Option.bind_eq_bind, Option.bind_some, exponent?_append ends second]
    rfl

/-- A number is read alike before what may follow it. -/
theorem number?_append {rest : List Char} (ends : Delimits rest) {s s' : List Char}
    {n : Option JsonNumber} (read : number? s = some (n, s')) :
    number? (s ++ rest) = some (n, s' ++ rest) := by
  cases s with
  | nil => cases read
  | cons c s =>
    rw [number?_cons] at read
    rw [List.cons_append, number?_cons]
    split_ifs at read ⊢
    · exact unsigned?_append ends read
    · exact unsigned?_append ends read

/-! ## Texts -/

theorem joinPieces?_map (s joined : List Char) :
    joinPieces? (s.map Piece.char) joined = some (s.reverse ++ joined) := by
  induction s generalizing joined with
  | nil => rfl
  | cons c s ih =>
    rw [List.map_cons, joinPieces?, ih]
    simp

/-- A quoted text is read up to its closing quote. -/
theorem quotedText?_flatMap (s : String) (rest : List Char) :
    quotedText? (s.toList.flatMap escapeChar ++ '"' :: rest) = some (.text s, rest) := by
  have text : joinPieces? ((s.toList.map Piece.char).reverse) [] = some s.toList := by
    rw [← List.map_reverse, joinPieces?_map, List.reverse_reverse, List.append_nil]
  rw [quotedText?, pieces?_flatMap, List.append_nil, Option.map_some]
  simp only [text, Option.map_some, String.ofList_toList, Option.getD_some]

/-! ## White space -/

theorem skipSpace_lineBreak (level : Nat) (s : List Char) :
    skipSpace (lineBreak level ++ s) = skipSpace s := by
  have spaces (n : Nat) : (List.replicate n ' ' ++ s).dropWhile isSpace = s.dropWhile isSpace := by
    induction n with
    | zero => rfl
    | succ n ih => exact ih
  exact spaces _

theorem skipSpace_cons {c : Char} (mark : isSpace c = false) (s : List Char) :
    skipSpace (c :: s) = c :: s :=
  List.dropWhile_cons_of_neg (by simp [mark])

/-- White space before a value is skipped. -/
theorem value?_lineBreak (fuel levels level : Nat) (s : List Char) :
    value? fuel levels (lineBreak level ++ s) = value? fuel levels s := by
  cases fuel <;> simp only [value?, skipSpace_lineBreak]

theorem value?_space (fuel levels : Nat) (s : List Char) :
    value? fuel levels (' ' :: s) = value? fuel levels s := by
  cases fuel <;> rfl

theorem value?_eq_scalar? {c : Char} (mark : isSpace c = false) (list : c ≠ '[')
    (record : c ≠ '\x7b') (fuel levels : Nat) (s : List Char) :
    value? fuel levels (c :: s) = scalar? (c :: s) := by
  cases fuel with
  | zero => rw [value?, skipSpace_cons mark]
  | succ fuel =>
    rw [value?, skipSpace_cons mark]
    split
    · next same => exact absurd (List.cons.inj same).1 list
    · next same => exact absurd (List.cons.inj same).1 record
    · rfl

/-! ## Values -/

mutual

/-- How many lists and records of a value contain one another. -/
def depth : Json → Nat
  | .list items => depthItems items + 1
  | .record fields => depthFields fields + 1
  | _ => 0

def depthItems : List Json → Nat
  | [] => 0
  | item :: rest => max (depth item) (depthItems rest)

def depthFields : List (String × Json) → Nat
  | [] => 0
  | (_, value) :: rest => max (depth value) (depthFields rest)

end

mutual

def numbers : Json → List JsonNumber
  | .number n => [n]
  | .list items => numbersItems items
  | .record fields => numbersFields fields
  | _ => []

def numbersItems : List Json → List JsonNumber
  | [] => []
  | item :: rest => numbers item ++ numbersItems rest

def numbersFields : List (String × Json) → List JsonNumber
  | [] => []
  | (_, value) :: rest => numbers value ++ numbersFields rest

end

/-- The written form of a number is read as the number. -/
def ReadsBack (n : JsonNumber) : Prop := number? (numberChars n) = some (some n, [])

theorem scalar?_numberChars {n : JsonNumber} (back : ReadsBack n) {rest : List Char}
    (ends : Delimits rest) : scalar? (numberChars n ++ rest) = some (.number n, rest) := by
  have read := number?_append ends back
  obtain ⟨c, s, shape⟩ := List.exists_cons_of_ne_nil (numberChars_ne_nil n)
  have numeric := isNumberChar_numberChars n c (shape ▸ List.mem_cons_self)
  rw [shape, List.cons_append] at read ⊢
  rw [scalar?, read]
  · rfl
  all_goals
    intro _ same
    cases (List.cons.inj same).1
    cases numeric

/-- A written value begins with a mark that is neither white space nor a closing bracket. -/
theorem indentedChars_head (v : Json) (level : Nat) :
    ∃ c rest, v.indentedChars level = c :: rest ∧ isSpace c = false ∧ c ≠ ']' := by
  match v with
  | .null | .bool true | .bool false | .text _ | .list [] | .list (_ :: _) | .record []
  | .record (_ :: _) => exact ⟨_, _, rfl, rfl, by decide⟩
  | .number n =>
    obtain ⟨c, rest, shape⟩ := List.exists_cons_of_ne_nil (numberChars_ne_nil n)
    have numeric := isNumberChar_numberChars n c (shape ▸ List.mem_cons_self)
    refine ⟨c, rest, shape, ?_, ?_⟩
    · rw [Bool.eq_false_iff]
      intro space
      simp only [isSpace, Bool.or_eq_true, beq_iff_eq] at space
      rcases space with ((rfl | rfl) | rfl) | rfl <;> cases numeric
    · rintro rfl
      cases numeric

theorem delimits_comma (rest : List Char) : Delimits (',' :: rest) := by
  rintro _ ⟨⟩
  exact .inl rfl

theorem delimits_lineBreak (level : Nat) (rest : List Char) :
    Delimits (lineBreak level ++ rest) := by
  rintro _ ⟨⟩
  exact .inr rfl

theorem delimits_indentedItems (level level' : Nat) (items : List Json) (rest : List Char) :
    Delimits (indentedItems level items ++ (lineBreak level' ++ rest)) := by
  cases items with
  | nil => exact delimits_lineBreak _ _
  | cons => exact delimits_comma _

theorem delimits_indentedFields (level level' : Nat) (fields : List (String × Json))
    (rest : List Char) : Delimits (indentedFields level fields ++ (lineBreak level' ++ rest)) := by
  cases fields with
  | nil => exact delimits_lineBreak _ _
  | cons => exact delimits_comma _

theorem length_le_indentedItems (level : Nat) (items : List Json) :
    items.length ≤ (indentedItems level items).length := by
  induction items with
  | nil => exact Nat.le_refl 0
  | cons item rest ih =>
    simp only [indentedItems, List.length_cons, List.length_append]
    omega

theorem length_le_indentedFields (level : Nat) (fields : List (String × Json)) :
    fields.length ≤ (indentedFields level fields).length := by
  induction fields with
  | nil => exact Nat.le_refl 0
  | cons field rest ih =>
    simp only [indentedFields, List.length_cons, List.length_append]
    omega

/-- A list is written as a bracket, its items, each behind a mark, and a bracket. -/
theorem exists_indented_list (item : Json) (items : List Json) (level : Nat) (rest : List Char) :
    ∃ s, (Json.list (item :: items)).indentedChars level ++ rest = '[' :: s ∧
      indentedItems (level + 1) (item :: items) ++ (lineBreak level ++ ']' :: rest) = ',' :: s ∧
      (∀ rest', skipSpace s ≠ ']' :: rest') ∧ (item :: items).length ≤ s.length := by
  refine ⟨lineBreak (level + 1) ++ (item.indentedChars (level + 1) ++
    (indentedItems (level + 1) items ++ (lineBreak level ++ ']' :: rest))), ?_, ?_, ?_, ?_⟩
  · simp [indentedChars]
  · simp [indentedItems]
  · obtain ⟨c, t, head, mark, other⟩ := indentedChars_head item (level + 1)
    intro rest' same
    rw [skipSpace_lineBreak, head, List.cons_append, skipSpace_cons mark] at same
    exact other (List.cons.inj same).1
  · have items := length_le_indentedItems (level + 1) items
    simp only [List.length_append, List.length_cons]
    omega

theorem exists_indented_record (name : String) (value : Json) (fields : List (String × Json))
    (level : Nat) (rest : List Char) :
    ∃ s, (Json.record ((name, value) :: fields)).indentedChars level ++ rest = '\x7b' :: s ∧
      indentedFields (level + 1) ((name, value) :: fields) ++
        (lineBreak level ++ '\x7d' :: rest) = ',' :: s ∧
      (∀ rest', skipSpace s ≠ '\x7d' :: rest') ∧ ((name, value) :: fields).length ≤ s.length := by
  refine ⟨lineBreak (level + 1) ++ (quoted name ++ (':' :: ' ' :: value.indentedChars (level + 1) ++
    (indentedFields (level + 1) fields ++ (lineBreak level ++ '\x7d' :: rest)))), ?_, ?_, ?_, ?_⟩
  · simp [indentedChars]
  · simp [indentedFields]
  · intro rest' same
    rw [skipSpace_lineBreak, quoted, List.cons_append, List.cons_append, skipSpace_cons rfl] at same
    cases same
  · have fields := length_le_indentedFields (level + 1) fields
    simp only [List.length_append, List.length_cons]
    omega

mutual

/-- A written value is read back together with what follows. -/
theorem value?_indentedChars : ∀ (v : Json) (level : Nat) {fuel levels : Nat} {rest : List Char},
    v.depth ≤ fuel → v.depth ≤ levels → (∀ n ∈ v.numbers, ReadsBack n) → Delimits rest →
    value? fuel levels (v.indentedChars level ++ rest) = some (Document.ofJson v, rest)
  | .null, _, fuel, levels, rest, _, _, _, _ =>
    value?_eq_scalar? rfl (by decide) (by decide) fuel levels _
  | .bool true, _, fuel, levels, rest, _, _, _, _ =>
    value?_eq_scalar? rfl (by decide) (by decide) fuel levels _
  | .bool false, _, fuel, levels, rest, _, _, _, _ =>
    value?_eq_scalar? rfl (by decide) (by decide) fuel levels _
  | .text s, _, fuel, levels, rest, _, _, _, _ => by
    rw [indentedChars, quoted, List.append_assoc, List.cons_append,
      value?_eq_scalar? rfl (by decide) (by decide)]
    exact quotedText?_flatMap s rest
  | .number n, level, fuel, levels, rest, _, _, back, ends => by
    obtain ⟨c, s, shape, mark, -⟩ := indentedChars_head (.number n) level
    have numeric := isNumberChar_numberChars n c
    rw [indentedChars] at shape ⊢
    have read := scalar?_numberChars (back n List.mem_cons_self) ends
    rw [shape, List.cons_append] at read ⊢
    have member := numeric (shape ▸ List.mem_cons_self)
    rw [value?_eq_scalar? mark _ _, read]
    · rfl
    · rintro rfl
      cases member
    · rintro rfl
      cases member
  | .list [], _, fuel + 1, levels + 1, rest, _, _, _, _ => rfl
  | .record [], _, fuel + 1, levels + 1, rest, _, _, _, _ => rfl
  | .list (item :: items), level, fuel + 1, levels + 1, rest, deep, shallow, back, _ => by
    obtain ⟨s, written, shape, head, tail⟩ := exists_indented_list item items level rest
    have read := items?_indentedItems (item :: items) (level + 1) level (s := s) s.length []
      (Nat.le_of_succ_le_succ deep) (Nat.le_of_succ_le_succ shallow) back tail shape
    rw [written, value?, skipSpace_cons rfl]
    simp only [Nat.add_one_ne_zero, if_false, Nat.add_sub_cancel, read]
    rfl
  | .record ((name, value) :: fields), level, fuel + 1, levels + 1, rest, deep, shallow, back,
      _ => by
    obtain ⟨s, written, shape, head, tail⟩ := exists_indented_record name value fields level rest
    have read := fields?_indentedFields ((name, value) :: fields) (level + 1) level (s := s)
      s.length [] (Nat.le_of_succ_le_succ deep) (Nat.le_of_succ_le_succ shallow) back tail shape
    rw [written, value?, skipSpace_cons rfl]
    simp only [Nat.add_one_ne_zero, if_false, Nat.add_sub_cancel, read]
    rfl

/-- The items of a list are read up to the bracket. -/
theorem items?_indentedItems : ∀ (items : List Json) (level level' : Nat) {fuel levels : Nat}
    {rest s : List Char} (count : Nat) (done : List Document),
    depthItems items ≤ fuel → depthItems items ≤ levels →
    (∀ n ∈ numbersItems items, ReadsBack n) → items.length ≤ count →
    indentedItems level items ++ (lineBreak level' ++ ']' :: rest) = ',' :: s →
    items? (value? fuel levels) count done s =
      some (done.reverse ++ Document.ofItems items, rest)
  | [], _, _, _, _, _, _, _, _, _, _, _, _, shape => nomatch shape
  | item :: items, level, level', fuel, levels, rest, s, count + 1, done, deep, shallow, back,
      enough, shape => by
    obtain ⟨deep, deeper⟩ := Nat.max_le.1 deep
    obtain ⟨shallow, shallower⟩ := Nat.max_le.1 shallow
    have read := value?_indentedChars item level deep shallow
      (fun n mem => back n (List.mem_append_left _ mem))
      (delimits_indentedItems level level' items (']' :: rest))
    obtain rfl : s = lineBreak level ++ (item.indentedChars level ++
        (indentedItems level items ++ (lineBreak level' ++ ']' :: rest))) := by
      simpa [indentedItems] using (List.cons.inj shape).2.symm
    rw [items?, value?_lineBreak, read]
    cases items with
    | nil =>
      rw [indentedItems, List.nil_append]
      simp [skipSpace_lineBreak, skipSpace_cons, isSpace, Document.ofItems]
    | cons next items =>
      obtain ⟨s, shape'⟩ : ∃ s, indentedItems level (next :: items) ++
          (lineBreak level' ++ ']' :: rest) = ',' :: s := ⟨_, rfl⟩
      have later := items?_indentedItems (next :: items) level level' count
        (Document.ofJson item :: done) deeper shallower
        (fun n mem => back n (List.mem_append_right _ mem)) (Nat.le_of_succ_le_succ enough) shape'
      rw [shape']
      simp only [skipSpace_cons (c := ',') rfl, later]
      simp [Document.ofItems]

/-- The fields of a record are read up to the bracket. -/
theorem fields?_indentedFields : ∀ (fields : List (String × Json)) (level level' : Nat)
    {fuel levels : Nat} {rest s : List Char} (count : Nat) (done : List (Document × Document)),
    depthFields fields ≤ fuel → depthFields fields ≤ levels →
    (∀ n ∈ numbersFields fields, ReadsBack n) → fields.length ≤ count →
    indentedFields level fields ++ (lineBreak level' ++ '\x7d' :: rest) = ',' :: s →
    fields? (value? fuel levels) count done s =
      some (done.reverse ++ Document.ofFields fields, rest)
  | [], _, _, _, _, _, _, _, _, _, _, _, _, shape => nomatch shape
  | (name, value) :: fields, level, level', fuel, levels, rest, s, count + 1, done, deep, shallow,
      back, enough, shape => by
    obtain ⟨deep, deeper⟩ := Nat.max_le.1 deep
    obtain ⟨shallow, shallower⟩ := Nat.max_le.1 shallow
    have read := value?_indentedChars value level deep shallow
      (fun n mem => back n (List.mem_append_left _ mem))
      (delimits_indentedFields level level' fields ('\x7d' :: rest))
    have named := quotedText?_flatMap name (':' :: ' ' :: (value.indentedChars level ++
      (indentedFields level fields ++ (lineBreak level' ++ '\x7d' :: rest))))
    obtain rfl : s = lineBreak level ++ ('"' :: (name.toList.flatMap escapeChar ++ '"' :: ':' ::
        ' ' :: (value.indentedChars level ++
          (indentedFields level fields ++ (lineBreak level' ++ '\x7d' :: rest))))) := by
      simpa [indentedFields, quoted] using (List.cons.inj shape).2.symm
    rw [fields?, skipSpace_lineBreak, skipSpace_cons rfl]
    simp only [named, skipSpace_cons (c := ':') rfl, value?_space, read]
    cases fields with
    | nil =>
      rw [indentedFields, List.nil_append]
      simp [skipSpace_lineBreak, skipSpace_cons, isSpace, Document.ofFields]
    | cons next fields =>
      obtain ⟨s, shape'⟩ : ∃ s, indentedFields level (next :: fields) ++
          (lineBreak level' ++ '\x7d' :: rest) = ',' :: s := ⟨_, rfl⟩
      have later := fields?_indentedFields (next :: fields) level level' count
        ((.text name, Document.ofJson value) :: done) deeper shallower
        (fun n mem => back n (List.mem_append_right _ mem)) (Nat.le_of_succ_le_succ enough) shape'
      rw [shape']
      simp only [skipSpace_cons (c := ',') rfl, later]
      simp [Document.ofFields]

end

/-! ## Whole texts -/

mutual

theorem depth_le_length : ∀ (v : Json) (level : Nat), v.depth ≤ (v.indentedChars level).length
  | .null, _ | .bool _, _ | .number _, _ | .text _, _ => Nat.zero_le _
  | .list [], _ | .record [], _ => Nat.le_succ 1
  | .list (item :: items), level => by
    have first := depth_le_length item (level + 1)
    have others := depthItems_le_length items (level + 1)
    simp only [depth, depthItems, indentedChars, List.length_append, List.length_cons]
    omega
  | .record ((name, value) :: fields), level => by
    have first := depth_le_length value (level + 1)
    have others := depthFields_le_length fields (level + 1)
    simp only [depth, depthFields, indentedChars, List.length_append, List.length_cons]
    omega

theorem depthItems_le_length : ∀ (items : List Json) (level : Nat),
    depthItems items ≤ (indentedItems level items).length
  | [], _ => Nat.zero_le _
  | item :: items, level => by
    have first := depth_le_length item level
    have others := depthItems_le_length items level
    simp only [depthItems, indentedItems, List.length_append, List.length_cons]
    omega

theorem depthFields_le_length : ∀ (fields : List (String × Json)) (level : Nat),
    depthFields fields ≤ (indentedFields level fields).length
  | [], _ => Nat.zero_le _
  | (name, value) :: fields, level => by
    have first := depth_le_length value level
    have others := depthFields_le_length fields level
    simp only [depthFields, indentedFields, List.length_append, List.length_cons]
    omega

end

/-- A value that is nested to some levels at most and whose numbers are read back. -/
structure LegibleWithin (levels : Nat) (v : Json) : Prop where
  shallow : v.depth ≤ levels
  back : ∀ n ∈ v.numbers, ReadsBack n

namespace LegibleWithin

variable {levels : Nat}

theorem text (s : String) : LegibleWithin levels (.text s) := ⟨Nat.zero_le _, nofun⟩

theorem list {items : List Json} (h : ∀ item ∈ items, LegibleWithin levels item) :
    LegibleWithin (levels + 1) (.list items) := by
  have all : depthItems items ≤ levels ∧ ∀ n ∈ numbersItems items, ReadsBack n := by
    induction items with
    | nil => exact ⟨Nat.zero_le _, nofun⟩
    | cons item rest ih =>
      obtain ⟨shallow, back⟩ := h item List.mem_cons_self
      obtain ⟨others, backs⟩ := ih fun other mem => h other (List.mem_cons_of_mem _ mem)
      exact ⟨Nat.max_le.2 ⟨shallow, others⟩, fun n mem =>
        (List.mem_append.1 mem).elim (back n) (backs n)⟩
  exact ⟨Nat.succ_le_succ all.1, all.2⟩

theorem record {fields : List (String × Json)} (h : ∀ f ∈ fields, LegibleWithin levels f.2) :
    LegibleWithin (levels + 1) (.record fields) := by
  have all : depthFields fields ≤ levels ∧ ∀ n ∈ numbersFields fields, ReadsBack n := by
    induction fields with
    | nil => exact ⟨Nat.zero_le _, nofun⟩
    | cons field rest ih =>
      obtain ⟨shallow, back⟩ := h field List.mem_cons_self
      obtain ⟨others, backs⟩ := ih fun other mem => h other (List.mem_cons_of_mem _ mem)
      exact ⟨Nat.max_le.2 ⟨shallow, others⟩, fun n mem =>
        (List.mem_append.1 mem).elim (back n) (backs n)⟩
  exact ⟨Nat.succ_le_succ all.1, all.2⟩

theorem ofStrings (names : List String) : LegibleWithin (levels + 1) (.ofStrings names) := by
  refine list fun item mem => ?_
  obtain ⟨s, -, rfl⟩ := List.mem_map.1 mem
  exact text s

end LegibleWithin

/-! ## Natural numbers -/

theorem le_ofDigitChars (digits : List Char) (n : Nat) : n ≤ Nat.ofDigitChars 10 digits n := by
  induction digits generalizing n with
  | nil => exact Nat.le_refl n
  | cons c rest ih =>
    rw [Nat.ofDigitChars_cons]
    refine Nat.le_trans ?_ (ih _)
    omega

/-- Digits of a number of 64 bits all fit into the significand. -/
theorem appendDigits_of_le {digits : List Char} {n : Nat}
    (fits : Nat.ofDigitChars 10 digits n ≤ maxUnsigned) :
    appendDigits n digits = (Nat.ofDigitChars 10 digits n, 0) := by
  induction digits generalizing n with
  | nil => rfl
  | cons c rest ih =>
    rw [Nat.ofDigitChars_cons] at fits ⊢
    rw [appendDigits, if_pos (Nat.le_trans (le_ofDigitChars rest _) fits), ih fits]

/-- Only zero is written with a zero in front. -/
theorem head?_toDigits_ne {n : Nat} (nonzero : n ≠ 0) : (Nat.toDigits 10 n).head? ≠ some '0' := by
  induction n using Nat.strongRecOn with
  | ind n ih =>
    rcases Nat.lt_or_ge n 10 with digit | longer
    · rw [Nat.toDigits_of_lt_base digit]
      have all : ∀ n < 10, n ≠ 0 → [n.digitChar].head? ≠ some '0' := by decide
      exact all n digit nonzero
    · rw [Nat.toDigits_of_base_le (by decide) longer,
        List.head?_append_of_ne_nil _ Nat.toDigits_ne_nil]
      exact ih (n / 10) (by omega) (by omega)

/-- A number of 64 bits is read back as it was written. -/
theorem readsBack_natCast {n : Nat} (fits : n ≤ maxUnsigned) : ReadsBack (.integer n) := by
  have written : numberChars (.integer n) = Nat.toDigits 10 n := by
    rw [numberChars, integerChars, if_neg (by omega), Int.natAbs_natCast]
  have digits : Number.spanDigits (Nat.toDigits 10 n) = (Nat.toDigits 10 n, []) := by
    rw [Number.spanDigits, List.span_eq_takeWhile_dropWhile,
      List.takeWhile_eq_self_iff.2 (allDigits_toDigits n),
      List.dropWhile_eq_nil_iff.2 (allDigits_toDigits n)]
  have shape : ((Nat.toDigits 10 n).isEmpty || ((Nat.toDigits 10 n).head? == some '0' &&
      (Nat.toDigits 10 n).length != 1)) = false := by
    rw [List.isEmpty_eq_false_iff.2 Nat.toDigits_ne_nil, Bool.false_or]
    rcases eq_or_ne n 0 with rfl | nonzero
    · rfl
    · rw [beq_eq_false_iff_ne.2 (head?_toDigits_ne nonzero), Bool.false_and]
  have sum : Nat.ofDigitChars 10 (Nat.toDigits 10 n) 0 = n := Nat.ofDigitChars_ten_toDigits
  have read : unsigned? false (Nat.toDigits 10 n) = some (some (.integer n), []) := by
    simp only [unsigned?, digits, shape, Bool.false_eq_true, if_false]
    have parts : numberOfParts? false (Nat.toDigits 10 n) none none = some (.integer n) := by
      rw [numberOfParts?, appendDigits_of_le (by rw [sum]; exact fits), sum]
      rfl
    exact congrArg (fun n => some (n, [])) parts
  rw [ReadsBack, written]
  obtain ⟨c, rest, first⟩ := List.exists_cons_of_ne_nil (Nat.toDigits_ne_nil (b := 10) (n := n))
  rw [first, number?_cons, if_neg, ← first, read]
  rintro rfl
  exact absurd (allDigits_toDigits n '-' (first ▸ List.mem_cons_self)) (by decide)

theorem LegibleWithin.ofNat {levels n : Nat} (fits : n ≤ maxUnsigned) :
    LegibleWithin levels (.ofNat n) := by
  refine ⟨Nat.zero_le _, fun m mem => ?_⟩
  obtain rfl := List.mem_singleton.1 mem
  exact readsBack_natCast fits

/-! ## Documents -/

/-- The text of a legible value is cut into the parts of the value. -/
theorem document?_indented {v : Json} (legible : v.LegibleWithin maxDepth) :
    document? v.indented = some (Document.ofJson v) := by
  have read : value? (v.indentedChars 0).length maxDepth (v.indentedChars 0 ++ []) =
      some (Document.ofJson v, []) :=
    value?_indentedChars v 0 (depth_le_length v 0) legible.shallow legible.back nofun
  rw [List.append_nil] at read
  rw [document?, indented, String.toList_ofList, documentOfChars?, read]
  rfl

end Sweep.Json
