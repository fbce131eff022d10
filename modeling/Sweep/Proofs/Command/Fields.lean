import Sweep.Command.OutputLine
import Sweep.Proofs.Text.Blank

/-!
# The grammar of lines of values

A line consists of fields with commas between them. A field is a value between quotes, in which
every quote is written twice, with white space around the quotes; or it is a text without commas
that does not begin with a quote, white space aside. A line can be read exactly if it is written so,
white space around the line aside, and then it consists of its fields in one way only.
-/

namespace Sweep.OutputLine

open Text

/-! ## Fields -/

/-- A value with every quote in it written twice. -/
def double : List Char → List Char
  | [] => []
  | c :: s => if c = '"' then '"' :: '"' :: double s else c :: double s

structure QuotedField where
  before : List Char
  value : List Char
  after : List Char
  blankBefore : AllBlank before
  blankAfter : AllBlank after

/-- A text without commas that does not begin with a quote, white space aside. -/
structure RawField where
  text : List Char
  noComma : ',' ∉ text
  noQuote : (trimStart text).head? ≠ some '"'

inductive Field where
  | quoted (f : QuotedField)
  | raw (f : RawField)

namespace Field

def chars : Field → List Char
  | .quoted f => f.before ++ '"' :: (double f.value ++ '"' :: f.after)
  | .raw f => f.text

def value : Field → List Char
  | .quoted f => f.value
  | .raw f => trimChars f.text

end Field

/-- The text of fields with commas between them. -/
def written (fields : List Field) : List Char :=
  [','].intercalate (fields.map Field.chars)

/-- A text is that of some fields, of which there is at least one. -/
def Spells (fields : List Field) (s : List Char) : Prop :=
  fields ≠ [] ∧ written fields = s

/-- What follows a field: a comma, or nothing. -/
def AtComma (rest : List Char) : Prop := ∀ c ∈ rest.head?, c = ','

theorem atComma_nil : AtComma [] := nofun

theorem atComma_comma (s : List Char) : AtComma (',' :: s) :=
  fun _ first => (Option.some.inj first).symm

/-- What follows the first of some parts that have commas between them. -/
def others : List (List Char) → List Char
  | [] => []
  | part :: parts => ',' :: [','].intercalate (part :: parts)

theorem atComma_others (parts : List (List Char)) : AtComma (others parts) := by
  cases parts with
  | nil => exact atComma_nil
  | cons part parts => exact atComma_comma _

theorem intercalate_cons (part : List Char) (parts : List (List Char)) :
    [','].intercalate (part :: parts) = part ++ others parts := by
  cases parts with
  | nil => simp [others]
  | cons next parts => simp [others, List.intercalate_cons_cons]

theorem written_cons (f : Field) (fields : List Field) :
    written (f :: fields) = f.chars ++ others (fields.map Field.chars) :=
  intercalate_cons f.chars (fields.map Field.chars)

variable {s rest rest' value : List Char}

theorem AtComma.cases (ends : AtComma rest) : rest = [] ∨ ∃ s, rest = ',' :: s := by
  cases rest with
  | nil => exact .inl rfl
  | cons c s => exact .inr ⟨s, by rw [ends c rfl]⟩

/-- White space after a field is not part of what follows. -/
theorem AtComma.trimStart_append (ends : AtComma rest) {b : List Char} (blank : AllBlank b) :
    trimStart (b ++ rest) = rest := by
  rw [trimStart_append_of_blank blank]
  obtain rfl | ⟨s, rfl⟩ := ends.cases
  · rfl
  · exact trimStart_cons_of_not_blank (by decide) s

theorem AtComma.head?_ne_quote (ends : AtComma rest) {b : List Char} (blank : AllBlank b) :
    (b ++ rest).head? ≠ some '"' := by
  intro first
  cases b with
  | nil => exact absurd (ends '"' first) (by decide)
  | cons c b =>
    cases first
    exact absurd (blank '"' List.mem_cons_self) (by decide)

/-! ## The text between quotes -/

theorem quoted?_double (stop : rest.head? ≠ some '"') :
    quoted? (double value ++ '"' :: rest) = some (value, rest) := by
  induction value with
  | nil =>
    cases rest with
    | nil => simp [double, quoted?]
    | cons c rest =>
      have other : c ≠ '"' := fun h => stop (h ▸ rfl)
      rw [double, List.nil_append, quoted?.eq_3 _ _ (by rintro s - h; cases h; exact other rfl)]
      rfl
  | cons c value ih =>
    by_cases quote : c = '"'
    · subst quote
      simp [double, quoted?, ih]
    · rw [double, if_neg quote, List.cons_append,
        quoted?.eq_3 _ _ (by rintro s rfl; exact absurd rfl quote), if_neg quote, ih]
      rfl

theorem eq_double_of_quoted? (h : quoted? s = some (value, rest)) :
    s = double value ++ '"' :: rest ∧ rest.head? ≠ some '"' := by
  fun_induction quoted? s generalizing value rest with
  | case1 => cases h
  | case2 s ih =>
    obtain ⟨⟨text, after⟩, inside, pair⟩ := Option.map_eq_some_iff.1 h
    cases pair
    obtain ⟨rfl, stop⟩ := ih inside
    exact ⟨by simp [double], stop⟩
  | case3 s apart =>
    cases h
    refine ⟨rfl, ?_⟩
    intro first
    obtain ⟨t, rfl⟩ := List.head?_eq_some_iff.1 first
    exact apart t rfl rfl
  | case4 c s _ other ih =>
    obtain ⟨⟨text, after⟩, inside, pair⟩ := Option.map_eq_some_iff.1 h
    cases pair
    obtain ⟨rfl, stop⟩ := ih inside
    exact ⟨by simp [double, other], stop⟩

/-! ## The first field of a line -/

theorem field_quoted (f : QuotedField) (ends : AtComma rest) :
    field ((Field.quoted f).chars ++ rest) = .ok (f.value, rest) := by
  have start : trimStart ((Field.quoted f).chars ++ rest) =
      '"' :: (double f.value ++ '"' :: (f.after ++ rest)) := by
    rw [Field.chars, List.append_assoc, trimStart_append_of_blank f.blankBefore, List.cons_append,
      trimStart_cons_of_not_blank (by decide), List.append_assoc, List.cons_append]
  rw [field, start]
  simp only [quoted?_double (ends.head?_ne_quote f.blankAfter), ends.trimStart_append f.blankAfter]
  obtain rfl | ⟨s, rfl⟩ := ends.cases <;> rfl

/-- A text that does not begin with a quote is read up to its first comma. -/
theorem field_of_not_quote (stop : (trimStart s).head? ≠ some '"') :
    field s = .ok (trimChars ((trimStart s).takeWhile (· != ',')),
      (trimStart s).dropWhile (· != ',')) := by
  rw [field]
  split
  · next inside start => exact absurd (by rw [start]; rfl) stop
  · rfl

theorem takeWhile_dropWhile_of_atComma (noComma : ',' ∉ s) (ends : AtComma rest) :
    (s ++ rest).takeWhile (· != ',') = s ∧ (s ++ rest).dropWhile (· != ',') = rest := by
  have inside : ∀ c ∈ s, (c != ',') = true := fun c mem =>
    bne_iff_ne.2 fun h => noComma (h ▸ mem)
  rw [List.takeWhile_append_of_pos inside, List.dropWhile_append_of_pos inside]
  obtain rfl | ⟨t, rfl⟩ := ends.cases <;> simp

theorem field_raw (f : RawField) (ends : AtComma rest) :
    field ((Field.raw f).chars ++ rest) = .ok (trimChars f.text, rest) := by
  have noComma : ',' ∉ trimStart f.text := fun mem =>
    f.noComma ((List.dropWhile_sublist _).subset mem)
  -- White space only is removed up to the comma, so that nothing is left of the field.
  have start : trimStart (f.text ++ rest) = trimStart f.text ++ rest := by
    by_cases blank : trimStart f.text = []
    · rw [blank, ends.trimStart_append (List.dropWhile_eq_nil_iff.1 blank), List.nil_append]
    · exact trimStart_append blank rest
  obtain ⟨text, after⟩ := takeWhile_dropWhile_of_atComma noComma ends
  have stop : (trimStart f.text ++ rest).head? ≠ some '"' := by
    cases shape : trimStart f.text with
    | nil => exact ends.head?_ne_quote allBlank_nil
    | cons c t =>
      have first := f.noQuote
      rw [shape] at first
      exact first
  rw [Field.chars, field_of_not_quote (start ▸ stop), start, text, after, trimChars,
    trimStart_trimStart, trimChars]

/-- A field is read up to what follows it. -/
theorem field_chars (f : Field) (ends : AtComma rest) :
    field (f.chars ++ rest) = .ok (f.value, rest) := by
  cases f with
  | quoted f => exact field_quoted f ends
  | raw f => exact field_raw f ends

/-- What is read after a quote is a quoted field, white space aside. -/
theorem exists_of_field_quoted (quote : (trimStart s).head? = some '"')
    (h : field s = .ok (value, rest)) :
    ∃ f : QuotedField, s = (Field.quoted f).chars ++ rest ∧ f.value = value ∧ AtComma rest := by
  obtain ⟨before, blank, split⟩ := exists_append_trimStart s
  obtain ⟨inside, start⟩ := List.head?_eq_some_iff.1 quote
  rw [field, start] at h
  simp only at h
  split at h
  · cases h
  next text behind closed =>
  obtain ⟨rfl, -⟩ := eq_double_of_quoted? closed
  obtain ⟨after, blank', split'⟩ := exists_append_trimStart behind
  have whole : s = (Field.quoted ⟨before, text, after, blank, blank'⟩).chars ++
      trimStart behind := by
    rw [Field.chars, List.append_assoc, List.cons_append, List.append_assoc, List.cons_append,
      ← split', ← start, ← split]
  split at h
  · next nothing =>
    rw [nothing] at whole
    cases h
    exact ⟨_, whole, rfl, atComma_nil⟩
  next c t shape =>
  rw [shape] at whole
  split at h
  · next comma =>
    cases h
    exact ⟨_, whole, rfl, comma ▸ atComma_comma t⟩
  · cases h

/-- What is read where there is no quote is a raw field. -/
theorem exists_of_field_raw (stop : (trimStart s).head? ≠ some '"')
    (h : field s = .ok (value, rest)) :
    ∃ f : RawField, s = (Field.raw f).chars ++ rest ∧ trimChars f.text = value ∧
      AtComma rest := by
  obtain ⟨before, blank, split⟩ := exists_append_trimStart s
  rw [field_of_not_quote stop] at h
  obtain ⟨rfl, rfl⟩ := Prod.mk.inj (Except.ok.inj h)
  let text := (trimStart s).takeWhile (· != ',')
  have noComma : ',' ∉ before ++ text := by
    intro mem
    rcases List.mem_append.1 mem with early | late
    · exact absurd (blank ',' early) (by decide)
    · simpa using List.mem_takeWhile_imp late
  have noQuote : (trimStart (before ++ text)).head? ≠ some '"' := by
    rw [trimStart_append_of_blank blank]
    cases shape : trimStart s with
    | nil => simp [text, shape]
    | cons c t =>
      have visible := isBlank_of_trimStart_eq shape
      rw [shape] at stop
      by_cases comma : c = ','
      · simp [text, shape, comma]
      · rw [show text = c :: t.takeWhile (· != ',') by simp [text, shape, comma],
          trimStart_cons_of_not_blank visible]
        exact stop
  refine ⟨⟨before ++ text, noComma, noQuote⟩, ?_, ?_, ?_⟩
  · rw [Field.chars, List.append_assoc, List.takeWhile_append_dropWhile, ← split]
  · rw [trimChars, trimStart_append_of_blank blank, trimChars]
  · intro c first
    have comma := List.head?_dropWhile_not (· != ',') (trimStart s)
    rw [first] at comma
    simpa using comma

/-- What is read as a field is the text of one. -/
theorem exists_of_field (h : field s = .ok (value, rest)) :
    ∃ f : Field, s = f.chars ++ rest ∧ f.value = value ∧ AtComma rest := by
  by_cases quote : (trimStart s).head? = some '"'
  · obtain ⟨f, found⟩ := exists_of_field_quoted quote h
    exact ⟨.quoted f, found⟩
  · obtain ⟨f, found⟩ := exists_of_field_raw quote h
    exact ⟨.raw f, found⟩

/-- White space ends at a visible character in one way only. -/
theorem blank_append_inj {b b' : List Char} {c : Char} (blank : AllBlank b)
    (blank' : AllBlank b') (visible : isBlank c = false)
    (same : b ++ c :: s = b' ++ c :: rest) : b = b' ∧ s = rest := by
  have front := congrArg (List.takeWhile isBlank) same
  rw [List.takeWhile_append_of_pos blank, List.takeWhile_append_of_pos blank',
    List.takeWhile_cons_of_neg (by simp [visible]),
    List.takeWhile_cons_of_neg (by simp [visible]), List.append_nil, List.append_nil] at front
  subst front
  exact ⟨rfl, (List.cons.inj (List.append_cancel_left same)).2⟩

/-- A quoted field is not written like a raw one. -/
theorem chars_quoted_ne_raw (f : QuotedField) (g : RawField) :
    (Field.quoted f).chars ≠ (Field.raw g).chars := by
  intro same
  apply g.noQuote
  rw [Field.chars, Field.chars] at same
  rw [← same, trimStart_append_of_blank f.blankBefore, trimStart_cons_of_not_blank (by decide)]
  rfl

theorem quotedField_inj {f g : QuotedField} (value : f.value = g.value)
    (same : (Field.quoted f).chars = (Field.quoted g).chars) : f = g := by
  obtain ⟨before, within, after, blank, _⟩ := f
  obtain ⟨before', within', after', blank', _⟩ := g
  obtain rfl : within = within' := value
  obtain ⟨rfl, inside⟩ := blank_append_inj blank blank' (by decide) same
  obtain rfl : after = after' := (List.cons.inj (List.append_cancel_left inside)).2
  rfl

/-- A text is that of a field in one way only, up to a comma. -/
theorem field_unique {f g : Field} (ends : AtComma rest) (ends' : AtComma rest')
    (same : f.chars ++ rest = g.chars ++ rest') : f = g ∧ rest = rest' := by
  have read := field_chars f ends
  rw [same, field_chars g ends'] at read
  obtain ⟨value, rfl⟩ := Prod.mk.inj (Except.ok.inj read)
  have same := List.append_cancel_right same
  refine ⟨?_, rfl⟩
  cases f with
  | quoted f =>
    cases g with
    | quoted g => rw [quotedField_inj value.symm same]
    | raw g => exact absurd same (chars_quoted_ne_raw f g)
  | raw f =>
    cases g with
    | quoted g => exact absurd same.symm (chars_quoted_ne_raw g f)
    | raw g =>
      obtain ⟨text, _, _⟩ := f
      obtain rfl : text = g.text := same
      rfl

/-! ## Whole lines -/

theorem values_of_last (h : field s = .ok (value, [])) : values s = .ok [value] := by
  rw [values]
  split <;> simp_all

theorem values_of_more {c : Char} (h : field s = .ok (value, c :: rest)) :
    values s = (values rest).map (value :: ·) := by
  rw [values]
  split <;> simp_all

theorem values_written (f : Field) (fields : List Field) :
    values (written (f :: fields)) = .ok ((f :: fields).map Field.value) := by
  induction fields generalizing f with
  | nil =>
    rw [written_cons]
    exact values_of_last (field_chars f atComma_nil)
  | cons g fields ih =>
    have read := field_chars f (atComma_others ((g :: fields).map Field.chars))
    rw [written_cons, values_of_more read]
    exact congrArg (Except.map (f.value :: ·)) (ih g)

/-- What is read as a line is the text of fields. -/
theorem exists_of_values {found : List (List Char)} (h : values s = .ok found) :
    ∃ fields, Spells fields s ∧ fields.map Field.value = found := by
  fun_induction values s generalizing found with
  | case1 => cases h
  | case2 s value read =>
    cases h
    obtain ⟨f, rfl, rfl, -⟩ := exists_of_field read
    exact ⟨[f], ⟨List.cons_ne_nil _ _, by rw [written_cons]; rfl⟩, rfl⟩
  | case3 s value c rest read ih =>
    obtain ⟨f, rfl, rfl, ends⟩ := exists_of_field read
    obtain rfl : c = ',' := ends c rfl
    cases more : values rest with
    | error e => rw [more] at h; cases h
    | ok values =>
      rw [more] at h
      cases h
      obtain ⟨fields, ⟨some, rfl⟩, rfl⟩ := ih more
      obtain ⟨g, fields, rfl⟩ := List.exists_cons_of_ne_nil some
      exact ⟨f :: g :: fields, ⟨List.cons_ne_nil _ _, written_cons f (g :: fields)⟩, rfl⟩

theorem values_eq_ok_iff {found : List (List Char)} :
    values s = .ok found ↔ ∃ fields, Spells fields s ∧ fields.map Field.value = found := by
  refine ⟨exists_of_values, ?_⟩
  rintro ⟨fields, ⟨some, rfl⟩, rfl⟩
  obtain ⟨f, fields, rfl⟩ := List.exists_cons_of_ne_nil some
  exact values_written f fields

/-- A text is that of fields in one way only. -/
theorem spells_unique {fields fields' : List Field} (h : Spells fields s)
    (h' : Spells fields' s) : fields = fields' := by
  obtain ⟨some, spelt⟩ := h
  obtain ⟨some', spelt'⟩ := h'
  have same : written fields = written fields' := spelt.trans spelt'.symm
  clear spelt spelt'
  induction fields generalizing fields' with
  | nil => exact absurd rfl some
  | cons f fields ih =>
    obtain ⟨g, fields', rfl⟩ := List.exists_cons_of_ne_nil some'
    rw [written_cons, written_cons] at same
    obtain ⟨rfl, others⟩ := field_unique (atComma_others _) (atComma_others _) same
    cases fields with
    | nil =>
      cases fields' with
      | nil => rfl
      | cons => cases others
    | cons =>
      cases fields' with
      | nil => cases others
      | cons =>
        rw [ih (List.cons_ne_nil _ _) (List.cons_ne_nil _ _) (List.cons.inj others).2]

/-! ## White space around a line -/

/-- The white space before the first of some quoted fields can be left out. -/
theorem trimStart_written (f : QuotedField) (fields : List Field) :
    trimStart (written (.quoted f :: fields)) =
      written (.quoted { f with before := [], blankBefore := allBlank_nil } :: fields) := by
  rw [written_cons, written_cons, Field.chars, List.append_assoc,
    trimStart_append_of_blank f.blankBefore, List.cons_append,
    trimStart_cons_of_not_blank (by decide)]
  rfl

/-- The white space behind the last of some quoted fields can be left out. -/
theorem exists_trimEnd_written (f : QuotedField) (fields : List QuotedField) :
    ∃ g gs, trimEnd (written ((f :: fields).map .quoted)) = written ((g :: gs).map .quoted) ∧
      (g :: gs).map QuotedField.value = (f :: fields).map QuotedField.value := by
  induction fields generalizing f with
  | nil =>
    refine ⟨{ f with after := [], blankAfter := allBlank_nil }, [], ?_, rfl⟩
    simp only [List.map_cons, List.map_nil, written_cons, others, List.append_nil, Field.chars]
    rw [trimEnd_append_cons (by decide), ← List.cons_append, trimEnd_append_cons (by decide),
      trimEnd_of_blank f.blankAfter]
    rfl
  | cons f' fields ih =>
    obtain ⟨g, gs, trimmed, same⟩ := ih f'
    refine ⟨f, g :: gs, ?_, congrArg (f.value :: ·) same⟩
    simp only [List.map_cons] at trimmed ⊢
    calc trimEnd (written (.quoted f :: .quoted f' :: fields.map .quoted))
        = (Field.quoted f).chars ++ ',' ::
            trimEnd (written (.quoted f' :: fields.map .quoted)) := by
          rw [written_cons]
          exact trimEnd_append_cons (by decide) _ _
      _ = written (.quoted f :: .quoted g :: gs.map .quoted) := by
          rw [trimmed, written_cons (.quoted f)]
          rfl

/-- White space around a line of quoted fields belongs to its fields. -/
theorem values_trimChars_written (f : QuotedField) (fields : List QuotedField) :
    values (trimChars (written ((f :: fields).map .quoted))) =
      .ok ((f :: fields).map QuotedField.value) := by
  let first : QuotedField := { f with before := [], blankBefore := allBlank_nil }
  obtain ⟨g, gs, trimmed, same⟩ := exists_trimEnd_written first fields
  have start : trimStart (written ((f :: fields).map .quoted)) =
      written ((first :: fields).map .quoted) := trimStart_written f (fields.map .quoted)
  rw [trimChars, start, trimmed, List.map_cons, values_written, ← List.map_cons, List.map_map]
  exact congrArg Except.ok same

theorem parse_eq_ok_iff_values {line : String} {found : List String} :
    parse line = .ok found ↔
      ∃ texts, values (trimChars line.toList) = .ok texts ∧ texts.map String.ofList = found := by
  rw [parse]
  cases values (trimChars line.toList) <;> simp [Except.map]

def fieldValues (fields : List Field) : List String :=
  fields.map fun f => String.ofList f.value

theorem map_ofList_value (fields : List Field) :
    (fields.map Field.value).map String.ofList = fieldValues fields := List.map_map

/-- Reading a line accepts exactly the lines of the grammar and gives the values of their fields. A
text is that of fields in one way only. So values that are written between quotes, with every quote
in them written twice and any white space around, are read back, whatever they hold. -/
theorem parse_grammar :
    (∀ (line : String) (found : List String), parse line = .ok found ↔
      ∃ fields, Spells fields (trimChars line.toList) ∧ fieldValues fields = found) ∧
    (∀ (s : List Char) (fields fields' : List Field),
      Spells fields s → Spells fields' s → fields = fields') ∧
    ∀ fields : List QuotedField, fields ≠ [] →
      parse (String.ofList (written (fields.map .quoted))) =
        .ok (fields.map fun f => String.ofList f.value) := by
  refine ⟨fun line found => ?_, fun s fields fields' => spells_unique, fun fields some => ?_⟩
  · rw [parse_eq_ok_iff_values]
    constructor
    · rintro ⟨texts, read, rfl⟩
      obtain ⟨fields, spelt, rfl⟩ := exists_of_values read
      exact ⟨fields, spelt, (map_ofList_value fields).symm⟩
    · rintro ⟨fields, spelt, rfl⟩
      exact ⟨_, values_eq_ok_iff.2 ⟨fields, spelt, rfl⟩, map_ofList_value fields⟩
  · obtain ⟨f, fields, rfl⟩ := List.exists_cons_of_ne_nil some
    rw [parse_eq_ok_iff_values, String.toList_ofList]
    exact ⟨_, values_trimChars_written f fields, List.map_map⟩

/-- The line ` "a,""b" , c d ,` has a quoted field, a raw one, and a raw one that is empty. -/
theorem parse_grammar_mixed :
    let quoted : QuotedField := ⟨[' '], ['a', ',', '"', 'b'], [' '], by decide, by decide⟩
    let raw : RawField := ⟨[' ', 'c', ' ', 'd', ' '], by decide, by decide⟩
    let empty : RawField := ⟨[], by decide, by decide⟩
    let trimmed : QuotedField := { quoted with before := [], blankBefore := allBlank_nil }
    let fields : List Field := [.quoted trimmed, .raw raw, .raw empty]
    Spells fields (trimChars " \"a,\"\"b\" , c d ,".toList) ∧
      parse " \"a,\"\"b\" , c d ," = .ok ["a,\"b", "c d", ""] ∧
      (∀ fields', Spells fields' (trimChars " \"a,\"\"b\" , c d ,".toList) →
        fields' = fields) ∧
      [quoted, quoted] ≠ [] ∧
      parse " \"a,\"\"b\" , \"a,\"\"b\" " = .ok ["a,\"b", "a,\"b"] := by
  intro quoted raw empty trimmed fields
  obtain ⟨reads, unique, padded⟩ := parse_grammar
  have spelt : Spells fields (trimChars " \"a,\"\"b\" , c d ,".toList) :=
    ⟨List.cons_ne_nil _ _, by decide +kernel⟩
  have line : String.ofList (written ([quoted, quoted].map .quoted)) =
      " \"a,\"\"b\" , \"a,\"\"b\" " := by decide +kernel
  refine ⟨spelt, (reads _ _).2 ⟨fields, spelt, by decide +kernel⟩,
    fun fields' spelt' => unique _ _ _ spelt' spelt, List.cons_ne_nil _ _, ?_⟩
  rw [← line]
  exact padded [quoted, quoted] (List.cons_ne_nil _ _)

end Sweep.OutputLine
