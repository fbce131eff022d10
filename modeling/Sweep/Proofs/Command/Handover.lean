import Sweep.Command.Basic
import Sweep.Proofs.Command.Fields

/-!
# Values that are handed on

The input values of a task are put between quotes, but a quote in a value is not written twice, and
a value that looks quoted is not put between quotes again. So they are read back from the argument
exactly if there is no quote in any of them: the first value with a quote is read as another one, or
not at all.
-/

namespace Sweep.OutputLine

open Text

variable {s rest rest' value : List Char}

def joined (values : List (List Char)) : List Char :=
  [','].intercalate (values.map quote)

theorem toList_join (values : List String) :
    (join values).toList = joined (values.map String.toList) := by
  rw [join, String.toList_intercalate, List.map_map, joined, List.map_map]
  congr 1
  simp [Function.comp_def]

theorem joined_cons (value : List Char) (values : List (List Char)) :
    joined (value :: values) = quote value ++ others (values.map quote) :=
  intercalate_cons (quote value) (values.map quote)

theorem looksQuoted_eq_true (h : looksQuoted value = true) :
    (∃ s, value = '"' :: s) ∧ ∃ s, value = s ++ ['"'] := by
  simp only [looksQuoted, Bool.and_eq_true, beq_iff_eq] at h
  obtain ⟨⟨-, first⟩, last⟩ := h
  exact ⟨List.head?_eq_some_iff.1 first, List.getLast?_eq_some_iff.1 last⟩

theorem quote_of_not_looksQuoted (h : looksQuoted value = false) :
    quote value = '"' :: (value ++ ['"']) := by
  rw [quote, if_neg (by simp [h])]
  rfl

/-- However a value looks, it is handed on with a quote at its start and one at its end. -/
theorem quote_ends (value : List Char) :
    (∃ s, quote value = '"' :: s) ∧ ∃ s, quote value = s ++ ['"'] := by
  cases looks : looksQuoted value with
  | true =>
    rw [quote, if_pos looks]
    exact looksQuoted_eq_true looks
  | false =>
    rw [quote_of_not_looksQuoted looks]
    exact ⟨⟨_, rfl⟩, '"' :: value, rfl⟩

theorem joined_ends (value : List Char) (values : List (List Char)) :
    (∃ s, joined (value :: values) = '"' :: s) ∧ ∃ s, joined (value :: values) = s ++ ['"'] := by
  constructor
  · obtain ⟨⟨s, start⟩, -⟩ := quote_ends value
    exact ⟨s ++ others (values.map quote), by rw [joined_cons, start, List.cons_append]⟩
  · induction values generalizing value with
    | nil =>
      obtain ⟨-, s, stop⟩ := quote_ends value
      exact ⟨s, by rw [joined_cons, stop]; simp [others]⟩
    | cons next values ih =>
      obtain ⟨s, stop⟩ := ih next
      refine ⟨quote value ++ ',' :: s, ?_⟩
      rw [joined_cons, List.append_assoc, List.cons_append, ← stop]
      rfl

/-- There is no white space around values that are handed on. -/
theorem trimChars_joined (value : List Char) (values : List (List Char)) :
    trimChars (joined (value :: values)) = joined (value :: values) := by
  obtain ⟨⟨s, start⟩, t, stop⟩ := joined_ends value values
  have visible : isBlank '"' = false := by decide
  rw [trimChars, start, trimStart_cons_of_not_blank visible, ← start, stop,
    trimEnd_concat_of_not_blank visible]

/-! ## Values without quotes -/

theorem double_of_not_mem (free : '"' ∉ value) : double value = value := by
  induction value with
  | nil => rfl
  | cons c s ih =>
    have other : c ≠ '"' := by
      rintro rfl
      exact free List.mem_cons_self
    rw [double, if_neg other, ih fun mem => free (List.mem_cons_of_mem c mem)]

def plainField (value : List Char) : QuotedField := ⟨[], value, [], allBlank_nil, allBlank_nil⟩

theorem quote_of_not_mem (free : '"' ∉ value) :
    quote value = (Field.quoted (plainField value)).chars := by
  have looks : looksQuoted value = false := by
    refine Bool.eq_false_iff.2 fun h => ?_
    obtain ⟨⟨s, rfl⟩, -⟩ := looksQuoted_eq_true h
    exact free List.mem_cons_self
  rw [quote_of_not_looksQuoted looks, Field.chars, plainField, double_of_not_mem free]
  rfl

/-- Values without quotes are read back. -/
theorem values_joined (first : List Char) (more : List (List Char))
    (free : ∀ v ∈ first :: more, '"' ∉ v) :
    values (joined (first :: more)) = .ok (first :: more) := by
  let field (v : List Char) : Field := .quoted (plainField v)
  have spelt : joined (first :: more) = written (field first :: more.map field) := by
    rw [← List.map_cons, joined, written, List.map_map]
    congr 1
    exact List.map_congr_left fun v mem => quote_of_not_mem (free v mem)
  rw [spelt, values_written, ← List.map_cons, List.map_map]
  exact congrArg Except.ok (List.map_id _)

/-! ## Values with quotes -/

/-- If a value can be read as having more quotes at its start than there are, what follows it begins
with two quotes: each quote of the value has to be found twice, so the lead never gets smaller. -/
theorem pair_follows {s more : List Char} (lead : Nat)
    (same : List.replicate (lead + 1) '"' ++ (double value ++ '"' :: s) = value ++ more) :
    ∃ t, more = '"' :: '"' :: t := by
  induction value generalizing lead with
  | nil =>
    rw [double, List.nil_append, List.nil_append, List.replicate_succ, List.cons_append] at same
    cases lead with
    | zero => exact ⟨s, same.symm⟩
    | succ lead => exact ⟨_, same.symm⟩
  | cons c value ih =>
    rw [List.replicate_succ, List.cons_append, List.cons_append] at same
    obtain ⟨rfl, same⟩ := List.cons.inj same
    apply ih (lead + 1)
    rw [← same, double, if_pos rfl, List.replicate_succ', List.replicate_succ']
    simp

/-- A value with a quote is read back only if two quotes follow it. -/
theorem pair_follows_of_mem {s more : List Char} (mem : '"' ∈ value)
    (same : double value ++ '"' :: s = value ++ more) : ∃ t, more = '"' :: '"' :: t := by
  induction value with
  | nil => cases mem
  | cons c value ih =>
    rw [double] at same
    split at same
    · next quote =>
      subst quote
      exact pair_follows 0 (List.cons.inj same).2
    · next other =>
      have mem : '"' ∈ value := (List.mem_cons.1 mem).resolve_left fun h => other h.symm
      exact ih mem (List.cons.inj same).2

theorem AtComma.ne_quote (ends : AtComma rest) (t : List Char) : rest ≠ '"' :: t := by
  rintro rfl
  exact absurd (ends '"' rfl) (by decide)

/-- What is read after a quote at the very start of a line. -/
theorem split_of_field_quote (h : field ('"' :: s) = .ok (value, rest)) :
    ∃ after, AllBlank after ∧ s = double value ++ '"' :: (after ++ rest) := by
  have start : trimStart ('"' :: s) = '"' :: s := trimStart_cons_of_not_blank (by decide) s
  obtain ⟨f, split, rfl, -⟩ := exists_of_field_quoted (by rw [start]; rfl) h
  rw [Field.chars, List.append_assoc, List.cons_append, List.append_assoc,
    List.cons_append] at split
  obtain ⟨-, inside⟩ := blank_append_inj allBlank_nil f.blankBefore (by decide) split
  exact ⟨f.after, f.blankAfter, inside⟩

/-- A value that is read back has no quotes, and all of it is read. -/
theorem not_mem_of_read (ends : AtComma rest) (ends' : AtComma rest')
    (read : field (quote value ++ rest) = .ok (value, rest')) : '"' ∉ value ∧ rest = rest' := by
  cases looks : looksQuoted value with
  | true =>
    obtain ⟨⟨s, rfl⟩, -⟩ := looksQuoted_eq_true looks
    rw [quote, if_pos looks, List.cons_append] at read
    obtain ⟨after, -, split⟩ := split_of_field_quote read
    have same : List.replicate (0 + 1) '"' ++ (double ('"' :: s) ++ '"' :: (after ++ rest')) =
        ('"' :: s) ++ rest := congrArg ('"' :: ·) split.symm
    obtain ⟨t, pair⟩ := pair_follows 0 same
    exact absurd pair (ends.ne_quote _)
  | false =>
    rw [quote_of_not_looksQuoted looks, List.cons_append, List.append_assoc] at read
    obtain ⟨after, blank, split⟩ := split_of_field_quote read
    have free : '"' ∉ value := by
      intro mem
      obtain ⟨t, pair⟩ := pair_follows_of_mem mem split.symm
      exact ends.ne_quote t (List.cons.inj pair).2
    rw [double_of_not_mem free] at split
    have behind : rest = after ++ rest' := (List.cons.inj (List.append_cancel_left split)).2
    refine ⟨free, ?_⟩
    rw [← ends'.trimStart_append blank, ← behind]
    exact (ends.trimStart_append allBlank_nil).symm

/-- What is read back as it was handed on has no quotes. -/
theorem not_mem_of_spells {fields : List Field} {values : List (List Char)}
    (spelt : Spells fields (joined values)) (same : fields.map Field.value = values) :
    ∀ v ∈ values, '"' ∉ v := by
  subst same
  obtain ⟨nonempty, spelt⟩ := spelt
  induction fields with
  | nil => exact nofun
  | cons f fields ih =>
    rw [written_cons, List.map_cons, joined_cons] at spelt
    have read := field_chars f (atComma_others (fields.map Field.chars))
    rw [spelt] at read
    obtain ⟨free, behind⟩ := not_mem_of_read (atComma_others _) (atComma_others _) read
    rw [List.map_cons, List.forall_mem_cons]
    refine ⟨free, ?_⟩
    cases fields with
    | nil => exact nofun
    | cons g fields => exact ih (List.cons_ne_nil _ _) (List.cons.inj behind).2.symm

theorem values_joined_iff (first : List Char) (more : List (List Char)) :
    values (joined (first :: more)) = .ok (first :: more) ↔ ∀ v ∈ first :: more, '"' ∉ v := by
  refine ⟨fun read => ?_, values_joined first more⟩
  obtain ⟨fields, spelt, same⟩ := exists_of_values read
  exact not_mem_of_spells spelt same

/-- The last argument of a task holds its input values, and they are read back from it exactly if
none of them has a quote. -/
theorem read_handedOn_iff (parameters : ParameterSet) (inputs : List String)
    (nonempty : inputs ≠ []) :
    (Command.argumentsOf parameters inputs).getLast? = some (join inputs) ∧
      (parse (join inputs) = .ok inputs ↔ ∀ value ∈ inputs, '"' ∉ value.toList) := by
  obtain ⟨first, more, rfl⟩ := List.exists_cons_of_ne_nil nonempty
  refine ⟨by simp [Command.argumentsOf], ?_⟩
  have back : Function.LeftInverse (List.map String.ofList) (List.map String.toList) := by
    intro values
    simp
  have onto : Function.RightInverse (List.map String.ofList) (List.map String.toList) := by
    intro texts
    simp
  have trimmed := trimChars_joined first.toList (more.map String.toList)
  have quoteless := values_joined_iff first.toList (more.map String.toList)
  rw [← List.map_cons, List.forall_mem_map] at quoteless
  rw [parse_eq_ok_iff_values, toList_join, List.map_cons, trimmed, ← List.map_cons, ← quoteless]
  constructor
  · rintro ⟨texts, read, same⟩
    rw [read, ← same, onto]
  · intro read
    exact ⟨_, read, back _⟩

/-- `a` and `b, c` are read back from the argument `"a","b, c"`. -/
theorem read_handedOn_comma :
    ["a", "b, c"] ≠ [] ∧
      (Command.argumentsOf ∅ ["a", "b, c"]).getLast? = some "\"a\",\"b, c\"" ∧
      parse "\"a\",\"b, c\"" = .ok ["a", "b, c"] := by
  have nonempty : ["a", "b, c"] ≠ [] := List.cons_ne_nil _ _
  obtain ⟨last, reads⟩ := read_handedOn_iff ∅ ["a", "b, c"] nonempty
  have text : join ["a", "b, c"] = "\"a\",\"b, c\"" := by decide +kernel
  rw [text] at last reads
  exact ⟨nonempty, last, reads.2 (by decide +kernel)⟩

/-- A value that neither starts nor ends with a quote and is not read back. -/
theorem read_handedOn_fails :
    ["a\"b"] ≠ [] ∧
      (∀ value ∈ ["a\"b"],
        ¬(value.toList.head? = some '"' ∧ value.toList.getLast? = some '"')) ∧
      parse (join ["a\"b"]) = .error (.unexpected 'b') := by
  refine ⟨List.cons_ne_nil _ _, by decide, ?_⟩
  have text : trimChars (join ["a\"b"]).toList = ['"', 'a', '"', 'b', '"'] := by decide +kernel
  rw [parse, text, values]
  rfl

end Sweep.OutputLine
