import Sweep.Text.Blank

/-!
# Lines of values

A task hands its output values over in one line, with commas between the fields. A field that
starts with a double quote, white space aside, is quoted: its value is the text up to the closing
quote, in which a quote is written twice. Any other field is raw: its value is the text up to the
next comma, without the white space around it.

The input values of a task are handed over in the same form, except that a value which already
looks quoted is passed on as it is.
-/

namespace Sweep.OutputLine

/-- Why a line cannot be read. -/
inductive Fault where
  /-- A quoted field has no closing quote. -/
  | unterminated
  /-- Something other than a comma follows a closing quote. -/
  | unexpected (c : Char)
deriving DecidableEq, Repr

/-- The text of a quoted field, given what follows its opening quote, and what follows its closing
quote. -/
def quoted? : List Char → Option (List Char × List Char)
  | [] => none
  | '"' :: '"' :: rest => (quoted? rest).map fun (text, rest) => ('"' :: text, rest)
  | c :: rest =>
    if c = '"' then some ([], rest)
    else (quoted? rest).map fun (text, rest) => (c :: text, rest)

/-- The value of the first field, and the rest of the line from the comma after the field. -/
def field (line : List Char) : Except Fault (List Char × List Char) :=
  match Text.trimStart line with
  | '"' :: inside =>
    match quoted? inside with
    | none => .error .unterminated
    | some (value, after) =>
      match Text.trimStart after with
      | [] => .ok (value, [])
      | c :: rest => if c = ',' then .ok (value, c :: rest) else .error (.unexpected c)
  | raw => .ok (Text.trimChars (raw.takeWhile (· != ',')), raw.dropWhile (· != ','))

theorem length_quoted?_le {inside text rest : List Char}
    (h : quoted? inside = some (text, rest)) : rest.length ≤ inside.length := by
  fun_induction quoted? inside generalizing text rest with
  | case1 => simp at h
  | case2 inside ih =>
    obtain ⟨⟨t, r⟩, hq, he⟩ := Option.map_eq_some_iff.1 h
    obtain ⟨rfl, rfl⟩ := Prod.mk.inj he
    have := ih hq
    simp only [List.length_cons]
    omega
  | case3 inside _ =>
    obtain ⟨rfl, rfl⟩ := Prod.mk.inj (Option.some.inj h)
    simp
  | case4 c inside _ _ ih =>
    obtain ⟨⟨t, r⟩, hq, he⟩ := Option.map_eq_some_iff.1 h
    obtain ⟨rfl, rfl⟩ := Prod.mk.inj he
    have := ih hq
    simp only [List.length_cons]
    omega

theorem length_dropWhile_le (p : Char → Bool) (s : List Char) :
    (s.dropWhile p).length ≤ s.length :=
  (List.dropWhile_sublist p).length_le

theorem length_field_le {line value rest : List Char}
    (h : field line = .ok (value, rest)) : rest.length ≤ line.length := by
  have hline := length_dropWhile_le Text.isBlank line
  simp only [field, Text.trimStart] at h
  split at h
  · rename_i inside hinside
    rw [hinside, List.length_cons] at hline
    split at h
    · simp at h
    · rename_i text after hq
      have hafter := length_dropWhile_le Text.isBlank after
      have := length_quoted?_le hq
      split at h
      · simp_all
      · rename_i c r hr
        split at h
        · simp only [Except.ok.injEq, Prod.mk.injEq] at h
          rw [hr, List.length_cons] at hafter
          rw [← h.2, List.length_cons]
          omega
        · simp at h
  · simp only [Except.ok.injEq, Prod.mk.injEq] at h
    rw [← h.2]
    exact Nat.le_trans (length_dropWhile_le _ _) hline

def values (line : List Char) : Except Fault (List (List Char)) :=
  match _h : field line with
  | .error fault => .error fault
  | .ok (value, []) => .ok [value]
  | .ok (value, _ :: rest) => (values rest).map (value :: ·)
termination_by line.length
decreasing_by
  have := length_field_le _h
  simp only [List.length_cons] at this
  omega

/-- The values of a line; the white space around the line does not count. -/
def parse (line : String) : Except Fault (List String) :=
  (values (Text.trimChars line.toList)).map fun found => found.map String.ofList

/-- Whether a text starts and ends with a quote. -/
def looksQuoted (value : List Char) : Bool :=
  decide (2 ≤ value.length) && value.head? == some '"' && value.getLast? == some '"'

/-- A value between quotes, unless it looks quoted. -/
def quote (value : List Char) : List Char :=
  if looksQuoted value then value else '"' :: value ++ ['"']

/-- Values in one line. -/
def join (values : List String) : String :=
  ",".intercalate (values.map fun value => String.ofList (quote value.toList))

end Sweep.OutputLine
