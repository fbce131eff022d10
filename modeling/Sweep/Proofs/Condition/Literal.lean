import Sweep.Proofs.Condition.RoundTrip
import Sweep.Proofs.Number.Notation
import Sweep.Proofs.Text.Blank

/-!
# Comparing an answer with a text

An answer is compared with a text in quotes by a rule: as numbers if both read as numbers, else text
by text. An answer is first made an operand, however, and in the second case the text of the operand
is compared: a number is written anew, and a truth value in small letters. So the rule is kept for
those answers whose operand has the text of the answer, and for each other answer there is a
comparison that breaks it.
-/

namespace Sweep.Condition

def Comparison.symbol (op : Comparison) : String := String.ofList (Piece.comparisonChars op)

/-- The condition that compares a variable with a text in single quotes. -/
def comparisonText (i : Identifier) (op : Comparison) (s : String) : String :=
  i.name ++ " " ++ op.symbol ++ " '" ++ s ++ "'"

/-- The order of an answer and a text, if the answer is shown as a certain text where the two are
not both numbers. -/
def orderAs (shown answer s : String) : Option Ordering :=
  match Number.read? (Text.trim answer), Number.read? (Text.trim s) with
  | some x, some y => x.compare? y
  | _, _ => some (compare shown s)

/-- The order of an answer and a text by the rule: of numbers, or else of the trimmed answer and
the text. -/
def ruleOrder (answer s : String) : Option Ordering := orderAs (Text.trim answer) answer s

/-- The condition `x op 's'` can be read and has a truth value for an answer. -/
def Decides (i : Identifier) (op : Comparison) (s answer : String) (verdict : Bool) : Prop :=
  ∃ c, parse (comparisonText i op s) = .ok c ∧ c.evaluate (some answer) = .ok verdict

/-- An answer is shown as it was given: it is neither `True` nor `False`, and if it is a number, it
is written like one. -/
def KeepsText (answer : String) : Prop :=
  Text.trim answer ≠ "True" ∧ Text.trim answer ≠ "False" ∧
    ∀ x ∈ Number.read? (Text.trim answer), Number.showMessage x = Text.trim answer

/-! ## The condition -/

section Reading

variable (i : Identifier) (op : Comparison) {s : String} (free : '\'' ∉ s.toList)

def literalWording : Wording :=
  .compare (.variable i) op (.text ⟨'\'', s, .inl rfl, free⟩)

theorem comparisonText_eq : comparisonText i op s = (literalWording i op free).write := by
  rw [← String.toList_inj]
  simp [comparisonText, literalWording, Wording.write, Wording.pieces, Wording.enclose,
    Wording.grade, Piece.chars, Quoted.chars, Comparison.symbol, Identifier.name,
    List.intercalate_cons_cons]

include free in
theorem parse_comparisonText : parse (comparisonText i op s) =
    .ok ⟨Text.trim (comparisonText i op s), .compare (.variable i.name) op (.text s)⟩ := by
  rw [comparisonText_eq i op free]
  exact parse_wording (literalWording i op free) rfl

end Reading

/-! ## The answer -/

namespace Operand

variable {answer : String}

theorem ofAnswer_of_number {x : Binary64} (read : Number.read? (Text.trim answer) = some x) :
    ofAnswer answer = .number x := by
  simp only [ofAnswer, read]

theorem ofAnswer_of_not_number (read : Number.read? (Text.trim answer) = none) :
    ofAnswer answer =
      if Text.trim answer = "true" ∨ Text.trim answer = "True" then .truth true
      else if Text.trim answer = "false" ∨ Text.trim answer = "False" then .truth false
      else .text (Text.trim answer) := by
  rw [ofAnswer]
  simp only [read]
  generalize Text.trim answer = s
  split
  · simp
  · simp
  · simp
  · simp
  · simp_all

/-- An operand reads as a number if its answer does. -/
theorem number?_ofAnswer (answer : String) :
    (ofAnswer answer).number? = Number.read? (Text.trim answer) := by
  cases read : Number.read? (Text.trim answer) with
  | some x => rw [ofAnswer_of_number read, number?]
  | none =>
    rw [ofAnswer_of_not_number read]
    split
    · rw [number?]
    split
    · rw [number?]
    · rw [number?, Text.trim_trim, read]

theorem order?_ofAnswer_text (answer s : String) :
    (ofAnswer answer).order? (.text s) = orderAs (ofAnswer answer).asText answer s := by
  have read : (text s).number? = Number.read? (Text.trim s) := rfl
  rw [order?.eq_def, orderAs, number?_ofAnswer, read]
  generalize ofAnswer answer = operand
  cases Number.read? (Text.trim answer) with
  | none => cases operand <;> rfl
  | some x =>
    cases Number.read? (Text.trim s) with
    | none => cases operand <;> rfl
    | some y => rfl

theorem read?_eq_none_of_truth {s : String} (word : s = "True" ∨ s = "False") :
    Number.read? s = none := by
  rcases word with rfl | rfl <;> rfl

/-- The text of an operand is that of its answer exactly if the answer keeps its text. -/
theorem asText_ofAnswer_eq_iff (answer : String) :
    (ofAnswer answer).asText = Text.trim answer ↔ KeepsText answer := by
  rw [KeepsText]
  cases read : Number.read? (Text.trim answer) with
  | some x =>
    have word : ¬(Text.trim answer = "True" ∨ Text.trim answer = "False") := fun word => by
      rw [read?_eq_none_of_truth word] at read
      cases read
    rw [not_or] at word
    rw [ofAnswer_of_number read, asText]
    simp [word]
  | none =>
    rw [ofAnswer_of_not_number read]
    generalize Text.trim answer = s
    split
    · next word => rcases word with rfl | rfl <;> simp [asText]
    split
    · next word => rcases word with rfl | rfl <;> simp [asText]
    · next yes no =>
      rw [not_or] at yes no
      simp [asText, yes, no]

/-- Unless an answer keeps its text, its operand has another one, and both are made of letters,
digits, signs and points. -/
theorem isNumeralChar_of_not_keepsText (h : ¬KeepsText answer) :
    (∀ c ∈ (ofAnswer answer).asText.toList, Number.isNumeralChar c = true) ∧
      ∀ c ∈ (Text.trim answer).toList, Number.isNumeralChar c = true := by
  cases read : Number.read? (Text.trim answer) with
  | some x =>
    rw [ofAnswer_of_number read, asText, Number.showMessage, String.toList_ofList]
    exact ⟨Number.isNumeralChar_messageForm x, Number.isNumeralChar_of_readChars? read⟩
  | none =>
    rw [← asText_ofAnswer_eq_iff, ofAnswer_of_not_number read] at h
    rw [ofAnswer_of_not_number read]
    generalize Text.trim answer = s at h ⊢
    split at h
    · next word =>
      rcases word with rfl | rfl <;>
        exact ⟨List.all_eq_true.1 (by decide), List.all_eq_true.1 (by decide)⟩
    split at h
    · next word =>
      rcases word with rfl | rfl <;>
        exact ⟨List.all_eq_true.1 (by decide), List.all_eq_true.1 (by decide)⟩
    · exact absurd rfl h

end Operand

/-- What a condition decides: the answer is compared as the text of its operand. -/
theorem decides_iff (i : Identifier) (op : Comparison) {s : String} (free : '\'' ∉ s.toList)
    (answer : String) (verdict : Bool) : Decides i op s answer verdict ↔
      verdict = op.holds (orderAs (Operand.ofAnswer answer).asText answer s) := by
  have read := parse_comparisonText i op free
  have value : (⟨Text.trim (comparisonText i op s),
      .compare (.variable i.name) op (.text s)⟩ : Condition).evaluate (some answer) =
        .ok (op.holds (orderAs (Operand.ofAnswer answer).asText answer s)) := by
    rw [← Operand.order?_ofAnswer_text]
    rfl
  constructor
  · rintro ⟨c, parsed, evaluated⟩
    obtain rfl := Except.ok.inj (read.symm.trans parsed)
    exact Except.ok.inj (evaluated.symm.trans value)
  · rintro rfl
    exact ⟨_, read, value⟩

/-! ## Texts that tell two texts apart -/

theorem lt_append_nul (s : List Char) : s < s ++ ['\x00'] := by
  have longer : s ++ [] < s ++ ['\x00'] := List.append_left_lt (List.nil_lt_cons _ _)
  rwa [List.append_nil] at longer

/-- No text is between a text and the same text with a NUL behind it. -/
theorem not_lt_append_nul {s t : List Char} (less : s < t) : ¬t < s ++ ['\x00'] := by
  induction s generalizing t with
  | nil =>
    cases t with
    | nil => exact absurd less (List.not_lt_nil _)
    | cons c t =>
      rw [List.nil_append, List.cons_lt_cons_iff]
      rintro (below | ⟨-, below⟩)
      · exact Nat.not_lt_zero _ below
      · exact List.not_lt_nil _ below
  | cons c s ih =>
    cases t with
    | nil => exact absurd less (List.not_lt_nil _)
    | cons d t =>
      rw [List.cons_lt_cons_iff] at less
      rw [List.cons_append, List.cons_lt_cons_iff]
      rintro (below | ⟨rfl, below⟩)
      · rcases less with above | ⟨rfl, -⟩
        · exact Char.lt_asymm above below
        · exact Char.lt_irrefl _ below
      · rcases less with above | ⟨-, above⟩
        · exact Char.lt_irrefl _ above
        · exact ih above below

/-- A text with a NUL behind it is no number. -/
theorem read?_trim_nul (s : List Char) :
    Number.read? (Text.trim (String.ofList (s ++ ['\x00']))) = none := by
  rw [Number.read?, Text.trim, String.toList_ofList, String.toList_ofList,
    Option.eq_none_iff_forall_not_mem]
  intro x read
  have mem : '\x00' ∈ Text.trimChars (s ++ ['\x00']) :=
    Text.mem_trimChars (List.mem_append_right s List.mem_cons_self) (by decide)
  exact absurd (Number.isNumeralChar_of_readChars? read _ mem) (by decide)

theorem compare_eq_lt_iff {a b : String} : compare a b = .lt ↔ a.toList < b.toList :=
  compareOfLessAndEq_eq_lt

/-- Two texts of which numbers may consist are told apart by a text that is no number. -/
theorem exists_separating {a b : String} (differ : a ≠ b)
    (plain : ∀ c ∈ a.toList, Number.isNumeralChar c = true)
    (plain' : ∀ c ∈ b.toList, Number.isNumeralChar c = true) :
    ∃ s : String, '\'' ∉ s.toList ∧ Number.read? (Text.trim s) = none ∧
      compare a s ≠ compare b s := by
  -- The NUL behind the lesser of the two puts it just above that one.
  have above {a b : String} (less : compare a b = .lt)
      (plain : ∀ c ∈ a.toList, Number.isNumeralChar c = true) :
      ∃ s : String, '\'' ∉ s.toList ∧ Number.read? (Text.trim s) = none ∧
        compare a s ≠ compare b s := by
    refine ⟨String.ofList (a.toList ++ ['\x00']), ?_, read?_trim_nul _, ?_⟩
    · rw [String.toList_ofList]
      intro mem
      rcases List.mem_append.1 mem with mem | mem
      · exact absurd (plain _ mem) (by decide)
      · exact absurd mem (by decide)
    · have below : compare a (String.ofList (a.toList ++ ['\x00'])) = .lt := by
        rw [compare_eq_lt_iff, String.toList_ofList]
        exact lt_append_nul _
      rw [below]
      intro below'
      rw [eq_comm, compare_eq_lt_iff, String.toList_ofList] at below'
      exact not_lt_append_nul (compare_eq_lt_iff.1 less) below'
  cases order : compare a b with
  | lt => exact above order plain
  | eq => exact absurd (Std.LawfulEqOrd.eq_of_compare order) differ
  | gt =>
    obtain ⟨s, free, noNumber, apart⟩ := above (Std.OrientedCmp.gt_iff_lt.1 order) plain'
    exact ⟨s, free, noNumber, apart.symm⟩

/-- Two orders are told apart by a comparison. -/
theorem eq_of_holds {o o' : Ordering}
    (same : ∀ op : Comparison, op.holds (some o) = op.holds (some o')) : o = o' := by
  have lt := same .lt
  have eq := same .eq
  revert lt eq
  cases o <;> cases o' <;> decide

/-! ## The rule -/

/-- An answer for which all comparisons keep to the rule keeps its text. -/
theorem keepsText_of_rule (i : Identifier) (answer : String)
    (rule : ∀ op s, '\'' ∉ s.toList → Decides i op s answer (op.holds (ruleOrder answer s))) :
    KeepsText answer := by
  by_contra other
  obtain ⟨plain, plain'⟩ := Operand.isNumeralChar_of_not_keepsText other
  have differ : (Operand.ofAnswer answer).asText ≠ Text.trim answer :=
    fun same => other ((Operand.asText_ofAnswer_eq_iff answer).1 same)
  obtain ⟨s, free, noNumber, apart⟩ := exists_separating differ plain plain'
  have texts (shown : String) : orderAs shown answer s = some (compare shown s) := by
    rw [orderAs, noNumber]
    cases Number.read? (Text.trim answer) <;> rfl
  refine apart (eq_of_holds fun op => ?_)
  have verdict := (decides_iff i op free answer _).1 (rule op s free)
  rw [ruleOrder, texts, texts] at verdict
  exact verdict.symm

/-- What a comparison of an answer with a text in quotes comes to; the rule that it follows for the
answers that keep their text, and for no others; and that a text which is no number equals itself as
an answer unless it is `True` or `False`. -/
theorem decides_by_rule_iff (i : Identifier) :
    (∀ op s answer, '\'' ∉ s.toList → Decides i op s answer
      (op.holds (orderAs (Operand.ofAnswer answer).asText answer s))) ∧
    (∀ answer, (∀ op s, '\'' ∉ s.toList →
      Decides i op s answer (op.holds (ruleOrder answer s))) ↔ KeepsText answer) ∧
    ∀ s, '\'' ∉ s.toList → Text.trim s = s → Number.read? s = none →
      (Decides i .eq s s true ↔ s ≠ "True" ∧ s ≠ "False") := by
  refine ⟨fun op s answer free => (decides_iff i op free answer _).2 rfl, fun answer => ?_,
    fun s free trimmed noNumber => ?_⟩
  · refine ⟨keepsText_of_rule i answer, fun keeps op s free => ?_⟩
    rw [decides_iff i op free, ruleOrder, (Operand.asText_ofAnswer_eq_iff answer).2 keeps]
  · have keeps : KeepsText s ↔ s ≠ "True" ∧ s ≠ "False" := by
      simp [KeepsText, trimmed, noNumber]
    rw [decides_iff i .eq free, ← keeps, ← Operand.asText_ofAnswer_eq_iff, trimmed, orderAs,
      trimmed, noNumber, eq_comm, Comparison.holds, beq_iff_eq, Std.compare_eq_iff_eq]

def Identifier.x : Identifier := ⟨'x', [], by decide, nofun, by decide⟩

/-- The answer `yes` keeps its text, so that it is above `no` and equals itself. The answer ` 1e3 `
is shown as 1000, and so it is below `1b`, against the rule. -/
theorem decides_yes :
    (KeepsText "yes" ∧ '\'' ∉ "no".toList ∧ Decides .x .gt "no" "yes" true) ∧
    ('\'' ∉ "yes".toList ∧ Text.trim "yes" = "yes" ∧ Number.read? "yes" = none ∧
      Decides .x .eq "yes" "yes" true) ∧
    '\'' ∉ "1b".toList ∧ Decides .x .lt "1b" " 1e3 " true ∧ ruleOrder " 1e3 " "1b" = some .gt := by
  obtain ⟨actual, byRule, itself⟩ := decides_by_rule_iff .x
  have noNumber : Number.read? "yes" = none := rfl
  have trimmed : Text.trim "yes" = "yes" := rfl
  have keeps : KeepsText "yes" := by
    rw [KeepsText, trimmed, noNumber]
    exact ⟨by decide, by decide, nofun⟩
  have above := (byRule "yes").2 keeps .gt "no" (by decide)
  have order : ruleOrder "yes" "no" = some .gt := rfl
  rw [order] at above
  have shown : (Operand.ofAnswer " 1e3 ").asText = "1000" := by
    set_option maxRecDepth 4000 in rfl
  have below := actual .lt "1b" " 1e3 " (by decide)
  have order' : orderAs "1000" " 1e3 " "1b" = some .lt := rfl
  rw [shown, order'] at below
  exact ⟨⟨keeps, by decide, above⟩,
    ⟨by decide, trimmed, noNumber, (itself "yes" (by decide) trimmed noNumber).2 (by decide)⟩,
    by decide, below, rfl⟩

/-- The answer `True` does not equal the text `True`: it is shown as `true`. -/
theorem capital_truth_differs :
    comparisonText .x .eq "True" = "x == 'True'" ∧ '\'' ∉ "True".toList ∧
      Text.trim "True" = "True" ∧ Number.read? "True" = none ∧
      Decides .x .eq "True" "True" false ∧ ¬Decides .x .eq "True" "True" true := by
  have order : orderAs (Operand.ofAnswer "True").asText "True" "True" = some .gt :=
    rfl
  have free : '\'' ∉ "True".toList := by decide
  rw [decides_iff .x .eq free, decides_iff .x .eq free, order]
  exact ⟨rfl, free, rfl, rfl, rfl, nofun⟩

end Sweep.Condition
