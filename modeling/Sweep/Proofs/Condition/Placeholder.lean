import Sweep.Proofs.Condition.RoundTrip
import Sweep.Proofs.Text.Blank

/-!
# The placeholder of a condition

The readers lose no name and keep the names in order, so a tree has the names of its text; the proof
is by induction on how many tokens there are, with one case for each reader. A text that spells a
tree is refused for its names exactly if there are two of them. Evaluation has one operand for all
variables and another one for conditions without any; that this is the value of the tree with the
answer in the place of the placeholder's name, and of no other, needs that there is one name only.
-/

namespace Sweep.Condition

/-! ## The names of a text -/

def Token.name? : Token → Option String
  | .variable name => some name
  | _ => none

/-- The names among tokens, from left to right, as often as they occur. -/
def namesIn (ts : List Lexeme) : List String := ts.filterMap fun lexeme => lexeme.token.name?

/-- The names in a tree and those behind it. -/
def Parsed.names {m : Nat} (p : Parsed m) : List String := p.expr.names ++ namesIn p.rest

@[simp] theorem namesIn_nil : namesIn [] = [] := rfl

@[simp] theorem namesIn_cons (t : Token) (left : Nat) (ts : List Lexeme) :
    namesIn (⟨t, left⟩ :: ts) = t.name?.toList ++ namesIn ts := by
  rw [namesIn, List.filterMap_cons]
  cases t.name? <;> rfl

variable {m : Nat}

theorem Parsed.names_of_rest {p : Parsed m} {t : Token} {left : Nat} {us : List Lexeme}
    (shape : p.rest = ⟨t, left⟩ :: us) (silent : t.name? = none) :
    p.names = p.expr.names ++ namesIn us := by
  rw [names, shape, namesIn_cons, silent]
  rfl

/-- Two trees with an operator between them have the names of both. -/
theorem Parsed.names_joined {p : Parsed m} {t : Token} {left : Nat} {us : List Lexeme}
    {second : Parsed us.length} (shape : p.rest = ⟨t, left⟩ :: us) (silent : t.name? = none)
    (found : second.names = namesIn us) :
    (p.expr.names ++ second.expr.names) ++ namesIn second.rest = p.names := by
  rw [p.names_of_rest shape silent, ← found, List.append_assoc]
  rfl

/-- On fewer than `bound` tokens a reader loses no name and keeps the names in order. -/
def KeepsNames (reader : (ts : List Lexeme) → Except Nat (Parsed ts.length)) (bound : Nat) : Prop :=
  ∀ ts, ts.length < bound → ∀ p, reader ts = .ok p → p.names = namesIn ts

variable {bound : Nat}

theorem keepsNames_operand (inner : KeepsNames disjunction bound) :
    KeepsNames operand (bound + 1) := by
  intro ts short p read
  rw [operand.eq_def] at read
  split at read
  · cases read; rfl
  · cases read; rfl
  · cases read; rfl
  · cases read; rfl
  · next opened within =>
    split at read
    · cases read
    · next enclosed found =>
      split at read
      · next closed rest shape =>
        cases read
        have kept := inner within (Nat.lt_of_succ_lt_succ short) enclosed found
        rw [namesIn_cons, ← kept, enclosed.names_of_rest shape rfl]
        rfl
      · cases read
  · cases read

theorem keepsNames_comparison (operands : KeepsNames operand bound) :
    KeepsNames comparison bound := by
  intro ts short p read
  rw [comparison.eq_def] at read
  split at read
  · cases read
  · next left found =>
    have kept := operands ts short left found
    split at read
    · next op place us shape =>
      have shorter : us.length < bound := by
        have := left.shorter
        rw [shape, List.length_cons] at this
        omega
      split at read
      · cases read
      · next right found' =>
        cases read
        rw [← kept]
        exact left.names_joined shape rfl (operands us shorter right found')
    · cases read
      exact kept

theorem names_negation (comparisons : KeepsNames comparison bound) (ts : List Lexeme)
    (short : ts.length < bound) (p : Parsed ts.length) (read : negation ts = .ok p) :
    p.names = namesIn ts := by
  rw [negation.eq_def] at read
  split at read
  · next left rest =>
    split at read
    · cases read
    · next inner found =>
      cases read
      exact names_negation comparisons rest (Nat.lt_of_succ_lt short) inner found
  · exact comparisons _ short p read
termination_by ts.length

/-- Every further operand of `and` brings its names behind those before it. -/
theorem names_moreConjuncts (negations : KeepsNames negation bound) {m : Nat} {first p : Parsed m}
    (short : first.rest.length ≤ bound) (read : moreConjuncts m first = .ok p) :
    p.names = first.names := by
  induction size : first.rest.length using Nat.strongRecOn generalizing first with
  | ind n ih =>
    rw [moreConjuncts.eq_def] at read
    split at read
    · next left us shape =>
      have shorter : us.length < first.rest.length := by simp [shape]
      split at read
      · cases read
      · next second found =>
        have more := second.shorter
        rw [ih second.rest.length (by omega) (by show second.rest.length ≤ bound; omega) read rfl]
        exact first.names_joined shape rfl (negations us (by omega) second found)
    · cases read
      rfl

theorem keepsNames_conjunction (negations : KeepsNames negation bound) :
    KeepsNames conjunction bound := by
  intro ts short p read
  rw [conjunction.eq_def] at read
  split at read
  · cases read
  · next first found =>
    have shorter := first.shorter
    rw [names_moreConjuncts negations (by omega) read]
    exact negations ts short first found

/-- Every further operand of `or` brings its names behind those before it. -/
theorem names_moreDisjuncts (conjunctions : KeepsNames conjunction bound) {m : Nat}
    {first p : Parsed m} (short : first.rest.length ≤ bound)
    (read : moreDisjuncts m first = .ok p) : p.names = first.names := by
  induction size : first.rest.length using Nat.strongRecOn generalizing first with
  | ind n ih =>
    rw [moreDisjuncts.eq_def] at read
    split at read
    · next left us shape =>
      have shorter : us.length < first.rest.length := by simp [shape]
      split at read
      · cases read
      · next second found =>
        have more := second.shorter
        rw [ih second.rest.length (by omega) (by show second.rest.length ≤ bound; omega) read rfl]
        exact first.names_joined shape rfl (conjunctions us (by omega) second found)
    · cases read
      rfl

theorem keepsNames_disjunction (conjunctions : KeepsNames conjunction bound) :
    KeepsNames disjunction bound := by
  intro ts short p read
  rw [disjunction.eq_def] at read
  split at read
  · cases read
  · next first found =>
    have shorter := first.shorter
    rw [names_moreDisjuncts conjunctions (by omega) read]
    exact conjunctions ts short first found

/-- Parentheses hold fewer tokens than they stand among, so the bound rises from there. -/
theorem keepsNames_all (bound : Nat) : KeepsNames disjunction bound := by
  induction bound with
  | zero => exact fun ts short => absurd short (Nat.not_lt_zero _)
  | succ bound ih =>
    have comparisons := keepsNames_comparison (keepsNames_operand ih)
    exact keepsNames_disjunction (keepsNames_conjunction (names_negation comparisons))

/-- A tree has the names of the tokens that it was read from, in their order. -/
theorem names_of_parseTokens {ts : List Lexeme} {e : Expr} (read : parseTokens ts = .ok e) :
    e.names = namesIn ts := by
  rw [parseTokens] at read
  split at read
  · cases read
  · next p found =>
    split at read
    · next ends =>
      cases read
      have kept := keepsNames_all (ts.length + 1) ts (Nat.lt_succ_self _) p found
      rw [Parsed.names, List.isEmpty_iff.1 ends, namesIn_nil, List.append_nil] at kept
      exact kept
    · cases read

/-! ## Texts that are read

White space is no token, and where white space that is no gap begins, no token begins. So a text
of white space has no tree, and a text with one is not refused as empty.
-/

theorem token_of_isBlank {c : Char} (blank : Text.isBlank c = true) (s : List Char) :
    token c s = (.unknown, 0) := by
  have length : numberLength (c :: s) = 0 := by
    apply numberLength_eq_zero
    · rintro rfl
      cases blank
    · rintro rfl
      cases blank
    · rw [Bool.eq_false_iff]
      intro digit
      rw [isBlank_of_isDigit digit] at blank
      cases blank
  have noWord : ¬isWordStart c = true := by
    intro start
    rw [isBlank_of_isWordStart start] at blank
    cases blank
  rw [token_of_not_mark (not_mark blank (by decide)), length]
  rw [if_neg (Nat.lt_irrefl 0), if_neg noWord]

theorem lex_of_allBlank {s : List Char} (blank : Text.AllBlank s) :
    lex s = [] ∨ ∃ left, lex s = [⟨.unknown, left⟩] := by
  induction s with
  | nil =>
    rw [lex]
    exact .inl rfl
  | cons c s ih =>
    obtain ⟨first, others⟩ := List.forall_mem_cons.1 blank
    rw [lex]
    split
    · exact ih others
    · rw [token_of_isBlank first]
      exact .inr ⟨_, rfl⟩

/-- A text from which a tree is read is not all white space. -/
theorem isEmptyTrimmed_of_parseTokens {text : String} {e : Expr}
    (accepted : parseTokens (lex text.toList) = .ok e) : Text.isEmptyTrimmed text = false := by
  rw [Bool.eq_false_iff]
  intro empty
  have blank : Text.AllBlank text.toList := List.all_eq_true.1 empty
  rcases lex_of_allBlank blank with none | ⟨left, unknown⟩
  · rw [none] at accepted
    simp [parseTokens, disjunction, conjunction, negation, comparison, operand] at accepted
  · rw [unknown] at accepted
    simp [parseTokens, disjunction, conjunction, negation, comparison, operand] at accepted

/-! ## Two names -/

/-- The first name of a list, and the first in it that is another one. -/
def FirstTwo (first second : String) (names : List String) : Prop :=
  first ≠ second ∧
    ∃ before behind, names = first :: before ++ second :: behind ∧ ∀ name ∈ before, name = first

variable {first second : String} {names : List String}

theorem twoNames?_eq_some_iff :
    twoNames? names = some (first, second) ↔ FirstTwo first second names := by
  cases names with
  | nil => simp [twoNames?, FirstTwo]
  | cons a rest =>
    rw [twoNames?, Option.map_eq_some_iff]
    constructor
    · rintro ⟨b, found, same⟩
      cases same
      obtain ⟨other, before, behind, rfl, equal⟩ := List.find?_eq_some_iff_append.1 found
      refine ⟨(bne_iff_ne.1 other).symm, before, behind, rfl, ?_⟩
      intro name mem
      simpa using equal name mem
    · rintro ⟨other, before, behind, shape, equal⟩
      cases shape
      have found : (before ++ second :: behind).find? (· != first) = some second := by
        rw [List.find?_eq_some_iff_append]
        refine ⟨bne_iff_ne.2 other.symm, before, behind, rfl, ?_⟩
        intro name mem
        simpa using equal name mem
      exact ⟨second, found, rfl⟩

theorem parse_eq {text : String} {e : Expr} (accepted : parseTokens (lex text.toList) = .ok e) :
    parse text =
      match twoNames? e.names with
      | some (first, second) => .error (.multipleVariables first second)
      | none => .ok ⟨Text.trim text, e⟩ := by
  rw [parse, isEmptyTrimmed_of_parseTokens accepted]
  cases two : twoNames? e.names <;> simp only [Bool.false_eq_true, if_false, accepted, two]

/-- What is parsed has been read as a tree in which no two names are found. -/
theorem of_parse {text : String} {c : Condition} (parsed : parse text = .ok c) :
    parseTokens (lex text.toList) = .ok c.expr ∧ twoNames? c.expr.names = none := by
  rw [parse] at parsed
  split at parsed
  · cases parsed
  · dsimp only at parsed
    split at parsed
    · cases parsed
    · next e read =>
      split at parsed
      · cases parsed
      · next one =>
        cases parsed
        exact ⟨read, one⟩

/-! ## The value of a tree -/

/-- The value of a tree in which the names stand for operands, if all of its names do. -/
def Expr.value? (bound : String → Option Operand) : Expr → Option Operand
  | .number x => some (.number x)
  | .text s => some (.text s)
  | .truth b => some (.truth b)
  | .variable name => bound name
  | .not operand => (operand.value? bound).map fun x => .truth (!x.truthy)
  | .and left right => do
    let x ← left.value? bound
    let y ← right.value? bound
    return .truth (x.truthy && y.truthy)
  | .or left right => do
    let x ← left.value? bound
    let y ← right.value? bound
    return .truth (x.truthy || y.truthy)
  | .compare left op right => do
    let x ← left.value? bound
    let y ← right.value? bound
    return .truth (x.compare op y)

section Value

variable {e : Expr} {bound : String → Option Operand} {x : Operand}

/-- The value does not depend on names if they all stand for one operand. -/
theorem Expr.value?_eq_eval (all : ∀ name ∈ e.names, bound name = some x) :
    e.value? bound = some (e.eval x) := by
  induction e with
  | number | text | truth => rfl
  | «variable» name => exact all name List.mem_cons_self
  | not operand ih =>
    rw [value?, ih all]
    rfl
  | and left right ihLeft ihRight | or left right ihLeft ihRight
  | compare left _ right ihLeft ihRight =>
    rw [names, List.forall_mem_append] at all
    rw [value?, ihLeft all.1, ihRight all.2]
    rfl

/-- A tree has no value if a name in it stands for nothing. -/
theorem Expr.value?_eq_none {name : String} (mem : name ∈ e.names) (unbound : bound name = none) :
    e.value? bound = none := by
  induction e with
  | number | text | truth => cases mem
  | «variable» other =>
    obtain rfl := List.mem_singleton.1 mem
    exact unbound
  | not operand ih =>
    rw [value?, ih mem]
    rfl
  | and left right ihLeft ihRight | or left right ihLeft ihRight
  | compare left _ right ihLeft ihRight =>
    rw [value?]
    rcases List.mem_append.1 mem with early | late
    · rw [ihLeft early]
      rfl
    · rw [ihRight late]
      cases left.value? bound <;> rfl

end Value

/-- What the names of a condition stand for under an answer: the placeholder stands for the answer,
if there is one, and any other name for nothing. -/
def binding (c : Condition) (answer : Option String) (name : String) : Option Operand :=
  if c.placeholder = some name then answer.map Operand.ofAnswer else none

variable {c : Condition}

/-- Where all names are equal, the placeholder is the one that occurs. -/
theorem placeholder_eq_some_iff (one : ∀ a ∈ c.expr.names, ∀ b ∈ c.expr.names, a = b)
    {name : String} : c.placeholder = some name ↔ name ∈ c.expr.names := by
  constructor
  · intro found
    exact List.mem_of_mem_head? found
  · intro mem
    obtain ⟨first, others, shape⟩ := List.exists_cons_of_ne_nil (List.ne_nil_of_mem mem)
    have head : c.placeholder = some first := by rw [placeholder, shape, List.head?_cons]
    have same : first = name := one first (by rw [shape]; exact List.mem_cons_self) name mem
    rw [head, same]

theorem Operand.ofAnswer_eq_of_trim {v w : String} (same : Text.trim v = Text.trim w) :
    Operand.ofAnswer v = Operand.ofAnswer w := by
  rw [ofAnswer, ofAnswer, same]

/-- A condition whose truth depends on the answer to its placeholder and on nothing else. -/
structure Disciplined (c : Condition) : Prop where
  /-- All that can go wrong is that there is a placeholder and no answer. -/
  fails_iff (answer : Option String) (fault : ConditionError) :
    c.evaluate answer = .error fault ↔
      answer = none ∧ ∃ name ∈ c.placeholder, fault = .missingInput name
  trimmed {v w : String} : Text.trim v = Text.trim w → c.evaluate (some v) = c.evaluate (some w)
  constant : c.placeholder = none → ∃ verdict, ∀ answer, c.evaluate answer = .ok verdict
  /-- The verdict is that of the tree with the answer in the place of the placeholder's name. -/
  byName (answer : Option String) (verdict : Bool) : c.evaluate answer = .ok verdict ↔
    ∃ x ∈ c.expr.value? (c.binding answer), x.truthy = verdict

theorem fails_iff_missing (c : Condition) (answer : Option String) (fault : ConditionError) :
    c.evaluate answer = .error fault ↔
      answer = none ∧ ∃ name ∈ c.placeholder, fault = .missingInput name := by
  rw [evaluate.eq_def]
  cases c.placeholder with
  | none => simp
  | some name =>
    cases answer with
    | none => simp [eq_comm]
    | some v => simp

theorem evaluate_eq_of_trim (c : Condition) {v w : String} (same : Text.trim v = Text.trim w) :
    c.evaluate (some v) = c.evaluate (some w) := by
  rw [evaluate.eq_def, evaluate.eq_def]
  cases c.placeholder with
  | none => rfl
  | some name =>
    show Except.ok (c.expr.eval (.ofAnswer v)).truthy = .ok (c.expr.eval (.ofAnswer w)).truthy
    rw [Operand.ofAnswer_eq_of_trim same]

theorem evaluate_of_no_placeholder (free : c.placeholder = none) (answer : Option String) :
    c.evaluate answer = .ok (c.expr.eval (.truth false)).truthy := by
  rw [evaluate.eq_def, free]

/-- The operand that stands for every variable in the evaluation is that of the placeholder: there
is no other name, and without an answer there is a name that stands for nothing. -/
theorem evaluate_eq_ok_iff (one : ∀ a ∈ c.expr.names, ∀ b ∈ c.expr.names, a = b)
    (answer : Option String) (verdict : Bool) : c.evaluate answer = .ok verdict ↔
      ∃ x ∈ c.expr.value? (c.binding answer), x.truthy = verdict := by
  cases found : c.placeholder with
  | none =>
    have none : c.expr.names = [] := List.head?_eq_none_iff.1 found
    have all : ∀ name ∈ c.expr.names, c.binding answer name = some (.truth false) := by
      intro name mem
      rw [none] at mem
      cases mem
    rw [evaluate_of_no_placeholder found, Expr.value?_eq_eval all]
    simp
  | some name =>
    cases answer with
    | none =>
      have unbound : c.binding none name = none := by rw [binding, if_pos found]; rfl
      rw [Expr.value?_eq_none ((placeholder_eq_some_iff one).1 found) unbound,
        (c.fails_iff_missing none _).2 ⟨rfl, name, found, rfl⟩]
      simp
    | some v =>
      have all : ∀ other ∈ c.expr.names, c.binding (some v) other = some (.ofAnswer v) := by
        intro other mem
        rw [binding, if_pos ((placeholder_eq_some_iff one).2 mem)]
        rfl
      rw [evaluate.eq_def, found, Expr.value?_eq_eval all]
      simp

theorem disciplined_of_parse {text : String} (parsed : parse text = .ok c) : Disciplined c where
  fails_iff := c.fails_iff_missing
  trimmed := c.evaluate_eq_of_trim
  constant free := ⟨_, evaluate_of_no_placeholder free⟩
  byName := evaluate_eq_ok_iff (twoNames?_eq_none_iff.1 (of_parse parsed).2)

/-! ## Parsing -/

/-- What parsing makes of a text from which a tree is read. -/
structure Settles (text : String) (e : Expr) : Prop where
  /-- The names of the tree are those in the text, from left to right. -/
  inOrder : e.names = namesIn (lex text.toList)
  refused_iff (first second : String) :
    parse text = .error (.multipleVariables first second) ↔ FirstTwo first second e.names
  refused_iff_two : (∃ first second, parse text = .error (.multipleVariables first second)) ↔
    ∃ a ∈ e.names, ∃ b ∈ e.names, a ≠ b
  parsed : (∀ a ∈ e.names, ∀ b ∈ e.names, a = b) →
    ∃ c, parse text = .ok c ∧ c.expr = e ∧ ∀ name, c.placeholder = some name ↔ name ∈ e.names

theorem settles_of_parseTokens {text : String} {e : Expr}
    (accepted : parseTokens (lex text.toList) = .ok e) : Settles text e := by
  have outcome := parse_eq accepted
  have refused_iff (first second : String) :
      parse text = .error (.multipleVariables first second) ↔ FirstTwo first second e.names := by
    rw [outcome, ← twoNames?_eq_some_iff]
    cases twoNames? e.names <;> simp [Prod.ext_iff]
  refine ⟨names_of_parseTokens accepted, refused_iff, ?_, ?_⟩
  · simp only [refused_iff, ← twoNames?_eq_some_iff]
    constructor
    · rintro ⟨first, second, two⟩
      by_contra! one
      rw [twoNames?_eq_none_iff.2 one] at two
      cases two
    · rintro ⟨a, ha, b, hb, differ⟩
      cases two : twoNames? e.names with
      | none => exact absurd (twoNames?_eq_none_iff.1 two a ha b hb) differ
      | some pair => exact ⟨pair.1, pair.2, rfl⟩
  · intro one
    rw [twoNames?_eq_none_iff.2 one] at outcome
    exact ⟨_, outcome, rfl, fun name => placeholder_eq_some_iff one⟩

/-- From a text that spells a tree a condition is parsed if the tree has at most one name, which is
then its placeholder, and if it has more the first two of them are reported. A condition that is
parsed is evaluated under every answer; without an answer it is if it has no placeholder, and then
no answer matters to it. -/
theorem parse_settles_placeholder (text : String) :
    (∀ e, parseTokens (lex text.toList) = .ok e → Settles text e) ∧
      ∀ c, parse text = .ok c → Disciplined c :=
  ⟨fun _ accepted => settles_of_parseTokens accepted, fun _ parsed => disciplined_of_parse parsed⟩

/-- `x == y` is refused for its two names. `not x` has the placeholder `x`: it fails without an
answer, and the white space around an answer does not matter to it. -/
theorem parse_settles_x :
    (parseTokens (lex "x == y".toList) = .ok (.compare (.variable "x") .eq (.variable "y")) ∧
      parse "x == y" = .error (.multipleVariables "x" "y")) ∧
    ∃ c, parse "not x" = .ok c ∧ c.evaluate none = .error (.missingInput "x") ∧
      c.evaluate (some " 0\n") = c.evaluate (some "0") := by
  let x : Identifier := ⟨'x', [], by decide, by simp, by decide⟩
  let y : Identifier := ⟨'y', [], by decide, by simp, by decide⟩
  have written : (Wording.compare (.variable x) .eq (.variable y)).write = "x == y" := rfl
  have accepted : parseTokens (lex "x == y".toList) =
      .ok (.compare (.variable "x") .eq (.variable "y")) := by
    have spells := lex_pieces (Wording.compare (.variable x) .eq (.variable y)).pieces
    rw [← written, Wording.write, String.toList_ofList]
    exact parseTokens_wording _ spells
  have refused := ((parse_settles_placeholder "x == y").1 _ accepted).refused_iff "x" "y"
  have parsed : parse "not x" = .ok ⟨"not x", .not (.variable "x")⟩ := by
    have read := parse_wording (.not .word (.variable x)) (by decide)
    rwa [show (Wording.not .word (.variable x)).write = "not x" from rfl] at read
  have disciplined := (parse_settles_placeholder "not x").2 _ parsed
  refine ⟨⟨accepted, refused.2 ⟨by decide, [], [], rfl, by simp⟩⟩, _, parsed, ?_, ?_⟩
  · exact (disciplined.fails_iff none _).2 ⟨rfl, "x", rfl, rfl⟩
  · exact disciplined.trimmed rfl

end Sweep.Condition
