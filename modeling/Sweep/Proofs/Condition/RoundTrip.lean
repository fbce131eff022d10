import Sweep.Condition.Basic
import Sweep.Proofs.Condition.Lexing

/-!
# A condition that is written is read back

The tokens of a wording are read as its tree. The proof is by induction on the wording: a wording
that is held together tightly enough is read by the reader of its grade, and by every looser one, as
long as what follows does not belong to it. The readers of `and` and `or` go on as long as there are
operands, so they are described by where they go on to from the first one.
-/

namespace Sweep.Condition

variable {m : Nat} {e f e' : Expr} {ts us rest rest' : List Lexeme}

/-- A reader answers a tree and what is left. -/
def Gives (r : Except Nat (Parsed m)) (e : Expr) (rest : List Lexeme) : Prop :=
  ∃ shorter, r = .ok ⟨e, rest, shorter⟩

def IsComparison (t : Token) : Prop := ∃ op, t = .compare op

/-- What is left does not begin with a token of a kind. -/
def Avoids (kind : Token → Prop) (rest : List Lexeme) : Prop :=
  ∀ lexeme ∈ rest.head?, ¬kind lexeme.token

/-- Reading on from an operand of `and` ends with a tree and with what is left. -/
def GoesOnAnd (e : Expr) (rest : List Lexeme) (e' : Expr) (rest' : List Lexeme) : Prop :=
  ∀ bound shorter, Gives (moreConjuncts bound ⟨e, rest, shorter⟩) e' rest'

/-- Reading on from an operand of `or` ends with a tree and with what is left. -/
def GoesOnOr (e : Expr) (rest : List Lexeme) (e' : Expr) (rest' : List Lexeme) : Prop :=
  ∀ bound shorter, Gives (moreDisjuncts bound ⟨e, rest, shorter⟩) e' rest'

/-! ## The readers -/

/-- The tree that a token is by itself. -/
def leaf? : Token → Option Expr
  | .number x => some (.number x)
  | .text s => some (.text s)
  | .truth b => some (.truth b)
  | .variable name => some (.variable name)
  | _ => none

theorem gives_leaf {t : Token} {left : Nat} (leaf : leaf? t = some e) :
    Gives (operand (⟨t, left⟩ :: rest)) e rest := by
  refine ⟨Nat.lt_succ_self _, ?_⟩
  cases t <;> cases leaf <;> rw [operand]

theorem gives_enclosed {opened closed : Nat}
    (inner : Gives (disjunction ts) e (⟨.closing, closed⟩ :: rest)) :
    Gives (operand (⟨.opening, opened⟩ :: ts)) e rest := by
  obtain ⟨shorter, read⟩ := inner
  refine ⟨?_, ?_⟩
  · simp only [List.length_cons] at shorter ⊢
    omega
  · rw [operand, read]

theorem gives_comparison_of_operand (only : Gives (operand ts) e rest)
    (ends : Avoids IsComparison rest) : Gives (comparison ts) e rest := by
  obtain ⟨shorter, read⟩ := only
  refine ⟨shorter, ?_⟩
  rw [comparison, read]
  dsimp only
  split
  · next op left us => exact absurd ⟨op, rfl⟩ (ends _ rfl)
  · rfl

theorem gives_comparison {op : Comparison} {left : Nat}
    (first : Gives (operand ts) e (⟨.compare op, left⟩ :: us))
    (second : Gives (operand us) f rest) : Gives (comparison ts) (.compare e op f) rest := by
  obtain ⟨shorter, read⟩ := first
  obtain ⟨shorter', read'⟩ := second
  refine ⟨?_, ?_⟩
  · simp only [List.length_cons] at shorter
    omega
  · rw [comparison, read]
    dsimp only
    rw [read']

theorem gives_not {left : Nat} (inner : Gives (negation ts) e rest) :
    Gives (negation (⟨.not, left⟩ :: ts)) (.not e) rest := by
  obtain ⟨shorter, read⟩ := inner
  exact ⟨Nat.lt_succ_of_lt shorter, by rw [negation, read]⟩

/-- What a comparison is read from does not begin with `not`. -/
theorem gives_negation_of_comparison (only : Gives (comparison ts) e rest) :
    Gives (negation ts) e rest := by
  obtain ⟨shorter, read⟩ := only
  refine ⟨shorter, ?_⟩
  rw [negation, read]
  rintro left us rfl
  rw [comparison, operand] at read
  · cases read
  all_goals
    intros
    simp_all

theorem goesOnAnd_stop (ends : Avoids (· = .and) rest) : GoesOnAnd e rest e rest := by
  intro bound shorter
  refine ⟨shorter, ?_⟩
  rw [moreConjuncts]
  split
  · next left us shape => exact absurd rfl (ends ⟨.and, left⟩ (congrArg List.head? shape))
  · rfl

theorem goesOnAnd_more {left : Nat} (second : Gives (negation us) f rest)
    (more : GoesOnAnd (.and e f) rest e' rest') :
    GoesOnAnd e (⟨.and, left⟩ :: us) e' rest' := by
  intro bound shorter
  obtain ⟨shorter', read⟩ := second
  rw [moreConjuncts]
  dsimp only
  rw [read]
  exact more bound _

theorem gives_conjunction (first : Gives (negation ts) e rest)
    (more : GoesOnAnd e rest e' rest') : Gives (conjunction ts) e' rest' := by
  obtain ⟨shorter, read⟩ := first
  rw [conjunction, read]
  exact more _ shorter

theorem goesOnOr_stop (ends : Avoids (· = .or) rest) : GoesOnOr e rest e rest := by
  intro bound shorter
  refine ⟨shorter, ?_⟩
  rw [moreDisjuncts]
  split
  · next left us shape => exact absurd rfl (ends ⟨.or, left⟩ (congrArg List.head? shape))
  · rfl

theorem goesOnOr_more {left : Nat} (second : Gives (conjunction us) f rest)
    (more : GoesOnOr (.or e f) rest e' rest') :
    GoesOnOr e (⟨.or, left⟩ :: us) e' rest' := by
  intro bound shorter
  obtain ⟨shorter', read⟩ := second
  rw [moreDisjuncts]
  dsimp only
  rw [read]
  exact more bound _

theorem gives_disjunction (first : Gives (conjunction ts) e rest)
    (more : GoesOnOr e rest e' rest') : Gives (disjunction ts) e' rest' := by
  obtain ⟨shorter, read⟩ := first
  rw [disjunction, read]
  exact more _ shorter

/-! ## Wordings -/

/-- Every reader that is loose enough for a grade reads these tokens as this tree. -/
structure Reads (grade : Nat) (e : Expr) (ts : List Lexeme) : Prop where
  operand : 4 ≤ grade → ∀ rest, Gives (operand (ts ++ rest)) e rest
  comparison : 3 ≤ grade → ∀ rest, Avoids IsComparison rest →
    Gives (comparison (ts ++ rest)) e rest
  negation : 2 ≤ grade → ∀ rest, Avoids IsComparison rest → Gives (negation (ts ++ rest)) e rest
  conjunction : 1 ≤ grade → ∀ rest e' rest', Avoids IsComparison rest →
    GoesOnAnd e rest e' rest' → Gives (conjunction (ts ++ rest)) e' rest'
  disjunction : ∀ rest e' rest', Avoids IsComparison rest → Avoids (· = .and) rest →
    GoesOnOr e rest e' rest' → Gives (disjunction (ts ++ rest)) e' rest'

/-- What the reader of a grade reads is read by the looser readers, too. -/
theorem reads_disjunction (h : ∀ rest e' rest', Avoids IsComparison rest →
    Avoids (· = .and) rest → GoesOnOr e rest e' rest' →
    Gives (disjunction (ts ++ rest)) e' rest') : Reads 0 e ts where
  operand small := absurd small (by decide)
  comparison small := absurd small (by decide)
  negation small := absurd small (by decide)
  conjunction small := absurd small (by decide)
  disjunction := h

theorem reads_conjunction (h : ∀ rest e' rest', Avoids IsComparison rest →
    GoesOnAnd e rest e' rest' → Gives (conjunction (ts ++ rest)) e' rest') : Reads 1 e ts where
  operand small := absurd small (by decide)
  comparison small := absurd small (by decide)
  negation small := absurd small (by decide)
  conjunction _ := h
  disjunction rest _ _ apart noAnd more :=
    gives_disjunction (h rest e rest apart (goesOnAnd_stop noAnd)) more

theorem reads_negation (h : ∀ rest, Avoids IsComparison rest →
    Gives (negation (ts ++ rest)) e rest) : Reads 2 e ts where
  operand small := absurd small (by decide)
  comparison small := absurd small (by decide)
  negation _ := h
  conjunction _ rest _ _ apart more := gives_conjunction (h rest apart) more
  disjunction := (reads_conjunction fun rest _ _ apart more =>
    gives_conjunction (h rest apart) more).disjunction

theorem reads_comparison (h : ∀ rest, Avoids IsComparison rest →
    Gives (comparison (ts ++ rest)) e rest) : Reads 3 e ts :=
  have looser := reads_negation fun rest apart => gives_negation_of_comparison (h rest apart)
  { operand := fun small => absurd small (by decide)
    comparison := fun _ => h
    negation := fun _ => looser.negation (by decide)
    conjunction := fun _ => looser.conjunction (by decide)
    disjunction := looser.disjunction }

theorem reads_operand (h : ∀ rest, Gives (operand (ts ++ rest)) e rest) : Reads 4 e ts :=
  have looser := reads_comparison fun rest apart => gives_comparison_of_operand (h rest) apart
  { operand := fun _ => h
    comparison := fun _ => looser.comparison (by decide)
    negation := fun _ => looser.negation (by decide)
    conjunction := fun _ => looser.conjunction (by decide)
    disjunction := looser.disjunction }

/-- Lexemes spell pieces if their tokens are those of the pieces. -/
def Spells (ts : List Lexeme) (ps : List Piece) : Prop :=
  ts.map (·.token) = ps.map Piece.token

theorem Spells.cons {p : Piece} {ps : List Piece} (spells : Spells ts (p :: ps)) :
    ∃ left us, ts = ⟨p.token, left⟩ :: us ∧ Spells us ps := by
  obtain ⟨⟨t, left⟩, us, rfl, rfl, others⟩ := List.map_eq_cons_iff.1 spells
  exact ⟨left, us, rfl, others⟩

theorem Spells.append {ps qs : List Piece} (spells : Spells ts (ps ++ qs)) :
    ∃ us vs, ts = us ++ vs ∧ Spells us ps ∧ Spells vs qs := by
  rw [Spells, List.map_append, List.map_eq_append_iff] at spells
  exact spells

theorem Spells.nil (spells : Spells ts []) : ts = [] := List.map_eq_nil_iff.1 spells

theorem avoids_cons {kind : Token → Prop} {t : Token} {left : Nat} (other : ¬kind t)
    (rest : List Lexeme) : Avoids kind (⟨t, left⟩ :: rest) := by
  intro lexeme mem
  cases mem
  exact other

/-- Between parentheses anything is read, and as an operand. -/
theorem reads_enclosed {g : Nat} {ps : List Piece} (inner : ∀ us, Spells us ps → Reads g e us)
    (spells : Spells ts (Wording.enclose true ps)) : Reads 4 e ts := by
  obtain ⟨opened, us, rfl, others⟩ := spells.cons
  obtain ⟨vs, last, rfl, within, ends⟩ := others.append
  obtain ⟨closed, none, rfl, empty⟩ := ends.cons
  cases empty.nil
  apply reads_operand
  intro rest
  have noComparison : ¬IsComparison .closing := fun ⟨_, h⟩ => Token.noConfusion h
  have read := (inner vs within).disjunction (⟨.closing, closed⟩ :: rest) e _
    (avoids_cons noComparison rest) (avoids_cons (by decide) rest)
    (goesOnOr_stop (avoids_cons (by decide) rest))
  rw [List.cons_append, List.append_assoc, List.singleton_append]
  exact gives_enclosed read

/-- An operand with the parentheses that it needs is read where a grade is asked for. -/
theorem reads_enclose {w : Wording} {k : Nat} (small : k ≤ 4)
    (inner : ∀ us, Spells us w.pieces → Reads w.grade w.expr us)
    (spells : Spells ts (Wording.enclose (w.grade < k) w.pieces)) :
    ∃ g, k ≤ g ∧ Reads g w.expr ts := by
  by_cases needed : w.grade < k
  · rw [decide_eq_true needed] at spells
    exact ⟨4, small, reads_enclosed inner spells⟩
  · rw [decide_eq_false needed] at spells
    exact ⟨w.grade, Nat.le_of_not_lt needed, inner ts spells⟩

theorem not_isComparison_and : ¬IsComparison .and := fun ⟨_, h⟩ => Token.noConfusion h

theorem not_isComparison_or : ¬IsComparison .or := fun ⟨_, h⟩ => Token.noConfusion h

/-- The tokens of a wording are read as its tree. -/
theorem reads_wording (w : Wording) (spells : Spells ts w.pieces) :
    Reads w.grade w.expr ts := by
  induction w generalizing ts with
  | number | text | truth | «variable» =>
    obtain ⟨left, us, rfl, others⟩ := spells.cons
    cases others.nil
    exact reads_operand fun rest => gives_leaf rfl
  | not spelling operand ih =>
    obtain ⟨left, us, rfl, others⟩ := spells.cons
    obtain ⟨g, tight, read⟩ := reads_enclose (by decide) (fun _ => ih) others
    exact reads_negation fun rest apart => gives_not (read.negation tight rest apart)
  | and spelling first second ihFirst ihSecond =>
    obtain ⟨us, others, rfl, before, behind⟩ := spells.append
    obtain ⟨left, vs, rfl, after⟩ := behind.cons
    obtain ⟨g, tight, read⟩ := reads_enclose (by decide) (fun _ => ihFirst) before
    obtain ⟨g', tight', read'⟩ := reads_enclose (by decide) (fun _ => ihSecond) after
    apply reads_conjunction
    intro rest e' rest' apart more
    rw [List.append_assoc, List.cons_append]
    exact read.conjunction tight _ e' rest' (avoids_cons not_isComparison_and _)
      (goesOnAnd_more (read'.negation tight' rest apart) more)
  | or spelling first second ihFirst ihSecond =>
    obtain ⟨us, others, rfl, before, behind⟩ := spells.append
    obtain ⟨left, vs, rfl, after⟩ := behind.cons
    have read := ihFirst before
    obtain ⟨g, tight, read'⟩ := reads_enclose (by decide) (fun _ => ihSecond) after
    apply reads_disjunction
    intro rest e' rest' apart noAnd more
    rw [List.append_assoc, List.cons_append]
    have second := read'.conjunction tight rest _ rest apart (goesOnAnd_stop noAnd)
    have apartFromAnd : Avoids (· = .and) (⟨.or, left⟩ :: (vs ++ rest)) :=
      avoids_cons (by decide) _
    exact read.disjunction _ e' rest' (avoids_cons not_isComparison_or _) apartFromAnd
      (goesOnOr_more second more)
  | compare first op second ihFirst ihSecond =>
    obtain ⟨us, others, rfl, before, behind⟩ := spells.append
    obtain ⟨left, vs, rfl, after⟩ := behind.cons
    obtain ⟨g, tight, read⟩ := reads_enclose (by decide) (fun _ => ihFirst) before
    obtain ⟨g', tight', read'⟩ := reads_enclose (by decide) (fun _ => ihSecond) after
    apply reads_comparison
    intro rest apart
    rw [List.append_assoc, List.cons_append]
    exact gives_comparison (read.operand tight _) (read'.operand tight' rest)
  | group inner ih => exact reads_enclosed (fun _ => ih) spells

/-! ## Texts -/

theorem parseTokens_of_gives (read : Gives (disjunction ts) e []) : parseTokens ts = .ok e := by
  obtain ⟨shorter, read⟩ := read
  rw [parseTokens, read]
  rfl

theorem parseTokens_wording (w : Wording) (spells : Spells ts w.pieces) :
    parseTokens ts = .ok w.expr := by
  have ends (kind : Token → Prop) : Avoids kind [] := fun _ mem => by cases mem
  have read := (reads_wording w spells).disjunction [] w.expr [] (ends _) (ends _)
    (goesOnOr_stop (ends _))
  rw [List.append_nil] at read
  exact parseTokens_of_gives read

namespace Wording

theorem pieces_ne_nil (w : Wording) : w.pieces ≠ [] := by
  cases w <;> simp [pieces, enclose]

/-- A wording is not all white space. -/
theorem isEmptyTrimmed_write (w : Wording) : Text.isEmptyTrimmed w.write = false := by
  obtain ⟨p, ps, shape⟩ := List.exists_cons_of_ne_nil w.pieces_ne_nil
  obtain ⟨c, s, chars, visible, -⟩ := p.token_eq delimits_nil
  have first : ∃ t, [' '].intercalate (w.pieces.map Piece.chars) = c :: t := by
    rw [shape, List.map_cons, chars]
    cases ps with
    | nil => exact ⟨s, List.intercalate_singleton⟩
    | cons q qs => exact ⟨_, by rw [List.map_cons, List.intercalate_cons_cons]; rfl⟩
  obtain ⟨t, first⟩ := first
  rw [Text.isEmptyTrimmed, write, String.toList_ofList, first, List.all_cons, visible,
    Bool.false_and]

end Wording

/-- No two names are found exactly where there are no two. -/
theorem twoNames?_eq_none_iff {names : List String} :
    twoNames? names = none ↔ ∀ a ∈ names, ∀ b ∈ names, a = b := by
  cases names with
  | nil => simp [twoNames?]
  | cons first others =>
    simp only [twoNames?, Option.map_eq_none_iff, List.find?_eq_none, bne_iff_ne, not_not]
    constructor
    · intro same
      have equal : ∀ name ∈ first :: others, name = first := List.forall_mem_cons.2 ⟨rfl, same⟩
      intro a ha b hb
      exact (equal a ha).trans (equal b hb).symm
    · intro one name mem
      exact one name (List.mem_cons_of_mem _ mem) first List.mem_cons_self

/-- A wording is read as its tree if no two names are found in it. -/
theorem parse_wording (w : Wording) (one : twoNames? w.expr.names = none) :
    parse w.write = .ok ⟨Text.trim w.write, w.expr⟩ := by
  have spells : Spells (lex w.write.toList) w.pieces := by
    rw [Wording.write, String.toList_ofList]
    exact lex_pieces w.pieces
  rw [parse, w.isEmptyTrimmed_write]
  simp only [Bool.false_eq_true, if_false, parseTokens_wording w spells, one]

/-- A condition that is written with single spaces between its pieces, in either spelling of its
operators and with parentheses where they are needed, is read back as its tree, provided that it
speaks of at most one variable. -/
theorem parse_write (w : Wording) (one : ∀ a ∈ w.expr.names, ∀ b ∈ w.expr.names, a = b) :
    parse w.write = .ok ⟨Text.trim w.write, w.expr⟩ :=
  parse_wording w (twoNames?_eq_none_iff.2 one)

/-- `not ( answer or 'x' ) && 1.50e+2 <= answer` is read back. -/
theorem parse_write_mixed :
    let answer : Identifier := ⟨'a', ['n', 's', 'w', 'e', 'r'], by decide,
      List.all_eq_true.1 (by decide), by decide⟩
    let x : Quoted := ⟨'\'', "x", .inl rfl, by decide⟩
    let digits : ∀ c ∈ ['5', '0'], c.isDigit = true := List.all_eq_true.1 (by decide)
    let exponent : Exponent := ⟨'e', some false, ['2'], .inl rfl, fun _ h => by simp_all,
      List.cons_ne_nil _ _⟩
    let n : Numeral := ⟨false, ['1'], some ['5', '0'], some exponent, fun _ h => by simp_all,
      fun _ h => by cases h; exact digits, nofun⟩
    let w : Wording := .and .symbol
      (.not .word (.or .word (.variable answer) (.text x)))
      (.compare (.number n) .le (.variable answer))
    w.write = "not ( answer or 'x' ) && 1.50e+2 <= answer" ∧
    parse w.write = .ok ⟨"not ( answer or 'x' ) && 1.50e+2 <= answer",
      .and (.not (.or (.variable "answer") (.text "x")))
        (.compare (.number (Binary64.ofInt 150)) .le (.variable "answer"))⟩ := by
  intro answer x digits exponent n w
  have written : w.write = "not ( answer or 'x' ) && 1.50e+2 <= answer" := by decide +kernel
  have tree : w.expr = .and (.not (.or (.variable "answer") (.text "x")))
      (.compare (.number (Binary64.ofInt 150)) .le (.variable "answer")) := by decide +kernel
  have read := parse_write w (by rw [tree]; decide)
  rw [written, tree] at read
  rw [written, read]
  exact ⟨rfl, by decide +kernel⟩

end Sweep.Condition
