import Sweep.Condition.Token

/-!
# From tokens to syntax trees

A comparison binds tightest, then `not`, then `and`, then `or`; `and` and `or` associate to the
left, and comparisons do not chain. One token decides every step, so a reader that gets stuck does
so at the first token that no condition has at its place, and it answers where that is. Every
reader consumes at least one token, which is what the recursion ends by.
-/

namespace Sweep.Condition

/-- A tree read from the start of a list of `bound` tokens, and the shorter list that is left. -/
structure Parsed (bound : Nat) where
  expr : Expr
  rest : List Lexeme
  shorter : rest.length < bound

/-- Where a reader stands in the text: the number of characters from there to its end. -/
def place : List Lexeme → Nat
  | [] => 0
  | lexeme :: _ => lexeme.left

/-- The rest of a result is shorter than any longer list, too. -/
def Parsed.widen {m n : Nat} (p : Parsed m) (h : m ≤ n) : Parsed n :=
  ⟨p.expr, p.rest, Nat.lt_of_lt_of_le p.shorter h⟩

mutual

/-- Reads operands joined by `or`. -/
def disjunction (ts : List Lexeme) : Except Nat (Parsed ts.length) :=
  match conjunction ts with
  | .error stuck => .error stuck
  | .ok first => moreDisjuncts ts.length first
termination_by (ts.length, 4)
decreasing_by
  · exact Prod.Lex.right _ (by decide)
  · exact Prod.Lex.left _ _ first.shorter

/-- Reads further operands of `or` behind the first. -/
def moreDisjuncts (bound : Nat) (first : Parsed bound) : Except Nat (Parsed bound) :=
  match h : first.rest with
  | ⟨.or, _⟩ :: ts =>
    match conjunction ts with
    | .error stuck => .error stuck
    | .ok second =>
      moreDisjuncts bound
        ⟨.or first.expr second.expr, second.rest, by
          have := second.shorter
          have := first.shorter
          simp only [h, List.length_cons] at this
          omega⟩
  | _ => .ok first
termination_by (first.rest.length, 4)
decreasing_by
  · exact Prod.Lex.left _ _ (by simp [h])
  · refine Prod.Lex.left _ _ ?_
    have := second.shorter
    simp only [h, List.length_cons]
    omega

/-- Reads operands joined by `and`. -/
def conjunction (ts : List Lexeme) : Except Nat (Parsed ts.length) :=
  match negation ts with
  | .error stuck => .error stuck
  | .ok first => moreConjuncts ts.length first
termination_by (ts.length, 3)
decreasing_by
  · exact Prod.Lex.right _ (by decide)
  · exact Prod.Lex.left _ _ first.shorter

/-- Reads further operands of `and` behind the first. -/
def moreConjuncts (bound : Nat) (first : Parsed bound) : Except Nat (Parsed bound) :=
  match h : first.rest with
  | ⟨.and, _⟩ :: ts =>
    match negation ts with
    | .error stuck => .error stuck
    | .ok second =>
      moreConjuncts bound
        ⟨.and first.expr second.expr, second.rest, by
          have := second.shorter
          have := first.shorter
          simp only [h, List.length_cons] at this
          omega⟩
  | _ => .ok first
termination_by (first.rest.length, 3)
decreasing_by
  · exact Prod.Lex.left _ _ (by simp [h])
  · refine Prod.Lex.left _ _ ?_
    have := second.shorter
    simp only [h, List.length_cons]
    omega

/-- Reads a comparison behind any number of `not`. -/
def negation (ts : List Lexeme) : Except Nat (Parsed ts.length) :=
  match ts with
  | ⟨.not, _⟩ :: rest =>
    match negation rest with
    | .error stuck => .error stuck
    | .ok p => .ok ⟨.not p.expr, p.rest, Nat.lt_succ_of_lt p.shorter⟩
  | ts => comparison ts
termination_by (ts.length, 2)
decreasing_by
  · exact Prod.Lex.left _ _ (by simp)
  · exact Prod.Lex.right _ (by decide)

/-- Reads an operand, or two operands with a comparison between them. -/
def comparison (ts : List Lexeme) : Except Nat (Parsed ts.length) :=
  match operand ts with
  | .error stuck => .error stuck
  | .ok left =>
    match h : left.rest with
    | ⟨.compare op, _⟩ :: rest =>
      match operand rest with
      | .error stuck => .error stuck
      | .ok right =>
        .ok ⟨.compare left.expr op right.expr, right.rest, by
          have := right.shorter
          have := left.shorter
          simp only [h, List.length_cons] at this
          omega⟩
    | _ => .ok left
termination_by (ts.length, 1)
decreasing_by
  · exact Prod.Lex.right _ (by decide)
  · refine Prod.Lex.left _ _ ?_
    have := left.shorter
    simp only [h, List.length_cons] at this
    omega

/-- Reads a literal, a variable or a condition between parentheses. -/
def operand (ts : List Lexeme) : Except Nat (Parsed ts.length) :=
  match ts with
  | ⟨.number x, _⟩ :: rest => .ok ⟨.number x, rest, by simp⟩
  | ⟨.text s, _⟩ :: rest => .ok ⟨.text s, rest, by simp⟩
  | ⟨.truth b, _⟩ :: rest => .ok ⟨.truth b, rest, by simp⟩
  | ⟨.variable name, _⟩ :: rest => .ok ⟨.variable name, rest, by simp⟩
  | ⟨.opening, _⟩ :: inner =>
    match disjunction inner with
    | .error stuck => .error stuck
    | .ok p =>
      match h : p.rest with
      | ⟨.closing, _⟩ :: rest =>
        .ok ⟨p.expr, rest, by
          have := p.shorter
          simp only [h, List.length_cons] at this
          simp only [List.length_cons]
          omega⟩
      | rest => .error (place rest)
  | ts => .error (place ts)
termination_by (ts.length, 0)
decreasing_by
  exact Prod.Lex.left _ _ (by simp)

end

/-- Reads the tree that a whole list of tokens spells, or answers where it gets stuck. -/
def parseTokens (ts : List Lexeme) : Except Nat Expr :=
  match disjunction ts with
  | .error stuck => .error stuck
  | .ok p => if p.rest.isEmpty then .ok p.expr else .error (place p.rest)

end Sweep.Condition
