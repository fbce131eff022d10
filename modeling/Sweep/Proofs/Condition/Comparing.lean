import Mathlib.Algebra.Group.Nat.Defs
import Mathlib.Data.Int.Order.Basic
import Mathlib.Order.Compare
import Mathlib.Order.Monotone.Basic
import Sweep.Condition.Operand
import Sweep.Number.Binary64

/-!
# The six comparisons agree with each other

Two operands stand in an order, in whichever of the three ways they are compared, and to exchange
them exchanges the order. So each comparison says about the order what its sign says: one of `<`,
`==` and `>` holds, and the other three are what they are made of. Only where a number is compared
with what is no number is there no order, and then `!=` is the only comparison that holds.

Numbers are compared as integers, by their magnitudes and signs. A magnitude counts the numbers up
from zero, so a greater one stands for a greater absolute value: within a binade every step adds the
same, and the first number of the next binade comes one such step after the last. An infinity counts
as the power of two behind the last binade, which is above every finite number.
-/

/-! ## Numbers are ordered by their values -/

namespace Sweep.Binary64

/-- To exchange two numbers exchanges their order. -/
theorem compare?_swap (x y : Binary64) : y.compare? x = (x.compare? y).map Ordering.swap := by
  rw [compare?, compare?, Bool.or_comm]
  split
  · rfl
  · exact congrArg some Std.OrientedCmp.eq_swap

/-- The absolute value of the numbers of a magnitude, in units. -/
def unitsOf (magnitude : Nat) : Nat := (⟨false, magnitude⟩ : Binary64).units

variable {x y : Binary64}

theorem binade_pos : 0 < binade := by decide

/-- The number after `place` steps of a binade; the lowest binade has no leading bit. -/
theorem unitsOf_eq (index : Nat) {place : Nat} (within : place < binade) :
    unitsOf (index * binade + place) =
      (if index = 0 then place else binade + place) * 2 ^ (index - 1) := by
  have quotient : (index * binade + place) / binade = index := by
    rw [Nat.mul_comm, Nat.mul_add_div binade_pos, Nat.div_eq_of_lt within, Nat.add_zero]
  have remainder : (index * binade + place) % binade = place := by
    rw [Nat.mul_comm, Nat.mul_add_mod, Nat.mod_eq_of_lt within]
  have lowest : index * binade + place < binade ↔ index = 0 := by
    rw [← Nat.div_lt_one_iff binade_pos, quotient, Nat.lt_one_iff]
  simp only [unitsOf, units, significand, scale, quotient, remainder, lowest, Nat.shiftLeft_eq]
  by_cases first : index = 0
  · simp only [first, if_true, Nat.zero_mul, Nat.zero_add]
  · simp only [first, if_false]

/-- The next magnitude stands for a greater value. -/
theorem unitsOf_lt_succ (magnitude : Nat) : unitsOf magnitude < unitsOf (magnitude + 1) := by
  obtain ⟨index, place, within, rfl⟩ :
      ∃ index place, place < binade ∧ magnitude = index * binade + place := by
    refine ⟨magnitude / binade, magnitude % binade, Nat.mod_lt _ binade_pos, ?_⟩
    rw [Nat.mul_comm]
    exact (Nat.div_add_mod magnitude binade).symm
  rw [unitsOf_eq index within, Nat.add_assoc]
  by_cases more : place + 1 < binade
  · rw [unitsOf_eq index more]
    apply Nat.mul_lt_mul_of_pos_right _ (Nat.two_pow_pos _)
    split <;> omega
  · -- The step leads into the next binade, whose steps are twice as wide, the first two apart.
    have last : place + 1 = binade := by omega
    have next : index * binade + (place + 1) = (index + 1) * binade + 0 := by
      rw [last, Nat.succ_mul, Nat.add_zero]
    rw [next, unitsOf_eq (index + 1) binade_pos, if_neg (Nat.succ_ne_zero index), Nat.add_zero,
      Nat.add_sub_cancel]
    cases index with
    | zero =>
      rw [if_pos rfl]
      show place * 1 < binade * 1
      omega
    | succ lower =>
      rw [if_neg (Nat.succ_ne_zero lower), Nat.add_sub_cancel, Nat.pow_succ,
        Nat.mul_comm (2 ^ lower), ← Nat.mul_assoc]
      apply Nat.mul_lt_mul_of_pos_right _ (Nat.two_pow_pos _)
      omega

theorem strictMono_unitsOf : StrictMono unitsOf := strictMono_nat_of_lt_succ unitsOf_lt_succ

theorem unitsOf_eq_zero_iff {magnitude : Nat} : unitsOf magnitude = 0 ↔ magnitude = 0 :=
  strictMono_unitsOf.injective.eq_iff (b := 0)

/-- A number has a lower key exactly if it has a lower value. -/
theorem key_lt_key_iff (x y : Binary64) : x.key < y.key ↔ x.signedUnits < y.signedUnits := by
  obtain ⟨negative, m⟩ := x
  obtain ⟨negative', n⟩ := y
  have less : unitsOf m < unitsOf n ↔ m < n := strictMono_unitsOf.lt_iff_lt
  have more : unitsOf n < unitsOf m ↔ n < m := strictMono_unitsOf.lt_iff_lt
  have zero := @unitsOf_eq_zero_iff m
  have zero' := @unitsOf_eq_zero_iff n
  show (if negative then -(m : Int) else m) < (if negative' then -(n : Int) else n) ↔
    (if negative then -(unitsOf m : Int) else unitsOf m) <
      if negative' then -(unitsOf n : Int) else unitsOf n
  generalize unitsOf m = u at *
  generalize unitsOf n = v at *
  cases negative <;> cases negative' <;> simp only [if_true, Bool.false_eq_true, if_false] <;> omega

/-- Numbers are compared by their values, with zero equal to its negative. -/
theorem compare?_eq_signedUnits (number : x.isNaN = false) (number' : y.isNaN = false) :
    x.compare? y = some (compare x.signedUnits y.signedUnits) := by
  rw [compare?, number, number', Bool.or_false, if_neg Bool.false_ne_true, Option.some_inj]
  rcases lt_trichotomy x.key y.key with less | same | more
  · rw [compare_lt_iff_lt.2 less, compare_lt_iff_lt.2 ((key_lt_key_iff x y).1 less)]
  · have less := (key_lt_key_iff x y).not.1 same.not_lt
    have more := (key_lt_key_iff y x).not.1 same.not_gt
    rw [compare_eq_iff_eq.2 same, compare_eq_iff_eq.2 (le_antisymm (not_lt.1 more) (not_lt.1 less))]
  · rw [compare_gt_iff_gt.2 more, compare_gt_iff_gt.2 ((key_lt_key_iff y x).1 more)]

end Sweep.Binary64

namespace Sweep.Condition

/-! ## What a comparison says about an order -/

namespace Comparison

variable (o : Option Ordering)

theorem holds_ne : ne.holds o = !eq.holds o := by
  cases o with
  | none => rfl
  | some o => rfl

theorem holds_le : le.holds o = (lt.holds o || eq.holds o) := by
  cases o with
  | none => rfl
  | some o => cases o <;> rfl

theorem holds_ge : ge.holds o = (gt.holds o || eq.holds o) := by
  cases o with
  | none => rfl
  | some o => cases o <;> rfl

/-- What is below seen from one side is above from the other. -/
theorem holds_gt_swap : gt.holds (o.map Ordering.swap) = lt.holds o := by
  cases o with
  | none => rfl
  | some o => cases o <;> rfl

theorem holds_eq_swap : eq.holds (o.map Ordering.swap) = eq.holds o := by
  cases o with
  | none => rfl
  | some o => cases o <;> rfl

/-- The comparisons that exclude each other. -/
def strict : List Comparison := [lt, eq, gt]

theorem holds_none {op : Comparison} (among : op ∈ strict) : op.holds none = false := by
  revert op
  decide

def ofOrdering : Ordering → Comparison
  | .lt => lt
  | .eq => eq
  | .gt => gt

theorem existsUnique_holds (o : Ordering) : ∃! op, op ∈ strict ∧ op.holds (some o) = true := by
  have named : ofOrdering o ∈ strict ∧ (ofOrdering o).holds (some o) = true := by
    cases o <;> decide
  have only : ∀ op ∈ strict, op.holds (some o) = true → op = ofOrdering o := by
    cases o <;> decide
  exact ⟨ofOrdering o, named, fun op ⟨among, holds⟩ => only op among holds⟩

end Comparison

/-! ## The order of operands -/

namespace Operand

/-- Both operands read as numbers, and one of these is not a number. -/
def Unordered (a b : Operand) : Prop :=
  ∃ x ∈ a.number?, ∃ y ∈ b.number?, x.isNaN = true ∨ y.isNaN = true

/-- The order of two operands that do not both read as numbers. -/
def plainOrder : Operand → Operand → Ordering
  | .truth p, .truth q => Ord.compare p q
  | a, b => Ord.compare a.asText b.asText

variable {a b : Operand}

theorem order?_of_numbers {x y : Binary64} (first : a.number? = some x)
    (second : b.number? = some y) : a.order? b = x.compare? y := by
  rw [order?.eq_def, first, second]

theorem order?_of_no_number (missing : a.number? = none ∨ b.number? = none) :
    a.order? b = some (plainOrder a b) := by
  rw [order?.eq_def]
  split
  · next first second =>
    rw [first, second] at missing
    rcases missing with missing | missing <;> cases missing
  · cases a <;> cases b <;> rfl

theorem plainOrder_swap (a b : Operand) : plainOrder b a = (plainOrder a b).swap := by
  have texts : Ord.compare b.asText a.asText = (Ord.compare a.asText b.asText).swap :=
    Std.OrientedCmp.eq_swap
  cases a with
  | truth p =>
    cases b with
    | truth q =>
      show Ord.compare q p = (Ord.compare p q).swap
      exact Std.OrientedCmp.eq_swap
    | number | text => exact texts
  | number | text => cases b <;> exact texts

theorem order?_swap (a b : Operand) : b.order? a = (a.order? b).map Ordering.swap := by
  cases first : a.number? with
  | none =>
    rw [order?_of_no_number (.inl first), order?_of_no_number (.inr first), plainOrder_swap]
    rfl
  | some x =>
    cases second : b.number? with
    | none =>
      rw [order?_of_no_number (.inr second), order?_of_no_number (.inl second), plainOrder_swap]
      rfl
    | some y =>
      rw [order?_of_numbers first second, order?_of_numbers second first, x.compare?_swap]

/-- There is no order only where a number is compared with what is no number. -/
theorem order?_eq_none_iff : a.order? b = none ↔ Unordered a b := by
  constructor
  · intro unknown
    cases first : a.number? with
    | none =>
      rw [order?_of_no_number (.inl first)] at unknown
      cases unknown
    | some x =>
      cases second : b.number? with
      | none =>
        rw [order?_of_no_number (.inr second)] at unknown
        cases unknown
      | some y =>
        rw [order?_of_numbers first second, Binary64.compare?_eq_none_iff] at unknown
        exact ⟨x, first, y, second, unknown⟩
  · rintro ⟨x, first, y, second, nan⟩
    rw [order?_of_numbers first second]
    exact Binary64.compare?_eq_none_iff.2 nan

/-- The six comparisons of two operands agree with each other and with those of the operands the
other way round; one of `<`, `==` and `>` holds, unless one of two numbers is not a number; and
other numbers are compared by their values. -/
theorem compare_coherent (a b : Operand) :
    (a.compare .ne b = !a.compare .eq b ∧
      a.compare .le b = (a.compare .lt b || a.compare .eq b) ∧
      a.compare .ge b = (a.compare .gt b || a.compare .eq b)) ∧
    (a.compare .lt b = b.compare .gt a ∧ a.compare .eq b = b.compare .eq a) ∧
    (Unordered a b → ∀ op ∈ Comparison.strict, a.compare op b = false) ∧
    (¬Unordered a b → ∃! op, op ∈ Comparison.strict ∧ a.compare op b = true) ∧
    ∀ x ∈ a.number?, ∀ y ∈ b.number?, ¬Unordered a b →
      a.order? b = some (Ord.compare x.signedUnits y.signedUnits) := by
  refine ⟨⟨Comparison.holds_ne _, Comparison.holds_le _, Comparison.holds_ge _⟩, ?_, ?_, ?_, ?_⟩
  · rw [compare, compare, compare, compare, order?_swap a b]
    exact ⟨(Comparison.holds_gt_swap _).symm, (Comparison.holds_eq_swap _).symm⟩
  · intro unordered op among
    rw [compare, order?_eq_none_iff.2 unordered]
    exact Comparison.holds_none among
  · intro ordered
    obtain ⟨o, order⟩ := Option.ne_none_iff_exists'.1 (mt order?_eq_none_iff.1 ordered)
    have unique := Comparison.existsUnique_holds o
    rwa [← order] at unique
  · intro x first y second ordered
    have number : x.isNaN = false := by
      rw [Bool.eq_false_iff]
      exact fun nan => ordered ⟨x, first, y, second, .inl nan⟩
    have number' : y.isNaN = false := by
      rw [Bool.eq_false_iff]
      exact fun nan => ordered ⟨x, first, y, second, .inr nan⟩
    rw [order?_of_numbers first second, Binary64.compare?_eq_signedUnits number number']

/-- The text ` 1e1 ` reads as a number and is above 9; a truth value is compared as a text, and so
`true` is above the text of 9; and nothing holds of a NaN but that it differs. -/
theorem compare_coherent_mixed :
    (¬Unordered (.text " 1e1 ") (.number (.ofInt 9)) ∧
      ∃! op, op ∈ Comparison.strict ∧
        (text " 1e1 ").compare op (.number (.ofInt 9)) = true) ∧
    (¬Unordered (.truth true) (.number (.ofInt 9)) ∧
      (truth true).compare .le (.number (.ofInt 9)) = false) ∧
    Unordered (.text "nan") (.number (.ofInt 9)) ∧
      (text "nan").compare .eq (.number (.ofInt 9)) = false ∧
      (text "nan").compare .ne (.number (.ofInt 9)) = true := by
  have nan : number? (.text "nan") = some .nan := rfl
  have ordered : ¬Unordered (.text " 1e1 ") (.number (.ofInt 9)) := by
    have some : (order? (.text " 1e1 ") (.number (.ofInt 9))).isSome = true := by
      set_option maxRecDepth 4000 in rfl
    rw [← order?_eq_none_iff]
    intro none
    rw [none] at some
    cases some
  have ordered' : ¬Unordered (.truth true) (.number (.ofInt 9)) := by
    rintro ⟨x, missing, -⟩
    cases missing
  have unordered : Unordered (.text "nan") (.number (.ofInt 9)) :=
    ⟨.nan, nan, .ofInt 9, rfl, .inl rfl⟩
  obtain ⟨-, -, -, one, -⟩ := compare_coherent (.text " 1e1 ") (.number (.ofInt 9))
  obtain ⟨⟨-, le, -⟩, -⟩ := compare_coherent (.truth true) (.number (.ofInt 9))
  obtain ⟨⟨ne, -⟩, -, nothing, -⟩ := compare_coherent (.text "nan") (.number (.ofInt 9))
  have differ := nothing unordered .eq (by decide)
  refine ⟨⟨ordered, one ordered⟩, ⟨ordered', ?_⟩, unordered, differ, ?_⟩
  · rw [le]
    rfl
  · rw [ne, differ]
    rfl

end Operand

end Sweep.Condition
