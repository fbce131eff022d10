import Mathlib.Algebra.Order.Floor.Ring
import Mathlib.Data.Rat.Floor
import Mathlib.Tactic.FieldSimp
import Mathlib.Tactic.Linarith
import Sweep.Proofs.Compile.Expansion

/-!
# Ranges of whole numbers

How far a range goes is decided by a quotient and a tolerance and not by a comparison with its
bound. The tolerance is an absolute part of the quotient, so it is a part of the step: in exact
arithmetic a range goes on up to a thousand millionth of a step beyond its bound. While steps are
shorter than a thousand million this is less than one, and a range of whole numbers has exactly the
values up to its bound; with longer steps it may have one more.
-/

namespace Sweep

namespace RangeArithmetic

/-! ## Ranges in any arithmetic -/

section

variable {α : Type} [RangeArithmetic α]

/-- Whether a range goes upward, between bounds and in steps that are finite. -/
def isUpward (min max step : α) : Bool :=
  isFinite min && isFinite max && isFinite step && lt (ofNat 0) step && !lt max min

/-- Whether a range may have so many steps. -/
def allows (steps : α) : Bool := isFinite steps && lt steps (ofNat maxRangeValues)

/-- The values of a range, if it is accepted. -/
def points? (min max step : α) : Option (List α) :=
  if isUpward min max step && allows (steps min max step) then
    some (values min step (toInt (steps min max step)).toNat)
  else none

/-- Whether the integer of a number has at most 63 bits besides its sign. -/
def fits (x : α) : Bool := lt (ofNat 0 - ofNat (1 <<< 63)) x && lt x (ofNat (1 <<< 63))

/-- The values of an accepted range that counts in whole numbers. -/
def integers? (min max step : α) : Option (List Int) :=
  (points? min max step).bind fun points =>
    if isWhole min && isWhole step && points.all fits then some (points.map toInt) else none

end

/-! ## The arithmetic of doubles -/

theorem abs_lt_of_fits {x : Binary64} (h : fits x = true) :
    x.abs.lt (Binary64.ofInt (1 <<< 63 : Nat)) = true := by
  obtain ⟨above, below⟩ := Bool.and_eq_true_iff.1 h
  have number : x.isNaN = false := Binary64.isNaN_of_lt below
  have bound := Binary64.isNaN_of_isFinite Binary64.isFinite_two_pow
  have low : (ofNat 0 - ofNat (1 <<< 63) : Binary64) = (Binary64.ofInt (1 <<< 63 : Nat)).neg := by
    decide +kernel
  have positive : (Binary64.ofInt (1 <<< 63 : Nat)).negative = false := rfl
  rw [low] at above
  have above := (Binary64.lt_iff_key (by exact bound) number).1 above
  have below := (Binary64.lt_iff_key number bound).1 below
  rw [Binary64.lt_iff_key (by exact number) bound]
  simp only [Binary64.key, Binary64.neg, Binary64.abs, positive, Bool.not_false, if_true,
    Bool.false_eq_true, if_false] at *
  cases sign : x.negative <;>
    simp only [sign, if_true, Bool.false_eq_true, if_false] at above below <;> omega

theorem toOption_points (r : RangeSpec) : r.points.toOption = points? r.min r.max r.step := by
  have flip {x y : Binary64} (hx : x.isFinite = true) (hy : y.isFinite = true) :
      x.le y = !y.lt x := by
    have nan {x : Binary64} (h : x.isFinite = true) := Binary64.isNaN_of_isFinite h
    rw [Bool.eq_not_iff, ne_eq, Bool.eq_iff_iff, Binary64.lt_iff_key (nan hy) (nan hx),
      Binary64.le_iff_key (nan hx) (nan hy)]
    omega
  have limit : (Binary64.ofInt maxRangeValues).isFinite = true := by decide +kernel
  change _ = if (r.min.isFinite && r.max.isFinite && r.step.isFinite &&
      Binary64.zero.lt r.step && !r.max.lt r.min) &&
      ((steps r.min r.max r.step).isFinite &&
        (steps r.min r.max r.step).lt (Binary64.ofInt maxRangeValues)) then
      some (values r.min r.step (steps r.min r.max r.step).floorInt.toNat) else none
  simp only [RangeSpec.points]
  by_cases finite : (r.min.isFinite && r.max.isFinite && r.step.isFinite) = true
  · rw [flip (Bool.and_eq_true_iff.1 finite).2 rfl, finite]
    by_cases whole : (steps r.min r.max r.step).isFinite = true
    · rw [flip limit whole, whole]
      cases Binary64.zero.lt r.step <;> cases r.max.lt r.min <;>
        cases (steps r.min r.max r.step).lt (Binary64.ofInt maxRangeValues) <;> rfl
    · rw [Bool.not_eq_true] at whole
      rw [whole]
      cases Binary64.zero.lt r.step <;> cases r.max.lt r.min <;> rfl
  · rw [Bool.not_eq_true] at finite
    rw [finite]
    rfl

theorem rangeValue_of_fits {x : Binary64} (h : fits x = true) :
    rangeValue true x = .ok (.ofInt x.floorInt) := by
  rw [rangeValue, abs_lt_of_fits h]
  rfl

/-- What is told of a range in any arithmetic is told of the values that an experiment has. -/
theorem values_of_integers? {r : RangeSpec} {ns : List Int}
    (known : integers? r.min r.max r.step = some ns) : r.values = .ok (ns.map Json.ofInt) := by
  obtain ⟨points, laid, whole⟩ := Option.bind_eq_some_iff.1 known
  rw [← toOption_points] at laid
  have laid : r.points = .ok points := by
    cases h : r.points with
    | error => rw [h] at laid; cases laid
    | ok => rw [h] at laid; exact congrArg Except.ok (Option.some.inj laid)
  obtain ⟨integral, same⟩ := Option.ite_none_right_eq_some.1 whole
  obtain rfl := Option.some.inj same
  obtain ⟨integral, all⟩ := Bool.and_eq_true_iff.1 integral
  have made : points.mapM (rangeValue true) = .ok (points.map fun x => .ofInt x.floorInt) := by
    rw [mapM_congr fun x mem => rangeValue_of_fits (List.all_eq_true.1 all x mem)]
    exact List.mapM_pure
  have isIntegral : r.isIntegral = true := integral
  rw [RangeSpec.values, laid, isIntegral, List.map_map]
  exact made

/-! ## Exact arithmetic -/

instance : RangeArithmetic ℚ where
  ofNat n := n
  floor q := ⌊q⌋
  tolerance := 1 / 10 ^ 9
  lt a b := decide (a < b)
  isFinite _ := true
  isWhole q := decide ((⌊q⌋ : ℚ) = q)
  toInt q := ⌊q⌋

/-- A list of integers counts from one number in steps as far as another. -/
structure CountsUpTo (first last step : ℤ) (ns : List ℤ) : Prop where
  ascending : ns.Pairwise (· < ·)
  mem_iff : ∀ n, n ∈ ns ↔ n ≤ last ∧ ∃ i : ℕ, n = first + step * i

/-- A number and those that follow it in so many steps. -/
def countFrom (first step : ℤ) (steps : ℕ) : List ℤ :=
  (List.range (steps + 1)).map fun i : ℕ => first + step * i

section Counting

variable {first last step : ℤ} {steps : ℕ}

theorem countsUpTo_countFrom (upward : 1 ≤ step)
    (reaches : ∀ i : ℕ, i ≤ steps ↔ first + step * i ≤ last) :
    CountsUpTo first last step (countFrom first step steps) where
  ascending := by
    rw [countFrom, List.pairwise_map]
    refine List.pairwise_lt_range.imp fun {i j} less => ?_
    have longer : step * (i : ℤ) < step * j :=
      Int.mul_lt_mul_of_pos_left (Int.ofNat_lt.2 less) (Int.lt_of_lt_of_le Int.one_pos upward)
    omega
  mem_iff n := by
    rw [countFrom, List.mem_map]
    constructor
    · rintro ⟨i, among, rfl⟩
      exact ⟨(reaches i).1 (Nat.le_of_lt_succ (List.mem_range.1 among)), i, rfl⟩
    · rintro ⟨within, i, rfl⟩
      exact ⟨i, List.mem_range.2 (Nat.lt_succ_of_le ((reaches i).2 within)), rfl⟩

/-- What counts somewhat beyond a number counts just up to it, unless the next step is reached. -/
theorem CountsUpTo.shorter_iff {ns : List ℤ} {more : ℤ}
    (counts : CountsUpTo first (last + more) step ns) (ordered : first ≤ last)
    (upward : 1 ≤ step) (beyond : 0 ≤ more) :
    CountsUpTo first last step ns ↔ (last - first) % step + more < step := by
  have next : first + step * ((last - first) / step + 1) =
      last + (step - (last - first) % step) := by
    have split := Int.mul_ediv_add_emod (last - first) step
    rw [mul_add, mul_one]
    omega
  have rest := Int.emod_lt_of_pos (last - first) (by omega : 0 < step)
  constructor
  · intro exact_
    by_contra reached
    obtain ⟨i, isNext⟩ : ∃ i : ℕ, (last - first) / step + 1 = i :=
      Int.eq_ofNat_of_zero_le
        (Int.add_nonneg (Int.ediv_nonneg (by omega) (by omega)) Int.one_nonneg)
    rw [isNext] at next
    have among : first + step * (i : ℤ) ∈ ns := (counts.mem_iff _).2 ⟨by omega, i, rfl⟩
    have within := ((exact_.mem_iff _).1 among).1
    omega
  · intro missed
    refine ⟨counts.ascending, fun n => (counts.mem_iff n).trans (and_congr_left ?_)⟩
    rintro ⟨i, rfl⟩
    refine ⟨fun within => ?_, fun within => by omega⟩
    by_contra above
    have further : (last - first) / step < i := by
      rw [Int.ediv_lt_iff_lt_mul (by omega), mul_comm]
      omega
    have long := Int.mul_le_mul_of_nonneg_left (Int.add_one_le_of_lt further)
      (by omega : 0 ≤ step)
    omega

end Counting

section Exact

variable {min max step : ℤ}

def exactSteps (min max step : ℤ) : ℤ := ⌊((max : ℚ) - min) / step + 1 / 10 ^ 9⌋

theorem le_exactSteps_iff (upward : 1 ≤ step) (i : ℕ) :
    (i : ℤ) ≤ exactSteps min max step ↔ min + step * i ≤ max + step / 10 ^ 9 := by
  have positive : (0 : ℚ) < step := by exact_mod_cast upward
  have part : ⌊(step : ℚ) / (10 ^ 9 : ℕ)⌋ = step / (10 ^ 9 : ℕ) := Rat.floor_intCast_div_natCast _ _
  calc (i : ℤ) ≤ exactSteps min max step
      ↔ (i : ℚ) ≤ ((max : ℚ) - min) / step + 1 / 10 ^ 9 := by
        rw [exactSteps, Int.le_floor, Int.cast_natCast]
    _ ↔ ((min + step * i - max : ℤ) : ℚ) ≤ step / (10 ^ 9 : ℕ) := by
        rw [div_add' _ _ _ positive.ne', le_div_iff₀ positive]
        push_cast
        constructor <;> intro h <;> linarith
    _ ↔ min + step * i - max ≤ step / (10 ^ 9 : ℕ) := by rw [← Int.le_floor, part]
    _ ↔ min + step * i ≤ max + step / 10 ^ 9 := by
        push_cast
        omega

theorem exactSteps_nonneg (ordered : min ≤ max) (upward : 1 ≤ step) :
    0 ≤ exactSteps min max step := by
  have part : 0 ≤ step / 10 ^ 9 := Int.ediv_nonneg (by omega) (by decide)
  refine (le_exactSteps_iff upward 0).2 ?_
  rw [Nat.cast_zero, mul_zero, add_zero]
  omega

theorem points?_exact (ordered : min ≤ max) (upward : 1 ≤ step) :
    points? (min : ℚ) max step =
      if exactSteps min max step < maxRangeValues then
        some ((countFrom min step (exactSteps min max step).toNat).map Int.cast)
      else none := by
  have isUp : isUpward (min : ℚ) max step = true := by
    have positive : 0 < step := upward
    simp [isUpward, isFinite, lt, ofNat, positive, ordered]
  have few : allows (steps (min : ℚ) max step) =
      decide (exactSteps min max step < maxRangeValues) := by
    have casts : ((exactSteps min max step : ℤ) : ℚ) < (maxRangeValues : ℕ) ↔
        exactSteps min max step < maxRangeValues := by exact_mod_cast Iff.rfl
    change (true && decide (((exactSteps min max step : ℤ) : ℚ) < (maxRangeValues : ℕ))) = _
    rw [Bool.true_and, decide_eq_decide, casts]
  have whole : toInt (steps (min : ℚ) max step) = exactSteps min max step :=
    Int.floor_intCast (R := ℚ) _
  have laid (n : ℕ) : values (min : ℚ) step n = (countFrom min step n).map Int.cast := by
    rw [values, countFrom, List.map_map]
    refine List.map_congr_left fun i _ => ?_
    change (min : ℚ) + step * (i : ℚ) = ((min + step * i : ℤ) : ℚ)
    push_cast
    rfl
  rw [points?, isUp, few, whole, laid]
  simp

theorem fits_exact {n : ℤ} (above : -2 ^ 63 < n) (below : n < 2 ^ 63) : fits (n : ℚ) = true := by
  change (decide (((0 : ℕ) : ℚ) - ((1 <<< 63 : ℕ) : ℚ) < n) &&
    decide ((n : ℚ) < ((1 <<< 63 : ℕ) : ℚ))) = true
  rw [Bool.and_eq_true, decide_eq_true_iff, decide_eq_true_iff]
  constructor
  · have : ((0 : ℕ) : ℤ) - ((1 <<< 63 : ℕ) : ℤ) < n := by simpa using above
    exact_mod_cast this
  · have : n < ((1 <<< 63 : ℕ) : ℤ) := by simpa using below
    exact_mod_cast this

/-- The values reached in exact arithmetic. -/
theorem countsUpTo_exactSteps (ordered : min ≤ max) (upward : 1 ≤ step) :
    CountsUpTo min (max + step / 10 ^ 9) step
      (countFrom min step (exactSteps min max step).toNat) := by
  have nonneg := exactSteps_nonneg ordered upward
  refine countsUpTo_countFrom upward fun i => ?_
  rw [← le_exactSteps_iff upward]
  omega

theorem integers?_exact (ordered : min ≤ max) (upward : 1 ≤ step)
    (small : |min| < 2 ^ 53 ∧ |max| < 2 ^ 53 ∧ |step| < 2 ^ 53)
    (few : exactSteps min max step < maxRangeValues) : integers? (min : ℚ) max step =
      some (countFrom min step (exactSteps min max step).toNat) := by
  have all : ((countFrom min step (exactSteps min max step).toNat).map
      (Int.cast : ℤ → ℚ)).all fits = true := by
    rw [List.all_eq_true, List.forall_mem_map]
    intro n mem
    obtain ⟨within, i, rfl⟩ := ((countsUpTo_exactSteps ordered upward).mem_iff n).1 mem
    obtain ⟨first, last, far⟩ := small
    rw [abs_lt] at first last far
    have forth : 0 ≤ step * (i : ℤ) := Int.mul_nonneg (by omega) (Int.natCast_nonneg i)
    exact fits_exact (by omega) (by omega)
  have wholeFirst : isWhole (min : ℚ) = true := by simp [isWhole]
  have wholeStep : isWhole (step : ℚ) = true := by simp [isWhole]
  rw [integers?, points?_exact ordered upward, if_pos few, Option.bind_some, wholeFirst, wholeStep,
    all, List.map_map]
  simp [Function.comp_def, toInt]

/-- A range of whole numbers has the values up to a thousand millionth of a step beyond its bound,
so it has exactly those up to its bound as long as the next one is further away. -/
theorem integers?_countsUpTo (ordered : min ≤ max) (upward : 1 ≤ step)
    (small : |min| < 2 ^ 53 ∧ |max| < 2 ^ 53 ∧ |step| < 2 ^ 53)
    (accepted : (points? (min : ℚ) max step).isSome) :
    ∃ ns, integers? (min : ℚ) max step = some ns ∧
      1 ≤ ns.length ∧ ns.length ≤ maxRangeValues ∧
      CountsUpTo min (max + step / 10 ^ 9) step ns ∧
      (CountsUpTo min max step ns ↔ (max - min) % step + step / 10 ^ 9 < step) := by
  have counts := countsUpTo_exactSteps ordered upward
  have nonneg := exactSteps_nonneg ordered upward
  rw [points?_exact ordered upward] at accepted
  split at accepted
  · next few =>
    have length : (countFrom min step (exactSteps min max step).toNat).length =
        (exactSteps min max step).toNat + 1 := by
      rw [countFrom, List.length_map, List.length_range]
    refine ⟨_, integers?_exact ordered upward small few, ?_, ?_, counts,
      counts.shorter_iff ordered upward (Int.ediv_nonneg (by omega) (by decide))⟩
    · omega
    · omega
  · cases accepted

/-- With steps of three thousand million the value that would come next is five beyond the bound. -/
theorem integers?_countsUpTo_longSteps : ∃ ns,
    (points? ((-5 : ℤ) : ℚ) (5999999990 : ℤ) (3000000000 : ℤ)).isSome ∧
    integers? ((-5 : ℤ) : ℚ) (5999999990 : ℤ) (3000000000 : ℤ) = some ns ∧
    CountsUpTo (-5) 5999999990 3000000000 ns := by
  have accepted : (points? ((-5 : ℤ) : ℚ) (5999999990 : ℤ) (3000000000 : ℤ)).isSome := by
    decide +kernel
  obtain ⟨ns, known, -, -, -, exact_⟩ :=
    integers?_countsUpTo (by decide) (by decide) (by decide) accepted
  exact ⟨ns, accepted, known, exact_.2 (by decide)⟩

/-- A range whose steps are ten thousand million, of which its bound falls short by one. -/
def longStep : RangeSpec := ⟨.ofInt 0, .ofInt 9999999999, .ofInt 10000000000⟩

/-- The range has a value beyond its bound, in exact arithmetic and in that of doubles. -/
theorem integers?_beyond_bound :
    integers? ((0 : ℤ) : ℚ) (9999999999 : ℤ) (10000000000 : ℤ) = some [0, 10000000000] ∧
    ¬ CountsUpTo 0 9999999999 10000000000 [0, 10000000000] ∧
    longStep.values = .ok ([0, 10000000000].map Json.ofInt) := by
  have doubles : integers? longStep.min longStep.max longStep.step = some [0, 10000000000] := by
    decide +kernel
  refine ⟨by decide +kernel, fun counts => ?_, values_of_integers? doubles⟩
  have within := ((counts.mem_iff 10000000000).1 (by decide)).1
  omega

end Exact

end RangeArithmetic

end Sweep
