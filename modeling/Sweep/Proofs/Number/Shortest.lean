import Mathlib.Algebra.Order.Field.Power
import Mathlib.Algebra.Order.Ring.Rat
import Mathlib.Tactic.FieldSimp
import Mathlib.Tactic.Linarith
import Mathlib.Tactic.NormNum
import Mathlib.Tactic.Positivity
import Mathlib.Tactic.Ring
import Sweep.Number.Shortest

/-!
# The shortest decimal names its number

The decimals that read back as a finite number form an interval around it, and the intervals of
different numbers have no decimal in common. The search for the shortest decimal ends in the
interval: the last of its grids is so fine that one of the two neighbours of the number has to be
hit. So the shortest decimals of two finite numbers differ unless the numbers agree up to the sign.
-/

namespace Sweep

def Decimal.value (d : Decimal) : ℚ := d.digits * 10 ^ d.exponent

theorem Decimal.value_stripZeros (fuel : Nat) (d : Decimal) :
    (d.stripZeros fuel).value = d.value := by
  induction fuel generalizing d with
  | zero => rfl
  | succ fuel ih =>
    rw [stripZeros]
    split
    · next zeros =>
      rw [ih, value, value]
      have whole : d.digits = d.digits / 10 * 10 := by omega
      have shifted : (10 : ℚ) ^ (d.exponent + 1) = 10 ^ d.exponent * 10 :=
        zpow_add_one₀ (by norm_num) _
      rw [shifted, whole]
      push_cast
      rw [Nat.mul_div_cancel _ (by norm_num)]
      ring
    · rfl

namespace Shortest

/-- The decimals of an interval as rational numbers. -/
def Interval.Contains (i : Interval) (q : ℚ) : Prop :=
  if i.closed then (i.lower : ℚ) ≤ q * denominator ∧ q * denominator ≤ i.upper
  else (i.lower : ℚ) < q * denominator ∧ q * denominator < i.upper

theorem Interval.contains_of_lt {i : Interval} {q : ℚ} (lower : (i.lower : ℚ) < q * denominator)
    (upper : q * denominator < i.upper) : i.Contains q := by
  rw [Contains]
  split
  · exact ⟨lower.le, upper.le⟩
  · exact ⟨lower, upper⟩

theorem denominator_pos : (0 : ℚ) < denominator := by
  have positive : 0 < denominator := by
    rw [denominator, Nat.one_shiftLeft]
    exact Nat.two_pow_pos _
  exact_mod_cast positive

/-! ## Grids -/

/-- The factors by which a grid is scaled up give its step. -/
theorem grid_eq (exponent : Int) :
    ((denominator * (if 0 ≤ exponent then Nat.pow 10 exponent.toNat else 1) : ℕ) : ℚ) =
      10 ^ exponent * denominator *
        ((if 0 ≤ exponent then 1 else Nat.pow 10 (-exponent).toNat : ℕ) : ℚ) := by
  split
  · next natural =>
    obtain ⟨n, rfl⟩ := Int.eq_ofNat_of_zero_le natural
    push_cast
    simp only [Nat.pow_eq, Int.toNat_natCast, zpow_natCast]
    push_cast
    ring
  · next negative =>
    obtain ⟨n, shape⟩ := Int.eq_ofNat_of_zero_le (by omega : 0 ≤ -exponent)
    obtain rfl : exponent = -n := by omega
    simp only [neg_neg, Int.toNat_natCast, Nat.pow_eq, mul_one, zpow_neg, zpow_natCast]
    push_cast
    field_simp

/-- The factor of the right-hand sides is positive. -/
theorem down_pos (exponent : Int) :
    (0 : ℚ) < ((if 0 ≤ exponent then 1 else Nat.pow 10 (-exponent).toNat : ℕ) : ℚ) := by
  split
  · norm_num
  · simp only [Nat.pow_eq]
    positivity

/-- A point of a grid hits the interval if and only if the interval contains it. -/
theorem holds_iff {i : Interval} {exponent : Int} {count : Nat} :
    i.holds (denominator * (if 0 ≤ exponent then Nat.pow 10 exponent.toNat else 1))
      (if 0 ≤ exponent then 1 else Nat.pow 10 (-exponent).toNat) count = true ↔
      i.Contains (count * 10 ^ exponent) := by
  have grid := grid_eq exponent
  have positive := down_pos exponent
  generalize denominator * (if 0 ≤ exponent then Nat.pow 10 exponent.toNat else 1) = up at grid ⊢
  generalize (if 0 ≤ exponent then 1 else Nat.pow 10 (-exponent).toNat) = down at grid positive ⊢
  have point : ((count * up : ℕ) : ℚ) = count * 10 ^ exponent * denominator * down := by
    push_cast
    rw [grid]
    ring
  have above (n : ℕ) : n * down ≤ count * up ↔ (n : ℚ) ≤ count * 10 ^ exponent * denominator := by
    rw [← Nat.cast_le (α := ℚ), point]
    push_cast
    exact mul_le_mul_iff_left₀ positive
  have below (n : ℕ) : count * up ≤ n * down ↔ count * 10 ^ exponent * denominator ≤ (n : ℚ) := by
    rw [← Nat.cast_le (α := ℚ), point]
    push_cast
    exact mul_le_mul_iff_left₀ positive
  rw [Interval.holds, Interval.Contains]
  split
  · simp only [Bool.and_eq_true, decide_eq_true_eq, above, below]
  · simp only [Bool.and_eq_true, decide_eq_true_eq, ← not_le, above, below]

/-- A point that a grid yields lies in the interval. -/
theorem contains_of_onGrid {tie : Tie} {i : Interval} {exponent : Int} {d : Decimal}
    (h : onGrid tie i exponent = some d) : i.Contains d.value := by
  unfold onGrid at h
  extract_lets up down value low high lowHits highHits toLow toHigh takeLow at h
  split at h
  · next taken =>
    cases h
    refine holds_iff.1 (?_ : lowHits = true)
    simp only [takeLow] at taken
    split at taken
    · next both => exact (Bool.and_eq_true_iff.1 both).1
    · exact taken
  · split at h
    · next hit =>
      cases h
      exact holds_iff.1 hit
    · cases h

/-- A grid yields nothing only if both neighbours of the value miss the interval. -/
theorem misses_of_onGrid {tie : Tie} {i : Interval} {exponent : Int}
    (h : onGrid tie i exponent = none) :
    ∃ low : ℕ, (low : ℚ) * 10 ^ exponent * denominator ≤ i.value ∧
      (i.value : ℚ) < (low + 1) * 10 ^ exponent * denominator ∧
      ¬i.Contains (low * 10 ^ exponent) ∧ ¬i.Contains ((low + 1) * 10 ^ exponent) := by
  have step : (0 : ℚ) < 10 ^ exponent * denominator := mul_pos (by positivity) denominator_pos
  unfold onGrid at h
  extract_lets up down value low high lowHits highHits toLow toHigh takeLow at h
  have grid : (up : ℚ) = 10 ^ exponent * denominator * down := grid_eq exponent
  have positive : (0 : ℚ) < down := down_pos exponent
  split at h
  · cases h
  next notTaken =>
  split at h
  · cases h
  next missesHigh =>
  have missesLow : ¬lowHits = true := by
    simpa only [takeLow, missesHigh, Bool.and_false, Bool.false_eq_true, if_false] using notTaken
  have upPositive : 0 < up := by
    rw [← Nat.cast_pos (α := ℚ), grid]
    exact mul_pos step positive
  have atMost : low * up ≤ i.value * down := Nat.div_mul_le_self _ _
  have below : i.value * down < high * up := by
    rw [Nat.mul_comm high]
    exact Nat.lt_mul_div_succ _ upPositive
  have missesHigh : ¬i.Contains (high * 10 ^ exponent) := fun hit => missesHigh (holds_iff.2 hit)
  have missesLow : ¬i.Contains (low * 10 ^ exponent) := fun hit => missesLow (holds_iff.2 hit)
  rw [show (high : ℚ) = low + 1 from Nat.cast_succ low] at missesHigh
  refine ⟨low, ?_, ?_, missesLow, missesHigh⟩
  · rw [← Nat.cast_le (α := ℚ)] at atMost
    push_cast [grid] at atMost
    exact le_of_mul_le_mul_right (by linarith) positive
  · rw [← Nat.cast_lt (α := ℚ)] at below
    push_cast [grid, show (high : ℚ) = low + 1 from Nat.cast_succ low] at below
    exact lt_of_mul_lt_mul_right (by linarith) positive.le

/-- The search ends in the interval if one of its grids has a point of it. -/
theorem contains_of_search {tie : Tie} {i : Interval} {fuel : Nat} {exponent : Int}
    (hits : ∃ k < fuel, onGrid tie i (exponent - k) ≠ none) :
    i.Contains (search tie i fuel exponent).value := by
  induction fuel generalizing exponent with
  | zero =>
    obtain ⟨k, none, -⟩ := hits
    omega
  | succ fuel ih =>
    rw [search]
    cases found : onGrid tie i exponent with
    | some d => exact contains_of_onGrid found
    | none =>
      refine ih ?_
      obtain ⟨k, bound, hit⟩ := hits
      cases k with
      | zero => exact absurd (by simpa using found) hit
      | succ k =>
        refine ⟨k, by omega, ?_⟩
        rwa [show exponent - 1 - k = exponent - (k + 1 : ℕ) by omega]

/-! ## The intervals of finite numbers -/

/-- The ends of an interval are half a step away from its value, or a quarter below it at a power
of two. -/
structure Interval.Around (i : Interval) (significand : Nat) (step : ℚ) : Prop where
  step_pos : 0 < step
  significand_pos : 0 < significand
  significand_lt : significand < 2 ^ 53
  value_eq : (i.value : ℚ) = 4 * significand * step
  upper_eq : (i.upper : ℚ) = i.value + 2 * step
  lower_eq : (i.lower : ℚ) = i.value - 2 * step ∨
    significand = 2 ^ 52 ∧ (i.lower : ℚ) = i.value - step

theorem binade_eq : Binary64.binade = 2 ^ 52 := rfl

theorem significand_pos {x : Binary64} (nonzero : x.isZero = false) : 0 < x.significand := by
  rw [Binary64.isZero, beq_eq_false_iff_ne] at nonzero
  rw [Binary64.significand, binade_eq]
  split <;> omega

theorem significand_lt (x : Binary64) : x.significand < 2 ^ 53 := by
  rw [Binary64.significand, binade_eq]
  split <;> omega

theorem around_interval {x : Binary64} (nonzero : x.isZero = false) :
    (interval x).Around x.significand (1 <<< x.scale : ℕ) := by
  have positive := significand_pos nonzero
  refine ⟨?_, positive, significand_lt x, ?_, ?_, ?_⟩
  · rw [Nat.shiftLeft_eq]
    positivity
  · simp [interval]
  · simp only [interval]
    push_cast
    ring
  · simp only [interval]
    split
    · next least =>
      refine .inr ⟨least.1.trans binade_eq, ?_⟩
      rw [Nat.cast_mul, Nat.cast_mul, Nat.cast_sub (by omega)]
      push_cast
      ring
    · refine .inl ?_
      rw [Nat.cast_mul, Nat.cast_mul, Nat.cast_sub (by omega)]
      push_cast
      ring

/-- A grid of seventeen digits has a point of the interval. -/
theorem hits_of_around {tie : Tie} {i : Interval} {significand : Nat} {step : ℚ} {exponent : Int}
    (around : i.Around significand step)
    (fine : (10 : ℚ) ^ (exponent + 16) * denominator ≤ i.value) :
    onGrid tie i exponent ≠ none := by
  intro none
  obtain ⟨low, atMost, below, missesLow, missesHigh⟩ := misses_of_onGrid none
  have shifted : (10 : ℚ) ^ (exponent + 16) = 10 ^ exponent * 10 ^ 16 := by
    rw [zpow_add₀ (by norm_num)]
    norm_cast
  have positive := around.step_pos
  have atUpper := around.upper_eq
  have value := around.value_eq
  -- Half the distance of two points is less than the distance of the value from the ends.
  have small : (10 : ℚ) ^ exponent * denominator * 10 ^ 16 ≤ 4 * significand * step := by
    rw [← value]
    linarith [shifted ▸ fine]
  have fits : (significand : ℚ) < 2 ^ 53 := by exact_mod_cast around.significand_lt
  have half : (10 : ℚ) ^ exponent * denominator < 4 * step := by nlinarith
  have lower : (i.lower : ℚ) < i.value - 10 ^ exponent * denominator / 2 := by
    rcases around.lower_eq with same | ⟨least, same⟩
    · linarith
    · rw [least] at small
      push_cast at small
      rw [same]
      nlinarith
  rcases le_or_gt ((i.value : ℚ) - low * 10 ^ exponent * denominator)
    (10 ^ exponent * denominator / 2) with near | far
  · exact missesLow (Interval.contains_of_lt (by linarith) (by linarith))
  · exact missesHigh (Interval.contains_of_lt (by linarith) (by linarith))

/-- A number has no fewer digits than the power of ten below it. -/
theorem pow_length_le {n : ℕ} (positive : 0 < n) :
    (10 : ℚ) ^ (((Nat.toDigits 10 n).length : ℤ) - 1) ≤ n := by
  obtain ⟨k, length⟩ : ∃ k, (Nat.toDigits 10 n).length = k + 1 :=
    ⟨_, (Nat.succ_pred_eq_of_pos Nat.length_toDigits_pos).symm⟩
  have bound : 10 ^ k ≤ n := by
    rcases Nat.eq_zero_or_pos k with rfl | some
    · simpa using Nat.succ_le_of_lt positive
    · by_contra! less
      have := (Nat.length_toDigits_le_iff (by norm_num) some).2 less
      omega
  rw [length]
  push_cast
  rw [add_sub_cancel_right, zpow_natCast]
  exact_mod_cast bound

theorem denominator_le {places : ℕ} (enough : 1076 ≤ 3 * places) :
    denominator ≤ 10 ^ places := by
  calc denominator = 2 ^ (Binary64.unitExponent + 2) := Nat.one_shiftLeft _
    _ ≤ 2 ^ (3 * places) := Nat.pow_le_pow_right (by norm_num) enough
    _ = (2 ^ 3) ^ places := Nat.pow_mul 2 3 places
    _ ≤ 10 ^ places := Nat.pow_le_pow_left (by norm_num) places

theorem pow_length_scaled_le {value places : ℕ} {shift : ℤ} (isShift : shift = places)
    (places_ge : 1076 ≤ 3 * places) (some : 0 < value) :
    (10 : ℚ) ^ (((Nat.toDigits 10 (value * Nat.pow 10 places / denominator)).length : ℤ) -
      shift - 1) * denominator ≤ value := by
  have positive := denominator_pos
  have enough : denominator ≤ value * 10 ^ places :=
    (denominator_le places_ge).trans (Nat.le_mul_of_pos_left _ some)
  rw [Nat.pow_eq]
  have some : 0 < value * 10 ^ places / denominator :=
    Nat.div_pos enough (by exact_mod_cast positive)
  have floor : value * 10 ^ places / denominator * denominator ≤ value * 10 ^ places :=
    Nat.div_mul_le_self _ _
  have floor : ((value * 10 ^ places / denominator : ℕ) : ℚ) * denominator ≤
      value * 10 ^ places := by
    exact_mod_cast floor
  have scaled := (mul_le_mul_of_nonneg_right (pow_length_le some) positive.le).trans floor
  rw [isShift, sub_right_comm, zpow_sub₀ (by norm_num), zpow_natCast, div_mul_eq_mul_div,
    div_le_iff₀ (by positivity)]
  exact scaled

/-- The first grid of the search is no coarser than the value has digits. -/
theorem topExponent_le {i : Interval} (positive : 0 < i.value) :
    (10 : ℚ) ^ (topExponent i - 1) * denominator ≤ i.value := by
  rw [topExponent]
  split
  · next whole =>
    have floor : i.value / denominator * denominator ≤ i.value := Nat.div_mul_le_self _ _
    have floor : ((i.value / denominator : ℕ) : ℚ) * denominator ≤ i.value := by
      exact_mod_cast floor
    exact (mul_le_mul_of_nonneg_right (pow_length_le whole) denominator_pos.le).trans floor
  · -- The power of ten is kept from being evaluated.
    generalize shift : (400 : ℕ) = places
    exact pow_length_scaled_le (by omega) (by omega) positive

/-- The shortest decimal of a finite number that is not zero lies in its interval. -/
theorem contains_decimal (tie : Tie) {x : Binary64} (nonzero : x.isZero = false) :
    (interval x).Contains (decimal tie x).value := by
  have around := around_interval nonzero
  have positive : 0 < (interval x).value := by
    have significand : (0 : ℚ) < x.significand := by exact_mod_cast around.significand_pos
    have step := around.step_pos
    rw [← Nat.cast_pos (α := ℚ), around.value_eq]
    positivity
  rw [decimal, if_neg (by simp [nonzero]), Decimal.value_stripZeros]
  refine contains_of_search ⟨17, by norm_num, hits_of_around around ?_⟩
  rw [show topExponent (interval x) - (17 : ℕ) + 16 = topExponent (interval x) - 1 by omega]
  exact topExponent_le positive

/-! ## Different numbers have different decimals -/

theorem significand_mk (b : Bool) (m : Nat) :
    (⟨b, m⟩ : Binary64).significand = if m < 2 ^ 52 then m else 2 ^ 52 + m % 2 ^ 52 := rfl

theorem scale_mk (b : Bool) (m : Nat) : (⟨b, m⟩ : Binary64).scale = m / 2 ^ 52 - 1 := rfl

theorem interval_upper {x : Binary64} {significand scale : Nat}
    (hm : x.significand = significand) (hs : x.scale = scale) :
    (interval x).upper = (4 * significand + 2) * 2 ^ scale := by
  subst hm hs
  simp only [interval, Nat.one_shiftLeft]

theorem interval_lower {x : Binary64} {significand scale : Nat}
    (hm : x.significand = significand) (hs : x.scale = scale) :
    (interval x).lower =
      (4 * significand - if significand = 2 ^ 52 ∧ 0 < scale then 1 else 2) * 2 ^ scale := by
  subst hm hs
  simp only [interval, Nat.one_shiftLeft]
  rfl

/-- The interval of a number ends where that of the next one begins. -/
theorem upper_eq_lower_succ (b c : Bool) (m : Nat) :
    (interval ⟨b, m⟩).upper = (interval ⟨c, m + 1⟩).lower := by
  rw [interval_upper (significand_mk b m) rfl, interval_lower (significand_mk c _) rfl,
    scale_mk, scale_mk]
  have split := Nat.div_add_mod m (2 ^ 52)
  have remainder := Nat.mod_lt m (by norm_num : 0 < 2 ^ 52)
  generalize hq : m / 2 ^ 52 = q at split ⊢
  generalize hr : m % 2 ^ 52 = r at split remainder ⊢
  by_cases last : r = 2 ^ 52 - 1
  · subst last
    have next : (m + 1) / 2 ^ 52 = q + 1 := by omega
    have rest : (m + 1) % 2 ^ 52 = 0 := by omega
    simp only [next, rest, if_neg (by omega : ¬m + 1 < 2 ^ 52), Nat.add_zero, Nat.add_sub_cancel,
      true_and]
    cases q with
    | zero =>
      simp only [if_pos (by omega : m < 2 ^ 52), lt_irrefl, if_false]
      omega
    | succ q =>
      simp only [if_neg (by omega : ¬m < 2 ^ 52), Nat.add_sub_cancel, Nat.zero_lt_succ, if_true]
      rw [pow_succ 2 q]
      omega
  · have next : (m + 1) / 2 ^ 52 = q := by omega
    have rest : (m + 1) % 2 ^ 52 = r + 1 := by omega
    simp only [next, rest]
    by_cases small : m + 1 < 2 ^ 52
    · have none : q = 0 := by omega
      subst none
      simp only [if_pos (by omega : m < 2 ^ 52), if_pos small, lt_irrefl, and_false, if_false]
      omega
    · have more : ¬2 ^ 52 + (r + 1) = 2 ^ 52 := by omega
      simp only [if_neg small, more, false_and, if_false]
      split
      · omega
      · congr 1

theorem lower_lt_upper {b : Bool} {m : Nat} (positive : 0 < m) :
    (interval ⟨b, m⟩).lower < (interval ⟨b, m⟩).upper := by
  have around := around_interval (x := ⟨b, m⟩) (by simp [Binary64.isZero]; omega)
  have step := around.step_pos
  rw [← Nat.cast_lt (α := ℚ), around.upper_eq]
  rcases around.lower_eq with same | ⟨-, same⟩ <;> linarith

/-- The interval of a greater number begins where that of the smaller one has ended. -/
theorem upper_le_lower {b c : Bool} {m n : Nat} (less : m < n) :
    (interval ⟨b, m⟩).upper ≤ (interval ⟨c, n⟩).lower ∧
      ((interval ⟨b, m⟩).upper = (interval ⟨c, n⟩).lower → n = m + 1) := by
  induction n, less using Nat.le_induction generalizing c with
  | base => exact ⟨(upper_eq_lower_succ b c m).le, fun _ => rfl⟩
  | succ n more ih =>
    have before := (ih (c := c)).1
    have grows : (interval ⟨c, n⟩).lower < (interval ⟨c, n⟩).upper := lower_lt_upper (by omega)
    rw [← upper_eq_lower_succ c c n]
    exact ⟨by omega, fun same => by omega⟩

/-- Of a number and the next one only one has a closed interval. -/
theorem closed_succ (b c : Bool) (m : Nat) :
    (interval ⟨c, m + 1⟩).closed = !(interval ⟨b, m⟩).closed := by
  have parity (b : Bool) (m : Nat) : (interval ⟨b, m⟩).closed = decide (m % 2 = 0) := by
    rw [interval, decide_eq_decide, significand_mk]
    split <;> omega
  rw [parity, parity, Bool.eq_iff_iff]
  simp only [decide_eq_true_eq, Bool.not_eq_true', decide_eq_false_iff_not]
  omega

/-- Decimals in the intervals of different magnitudes are different. -/
theorem lt_of_contains {b c : Bool} {m n : Nat} {q r : ℚ} (less : m < n)
    (first : (interval ⟨b, m⟩).Contains q) (second : (interval ⟨c, n⟩).Contains r) : q < r := by
  obtain ⟨apart, adjacent⟩ := upper_le_lower (b := b) (c := c) less
  have apart : ((interval ⟨b, m⟩).upper : ℚ) ≤ (interval ⟨c, n⟩).lower := by exact_mod_cast apart
  have above : r * denominator ≥ (interval ⟨c, n⟩).lower := by
    rw [Interval.Contains] at second
    split at second
    · exact second.1
    · exact second.1.le
  refine lt_of_mul_lt_mul_right ?_ denominator_pos.le
  rw [Interval.Contains] at first
  split at first
  · next closed =>
    -- The next number has an open interval.
    by_cases same : (interval ⟨b, m⟩).upper = (interval ⟨c, n⟩).lower
    · obtain rfl := adjacent same
      rw [Interval.Contains, if_neg (by rw [closed_succ b c m, closed]; simp)] at second
      linarith [second.1, first.2]
    · have strict : (interval ⟨b, m⟩).upper < (interval ⟨c, n⟩).lower := by
        have := (upper_le_lower (b := b) (c := c) less).1
        omega
      have strict : ((interval ⟨b, m⟩).upper : ℚ) < (interval ⟨c, n⟩).lower := by
        exact_mod_cast strict
      linarith [first.2]
  · linarith [first.2]

/-- The shortest decimals of two numbers stand for the same number only if the numbers agree but
for the sign. -/
theorem magnitude_eq_of_decimal (tie : Tie) {x y : Binary64} (hx : x.isZero = false)
    (hy : y.isZero = false) (same : (decimal tie x).value = (decimal tie y).value) :
    x.magnitude = y.magnitude := by
  obtain ⟨b, m⟩ := x
  obtain ⟨c, n⟩ := y
  have first := contains_decimal tie hx
  have second := contains_decimal tie hy
  rcases lt_trichotomy m n with less | equal | greater
  · exact absurd same (lt_of_contains less first second).ne
  · exact equal
  · exact absurd same (lt_of_contains greater second first).ne'

end Shortest

end Sweep
