/-
Glasshouse.Proofs.Condition.Trends — the slope that trends are judged by. Over fractions the
formula gives the slope of the one line with the least squared distances to the values: the
line of that slope through their middle fulfils the two normal equations, and the distance of
any other line exceeds its own by a sum of two squares (`Slope.squares_of_normal`). In any
arithmetic that is an ordered group a slope is a movement in exactly one direction, and so
is a slope of doubles if it is a number. Main statement: `trends_follow_least_squares`.

Limit of the main statement. That a slope is that of least squares is said over fractions.
Over doubles, as trends are judged, each operation rounds; what is said there is which values
move in exactly one direction.
-/
import Glasshouse.Evaluation
import Glasshouse.Proofs.Basic.Doubles
import Mathlib.Algebra.Order.Chebyshev
import Mathlib.Algebra.Order.Field.Basic
import Mathlib.Algebra.Order.Ring.Rat
import Mathlib.Tactic.LinearCombination
import Mathlib.Tactic.Linarith
import Mathlib.Tactic.Positivity
import Mathlib.Tactic.Ring

namespace Glasshouse

namespace Slope

/-! ## Sums of places -/

theorem placeSum_succ (n : ℕ) : placeSum (n + 1) = placeSum n + n := by
  simp [placeSum, List.range_succ, List.foldl_append]

theorem squareSum_succ (n : ℕ) : squareSum (n + 1) = squareSum n + n * n := by
  simp [squareSum, List.range_succ, List.foldl_append]

theorem placeSum_eq (n : ℕ) : placeSum n = ∑ i ∈ Finset.range n, i := by
  induction n with
  | zero => rfl
  | succ n ih => rw [placeSum_succ, ih, Finset.sum_range_succ]

theorem squareSum_eq (n : ℕ) : squareSum n = ∑ i ∈ Finset.range n, i ^ 2 := by
  induction n with
  | zero => rfl
  | succ n ih => rw [squareSum_succ, ih, Finset.sum_range_succ, Nat.pow_two]

theorem two_mul_placeSum (n : ℕ) : 2 * (placeSum n : ℚ) = n * (n - 1) := by
  induction n with
  | zero => simp [placeSum]
  | succ n ih =>
    rw [placeSum_succ]
    push_cast
    linear_combination ih

theorem six_mul_squareSum (n : ℕ) : 6 * (squareSum n : ℚ) = (n - 1) * n * (2 * n - 1) := by
  induction n with
  | zero => simp [squareSum]
  | succ n ih =>
    rw [squareSum_succ]
    push_cast
    linear_combination ih

/-- What the divisor comes to, before it is known to be no negative number. -/
theorem twelve_mul_spread (n : ℕ) :
    12 * (n * squareSum n - placeSum n * placeSum n : ℚ) = n * n * (n * n - 1) := by
  linear_combination (2 * n : ℚ) * six_mul_squareSum n
    - 3 * (2 * (placeSum n : ℚ) + n * (n - 1)) * two_mul_placeSum n

/-- Nothing is lost where the divisor is subtracted. -/
theorem placeSum_le (n : ℕ) : placeSum n * placeSum n ≤ n * squareSum n := by
  have h := sq_sum_le_card_mul_sum_sq (s := Finset.range n) (f := fun i => i)
  rwa [← placeSum_eq, ← squareSum_eq, Finset.card_range, Nat.pow_two] at h

theorem divisor_cast (n : ℕ) :
    (divisor n : ℚ) = n * squareSum n - placeSum n * placeSum n := by
  rw [divisor, Nat.cast_sub (placeSum_le n), Nat.cast_mul, Nat.cast_mul]

theorem divisor_pos {n : ℕ} (two : 2 ≤ n) : 0 < (divisor n : ℚ) := by
  have spread := twelve_mul_spread n
  rw [← divisor_cast] at spread
  have hn : (2 : ℚ) ≤ n := by exact_mod_cast two
  have : (0 : ℚ) < n * n * (n * n - 1) := mul_pos (by positivity) (by nlinarith)
  linarith

/-! ## The formula over fractions -/

/-- The sum of values times their places. -/
def moment (values : List ℚ) : ℚ := sum Nat.cast (weighted Nat.cast values)

/-- What the formula divides by the divisor. -/
def rise (values : List ℚ) : ℚ :=
  values.length * moment values - placeSum values.length * values.sum

theorem sum_eq (values : List ℚ) : sum Nat.cast values = values.sum := by
  rw [sum, Nat.cast_zero, List.sum_eq_foldl]

theorem slope_eq (values : List ℚ) :
    slope Nat.cast values = rise values / divisor values.length := by
  rw [slope, rise, moment, sum_eq values]

@[simp] theorem moment_nil : moment [] = 0 := rfl

/-- A value put in front moves all others one place on. -/
theorem moment_cons (y : ℚ) (values : List ℚ) :
    moment (y :: values) = moment values + values.sum := by
  unfold moment
  rw [sum_eq, sum_eq, weighted, weighted, List.zipIdx_cons']
  simp [add_mul, List.sum_map_add, Function.comp_def]

theorem moment_append_singleton (values : List ℚ) (y : ℚ) :
    moment (values ++ [y]) = moment values + values.length * y := by
  unfold moment
  rw [sum_eq, sum_eq, weighted, weighted, List.zipIdx_append]
  simp

theorem moment_reverse (values : List ℚ) :
    moment values.reverse = (values.length - 1) * values.sum - moment values := by
  induction values with
  | nil => simp
  | cons y values ih =>
    rw [List.reverse_cons, moment_append_singleton, ih, moment_cons, List.length_reverse,
      List.sum_cons, List.length_cons]
    push_cast
    ring

theorem sum_map_add (k : ℚ) (values : List ℚ) :
    (values.map (· + k)).sum = values.sum + values.length * k := by
  simp [List.sum_map_add]

theorem moment_map_add (k : ℚ) (values : List ℚ) :
    moment (values.map (· + k)) = moment values + k * placeSum values.length := by
  induction values with
  | nil => simp [placeSum]
  | cons y values ih =>
    rw [List.map_cons, moment_cons, moment_cons, ih, sum_map_add, List.length_cons, placeSum_succ]
    push_cast
    ring

theorem rise_map_add (k : ℚ) (values : List ℚ) : rise (values.map (· + k)) = rise values := by
  rw [rise, rise, moment_map_add, sum_map_add, List.length_map]
  ring

theorem rise_reverse (values : List ℚ) : rise values.reverse = -rise values := by
  rw [rise, rise, moment_reverse, List.sum_reverse, List.length_reverse]
  linear_combination -values.sum * two_mul_placeSum values.length

/-- A value in front weighs in by how far those behind it lie above it. -/
theorem rise_cons (y : ℚ) (values : List ℚ) : rise (y :: values)
    = rise values + moment (values.map (· + -y)) + (values.map (· + -y)).sum := by
  rw [rise, rise, moment_cons, moment_map_add, sum_map_add, List.length_cons, List.sum_cons,
    placeSum_succ]
  push_cast
  ring

theorem moment_nonneg {values : List ℚ} (h : ∀ x ∈ values, 0 ≤ x) : 0 ≤ moment values := by
  induction values with
  | nil => exact le_refl 0
  | cons y values ih =>
    rw [List.forall_mem_cons] at h
    rw [moment_cons]
    exact add_nonneg (ih h.2) (List.sum_nonneg h.2)

theorem above_pos {y : ℚ} {values : List ℚ} (above : ∀ x ∈ values, y < x) :
    ∀ d ∈ values.map (· + -y), 0 < d := by
  rintro d hd
  obtain ⟨x, hx, rfl⟩ := List.mem_map.1 hd
  linarith [above x hx]

theorem rise_nonneg {values : List ℚ} (h : values.Pairwise (· < ·)) : 0 ≤ rise values := by
  induction h with
  | nil => simp [rise]
  | @cons y values above _ ih =>
    have apart := fun d hd => (above_pos above d hd).le
    rw [rise_cons]
    linarith [moment_nonneg apart, List.sum_nonneg apart]

theorem rise_pos {values : List ℚ} (two : 2 ≤ values.length) (h : values.Pairwise (· < ·)) :
    0 < rise values := by
  cases h with
  | nil => exact absurd two (by decide)
  | @cons y values above h =>
    have apart := above_pos above
    have some : values.map (· + -y) ≠ [] := by
      rintro hnil
      rw [List.map_eq_nil_iff.1 hnil] at two
      simp at two
    rw [rise_cons]
    linarith [rise_nonneg h, moment_nonneg fun d hd => (apart d hd).le,
      List.sum_pos _ apart some]

/-! ## Squared distances -/

/-- The sum of the squared distances of values to the line `a + b · i`. -/
def squares (a b : ℚ) (values : List ℚ) : ℚ :=
  (values.zipIdx.map fun p => (p.1 - (a + b * p.2)) ^ 2).sum

/-- What lies behind the first value is compared with a line that starts one place on. -/
theorem squares_cons (a b y : ℚ) (values : List ℚ) :
    squares a b (y :: values) = (y - a) ^ 2 + squares (a + b) b values := by
  rw [squares, squares, List.zipIdx_cons']
  simp only [List.map_cons, List.map_map, List.sum_cons, Nat.cast_zero, mul_zero, add_zero]
  congr 3
  funext p
  show (p.1 - (a + b * ((p.2 + 1 : ℕ) : ℚ))) ^ 2 = _
  push_cast
  ring

/-- The squared distances as a square function of the line. -/
theorem squares_eq (a b : ℚ) (values : List ℚ) : squares a b values
    = (values.map (· ^ 2)).sum - 2 * a * values.sum - 2 * b * moment values
      + values.length * a ^ 2 + 2 * a * b * placeSum values.length
      + b ^ 2 * squareSum values.length := by
  induction values generalizing a with
  | nil => simp [squares, placeSum, squareSum]
  | cons y values ih =>
    rw [squares_cons, ih, moment_cons, List.map_cons, List.sum_cons, List.sum_cons,
      List.length_cons, placeSum_succ, squareSum_succ]
    push_cast
    linear_combination b ^ 2 * two_mul_placeSum values.length

/-- Where a line fulfils the two normal equations, the distance of another line exceeds its
own by a square and a multiple of a square. -/
theorem squares_of_normal {a b : ℚ} {values : List ℚ}
    (level : values.length * a + placeSum values.length * b = values.sum)
    (lever : placeSum values.length * a + squareSum values.length * b = moment values)
    (a' b' : ℚ) : values.length * (squares a' b' values - squares a b values)
      = (values.length * (a' - a) + placeSum values.length * (b' - b)) ^ 2
        + divisor values.length * (b' - b) ^ 2 := by
  rw [squares_eq, squares_eq, divisor_cast]
  linear_combination (2 * values.length * (a' - a)) * level
    + (2 * values.length * (b' - b)) * lever

/-- The line of the slope through the middle of the values. -/
def intercept (values : List ℚ) : ℚ :=
  (values.sum - placeSum values.length * slope Nat.cast values) / values.length

theorem normal_equations {values : List ℚ} (two : 2 ≤ values.length) :
    values.length * intercept values + placeSum values.length * slope Nat.cast values = values.sum
      ∧ placeSum values.length * intercept values
          + squareSum values.length * slope Nat.cast values = moment values := by
  have positive := divisor_pos two
  have some : (values.length : ℚ) ≠ 0 := by
    have : values.length ≠ 0 := by omega
    exact_mod_cast this
  have level : values.length * intercept values
      + placeSum values.length * slope Nat.cast values = values.sum := by
    rw [intercept, mul_div_cancel₀ _ some]
    ring
  have hslope : divisor values.length * slope Nat.cast values = rise values := by
    rw [slope_eq, mul_div_cancel₀ _ positive.ne']
  refine ⟨level, mul_left_cancel₀ some ?_⟩
  rw [divisor_cast, rise] at hslope
  linear_combination placeSum values.length * level + hslope

/-- The line of the slope is nearer to the values than any other. -/
theorem squares_lt {values : List ℚ} (two : 2 ≤ values.length) {a b : ℚ}
    (other : (a, b) ≠ (intercept values, slope Nat.cast values)) :
    squares (intercept values) (slope Nat.cast values) values < squares a b values := by
  obtain ⟨level, lever⟩ := normal_equations two
  have excess := squares_of_normal level lever a b
  have positive := divisor_pos two
  have some : (0 : ℚ) < values.length := by
    have : 0 < values.length := by omega
    exact_mod_cast this
  have apart : 0 < (values.length * (a - intercept values)
      + placeSum values.length * (b - slope Nat.cast values)) ^ 2
      + divisor values.length * (b - slope Nat.cast values) ^ 2 := by
    by_cases hb : b = slope Nat.cast values
    · have ha : a - intercept values ≠ 0 := fun ha => other (by rw [sub_eq_zero.1 ha, hb])
      rw [hb, sub_self, mul_zero, add_zero]
      positivity
    · have hb : b - slope Nat.cast values ≠ 0 := sub_ne_zero.2 hb
      positivity
  rw [← excess] at apart
  exact sub_pos.1 (pos_of_mul_pos_right apart some.le)

end Slope

/-! ## Directions -/

namespace Trend

open Number

variable {α : Type}

/-- Whether a slope is a movement in a direction, in any arithmetic. -/
def judges [Neg α] [LT α] [LE α] [DecidableLT α] [DecidableLE α] (abs : α → α)
    (threshold slope : α) : Trend → Bool
  | rising => decide (threshold < slope)
  | falling => decide (slope < -threshold)
  | stable => decide (abs slope ≤ threshold)

/-- Whether values move in a direction, in any arithmetic; fewer than two do not. -/
def sees [Add α] [Sub α] [Mul α] [Div α] [Neg α] [LT α] [LE α] [DecidableLT α] [DecidableLE α]
    (ofNat : ℕ → α) (abs : α → α) (threshold : α) (values : List α) (d : Trend) : Bool :=
  decide (2 ≤ values.length) && d.judges abs threshold (Slope.slope ofNat values)

theorem judges_float (threshold slope : Float) (d : Trend) :
    d.judges Float.abs threshold slope = d.holds threshold slope := by
  cases d <;> rfl

/-- A slope is a movement in exactly one direction. -/
theorem existsUnique_judges [AddCommGroup α] [LinearOrder α] [IsOrderedAddMonoid α]
    {threshold : α} (nonneg : 0 ≤ threshold) (slope : α) :
    ∃! d : Trend, d.judges abs threshold slope = true := by
  have flat : -threshold ≤ threshold := neg_le_self nonneg
  rcases lt_or_ge threshold slope with up | low
  · refine ⟨rising, decide_eq_true up, fun d hd => ?_⟩
    cases d with
    | rising => rfl
    | falling => exact absurd (of_decide_eq_true hd) (flat.trans up.le).not_gt
    | stable => exact absurd (abs_le.1 (of_decide_eq_true hd)).2 up.not_ge
  · rcases lt_or_ge slope (-threshold) with down | high
    · refine ⟨falling, decide_eq_true down, fun d hd => ?_⟩
      cases d with
      | rising => exact absurd (of_decide_eq_true hd) low.not_gt
      | falling => rfl
      | stable => exact absurd (abs_le.1 (of_decide_eq_true hd)).1 down.not_ge
    · refine ⟨stable, decide_eq_true (abs_le.2 ⟨high, low⟩), fun d hd => ?_⟩
      cases d with
      | rising => exact absurd (of_decide_eq_true hd) low.not_gt
      | falling => exact absurd (of_decide_eq_true hd) high.not_gt
      | stable => rfl

/-- Doubles that are numbers are judged as their ranks are. -/
theorem judges_rank {threshold slope : Float} (ht : threshold.isNaN = false)
    (hs : slope.isNaN = false) (d : Trend) :
    d.holds threshold slope = d.judges abs (rank threshold) (rank slope) := by
  obtain ⟨hnt, hneg⟩ := rank_neg ht
  obtain ⟨hns, habs⟩ := rank_abs hs
  cases d with
  | rising => exact decide_eq_decide.2 (lt_iff_rank ht hs)
  | falling =>
    refine decide_eq_decide.2 ((lt_iff_rank hs hnt).trans ?_)
    rw [hneg]
  | stable =>
    refine decide_eq_decide.2 ((le_iff_rank hns ht).trans ?_)
    rw [habs]

theorem isNaN_of_holds {threshold slope : Float} {d : Trend}
    (h : d.holds threshold slope = true) : slope.isNaN = false := by
  cases d with
  | rising => exact (numbers_of_lt (of_decide_eq_true h)).2
  | falling => exact (numbers_of_lt (of_decide_eq_true h)).1
  | stable => exact isNaN_of_abs (numbers_of_le (of_decide_eq_true h)).1

/-- A slope of doubles is a movement in exactly one direction, unless it is no number. -/
theorem existsUnique_holds_iff {threshold : Float} (nonneg : 0 ≤ threshold) (slope : Float) :
    (∃! d : Trend, d.holds threshold slope = true) ↔ slope.isNaN = false := by
  refine ⟨fun ⟨d, hd, _⟩ => isNaN_of_holds hd, fun hs => ?_⟩
  obtain ⟨hz, ht⟩ := numbers_of_le nonneg
  simp only [judges_rank ht hs]
  exact existsUnique_judges ((le_iff_rank hz ht).1 nonneg) _

section Sees

variable [Add α] [Sub α] [Mul α] [Div α] [Neg α] [LT α] [LE α] [DecidableLT α] [DecidableLE α]
  {ofNat : ℕ → α} {abs : α → α} {threshold : α} {values : List α}

theorem sees_of_two (two : 2 ≤ values.length) (d : Trend) :
    d.sees ofNat abs threshold values
      = d.judges abs threshold (Slope.slope ofNat values) := by
  rw [sees, decide_eq_true two, Bool.true_and]

theorem not_sees (few : values.length < 2) (d : Trend) :
    d.sees ofNat abs threshold values = false := by
  rw [sees, decide_eq_false (Nat.not_le.2 few), Bool.false_and]

end Sees

end Trend

theorem Evidence.result_trend (t : TrendTest) (values : List Float) :
    (Evidence.trend t values).result = t.trend.sees Float.ofNat Float.abs t.slope values := by
  rw [Evidence.result, Slope.ofValues?]
  by_cases h : values.length < 2
  · rw [if_pos h, Trend.not_sees h]
  · rw [if_neg h, Trend.sees_of_two (Nat.le_of_not_lt h), Trend.judges_float]

/-- The slope of two or more fractions is the one of least squares, and moves with them. -/
structure Slope.LeastSquares (values : List ℚ) : Prop where
  divisor : (Slope.divisor values.length : ℤ) = values.length
        * ∑ i ∈ Finset.range values.length, (i : ℤ) ^ 2
      - (∑ i ∈ Finset.range values.length, (i : ℤ)) ^ 2
  positive : 0 < Slope.divisor values.length
  /-- Some line of this slope is nearer to the values than any other line. -/
  least : ∃ c, ∀ a b, (a, b) ≠ (c, slope Nat.cast values) →
    squares c (slope Nat.cast values) values < squares a b values
  raised : ∀ k, slope Nat.cast (values.map (· + k)) = slope Nat.cast values
  reversed : slope Nat.cast values.reverse = -slope Nat.cast values
  increasing : values.Pairwise (· < ·) → 0 < slope Nat.cast values

theorem Slope.leastSquares {values : List ℚ} (two : 2 ≤ values.length) : LeastSquares values where
  divisor := by
    rw [Slope.divisor, Nat.cast_sub (placeSum_le _), placeSum_eq, squareSum_eq]
    push_cast
    ring
  positive := by exact_mod_cast divisor_pos two
  least := ⟨intercept values, fun _ _ => squares_lt two⟩
  raised k := by rw [slope_eq, slope_eq, rise_map_add, List.length_map]
  reversed := by rw [slope_eq, slope_eq, rise_reverse, List.length_reverse, neg_div]
  increasing h := by
    rw [slope_eq]
    exact div_pos (rise_pos two h) (divisor_pos two)

/-- The slope of two or more values is that of least squares, and for every threshold that is
not negative they move in exactly one direction; fewer values move in none. Read over
fractions this holds of all values. Over doubles, as trends are judged, it holds of the
directions wherever the slope is a number, and nowhere else. -/
theorem trends_follow_least_squares :
    (∀ values : List ℚ, 2 ≤ values.length → Slope.LeastSquares values) ∧
    (∀ (values : List ℚ) (threshold : ℚ), 0 ≤ threshold →
      (2 ≤ values.length → ∃! d : Trend, d.sees Nat.cast abs threshold values = true) ∧
      (values.length < 2 → ∀ d : Trend, d.sees Nat.cast abs threshold values = false)) ∧
    ∀ (t : TrendTest) (values : List Float), 0 ≤ t.slope →
      (2 ≤ values.length →
        ((∃! d : Trend, (Evidence.trend { t with trend := d } values).result = true)
          ↔ (Slope.slope Float.ofNat values).isNaN = false)) ∧
      (values.length < 2 →
        ∀ d : Trend, (Evidence.trend { t with trend := d } values).result = false) := by
  refine ⟨fun values two => Slope.leastSquares two,
    fun values threshold nonneg => ⟨fun two => ?_, fun few d => Trend.not_sees few d⟩,
    fun t values nonneg => ⟨fun two => ?_, fun few d => ?_⟩⟩
  · simp only [Trend.sees_of_two two]
    exact Trend.existsUnique_judges nonneg _
  · simp only [Evidence.result_trend, Trend.sees_of_two two, Trend.judges_float]
    exact Trend.existsUnique_holds_iff nonneg _
  · rw [Evidence.result_trend, Trend.not_sees few]

/-- Three values of which the last steps are one and one and a half. -/
theorem trends_follow_least_squares_warming :
    2 ≤ ([20, 21, 45 / 2] : List ℚ).length ∧ (0 : ℚ) ≤ 1 / 100 ∧
      Slope.slope Nat.cast ([20, 21, 45 / 2] : List ℚ) = 5 / 4 ∧
      Slope.LeastSquares [20, 21, 45 / 2] ∧
      (∃! d : Trend, d.sees Nat.cast abs (1 / 100) ([20, 21, 45 / 2] : List ℚ) = true) ∧
      Trend.rising.sees Nat.cast abs (1 / 100) ([20, 21, 45 / 2] : List ℚ) = true := by
  obtain ⟨least, directions, -⟩ := trends_follow_least_squares
  have nonneg : (0 : ℚ) ≤ 1 / 100 := by norm_num
  exact ⟨by decide, nonneg, by decide +kernel, least _ (by decide),
    (directions _ _ nonneg).1 (by decide), by decide +kernel⟩

end Glasshouse
