import InterpolationGeometry.Proofs.Arithmetic.Exact
import InterpolationGeometry.Proofs.Arithmetic.Extended

/-!
# The reals among the extended values

Operations on finite values are those on the reals, apart from quotients by zero and roots of
negative values.  So a routine that meets neither comes to the finite value that exact arithmetic
comes to.
-/

namespace InterpolationGeometry

namespace Extended

theorem one_eq : (1 : Extended) = finite 1 := rfl

theorem ofScientific_eq (mantissa : ℕ) (negative : Bool) (exponent : ℕ) :
    (OfScientific.ofScientific mantissa negative exponent : Extended) =
      finite (OfScientific.ofScientific mantissa negative exponent) := rfl

@[simp] theorem finite_add (x y : ℝ) : finite x + finite y = finite (x + y) := rfl

@[simp] theorem finite_mul (x y : ℝ) : finite x * finite y = finite (x * y) := rfl

@[simp] theorem neg_finite (x : ℝ) : -finite x = finite (-x) := rfl

@[simp] theorem abs_finite (x : ℝ) : Scalar.abs (finite x) = finite |x| := rfl

@[simp] theorem square_finite (x : ℝ) : Scalar.square (finite x) = finite (x ^ 2) := by
  rw [pow_two]
  rfl

@[simp] theorem isFinite_finite (x : ℝ) : Scalar.isFinite (finite x) = true := rfl

@[simp] theorem isFinite_infinite (negative : Bool) :
    Scalar.isFinite (infinite negative) = false := rfl

@[simp] theorem isFinite_nan : Scalar.isFinite nan = false := rfl

theorem eq_finite_of_isFinite {x : Extended} (h : Scalar.isFinite x = true) :
    ∃ r, x = finite r := by
  cases x with
  | finite r => exact ⟨r, rfl⟩
  | infinite s => simp [Scalar.isFinite] at h
  | nan => simp [Scalar.isFinite] at h

@[simp] theorem finite_lt_finite {x y : ℝ} : finite x < finite y ↔ x < y := by
  rw [Scalar.Ordered.lt_iff, finite_le_finite, finite_le_finite, lt_iff_le_not_ge]

theorem finite_div {y : ℝ} (h : y ≠ 0) (x : ℝ) : finite x / finite y = finite (x / y) := by
  show (if y = 0 then if x = 0 then nan else infinite (decide (x < 0)) else finite (x / y)) = _
  rw [if_neg h]

theorem zero_div_zero : finite 0 / finite 0 = nan := by
  show (if (0 : ℝ) = 0 then if (0 : ℝ) = 0 then nan else infinite (decide ((0 : ℝ) < 0))
    else finite (0 / 0)) = nan
  simp

/-- A real other than zero is infinitely many times zero, and zero times infinity is no number. -/
theorem div_zero_mul_zero {x : ℝ} (h : x ≠ 0) : finite x / finite 0 * finite 0 = nan := by
  have hdiv : finite x / finite 0 = infinite (decide (x < 0)) := by
    show (if (0 : ℝ) = 0 then if x = 0 then nan else infinite (decide (x < 0)) else _) = _
    rw [if_pos rfl, if_neg h]
  rw [hdiv]
  show (if (0 : ℝ) = 0 then nan else _) = nan
  rw [if_pos rfl]

theorem one_div_zero : finite 1 / finite 0 = infinite false := by
  show (if (0 : ℝ) = 0 then if (1 : ℝ) = 0 then nan else infinite (decide ((1 : ℝ) < 0)) else _) = _
  rw [if_pos rfl, if_neg one_ne_zero, decide_eq_false (not_lt.2 zero_le_one)]

theorem not_infinite_lt (x : Extended) : ¬ infinite false < x := fun h => not_top_lt h.2.2

theorem finite_div_infinite (x : ℝ) (negative : Bool) : finite x / infinite negative = finite 0 :=
  rfl

theorem mul_finite_nonneg {x : Extended} (hx : 0 ≤ x) {y : ℝ} (hy : 0 < y) :
    0 ≤ x * finite y := by
  rcases zero_le_iff.1 hx with ⟨r, hr, rfl⟩ | rfl
  · exact finite_le_finite.2 (mul_nonneg hr hy.le)
  · have hmul : infinite false * finite y = infinite false := by
      show (if y = 0 then nan else infinite (false != decide (y < 0))) = infinite false
      rw [if_neg hy.ne', decide_eq_false (not_lt.2 hy.le)]
      rfl
    rw [hmul]
    exact hx

/-- Zero times any value is zero or no number. -/
theorem zero_mul_eq (x : Extended) : finite 0 * x = nan ∨ finite 0 * x = 0 := by
  cases x with
  | finite x => exact Or.inr (by rw [finite_mul, zero_mul, zero_eq])
  | infinite s =>
      left
      show (if (0 : ℝ) = 0 then nan else _) = nan
      rw [if_pos rfl]
  | nan => exact Or.inl rfl

theorem sqrt_finite {x : ℝ} (h : 0 ≤ x) : Scalar.sqrt (finite x) = finite √x := by
  show (if x < 0 then nan else finite √x) = _
  rw [if_neg (not_lt.2 h)]

@[simp] theorem larger_finite (x y : ℝ) :
    Scalar.larger (finite x) (finite y) = finite (max x y) := by
  rw [← Scalar.larger_real]
  simp only [Scalar.larger, finite_lt_finite]
  split <;> rfl

@[simp] theorem boundedSquare_finite (x : ℝ) :
    Scalar.boundedSquare (finite x) = .ok (finite (x ^ 2)) := by
  simp [Scalar.boundedSquare]

/-- Among exact values no square is too large. -/
theorem boundedSquare_eq (x : Extended) :
    Scalar.boundedSquare x = .ok (Scalar.square x) := by
  cases x with
  | finite x => rw [boundedSquare_finite, square_finite]
  | infinite negative => rfl
  | nan => rfl

theorem divide_finite {y : ℝ} (h : y ≠ 0) (x : ℝ) :
    Scalar.divide (finite x) (finite y) = .ok (finite (x / y)) := by
  refine Scalar.divide_eq_ok_iff.2 ⟨?_, finite_div h x⟩
  rw [Bool.eq_false_iff, zero_eq]
  intro hsame
  simp only [Scalar.same, Bool.and_eq_true, decide_eq_true_eq, finite_le_finite] at hsame
  exact h (le_antisymm hsame.1 hsame.2)

theorem sum_finite (n : ℕ) (f : ℕ → ℝ) :
    (Scalar.sum n fun k => finite (f k)) = finite (Scalar.sum n f) := by
  induction n with
  | zero => rfl
  | succ n ih => rw [Scalar.sum_succ, ih, Scalar.sum_succ, finite_add]

theorem isFinite_of_isFinite_add {x y : Extended} (h : Scalar.isFinite (x + y) = true) :
    Scalar.isFinite x = true ∧ Scalar.isFinite y = true := by
  have hadd : x + y = add x y := rfl
  rw [hadd] at h
  cases x with
  | finite x =>
      cases y with
      | finite y => exact ⟨rfl, rfl⟩
      | infinite t => simp [add, Scalar.isFinite] at h
      | nan => simp [add, Scalar.isFinite] at h
  | infinite s =>
      cases y with
      | finite y => simp [add, Scalar.isFinite] at h
      | infinite t =>
          rw [add] at h
          split at h
          · simp [Scalar.isFinite] at h
          · simp [Scalar.isFinite] at h
      | nan => simp [add, Scalar.isFinite] at h
  | nan => simp [add, Scalar.isFinite] at h

theorem isFinite_of_isFinite_sum {n : ℕ} {f : ℕ → Extended}
    (h : Scalar.isFinite (Scalar.sum n f) = true) {k : ℕ} (hk : k < n) :
    Scalar.isFinite (f k) = true := by
  induction n with
  | zero => omega
  | succ n ih =>
      obtain ⟨hinit, hlast⟩ := isFinite_of_isFinite_add h
      rcases Nat.lt_succ_iff_lt_or_eq.1 hk with hlt | rfl
      · exact ih hinit hlt
      · exact hlast

theorem isFinite_of_isFinite_mul_self {x : Extended} (h : Scalar.isFinite (x * x) = true) :
    Scalar.isFinite x = true := by
  have hmul : x * x = mul x x := rfl
  rw [hmul] at h
  cases x with
  | finite x => rfl
  | infinite s => simp [mul, Scalar.isFinite] at h
  | nan => simp [mul, Scalar.isFinite] at h

/-! ## Values that are not numbers -/

@[simp] theorem nan_add (x : Extended) : nan + x = nan := rfl

@[simp] theorem add_nan (x : Extended) : x + nan = nan := by cases x <;> rfl

@[simp] theorem nan_mul (x : Extended) : nan * x = nan := rfl

@[simp] theorem mul_nan (x : Extended) : x * nan = nan := by cases x <;> rfl

@[simp] theorem sub_nan (x : Extended) : x - nan = nan := add_nan x

@[simp] theorem nan_sub (x : Extended) : nan - x = nan := rfl

@[simp] theorem nan_div (x : Extended) : nan / x = nan := rfl

@[simp] theorem div_nan (x : Extended) : x / nan = nan := by cases x <;> rfl

@[simp] theorem neg_nan : -nan = nan := rfl

@[simp] theorem sqrt_nan : Scalar.sqrt nan = nan := rfl

@[simp] theorem abs_nan : Scalar.abs nan = nan := rfl

@[simp] theorem not_nan_lt (x : Extended) : ¬ nan < x := fun h => h.1 rfl

@[simp] theorem not_lt_nan (x : Extended) : ¬ x < nan := fun h => h.2.1 rfl

@[simp] theorem not_nan_le (x : Extended) : ¬ nan ≤ x := fun h => h.1 rfl

@[simp] theorem not_le_nan (x : Extended) : ¬ x ≤ nan := fun h => h.2.1 rfl

theorem sum_nan {n k : ℕ} {f : ℕ → Extended} (hk : k < n) (h : f k = nan) :
    Scalar.sum n f = nan := by
  induction n with
  | zero => omega
  | succ n ih =>
      rw [Scalar.sum_succ]
      rcases Nat.lt_succ_iff_lt_or_eq.1 hk with hlt | rfl
      · rw [ih hlt, nan_add]
      · rw [h, add_nan]

/-! ## Products and zero -/

/-- Infinity times a value that is not negative is infinity, or no number. -/
theorem nonneg_mul_infinite {x : Extended} (hx : 0 ≤ x) :
    x * infinite false = nan ∨ x * infinite false = infinite false := by
  rcases zero_le_iff.1 hx with ⟨r, hr, rfl⟩ | rfl
  · have hmul : finite r * infinite false =
        if r = 0 then nan else infinite (false != decide (r < 0)) := rfl
    rw [hmul, decide_eq_false (not_lt.2 hr)]
    split
    · exact Or.inl rfl
    · exact Or.inr rfl
  · exact Or.inr rfl

theorem pos_of_mul_lt {x y z : Extended} (hx : 0 ≤ x) (hy : 0 < y) (h : x * y < z) : 0 < z := by
  refine Scalar.lt_of_le_of_lt ?_ h
  rcases zero_lt_iff.1 hy with ⟨t, ht, rfl⟩ | rfl
  · exact mul_finite_nonneg hx ht
  · rcases nonneg_mul_infinite hx with hnan | hinfinite
    · rw [hnan] at h
      exact absurd h (not_nan_lt z)
    · rw [hinfinite]
      exact zero_le_iff.2 (Or.inr rfl)

theorem divide_of_pos {y : Extended} (hy : 0 < y) (x : Extended) :
    Scalar.divide x y = .ok (x / y) := by
  refine Scalar.divide_eq_ok_iff.2 ⟨?_, rfl⟩
  rw [Scalar.same, decide_eq_false (Scalar.not_le_of_lt hy), Bool.false_and]

end Extended

end InterpolationGeometry
