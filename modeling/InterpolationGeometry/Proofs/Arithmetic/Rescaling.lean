import InterpolationGeometry.Proofs.Alike
import InterpolationGeometry.Proofs.Arithmetic.Embedding

/-!
# Values in other units

A change of units multiplies every value by a positive factor, which is the factor of its unit.
Infinities, zero and values that are no number stay as they are.  The arithmetic multiplies and
divides the factors, sums need one common factor, and comparisons within one unit come out the same
in the other.
-/

namespace InterpolationGeometry

namespace Extended

open Scalar

/-! ## Positive factors -/

private theorem mul_neg_iff_of_pos {q : ℝ} (hq : 0 < q) {x : ℝ} : q * x < 0 ↔ x < 0 :=
  smul_neg_iff_of_pos_left hq

theorem infinite_mul_finite (x : ℝ) (negative : Bool) :
    infinite negative * finite x = finite x * infinite negative := rfl

/-- Next to an infinity only the sign of a real counts, and whether it is zero. -/
theorem mul_finite_mul_infinite {q : ℝ} (hq : 0 < q) (x : ℝ) (negative : Bool) :
    finite (q * x) * infinite negative = finite x * infinite negative := by
  show (if q * x = 0 then nan else infinite (negative != decide (q * x < 0))) =
    if x = 0 then nan else infinite (negative != decide (x < 0))
  simp only [mul_eq_zero, hq.ne', false_or, mul_neg_iff_of_pos hq]

theorem infinite_div_mul_finite {q : ℝ} (hq : 0 < q) (x : ℝ) (negative : Bool) :
    infinite negative / finite (q * x) = infinite negative / finite x := by
  show infinite (negative != decide (q * x < 0)) = infinite (negative != decide (x < 0))
  simp only [mul_neg_iff_of_pos hq]

theorem mul_finite_div_zero {q : ℝ} (hq : 0 < q) (x : ℝ) :
    finite (q * x) / finite 0 = finite x / finite 0 := by
  show (if (0 : ℝ) = 0 then if q * x = 0 then nan else infinite (decide (q * x < 0)) else _) =
    if (0 : ℝ) = 0 then if x = 0 then nan else infinite (decide (x < 0)) else _
  simp only [if_true, mul_eq_zero, hq.ne', false_or, mul_neg_iff_of_pos hq]

theorem isFinite_finite_mul_infinite (x : ℝ) (negative : Bool) :
    Scalar.isFinite (finite x * infinite negative) = false := by
  show Scalar.isFinite (if x = 0 then nan else infinite (negative != decide (x < 0))) = false
  split
  · rfl
  · rfl

theorem isFinite_infinite_div_finite (x : ℝ) (negative : Bool) :
    Scalar.isFinite (infinite negative / finite x) = false := rfl

theorem isFinite_finite_div_zero (x : ℝ) : Scalar.isFinite (finite x / finite 0) = false := by
  show Scalar.isFinite (if (0 : ℝ) = 0 then if x = 0 then nan else infinite (decide (x < 0))
    else _) = false
  rw [if_pos rfl]
  split
  · rfl
  · rfl

theorem finite_le_infinite_iff (x : ℝ) (negative : Bool) :
    finite x ≤ infinite negative ↔ negative = false := by
  cases negative with
  | false => simp [le_iff, rank]
  | true => simp [le_iff, rank]

theorem infinite_le_finite_iff (x : ℝ) (negative : Bool) :
    infinite negative ≤ finite x ↔ negative = true := by
  cases negative with
  | false => simp [le_iff, rank]
  | true => simp [le_iff, rank]

/-! ## Values in two units -/

/-- The second value is the first in units in which its number is multiplied by `q`. -/
inductive Rescaled (q : ℝ) : Extended → Extended → Prop
  | finite (hq : 0 < q) (x : ℝ) : Rescaled q (.finite x) (.finite (q * x))
  | infinite (hq : 0 < q) (negative : Bool) : Rescaled q (.infinite negative) (.infinite negative)
  | nan (hq : 0 < q) : Rescaled q .nan .nan

namespace Rescaled

variable {q r : ℝ} {x x' y y' : Extended}

theorem pos (h : Rescaled q x x') : 0 < q := by
  cases h with
  | finite hq x => exact hq
  | infinite hq negative => exact hq
  | nan hq => exact hq

theorem eq_finite {x : ℝ} (h : Rescaled q (.finite x) y) : y = .finite (q * x) := by
  cases h with
  | finite hq x => rfl

theorem cast (h : Rescaled q x x') (hqr : q = r) : Rescaled r x x' := by
  rwa [← hqr]

protected theorem zero (hq : 0 < q) : Rescaled q 0 0 := by
  have hzero := Rescaled.finite hq 0
  rwa [mul_zero] at hzero

protected theorem const (x : Extended) : Rescaled 1 x x := by
  cases x with
  | finite x =>
      have hsame := Rescaled.finite one_pos x
      rwa [one_mul] at hsame
  | infinite negative => exact .infinite one_pos negative
  | nan => exact .nan one_pos

/-- A value that is not finite is the same in all units. -/
theorem of_not_isFinite (hq : 0 < q) (hx : Scalar.isFinite x = false) : Rescaled q x x := by
  cases x with
  | finite x => contradiction
  | infinite negative => exact .infinite hq negative
  | nan => exact .nan hq

/-! ## Arithmetic -/

protected theorem add (hx : Rescaled q x x') (hy : Rescaled q y y') :
    Rescaled q (x + y) (x' + y') := by
  cases hx with
  | finite hq x =>
      cases hy with
      | finite _ y =>
          rw [finite_add, finite_add, ← mul_add]
          exact .finite hq (x + y)
      | infinite _ negative => exact .infinite hq negative
      | nan => exact .nan hq
  | infinite hq negative =>
      cases hy with
      | finite _ y => exact .infinite hq negative
      | infinite _ negative' =>
          show Rescaled q (if negative = negative' then .infinite negative else .nan)
            (if negative = negative' then .infinite negative else .nan)
          split
          · exact .infinite hq negative
          · exact .nan hq
      | nan => exact .nan hq
  | nan hq => exact .nan hq

protected theorem neg (hx : Rescaled q x x') : Rescaled q (-x) (-x') := by
  cases hx with
  | finite hq x =>
      rw [neg_finite, neg_finite, ← mul_neg]
      exact .finite hq (-x)
  | infinite hq negative => exact .infinite hq !negative
  | nan hq => exact .nan hq

protected theorem sub (hx : Rescaled q x x') (hy : Rescaled q y y') :
    Rescaled q (x - y) (x' - y') :=
  hx.add hy.neg

protected theorem mul (hx : Rescaled q x x') (hy : Rescaled r y y') :
    Rescaled (q * r) (x * y) (x' * y') := by
  have hqr := mul_pos hx.pos hy.pos
  cases hx with
  | finite hq x =>
      cases hy with
      | finite _ y =>
          rw [finite_mul, finite_mul, mul_mul_mul_comm]
          exact .finite hqr (x * y)
      | infinite _ negative =>
          rw [mul_finite_mul_infinite hq]
          exact .of_not_isFinite hqr (isFinite_finite_mul_infinite x negative)
      | nan => exact .nan hqr
  | infinite hq negative =>
      cases hy with
      | finite hr y =>
          rw [infinite_mul_finite, infinite_mul_finite, mul_finite_mul_infinite hr]
          exact .of_not_isFinite hqr (isFinite_finite_mul_infinite y negative)
      | infinite _ negative' => exact .infinite hqr (negative != negative')
      | nan => exact .nan hqr
  | nan => exact .nan hqr

protected theorem div (hx : Rescaled q x x') (hy : Rescaled r y y') :
    Rescaled (q / r) (x / y) (x' / y') := by
  have hqr := div_pos hx.pos hy.pos
  cases hx with
  | finite hq x =>
      cases hy with
      | finite hr y =>
          by_cases hy : y = 0
          · rw [hy, mul_zero, mul_finite_div_zero hq]
            exact .of_not_isFinite hqr (isFinite_finite_div_zero x)
          · rw [finite_div hy, finite_div (mul_ne_zero hr.ne' hy), mul_div_mul_comm]
            exact .finite hqr (x / y)
      | infinite => exact .zero hqr
      | nan => exact .nan hqr
  | infinite _ negative =>
      cases hy with
      | finite hr y =>
          rw [infinite_div_mul_finite hr]
          exact .of_not_isFinite hqr (isFinite_infinite_div_finite y negative)
      | infinite => exact .nan hqr
      | nan => exact .nan hqr
  | nan => exact .nan hqr

protected theorem abs (hx : Rescaled q x x') : Rescaled q (Scalar.abs x) (Scalar.abs x') := by
  cases hx with
  | finite hq x =>
      rw [abs_finite, abs_finite, abs_mul, abs_of_pos hq]
      exact .finite hq |x|
  | infinite hq => exact .infinite hq false
  | nan hq => exact .nan hq

protected theorem sqrt (hq : 0 < q) (hx : Rescaled (q * q) x x') :
    Rescaled q (Scalar.sqrt x) (Scalar.sqrt x') := by
  have hqq := mul_pos hq hq
  cases hx with
  | finite _ x =>
      show Rescaled q (if x < 0 then .nan else .finite √x)
        (if q * q * x < 0 then .nan else .finite √(q * q * x))
      simp only [mul_neg_iff_of_pos hqq, Real.sqrt_mul hqq.le, Real.sqrt_mul_self hq.le]
      split
      · exact .nan hq
      · exact .finite hq √x
  | infinite _ negative =>
      cases negative with
      | false => exact .infinite hq false
      | true => exact .nan hq
  | nan => exact .nan hq

protected theorem square (hx : Rescaled q x x') :
    Rescaled (q * q) (Scalar.square x) (Scalar.square x') :=
  hx.mul hx

theorem scale (c : Extended) (hx : Rescaled q x x') : Rescaled q (c * x) (c * x') :=
  ((Rescaled.const c).mul hx).cast (one_mul q)

protected theorem sum {n : ℕ} {f f' : ℕ → Extended} (hq : 0 < q)
    (h : ∀ k, Rescaled q (f k) (f' k)) : Rescaled q (Scalar.sum n f) (Scalar.sum n f') := by
  induction n with
  | zero => exact .zero hq
  | succ n ih => exact ih.add (h n)

/-! ## Comparisons -/

theorem isNaN_eq (hx : Rescaled q x x') : isNaN x' = isNaN x := by
  cases hx with
  | finite _ x => rw [isNaN_finite, isNaN_finite]
  | infinite => rfl
  | nan => rfl

theorem isFinite_eq (hx : Rescaled q x x') : Scalar.isFinite x' = Scalar.isFinite x := by
  cases hx with
  | finite => rfl
  | infinite => rfl
  | nan => rfl

protected theorem le_iff (hx : Rescaled q x x') (hy : Rescaled q y y') : x' ≤ y' ↔ x ≤ y := by
  cases hx with
  | finite hq x =>
      cases hy with
      | finite _ y => rw [finite_le_finite, finite_le_finite, mul_le_mul_iff_right₀ hq]
      | infinite _ negative => rw [finite_le_infinite_iff, finite_le_infinite_iff]
      | nan => exact iff_of_false (not_le_nan _) (not_le_nan _)
  | infinite hq negative =>
      cases hy with
      | finite _ y => rw [infinite_le_finite_iff, infinite_le_finite_iff]
      | infinite => exact Iff.rfl
      | nan => exact Iff.rfl
  | nan => exact iff_of_false (not_nan_le _) (not_nan_le _)

protected theorem lt_iff (hx : Rescaled q x x') (hy : Rescaled q y y') : x' < y' ↔ x < y := by
  rw [Ordered.lt_iff, Ordered.lt_iff, hx.le_iff hy, hy.le_iff hx]

theorem lt_zero_iff (hx : Rescaled q x x') : x' < 0 ↔ x < 0 := hx.lt_iff (.zero hx.pos)

theorem zero_lt_iff (hx : Rescaled q x x') : 0 < x' ↔ 0 < x := (Rescaled.zero hx.pos).lt_iff hx

protected theorem larger (hx : Rescaled q x x') (hy : Rescaled q y y') :
    Rescaled q (Scalar.larger x y) (Scalar.larger x' y') :=
  related_ite (hx.lt_iff hy) hy hx

protected theorem divide (hx : Rescaled q x x') (hy : Rescaled r y y') :
    Alike (Rescaled (q / r)) (Scalar.divide x y) (Scalar.divide x' y') := by
  have hzero := Rescaled.zero hy.pos
  have hsame : same y' 0 = same y 0 := by
    simp only [same, hy.le_iff hzero, hzero.le_iff hy]
  rw [Scalar.divide, Scalar.divide, hsame]
  exact related_ite Iff.rfl (.error .divisionByZero) (.ok (hx.div hy))

end Rescaled

end Extended

end InterpolationGeometry
