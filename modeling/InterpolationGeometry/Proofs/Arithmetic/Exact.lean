import InterpolationGeometry.Proofs.Arithmetic.Numeric
import Mathlib.Analysis.Real.Sqrt
import Mathlib.Algebra.BigOperators.Fin
import Mathlib.Tactic.Positivity

/-!
# Exact real arithmetic

The reals as scalars.  Every real is finite and a number, so that selections offer every place and
no routine reports or fails for want of a number.  A quotient by zero is zero here; statements about
the reals are about runs that do not divide by zero.
-/

namespace InterpolationGeometry

noncomputable instance : Scalar ℝ where
  sqrt := Real.sqrt
  abs x := |x|
  isFinite _ := true
  decideLT := inferInstance
  decideLE := inferInstance

namespace Scalar

@[simp] theorem sqrt_real (x : ℝ) : Scalar.sqrt x = √x := rfl

@[simp] theorem abs_real (x : ℝ) : Scalar.abs x = |x| := rfl

@[simp] theorem isFinite_real (x : ℝ) : Scalar.isFinite x = true := rfl

@[simp] theorem isNaN_real (x : ℝ) : isNaN x = false := by
  simp [isNaN]

@[simp] theorem square_real (x : ℝ) : square x = x ^ 2 := (pow_two x).symm

@[simp] theorem boundedSquare_real (x : ℝ) : boundedSquare x = .ok (x ^ 2) := by
  simp [boundedSquare]

theorem divide_real {x y : ℝ} (h : y ≠ 0) : divide x y = .ok (x / y) := by
  have hsame : same y 0 = false := by
    rw [Bool.eq_false_iff]
    intro hsame
    simp only [same, Bool.and_eq_true, decide_eq_true_eq] at hsame
    exact h (le_antisymm hsame.1 hsame.2)
  exact divide_eq_ok_iff.2 ⟨hsame, rfl⟩

theorem larger_real (x y : ℝ) : larger x y = max x y := by
  unfold larger
  split
  · rename_i h
    exact (max_eq_right h.le).symm
  · rename_i h
    exact (max_eq_left (not_lt.1 h)).symm

theorem sum_real (n : ℕ) (f : ℕ → ℝ) : sum n f = ∑ k : Fin n, f k := by
  induction n with
  | zero => rfl
  | succ n ih => rw [sum_succ, ih, Fin.sum_univ_castSucc]; rfl

instance : Ordered ℝ where
  le_trans := fun h h' => h.trans h'
  self_of_le := fun _ => ⟨le_rfl, le_rfl⟩
  le_total := fun _ _ => le_total _ _
  lt_iff := lt_iff_le_not_ge

instance : Numeric ℝ where
  zero_le_zero := le_rfl
  add_nonneg := add_nonneg
  isNaN_add := by simp
  square_nonneg := fun {x} _ => mul_self_nonneg x
  isNaN_square := by simp
  isNaN_sub := by simp
  sqrt_nonneg := fun _ => Real.sqrt_nonneg _
  isNaN_sqrt := by simp
  isNaN_abs := by simp

instance : Measured ℝ where
  isNaN_length _ := isNaN_real _
  isNaN_one_div_length _ := isNaN_real _
  isNaN_mul _ _ := isNaN_real _

end Scalar

end InterpolationGeometry
