import InterpolationGeometry.Proofs.Tensor.InverseTest
import Mathlib.Analysis.Matrix.Normed
import Mathlib.Analysis.Normed.Ring.Units

/-!
# What the test of an inverse certifies

The largest row sum is the norm of a matrix as an operator for the largest absolute value, so it is
submultiplicative and a product within less than one of the identity is invertible.  The test asks
for both products, so that it does not see which matrix comes first.  When its bound is below one,
two matrices that pass are invertible, and the second differs from the inverse of the first by at
most the bound times the norm of that inverse.
-/

namespace InterpolationGeometry

namespace Tensor

open Matrix Scalar

open scoped Matrix.Norms.Operator

variable {n : ℕ} {A B : Matrix (Fin n) (Fin n) ℝ} {tolerance bound : ℝ}

/-! ## Residuals -/

theorem isUnit_of_norm_mul_sub_one_lt (h : ‖A * B - 1‖ < 1) : IsUnit A ∧ IsUnit B := by
  have hunit : IsUnit (A * B) := by
    by_contra hnot
    exact nonunits.subset_compl_ball hnot (by rwa [mem_ball_iff_norm])
  exact ⟨isUnit_of_mul_isUnit_left hunit, isUnit_of_mul_isUnit_right hunit⟩

/-- The residual bounds the distance from the inverse, relative to the inverse. -/
theorem norm_sub_inv_le (hA : IsUnit A) : ‖B - A⁻¹‖ ≤ ‖A⁻¹‖ * ‖A * B - 1‖ := by
  have hinv : A⁻¹ * A = 1 := nonsing_inv_mul A ((isUnit_iff_isUnit_det A).1 hA)
  calc ‖B - A⁻¹‖ = ‖A⁻¹ * (A * B - 1)‖ := by rw [mul_sub, ← mul_assoc, hinv, one_mul, mul_one]
    _ ≤ ‖A⁻¹‖ * ‖A * B - 1‖ := norm_mul_le _ _

/-! ## The test -/

theorem norm_le_iff_rowSum (hbound : 0 ≤ bound) : ‖A‖ ≤ bound ↔ ∀ i, rowSum A i ≤ bound := by
  lift bound to NNReal using hbound
  rw [linfty_opNorm_def, NNReal.coe_le_coe, Finset.sup_le_iff]
  refine ⟨fun h i => ?_, fun h i _ => ?_⟩
  · have hle := NNReal.coe_le_coe.2 (h i (Finset.mem_univ i))
    simpa [rowSum] using hle
  · rw [← NNReal.coe_le_coe]
    simpa [rowSum] using h i

theorem rowSumNorm_eq_norm (hn : 1 ≤ n) (A : Matrix (Fin n) (Fin n) ℝ) :
    (ofMatrix A).rowSumNorm = .ok ‖A‖ := by
  obtain ⟨r, hr⟩ := exists_rowSumNorm hn A
  have hle := (rowSumNorm_le_iff hr).1 le_rfl
  have hpos : 0 ≤ r := (rowSum_nonneg A ⟨0, hn⟩).trans (hle ⟨0, hn⟩)
  have hrows := (norm_le_iff_rowSum (norm_nonneg A)).1 le_rfl
  rw [hr, le_antisymm ((rowSumNorm_le_iff hr).2 hrows) ((norm_le_iff_rowSum hpos).2 hle)]

open Classical in
theorem nearIdentity_eq_norm (hn : 1 ≤ n) :
    nearIdentity bound n (ofMatrix A) (ofMatrix B) = .ok (decide (‖A * B - 1‖ ≤ bound)) := by
  simp [nearIdentity, matmul_ofMatrix_ofMatrix, sub_identity_ofMatrix, rowSumNorm_eq_norm hn, bind,
    Except.bind, pure, Except.pure]

open Classical in
/-- The test asks for the norms of both residuals. -/
theorem isInverse_eq_norm (hn : 1 ≤ n) (htolerance : 0 ≤ tolerance) :
    isInverse tolerance (ofMatrix A) (ofMatrix B) =
      .ok (decide (‖A * B - 1‖ ≤ tolerance * max 1 (max ‖A‖ ‖B‖) ∧
        ‖B * A - 1‖ ≤ tolerance * max 1 (max ‖A‖ ‖B‖))) := by
  have hlength : (ofMatrix A).axisLength 0 = .ok n := axisLength_matrix_zero n n (cell A)
  have hshapes : (ofMatrix A).shape = [n, n] ∧ (ofMatrix B).shape = [n, n] ∧
      (ofMatrix A).isFinite = true ∧ (ofMatrix B).isFinite = true :=
    ⟨rfl, rfl, isFinite_real _, isFinite_real _⟩
  rw [mul_max_of_nonneg _ _ htolerance, mul_one]
  simp only [isInverse, hlength, if_pos hshapes, rowSumNorm_eq_norm hn, larger_real,
    nearIdentity_eq_norm hn, bind, Except.bind, pure, Except.pure]
  split <;> simp_all

/-- The test of two square matrices comes to one answer in both orders.  It accepts a matrix and its
inverse under every tolerance.  If it accepts and its bound is below one, both matrices are
invertible, and the second is within the bound, relative to its norm, of the inverse of the
first. -/
theorem isInverse_certifies (hn : 1 ≤ n) (htolerance : 0 ≤ tolerance) :
    ∃ answer,
      isInverse tolerance (ofMatrix A) (ofMatrix B) = .ok answer ∧
      isInverse tolerance (ofMatrix B) (ofMatrix A) = .ok answer ∧
      (A * B = 1 → answer = true) ∧
      (answer = true → tolerance * max 1 (max ‖A‖ ‖B‖) < 1 →
        IsUnit A ∧ IsUnit B ∧
          ‖B - A⁻¹‖ ≤ ‖A⁻¹‖ * (tolerance * max 1 (max ‖A‖ ‖B‖))) := by
  classical
  refine ⟨_, isInverse_eq_norm hn htolerance, ?_, fun hAB => ?_, fun h hsmall => ?_⟩
  · rw [isInverse_eq_norm hn htolerance, max_comm ‖B‖ ‖A‖]
    simp only [and_comm]
  · have hbound : 0 ≤ tolerance * max 1 (max ‖A‖ ‖B‖) :=
      mul_nonneg htolerance (zero_le_one.trans (le_max_left _ _))
    rw [decide_eq_true_iff, hAB, mul_eq_one_comm.1 hAB, sub_self, norm_zero]
    exact ⟨hbound, hbound⟩
  · have hresidual := (of_decide_eq_true h).1
    obtain ⟨hA, hB⟩ := isUnit_of_norm_mul_sub_one_lt (hresidual.trans_lt hsmall)
    refine ⟨hA, hB, (norm_sub_inv_le hA).trans ?_⟩
    exact mul_le_mul_of_nonneg_left hresidual (norm_nonneg _)

/-- Twice the identity and three fifths of it, which are not inverse, pass under a tolerance of a
tenth and a bound of a fifth. -/
theorem isInverse_certifies_diagonal :
    let A := diagonal fun _ : Fin 2 => (2 : ℝ)
    let B := diagonal fun _ : Fin 2 => (3 / 5 : ℝ)
    1 ≤ 2 ∧ (0 : ℝ) ≤ 1 / 10 ∧ isInverse (1 / 10) (ofMatrix A) (ofMatrix B) = .ok true ∧
      ‖B - A⁻¹‖ ≤ ‖A⁻¹‖ * (1 / 5) := by
  intro A B
  have hnorm : ∀ c : ℝ, ‖diagonal fun _ : Fin 2 => c‖ = |c| := fun c => by
    rw [linfty_opNorm_diagonal, pi_norm_const, Real.norm_eq_abs]
  have hbound : (1 / 10 : ℝ) * max 1 (max ‖A‖ ‖B‖) = 1 / 5 := by
    rw [hnorm, hnorm, abs_of_pos (by norm_num), abs_of_pos (by norm_num)]
    norm_num
  have hresidual : ‖A * B - 1‖ ≤ 1 / 5 ∧ ‖B * A - 1‖ ≤ 1 / 5 := by
    rw [diagonal_mul_diagonal, diagonal_mul_diagonal, ← diagonal_one, diagonal_sub, diagonal_sub]
    constructor
    · rw [hnorm, abs_le]
      norm_num
    · rw [hnorm, abs_le]
      norm_num
  have htolerance : (0 : ℝ) ≤ 1 / 10 := by norm_num
  obtain ⟨answer, hAB, -, -, hsound⟩ :=
    isInverse_certifies (A := A) (B := B) one_le_two htolerance
  have htrue : answer = true := by
    rw [isInverse_eq_norm one_le_two htolerance, hbound, decide_eq_true hresidual] at hAB
    exact (Except.ok.inj hAB).symm
  rw [hbound] at hsound
  exact ⟨one_le_two, htolerance, by rw [hAB, htrue], (hsound htrue (by norm_num)).2.2⟩

end Tensor

end InterpolationGeometry
