import InterpolationGeometry.Proofs.Tensor.Euclidean
import Mathlib.LinearAlgebra.Matrix.Adjugate

/-!
# Exchanging a vertex

An edge of a simplex is replaced by a vector.  The new edges are independent exactly when the
coordinate of the vector in the old edge is not zero.  The inverse of the new edges is known row by
row: the row of the exchanged vertex is divided by the coordinate, and the others lose the multiple
of it that makes them orthogonal to the vector.  So the height of the exchanged vertex is multiplied
by the absolute value of the coordinate.
-/

namespace InterpolationGeometry

namespace Simplex

open Matrix

variable {n : ℕ} {E : Matrix (Fin n) (Fin n) ℝ} {d : Fin n → ℝ} {j : Fin n}

theorem inv_mulVec_col (hE : IsUnit E) (k : Fin n) : E⁻¹ *ᵥ E.col k = Pi.single k 1 := by
  have hdet := (isUnit_iff_isUnit_det E).1 hE
  have hcol : E.col k = E *ᵥ Pi.single k 1 := (mulVec_single_one E k).symm
  rw [hcol, mulVec_mulVec, nonsing_inv_mul E hdet, one_mulVec]

/-- A vector whose coordinates all vanish is zero. -/
theorem exists_coordinate_ne_zero (hE : IsUnit E) (hd : d ≠ 0) : ∃ k, (E⁻¹ *ᵥ d) k ≠ 0 := by
  have hdet := (isUnit_iff_isUnit_det E).1 hE
  apply Function.ne_iff.1
  intro hzero
  apply hd
  calc d = E *ᵥ (E⁻¹ *ᵥ d) := by rw [mulVec_mulVec, mul_nonsing_inv E hdet, one_mulVec]
    _ = 0 := by rw [hzero]; exact mulVec_zero E

theorem col_ne_zero (hE : IsUnit E) (k : Fin n) : E.col k ≠ 0 := by
  intro hzero
  have hsingle := inv_mulVec_col hE k
  rw [hzero, mulVec_zero] at hsingle
  have hentry := congrFun hsingle k
  simp at hentry

theorem inv_row_ne_zero (hE : IsUnit E) (k : Fin n) : E⁻¹ k ≠ 0 := by
  intro hzero
  have hentry := congrFun (inv_mulVec_col hE k) k
  have hrow : (E⁻¹ *ᵥ E.col k) k = E⁻¹ k ⬝ᵥ E.col k := rfl
  rw [hrow, hzero, zero_dotProduct] at hentry
  simp at hentry

theorem inv_row_dotProduct_pos (hE : IsUnit E) (k : Fin n) : 0 < E⁻¹ k ⬝ᵥ E⁻¹ k :=
  dotProduct_self_pos (inv_row_ne_zero hE k)

theorem faceHeight_pos (hE : IsUnit E) (k : Fin n) : 0 < faceHeight E⁻¹ k :=
  one_div_pos.2 (Real.sqrt_pos.2 (inv_row_dotProduct_pos hE k))

theorem edgeLength_diagonal (d : Fin n → ℝ) (k : Fin n) : edgeLength (diagonal d) k = |d k| := by
  rw [edgeLength, col_diagonal, single_dotProduct, Pi.single_eq_same, Real.sqrt_mul_self_eq_abs]

/-- The edges stay independent exactly when the coordinate of the new one does not vanish. -/
theorem isUnit_updateCol_iff (hE : IsUnit E) : IsUnit (E.updateCol j d) ↔ (E⁻¹ *ᵥ d) j ≠ 0 := by
  have hdet := (isUnit_iff_isUnit_det E).1 hE
  have hcramer : (E.updateCol j d).det = E.det * (E⁻¹ *ᵥ d) j := by
    rw [← cramer_apply, ← det_smul_inv_mulVec_eq_cramer E d hdet]
    rfl
  rw [isUnit_iff_isUnit_det, hcramer, isUnit_iff_ne_zero, mul_ne_zero_iff]
  exact and_iff_right hdet.ne_zero

noncomputable def exchangedInverse (S : Matrix (Fin n) (Fin n) ℝ) (d : Fin n → ℝ) (j : Fin n) :
    Matrix (Fin n) (Fin n) ℝ :=
  .of fun k => if k = j then ((S *ᵥ d) j)⁻¹ • S j else S k - ((S *ᵥ d) k / (S *ᵥ d) j) • S j

theorem exchangedInverse_self (S : Matrix (Fin n) (Fin n) ℝ) (d : Fin n → ℝ) (j : Fin n) :
    exchangedInverse S d j j = ((S *ᵥ d) j)⁻¹ • S j :=
  if_pos rfl

theorem exchangedInverse_of_ne (S : Matrix (Fin n) (Fin n) ℝ) (d : Fin n → ℝ) {j k : Fin n}
    (h : k ≠ j) :
    exchangedInverse S d j k = S k - ((S *ᵥ d) k / (S *ᵥ d) j) • S j :=
  if_neg h

theorem inv_updateCol (hE : IsUnit E) (hj : (E⁻¹ *ᵥ d) j ≠ 0) :
    (E.updateCol j d)⁻¹ = exchangedInverse E⁻¹ d j := by
  have hdet := (isUnit_iff_isUnit_det E).1 hE
  have hrow : ∀ k l, E⁻¹ k ⬝ᵥ E.col l = (1 : Matrix (Fin n) (Fin n) ℝ) k l := by
    intro k l
    rw [← nonsing_inv_mul E hdet]
    rfl
  have hnew : ∀ k, E⁻¹ k ⬝ᵥ d = (E⁻¹ *ᵥ d) k := fun k => rfl
  have hcol : ∀ l, l ≠ j → (E.updateCol j d).col l = E.col l := by
    intro l hl
    funext i
    exact updateCol_ne hl
  have hself : (E.updateCol j d).col j = d := by
    funext i
    exact updateCol_self
  -- A left inverse is enough: each row is tried on each column, the new one apart.
  apply inv_eq_left_inv
  ext k l
  have hentry : (exchangedInverse E⁻¹ d j * E.updateCol j d) k l =
      exchangedInverse E⁻¹ d j k ⬝ᵥ (E.updateCol j d).col l := rfl
  rw [hentry]
  by_cases hk : k = j
  · subst hk
    rw [exchangedInverse_self, smul_dotProduct]
    by_cases hl : l = k
    · rw [hl, hself, hnew, one_apply_eq, smul_eq_mul, inv_mul_cancel₀ hj]
    · rw [hcol l hl, hrow, one_apply_ne (Ne.symm hl), smul_zero]
  · rw [exchangedInverse_of_ne _ _ hk, sub_dotProduct, smul_dotProduct]
    by_cases hl : l = j
    · rw [hl, hself, hnew, hnew, one_apply_ne hk, smul_eq_mul, div_mul_cancel₀ _ hj, sub_self]
    · rw [hcol l hl, hrow, hrow, one_apply_ne (Ne.symm hl), smul_zero, sub_zero]

/-- The height of the new vertex over the face that it shares with the old one. -/
theorem faceHeight_updateCol (hE : IsUnit E) (hj : (E⁻¹ *ᵥ d) j ≠ 0) :
    faceHeight (E.updateCol j d)⁻¹ j = |(E⁻¹ *ᵥ d) j| * faceHeight E⁻¹ j := by
  have hrow : exchangedInverse E⁻¹ d j j ⬝ᵥ exchangedInverse E⁻¹ d j j =
      ((E⁻¹ *ᵥ d) j)⁻¹ ^ 2 * (E⁻¹ j ⬝ᵥ E⁻¹ j) := by
    rw [exchangedInverse_self, smul_dotProduct, dotProduct_smul, smul_eq_mul, smul_eq_mul]
    ring
  rw [inv_updateCol hE hj, faceHeight, hrow, Real.sqrt_mul (sq_nonneg _), Real.sqrt_sq_eq_abs,
    abs_inv, faceHeight, one_div, mul_inv, inv_inv, one_div]

end Simplex

end InterpolationGeometry
