import InterpolationGeometry.Proofs.Quadratic.Planar
import Mathlib.LinearAlgebra.Span.Basic

/-!
# Directions of extremal curvature

The direction that the search takes, in exact arithmetic.  In a pair of perpendicular vectors of one
length the second derivatives are a two by two form.  The weight of the second vector in the
direction is that of an eigenvector for the eigenvalue of larger absolute value, so no direction of
the plane has a greater curvature in absolute value.
-/

namespace InterpolationGeometry

namespace Quadratic

open Scalar hiding abs

open Matrix

variable {n : ℕ}

/-! ## Eigenvectors of a form -/

def Form.value (form : Form) (x y : ℝ) : ℝ :=
  x * (form.own * x + form.cross * y) + y * (form.cross * x + form.other * y)

/-- The weight of the second vector beside the cross term as the weight of the first. -/
noncomputable def Form.weight (form : Form) : ℝ :=
  (eigenWeight form.own form.cross form.other).1

noncomputable def Form.curvatureBranch (form : Form) : CurvatureBranch :=
  (eigenWeight form.own form.cross form.other).2

section Eigen

variable {form : Form}

/-- The weight is a root of the equation of the eigenvalues. -/
theorem Form.weight_sq (form : Form) :
    form.weight ^ 2 = (form.other - form.own) * form.weight + form.cross ^ 2 := by
  have hhalf : 2 * (0.5 * (form.other - form.own)) = form.other - form.own := by ring
  obtain ⟨hminus, hplus⟩ := shift_root (0.5 * (form.other - form.own)) form.cross
  rw [hhalf] at hminus hplus
  simp only [Form.weight, eigenWeight, square_real, sqrt_real]
  split
  · exact hminus
  · exact hplus

/-- The branch tells the sign of the eigenvalue of larger absolute value, which is that of the
trace. -/
theorem Form.weight_cases (hcross : form.cross ≠ 0) :
    (form.curvatureBranch = .negative ∧ form.own + form.weight < 0 ∧
        |form.other - form.weight| ≤ -(form.own + form.weight)) ∨
      (form.curvatureBranch = .positive ∧ 0 < form.own + form.weight ∧
        |form.other - form.weight| ≤ form.own + form.weight) := by
  have hroot : 0 < √((0.5 * (form.other - form.own)) ^ 2 + form.cross ^ 2) :=
    Real.sqrt_pos.2 (add_pos_of_nonneg_of_pos (sq_nonneg _) (sq_pos_iff.2 hcross))
  simp only [Form.weight, Form.curvatureBranch, eigenWeight, square_real, sqrt_real]
  split
  · left
    refine ⟨rfl, by linarith, abs_le.2 ⟨by linarith, by linarith⟩⟩
  · right
    refine ⟨rfl, by linarith, abs_le.2 ⟨by linarith, by linarith⟩⟩

theorem Form.abs_other_sub_weight_le (hcross : form.cross ≠ 0) :
    |form.other - form.weight| ≤ |form.own + form.weight| := by
  rcases Form.weight_cases hcross with ⟨-, -, hle⟩ | ⟨-, -, hle⟩
  · exact hle.trans (neg_le_abs _)
  · exact hle.trans (le_abs_self _)

theorem Form.value_eigenvector (form : Form) :
    form.value form.cross form.weight =
      (form.own + form.weight) * (form.cross ^ 2 + form.weight ^ 2) := by
  rw [Form.value]
  linear_combination -form.weight * form.weight_sq

/-- A form is the sum of the squares along its eigenvectors, times the eigenvalues. -/
theorem Form.value_eq (form : Form) (x y : ℝ) :
    (form.cross ^ 2 + form.weight ^ 2) * form.value x y =
      (form.own + form.weight) * (form.cross * x + form.weight * y) ^ 2 +
        (form.other - form.weight) * (form.cross * y - form.weight * x) ^ 2 := by
  rw [Form.value]
  linear_combination
    (form.weight * (x ^ 2 - y ^ 2) - 2 * form.cross * (x * y)) * form.weight_sq

/-- Nowhere is a form greater in absolute value than at the eigenvector. -/
theorem Form.abs_value_le (hcross : form.cross ≠ 0) (x y : ℝ) :
    |form.value x y| ≤ |form.own + form.weight| * (x ^ 2 + y ^ 2) := by
  have hpos : 0 < form.cross ^ 2 + form.weight ^ 2 :=
    add_pos_of_pos_of_nonneg (sq_pos_iff.2 hcross) (sq_nonneg _)
  have hsecond := mul_le_mul_of_nonneg_right (Form.abs_other_sub_weight_le hcross)
    (sq_nonneg (form.cross * y - form.weight * x))
  refine le_of_mul_le_mul_left ?_ hpos
  calc (form.cross ^ 2 + form.weight ^ 2) * |form.value x y|
      = |(form.cross ^ 2 + form.weight ^ 2) * form.value x y| := by
        rw [abs_mul, abs_of_pos hpos]
    _ ≤ |form.own + form.weight| * (form.cross * x + form.weight * y) ^ 2 +
          |form.other - form.weight| * (form.cross * y - form.weight * x) ^ 2 := by
        rw [form.value_eq]
        refine (abs_add_le _ _).trans_eq ?_
        rw [abs_mul, abs_mul, abs_sq, abs_sq]
    _ ≤ |form.own + form.weight| * (form.cross * x + form.weight * y) ^ 2 +
          |form.own + form.weight| * (form.cross * y - form.weight * x) ^ 2 :=
        add_le_add_right hsecond _
    _ = (form.cross ^ 2 + form.weight ^ 2) *
          (|form.own + form.weight| * (x ^ 2 + y ^ 2)) := by ring

end Eigen

/-! ## A pair of one length -/

/-- A direction of a plane along which the curvature is greatest in absolute value. -/
structure IsExtremal (H : Matrix (Fin n) (Fin n) ℝ) (plane : Submodule ℝ (Fin n → ℝ))
    (d : Fin n → ℝ) : Prop where
  ne_zero : d ≠ 0
  mem : d ∈ plane
  abs_curvature_le : ∀ w ∈ plane, |w ⬝ᵥ H *ᵥ w| * (d ⬝ᵥ d) ≤ |d ⬝ᵥ H *ᵥ d| * (w ⬝ᵥ w)

structure IsSquarePair (p q : Fin n → ℝ) (size : ℝ) : Prop where
  size_pos : 0 < size
  first : p ⬝ᵥ p = size
  second : q ⬝ᵥ q = size
  cross : p ⬝ᵥ q = 0

section Pair

variable {H : Matrix (Fin n) (Fin n) ℝ} {p q : Fin n → ℝ} {size : ℝ}

theorem IsSquarePair.dotProduct_self (h : IsSquarePair p q size) (x y : ℝ) :
    (x • p + y • q) ⬝ᵥ (x • p + y • q) = size * (x ^ 2 + y ^ 2) := by
  simp only [add_dotProduct, dotProduct_add, smul_dotProduct, dotProduct_smul, smul_eq_mul, h.first,
    h.second, h.cross, dotProduct_comm q p]
  ring

theorem dotProduct_mulVec_pair (hH : H.IsSymm) (p q : Fin n → ℝ) (x y : ℝ) :
    (x • p + y • q) ⬝ᵥ H *ᵥ (x • p + y • q) = (Form.ofPair H p q).value x y := by
  simp only [mulVec_add, mulVec_smul, add_dotProduct, dotProduct_add, smul_dotProduct,
    dotProduct_smul, smul_eq_mul, dotProduct_mulVec_comm hH p q, Form.value, Form.ofPair]
  ring

noncomputable def eigenvector (H : Matrix (Fin n) (Fin n) ℝ) (p q : Fin n → ℝ) : Fin n → ℝ :=
  (Form.ofPair H p q).cross • p + (Form.ofPair H p q).weight • q

theorem eigenvector_dotProduct_pos (h : IsSquarePair p q size)
    (hcross : (Form.ofPair H p q).cross ≠ 0) :
    0 < eigenvector H p q ⬝ᵥ eigenvector H p q := by
  rw [eigenvector, h.dotProduct_self]
  exact mul_pos h.size_pos (add_pos_of_pos_of_nonneg (sq_pos_iff.2 hcross) (sq_nonneg _))

theorem eigenvector_curvature (hH : H.IsSymm) (h : IsSquarePair p q size) :
    size * (eigenvector H p q ⬝ᵥ H *ᵥ eigenvector H p q) =
      ((Form.ofPair H p q).own + (Form.ofPair H p q).weight) *
        (eigenvector H p q ⬝ᵥ eigenvector H p q) := by
  rw [eigenvector, dotProduct_mulVec_pair hH, h.dotProduct_self, Form.value_eigenvector]
  ring

theorem abs_curvature_le_eigenvector (hH : H.IsSymm) (h : IsSquarePair p q size)
    (hcross : (Form.ofPair H p q).cross ≠ 0) (x y : ℝ) :
    |(x • p + y • q) ⬝ᵥ H *ᵥ (x • p + y • q)| * (eigenvector H p q ⬝ᵥ eigenvector H p q) ≤
      |eigenvector H p q ⬝ᵥ H *ᵥ eigenvector H p q| * ((x • p + y • q) ⬝ᵥ (x • p + y • q)) := by
  have hlength := (eigenvector_dotProduct_pos h hcross).le
  have hvalue := congrArg abs (eigenvector_curvature hH h)
  rw [abs_mul, abs_mul, abs_of_pos h.size_pos, abs_of_nonneg hlength] at hvalue
  calc |(x • p + y • q) ⬝ᵥ H *ᵥ (x • p + y • q)| * (eigenvector H p q ⬝ᵥ eigenvector H p q)
      ≤ |(Form.ofPair H p q).own + (Form.ofPair H p q).weight| * (x ^ 2 + y ^ 2) *
          (eigenvector H p q ⬝ᵥ eigenvector H p q) := by
        rw [dotProduct_mulVec_pair hH]
        exact mul_le_mul_of_nonneg_right (Form.abs_value_le hcross x y) hlength
    _ = size * |eigenvector H p q ⬝ᵥ H *ᵥ eigenvector H p q| * (x ^ 2 + y ^ 2) := by
        rw [hvalue]
        ring
    _ = |eigenvector H p q ⬝ᵥ H *ᵥ eigenvector H p q| *
          ((x • p + y • q) ⬝ᵥ (x • p + y • q)) := by
        rw [h.dotProduct_self]
        ring

theorem eigenvector_isExtremal (hH : H.IsSymm) (h : IsSquarePair p q size)
    (hcross : (Form.ofPair H p q).cross ≠ 0) :
    IsExtremal H (Submodule.span ℝ {p, q}) (eigenvector H p q) where
  ne_zero := by
    intro hzero
    have hpos := eigenvector_dotProduct_pos h hcross
    rw [hzero, zero_dotProduct] at hpos
    exact hpos.false
  mem := Submodule.mem_span_pair.2 ⟨_, _, rfl⟩
  abs_curvature_le := by
    intro w hw
    obtain ⟨x, y, rfl⟩ := Submodule.mem_span_pair.1 hw
    exact abs_curvature_le_eigenvector hH h hcross x y

/-- The branch is the sign of the curvature along the eigenvector. -/
theorem curvatureBranch_cases (hH : H.IsSymm) (h : IsSquarePair p q size)
    (hcross : (Form.ofPair H p q).cross ≠ 0) :
    ((Form.ofPair H p q).curvatureBranch = .negative ∧
        eigenvector H p q ⬝ᵥ H *ᵥ eigenvector H p q < 0) ∨
      ((Form.ofPair H p q).curvatureBranch = .positive ∧
        0 < eigenvector H p q ⬝ᵥ H *ᵥ eigenvector H p q) := by
  have hlength := eigenvector_dotProduct_pos h hcross
  have hcurvature := eigenvector_curvature hH h
  rcases Form.weight_cases hcross with ⟨hbranch, hvalue, -⟩ | ⟨hbranch, hvalue, -⟩
  · refine Or.inl ⟨hbranch, neg_of_mul_neg_right (a := size) ?_ h.size_pos.le⟩
    rw [hcurvature]
    exact mul_neg_of_neg_of_pos hvalue hlength
  · refine Or.inr ⟨hbranch, pos_of_mul_pos_right (a := size) ?_ h.size_pos.le⟩
    rw [hcurvature]
    exact mul_pos hvalue hlength

end Pair

/-! ## The plane of a vector and its image -/

section Plane

variable {H : Matrix (Fin n) (Fin n) ℝ} {v : Fin n → ℝ} {parallelTolerance : ℝ}

noncomputable def acrossImage (H : Matrix (Fin n) (Fin n) ℝ) (v : Fin n → ℝ) : Fin n → ℝ :=
  acrossGradient v (H *ᵥ v)

/-- The factor that brings the vector to the length of the part of its image across it. -/
noncomputable def lengthRatio (H : Matrix (Fin n) (Fin n) ℝ) (v : Fin n → ℝ) : ℝ :=
  √((acrossImage H v ⬝ᵥ acrossImage H v) / (v ⬝ᵥ v))

/-- The image is nearly a multiple of the vector. -/
def IsParallel (parallelTolerance : ℝ) (H : Matrix (Fin n) (Fin n) ℝ) (v : Fin n → ℝ) : Prop :=
  parallelTolerance * (H *ᵥ v ⬝ᵥ H *ᵥ v) * (v ⬝ᵥ v) < (v ⬝ᵥ H *ᵥ v) * (v ⬝ᵥ H *ᵥ v)

theorem vector_pos (himage : H *ᵥ v ≠ 0) : 0 < v ⬝ᵥ v := by
  refine dotProduct_self_pos fun hv => himage ?_
  rw [hv, mulVec_zero]

theorem mulVec_apply_eq_col (hH : H.IsSymm) (u : Fin n → ℝ) (j : Fin n) :
    (H *ᵥ u) j = H.col j ⬝ᵥ u := by
  have hrow : H j = H.col j := funext fun i => hH.apply i j
  rw [mulVec, hrow]

theorem mulVec_col_ne_zero (hH : H.IsSymm) {k : Fin n} (hk : 0 < H.col k ⬝ᵥ H.col k) :
    H *ᵥ H.col k ≠ 0 := by
  rw [← mulVec_apply_eq_col hH] at hk
  exact Function.ne_iff.2 ⟨k, hk.ne'⟩

theorem col_dotProduct_self_pos (hne : H ≠ 0) {k : Fin n}
    (hlongest : ∀ l, H.col l ⬝ᵥ H.col l ≤ H.col k ⬝ᵥ H.col k) : 0 < H.col k ⬝ᵥ H.col k := by
  have hcolumn : ∃ l, H.col l ≠ 0 := by
    by_contra! hzero
    exact hne (Matrix.ext fun i l => congrFun (hzero l) i)
  obtain ⟨l, hl⟩ := hcolumn
  exact (dotProduct_self_pos hl).trans_le (hlongest l)

theorem mulVec_eq_acrossImage_add (H : Matrix (Fin n) (Fin n) ℝ) (v : Fin n → ℝ) :
    H *ᵥ v = acrossImage H v + (v ⬝ᵥ H *ᵥ v / (v ⬝ᵥ v)) • v :=
  (sub_add_cancel _ _).symm

theorem acrossImage_dotProduct_self (hv : 0 < v ⬝ᵥ v) :
    (v ⬝ᵥ v) * (acrossImage H v ⬝ᵥ acrossImage H v) =
      (H *ᵥ v ⬝ᵥ H *ᵥ v) * (v ⬝ᵥ v) - (v ⬝ᵥ H *ᵥ v) * (v ⬝ᵥ H *ᵥ v) :=
  acrossGradient_dotProduct_self hv

/-- A tolerance below one leaves a part across, where the image is no multiple of the vector. -/
theorem acrossImage_pos (himage : H *ᵥ v ≠ 0) (htolerance : parallelTolerance < 1)
    (h : ¬ IsParallel parallelTolerance H v) : 0 < acrossImage H v ⬝ᵥ acrossImage H v := by
  have hv := vector_pos himage
  have hproduct : 0 < (H *ᵥ v ⬝ᵥ H *ᵥ v) * (v ⬝ᵥ v) := mul_pos (dotProduct_self_pos himage) hv
  have hless : parallelTolerance * (H *ᵥ v ⬝ᵥ H *ᵥ v) * (v ⬝ᵥ v) <
      (H *ᵥ v ⬝ᵥ H *ᵥ v) * (v ⬝ᵥ v) := by
    rw [mul_assoc]
    exact mul_lt_of_lt_one_left hproduct htolerance
  refine pos_of_mul_pos_right (a := v ⬝ᵥ v) ?_ hv.le
  rw [acrossImage_dotProduct_self hv]
  exact sub_pos.2 ((not_lt.1 h).trans_lt hless)

theorem lengthRatio_sq (hv : 0 < v ⬝ᵥ v) :
    lengthRatio H v ^ 2 * (v ⬝ᵥ v) = acrossImage H v ⬝ᵥ acrossImage H v := by
  rw [lengthRatio, Real.sq_sqrt (div_nonneg (dotProduct_self_nonneg _) hv.le),
    div_mul_cancel₀ _ hv.ne']

theorem lengthRatio_pos (hv : 0 < v ⬝ᵥ v) (hacross : 0 < acrossImage H v ⬝ᵥ acrossImage H v) :
    0 < lengthRatio H v :=
  Real.sqrt_pos.2 (div_pos hacross hv)

theorem isSquarePair_plane (hv : 0 < v ⬝ᵥ v)
    (hacross : 0 < acrossImage H v ⬝ᵥ acrossImage H v) :
    IsSquarePair (lengthRatio H v • v) (acrossImage H v)
      (acrossImage H v ⬝ᵥ acrossImage H v) where
  size_pos := hacross
  first := by
    rw [← lengthRatio_sq hv]
    simp only [smul_dotProduct, dotProduct_smul, smul_eq_mul]
    ring
  second := rfl
  cross := by
    rw [smul_dotProduct, acrossImage, gradient_dotProduct_across hv, smul_zero]

/-- The form in the plane, as the routine reads it off products that it already has. -/
theorem ofPair_plane (hH : H.IsSymm) (hv : 0 < v ⬝ᵥ v) :
    Form.ofPair H (lengthRatio H v • v) (acrossImage H v) =
      { own := lengthRatio H v * lengthRatio H v * (v ⬝ᵥ H *ᵥ v)
        cross := lengthRatio H v * (acrossImage H v ⬝ᵥ acrossImage H v)
        other := acrossImage H v ⬝ᵥ H *ᵥ acrossImage H v } := by
  have hacross : acrossImage H v ⬝ᵥ v = 0 := by
    rw [dotProduct_comm, acrossImage, gradient_dotProduct_across hv]
  have hcross : v ⬝ᵥ H *ᵥ acrossImage H v = acrossImage H v ⬝ᵥ acrossImage H v := by
    calc v ⬝ᵥ H *ᵥ acrossImage H v = acrossImage H v ⬝ᵥ H *ᵥ v := dotProduct_mulVec_comm hH _ _
      _ = acrossImage H v ⬝ᵥ (acrossImage H v + (v ⬝ᵥ H *ᵥ v / (v ⬝ᵥ v)) • v) := by
        rw [← mulVec_eq_acrossImage_add]
      _ = acrossImage H v ⬝ᵥ acrossImage H v := by
        rw [dotProduct_add, dotProduct_smul, hacross, smul_zero, add_zero]
  simp only [Form.ofPair, mulVec_smul, smul_dotProduct, dotProduct_smul, smul_eq_mul, hcross,
    mul_assoc]

theorem extremalDirection_of_not_isParallel (hH : H.IsSymm) (hv : 0 < v ⬝ᵥ v)
    (h : ¬ IsParallel parallelTolerance H v) :
    extremalDirection parallelTolerance H v =
      (eigenvector H (lengthRatio H v • v) (acrossImage H v),
        (Form.ofPair H (lengthRatio H v • v) (acrossImage H v)).curvatureBranch) := by
  rw [eigenvector, ofPair_plane hH hv]
  exact if_pos (not_lt.1 h)

theorem extremalDirection_of_isParallel (h : IsParallel parallelTolerance H v) :
    extremalDirection parallelTolerance H v = (H *ᵥ v, .parallel) :=
  if_neg (not_le.2 h)

theorem span_plane (hratio : lengthRatio H v ≠ 0) :
    Submodule.span ℝ {lengthRatio H v • v, acrossImage H v} = Submodule.span ℝ {v, H *ᵥ v} := by
  have hvector : v ∈ Submodule.span ℝ {v, H *ᵥ v} := Submodule.subset_span (by simp)
  have himage : H *ᵥ v ∈ Submodule.span ℝ {v, H *ᵥ v} := Submodule.subset_span (by simp)
  have hacross : acrossImage H v ∈ Submodule.span ℝ {lengthRatio H v • v, acrossImage H v} :=
    Submodule.subset_span (by simp)
  have hscaled : v ∈ Submodule.span ℝ {lengthRatio H v • v, acrossImage H v} := by
    have hmem : lengthRatio H v • v ∈
        Submodule.span ℝ {lengthRatio H v • v, acrossImage H v} := Submodule.subset_span (by simp)
    exact (Submodule.smul_mem_iff _ hratio).1 hmem
  refine le_antisymm (Submodule.span_le.2 ?_) (Submodule.span_le.2 ?_)
  · rintro w (rfl | rfl)
    · exact Submodule.smul_mem _ _ hvector
    · exact Submodule.sub_mem _ himage (Submodule.smul_mem _ _ hvector)
  · rintro w (rfl | rfl)
    · exact hscaled
    · rw [SetLike.mem_coe, mulVec_eq_acrossImage_add]
      exact Submodule.add_mem _ hacross (Submodule.smul_mem _ _ hscaled)

end Plane

/-- Where the image is no multiple of the vector, the direction is extremal in the plane of the
two. -/
theorem extremalDirection_isExtremal {H : Matrix (Fin n) (Fin n) ℝ} (hH : H.IsSymm) {v : Fin n → ℝ}
    (himage : H *ᵥ v ≠ 0) {parallelTolerance : ℝ} (htolerance : parallelTolerance < 1)
    (h : ¬ IsParallel parallelTolerance H v) :
    IsExtremal H (Submodule.span ℝ {v, H *ᵥ v}) (extremalDirection parallelTolerance H v).1 := by
  have hv := vector_pos himage
  have hacross := acrossImage_pos himage htolerance h
  have hratio := lengthRatio_pos hv hacross
  have hcross : (Form.ofPair H (lengthRatio H v • v) (acrossImage H v)).cross ≠ 0 := by
    rw [ofPair_plane hH hv]
    exact (mul_pos hratio hacross).ne'
  rw [extremalDirection_of_not_isParallel hH hv h, ← span_plane hratio.ne']
  exact eigenvector_isExtremal hH (isSquarePair_plane hv hacross) hcross

/-- A vector that does not go to zero leads to a direction. -/
theorem extremalDirection_ne_zero {H : Matrix (Fin n) (Fin n) ℝ} (hH : H.IsSymm) {v : Fin n → ℝ}
    (himage : H *ᵥ v ≠ 0) {parallelTolerance : ℝ} (htolerance : parallelTolerance < 1) :
    (extremalDirection parallelTolerance H v).1 ≠ 0 := by
  by_cases hparallel : IsParallel parallelTolerance H v
  · rw [extremalDirection_of_isParallel hparallel]
    exact himage
  · exact (extremalDirection_isExtremal hH himage htolerance hparallel).ne_zero

/-- The direction is the image where that is nearly a multiple of the vector.  Otherwise it is
extremal in the plane of the two, and the branch is the sign of the curvature along it. -/
theorem curvatureDirection_extremal {H : Matrix (Fin n) (Fin n) ℝ} (hH : H.IsSymm) {v : Fin n → ℝ}
    (himage : H *ᵥ v ≠ 0) {parallelTolerance : ℝ} (htolerance : parallelTolerance < 1) :
    ∃ d branch,
      curvatureDirection parallelTolerance (.ofMatrix H) (.ofVector v) =
        .ok ⟨.ofVector d, branch⟩ ∧
      (branch = .parallel ↔ IsParallel parallelTolerance H v) ∧
      (branch = .parallel → d = H *ᵥ v) ∧
      (branch ≠ .parallel → IsExtremal H (Submodule.span ℝ {v, H *ᵥ v}) d) ∧
      (branch = .positive → 0 < d ⬝ᵥ H *ᵥ d) ∧ (branch = .negative → d ⬝ᵥ H *ᵥ d < 0) := by
  by_cases hparallel : IsParallel parallelTolerance H v
  · refine ⟨H *ᵥ v, .parallel, ?_, by simp [hparallel], by simp, by simp, by simp, by simp⟩
    rw [curvatureDirection_eq, extremalDirection_of_isParallel hparallel]
  · have hv := vector_pos himage
    have hacross := acrossImage_pos himage htolerance hparallel
    have hratio := lengthRatio_pos hv hacross
    have hpair := isSquarePair_plane hv hacross
    have hcross : (Form.ofPair H (lengthRatio H v • v) (acrossImage H v)).cross ≠ 0 := by
      rw [ofPair_plane hH hv]
      exact (mul_pos hratio hacross).ne'
    have hextremal := eigenvector_isExtremal hH hpair hcross
    rw [span_plane hratio.ne'] at hextremal
    refine ⟨eigenvector H (lengthRatio H v • v) (acrossImage H v),
      (Form.ofPair H (lengthRatio H v • v) (acrossImage H v)).curvatureBranch, ?_, ?_⟩
    · rw [curvatureDirection_eq, extremalDirection_of_not_isParallel hH hv hparallel]
    · rcases curvatureBranch_cases hH hpair hcross with ⟨hbranch, hvalue⟩ | ⟨hbranch, hvalue⟩
      · simp [hbranch, hparallel, hextremal, hvalue]
      · simp [hbranch, hparallel, hextremal, hvalue]

theorem curvatureDirection_extremal_saddle :
    (diagonal ![-3, 1] : Matrix (Fin 2) (Fin 2) ℝ).IsSymm ∧
      (diagonal ![-3, 1] : Matrix (Fin 2) (Fin 2) ℝ) *ᵥ ![1, 1] ≠ 0 ∧ (0.9999 : ℝ) < 1 ∧
      curvatureDirection (0.9999 : ℝ) (.ofMatrix (diagonal ![-3, 1])) (.ofVector ![1, 1]) =
        .ok ⟨.ofVector ![64, 0], .negative⟩ ∧
      IsExtremal (diagonal ![-3, 1]) (Submodule.span ℝ {![1, 1], diagonal ![-3, 1] *ᵥ ![1, 1]})
        ![64, 0] ∧
      ![64, 0] ⬝ᵥ (diagonal ![-3, 1] : Matrix (Fin 2) (Fin 2) ℝ) *ᵥ ![64, 0] < 0 := by
  have hsymm : (diagonal ![-3, 1] : Matrix (Fin 2) (Fin 2) ℝ).IsSymm := isSymm_diagonal _
  have hmulVec (w : Fin 2 → ℝ) : diagonal ![-3, 1] *ᵥ w = ![-3 * w 0, w 1] := by
    ext i
    fin_cases i
    · simp [mulVec_diagonal]
    · simp [mulVec_diagonal]
  have himage : diagonal ![-3, 1] *ᵥ ![1, 1] ≠ (0 : Fin 2 → ℝ) := by
    rw [hmulVec]
    intro hzero
    simpa using congrFun hzero 1
  have htolerance : (0.9999 : ℝ) < 1 := by norm_num
  have hdirection :
      extremalDirection 0.9999 (diagonal ![-3, 1]) ![1, 1] = (![64, 0], .negative) := by
    simp only [extremalDirection, eigenWeight, hmulVec]
    norm_num
  have hfound := curvatureDirection_eq 0.9999 (diagonal ![-3, 1]) ![1, 1]
  rw [hdirection] at hfound
  obtain ⟨d, branch, hresult, -, -, hextremal, -, hnegative⟩ :=
    curvatureDirection_extremal hsymm himage htolerance
  obtain ⟨hd, rfl⟩ := CurvatureDirection.mk.inj (Except.ok.inj (hresult.symm.trans hfound))
  rw [Tensor.ofVector_injective hd] at hextremal hnegative
  exact ⟨hsymm, himage, htolerance, hfound, hextremal (by decide), hnegative rfl⟩

end Quadratic

end InterpolationGeometry
