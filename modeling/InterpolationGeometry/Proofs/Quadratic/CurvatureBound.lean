import InterpolationGeometry.Proofs.Quadratic.Extremal

/-!
# Curvature beside the longest column

The search takes its direction from a longest column of the second derivatives.  What a symmetric
matrix does to that column bounds what it does to any vector: the curvature anywhere is at most
about the square root of the dimension times the factor by which the column is stretched, and the
curvature along the direction is at least that factor, or nearly so where the image is taken for a
multiple of the column.  So no curvature is arbitrarily greater than that along the direction.
-/

namespace InterpolationGeometry

namespace Quadratic

open Scalar hiding abs

open Matrix

variable {n : ℕ} {H : Matrix (Fin n) (Fin n) ℝ}

/-- The factor by which a matrix stretches a vector. -/
noncomputable def stretch (H : Matrix (Fin n) (Fin n) ℝ) (v : Fin n → ℝ) : ℝ :=
  √((H *ᵥ v ⬝ᵥ H *ᵥ v) / (v ⬝ᵥ v))

theorem stretch_nonneg (H : Matrix (Fin n) (Fin n) ℝ) (v : Fin n → ℝ) : 0 ≤ stretch H v :=
  Real.sqrt_nonneg _

theorem stretch_sq {v : Fin n → ℝ} (hv : 0 < v ⬝ᵥ v) :
    stretch H v ^ 2 * (v ⬝ᵥ v) = H *ᵥ v ⬝ᵥ H *ᵥ v := by
  rw [stretch, Real.sq_sqrt (div_nonneg (dotProduct_self_nonneg _) hv.le),
    div_mul_cancel₀ _ hv.ne']

/-! ## Nowhere much more curvature -/

section Longest

theorem mulVec_dotProduct_self (hH : H.IsSymm) (u : Fin n → ℝ) :
    H *ᵥ u ⬝ᵥ H *ᵥ u = ∑ j, (H.col j ⬝ᵥ u) ^ 2 := by
  simp only [dotProduct, mulVec_apply_eq_col hH u, pow_two]

theorem mulVec_dotProduct_self_sq_le (hH : H.IsSymm) (u : Fin n → ℝ) :
    (H *ᵥ u ⬝ᵥ H *ᵥ u) ^ 2 ≤ (u ⬝ᵥ u) * (H *ᵥ (H *ᵥ u) ⬝ᵥ H *ᵥ (H *ᵥ u)) := by
  rw [dotProduct_mulVec_comm hH u (H *ᵥ u)]
  exact dotProduct_sq_le u _

variable {k : Fin n} (hlongest : ∀ l, H.col l ⬝ᵥ H.col l ≤ H.col k ⬝ᵥ H.col k)

include hlongest

theorem col_dotProduct_sq_le (j : Fin n) (u : Fin n → ℝ) :
    (H.col j ⬝ᵥ u) ^ 2 ≤ (H.col k ⬝ᵥ H.col k) * (u ⬝ᵥ u) :=
  (dotProduct_sq_le (H.col j) u).trans
    (mul_le_mul_of_nonneg_right (hlongest j) (dotProduct_self_nonneg u))

/-- No vector is stretched by more than all columns together allow. -/
theorem mulVec_dotProduct_self_le (hH : H.IsSymm) (u : Fin n → ℝ) :
    H *ᵥ u ⬝ᵥ H *ᵥ u ≤ n * ((H.col k ⬝ᵥ H.col k) * (u ⬝ᵥ u)) := by
  calc H *ᵥ u ⬝ᵥ H *ᵥ u = ∑ j, (H.col j ⬝ᵥ u) ^ 2 := mulVec_dotProduct_self hH u
    _ ≤ ∑ _j : Fin n, (H.col k ⬝ᵥ H.col k) * (u ⬝ᵥ u) :=
        Finset.sum_le_sum fun j _ => col_dotProduct_sq_le hlongest j u
    _ = n * ((H.col k ⬝ᵥ H.col k) * (u ⬝ᵥ u)) := by
        rw [Finset.sum_const, Finset.card_fin, nsmul_eq_mul]

/-- Of an image, the longest column sees no more than the image of the column does of the vector. -/
theorem mulVec_mulVec_dotProduct_self_le (hH : H.IsSymm) (u : Fin n → ℝ) :
    H *ᵥ (H *ᵥ u) ⬝ᵥ H *ᵥ (H *ᵥ u) ≤
      (H *ᵥ H.col k ⬝ᵥ H *ᵥ H.col k) * (u ⬝ᵥ u) +
        (n - 1) * ((H.col k ⬝ᵥ H.col k) * (H *ᵥ u ⬝ᵥ H *ᵥ u)) := by
  have hfirst : (H.col k ⬝ᵥ H *ᵥ u) ^ 2 ≤ (H *ᵥ H.col k ⬝ᵥ H *ᵥ H.col k) * (u ⬝ᵥ u) := by
    rw [dotProduct_mulVec_comm hH u, dotProduct_comm u]
    exact dotProduct_sq_le _ u
  have hrest : ∑ j ∈ Finset.univ.erase k, (H.col j ⬝ᵥ H *ᵥ u) ^ 2 ≤
      (n - 1) * ((H.col k ⬝ᵥ H.col k) * (H *ᵥ u ⬝ᵥ H *ᵥ u)) := by
    refine (Finset.sum_le_card_nsmul _ _ _ fun j _ =>
      col_dotProduct_sq_le hlongest j (H *ᵥ u)).trans_eq ?_
    rw [Finset.card_erase_of_mem (Finset.mem_univ k), Finset.card_fin, nsmul_eq_mul,
      Nat.cast_pred k.pos]
  rw [mulVec_dotProduct_self hH, ← Finset.add_sum_erase _ _ (Finset.mem_univ k)]
  exact add_le_add hfirst hrest

omit hlongest in
theorem col_sq_le_image (hH : H.IsSymm) (k : Fin n) :
    (H.col k ⬝ᵥ H.col k) ^ 2 ≤ H *ᵥ H.col k ⬝ᵥ H *ᵥ H.col k := by
  rw [mulVec_dotProduct_self hH]
  exact Finset.single_le_sum (f := fun j => (H.col j ⬝ᵥ H.col k) ^ 2)
    (fun j _ => sq_nonneg _) (Finset.mem_univ k)

/-- The squared length of any image, from the longest column and its image. -/
theorem col_sq_mul_image_sq_le (hH : H.IsSymm) (u : Fin n → ℝ) :
    (H.col k ⬝ᵥ H.col k) ^ 2 * (H *ᵥ u ⬝ᵥ H *ᵥ u) ^ 2 ≤
      (n ^ 2 - n + 1) * ((H *ᵥ H.col k ⬝ᵥ H *ᵥ H.col k) * (u ⬝ᵥ u)) ^ 2 := by
  have hcolumn := dotProduct_self_nonneg (H.col k)
  have hu := dotProduct_self_nonneg u
  have himage := dotProduct_self_nonneg (H *ᵥ H.col k)
  have hn : (0 : ℝ) ≤ n - 1 := by
    rw [sub_nonneg]
    exact Nat.one_le_cast.2 k.pos
  have hself := col_sq_le_image hH k
  have honce := mulVec_dotProduct_self_le hlongest hH u
  have htwice := mulVec_mulVec_dotProduct_self_le hlongest hH u
  set a := H.col k ⬝ᵥ H.col k
  set b := H *ᵥ H.col k ⬝ᵥ H *ᵥ H.col k
  set q := u ⬝ᵥ u
  -- The image of the image sees the image of the longest column once; all other columns are bounded
  -- by their length.
  calc a ^ 2 * (H *ᵥ u ⬝ᵥ H *ᵥ u) ^ 2
      ≤ a ^ 2 * (q * (b * q + (n - 1) * (a * (H *ᵥ u ⬝ᵥ H *ᵥ u)))) := by
        refine mul_le_mul_of_nonneg_left ?_ (sq_nonneg a)
        exact (mulVec_dotProduct_self_sq_le hH u).trans (mul_le_mul_of_nonneg_left htwice hu)
    _ ≤ a ^ 2 * (q * (b * q + (n - 1) * (a * (n * (a * q))))) := by gcongr
    _ = (a ^ 2 * b + n * (n - 1) * (a ^ 2 * a ^ 2)) * q ^ 2 := by ring
    _ ≤ (b * b + n * (n - 1) * (b * b)) * q ^ 2 := by gcongr
    _ = (n ^ 2 - n + 1) * (b * q) ^ 2 := by ring

/-- Nowhere is the curvature more than a power of the dimension times the stretch of the longest
column. -/
theorem abs_curvature_le_stretch (hH : H.IsSymm) (hk : 0 < H.col k ⬝ᵥ H.col k) {c : ℝ} (hc : 0 ≤ c)
    (hn : (n ^ 2 - n + 1 : ℝ) ≤ c ^ 4) (u : Fin n → ℝ) :
    |u ⬝ᵥ H *ᵥ u| ≤ c * stretch H (H.col k) * (u ⬝ᵥ u) := by
  have hu := dotProduct_self_nonneg u
  have hbound : 0 ≤ c * stretch H (H.col k) * (u ⬝ᵥ u) :=
    mul_nonneg (mul_nonneg hc (stretch_nonneg H _)) hu
  have hcurvature : (u ⬝ᵥ H *ᵥ u) ^ 4 ≤ (u ⬝ᵥ u) ^ 2 * (H *ᵥ u ⬝ᵥ H *ᵥ u) ^ 2 := by
    calc (u ⬝ᵥ H *ᵥ u) ^ 4 = ((u ⬝ᵥ H *ᵥ u) ^ 2) ^ 2 := by ring
      _ ≤ ((u ⬝ᵥ u) * (H *ᵥ u ⬝ᵥ H *ᵥ u)) ^ 2 :=
          pow_le_pow_left₀ (sq_nonneg _) (dotProduct_sq_le u _) 2
      _ = (u ⬝ᵥ u) ^ 2 * (H *ᵥ u ⬝ᵥ H *ᵥ u) ^ 2 := mul_pow _ _ 2
  have hfourth : |u ⬝ᵥ H *ᵥ u| ^ 4 ≤ (c * stretch H (H.col k) * (u ⬝ᵥ u)) ^ 4 := by
    rw [Even.pow_abs (by decide)]
    refine le_of_mul_le_mul_left ?_ (sq_pos_of_pos hk)
    calc (H.col k ⬝ᵥ H.col k) ^ 2 * (u ⬝ᵥ H *ᵥ u) ^ 4
        ≤ (H.col k ⬝ᵥ H.col k) ^ 2 * ((u ⬝ᵥ u) ^ 2 * (H *ᵥ u ⬝ᵥ H *ᵥ u) ^ 2) :=
          mul_le_mul_of_nonneg_left hcurvature (sq_nonneg _)
      _ = (u ⬝ᵥ u) ^ 2 * ((H.col k ⬝ᵥ H.col k) ^ 2 * (H *ᵥ u ⬝ᵥ H *ᵥ u) ^ 2) := by ring
      _ ≤ (u ⬝ᵥ u) ^ 2 *
            ((n ^ 2 - n + 1) * ((H *ᵥ H.col k ⬝ᵥ H *ᵥ H.col k) * (u ⬝ᵥ u)) ^ 2) :=
          mul_le_mul_of_nonneg_left (col_sq_mul_image_sq_le hlongest hH u) (sq_nonneg _)
      _ ≤ (u ⬝ᵥ u) ^ 2 * (c ^ 4 * ((H *ᵥ H.col k ⬝ᵥ H *ᵥ H.col k) * (u ⬝ᵥ u)) ^ 2) := by gcongr
      _ = (H.col k ⬝ᵥ H.col k) ^ 2 * (c * stretch H (H.col k) * (u ⬝ᵥ u)) ^ 4 := by
          rw [← stretch_sq hk]
          ring
  exact (pow_le_pow_iff_left₀ (abs_nonneg _) hbound (by decide)).1 hfourth

end Longest

/-! ## Enough curvature along the direction -/

section Direction

variable {v d : Fin n → ℝ}

/-- Along an extremal direction the curvature is at least the stretch of the vector: beside the
image on either side, the vector at the length of the image bends the model by as much. -/
theorem stretch_le_of_isExtremal (hH : H.IsSymm) (himage : H *ᵥ v ≠ 0)
    (h : IsExtremal H (Submodule.span ℝ {v, H *ᵥ v}) d) :
    stretch H v * (d ⬝ᵥ d) ≤ |d ⬝ᵥ H *ᵥ d| := by
  have hv := vector_pos himage
  have hw := dotProduct_self_pos himage
  have hsq := stretch_sq (H := H) hv
  have hd := (dotProduct_self_pos h.ne_zero).le
  have hmem : ∀ x : ℝ, H *ᵥ v + x • v ∈ Submodule.span ℝ {v, H *ᵥ v} := by
    intro x
    exact Submodule.mem_span_pair.2 ⟨x, 1, by rw [one_smul, add_comm]⟩
  have hplus := h.abs_curvature_le _ (hmem (stretch H v))
  have hminus := h.abs_curvature_le _ (hmem (-stretch H v))
  set w := H *ᵥ v
  set factor := stretch H v
  have hlength : ∀ x : ℝ, (w + x • v) ⬝ᵥ (w + x • v) =
      w ⬝ᵥ w + 2 * x * (v ⬝ᵥ w) + x ^ 2 * (v ⬝ᵥ v) := by
    intro x
    simp only [add_dotProduct, dotProduct_add, smul_dotProduct, dotProduct_smul, smul_eq_mul,
      dotProduct_comm w v]
    ring
  have hcurvature : ∀ x : ℝ, (w + x • v) ⬝ᵥ H *ᵥ (w + x • v) =
      w ⬝ᵥ H *ᵥ w + 2 * x * (w ⬝ᵥ w) + x ^ 2 * (v ⬝ᵥ w) := by
    intro x
    have hvw : v ⬝ᵥ H *ᵥ w = w ⬝ᵥ w := dotProduct_mulVec_comm hH w v
    simp only [mulVec_add, mulVec_smul, add_dotProduct, dotProduct_add, smul_dotProduct,
      dotProduct_smul, smul_eq_mul, hvw]
    ring
  -- The squared lengths of the image on either side add up to four times that of the image, while
  -- the curvatures differ by four times the stretch of the vector times that.
  refine le_of_mul_le_mul_left ?_ (by positivity : 0 < 4 * (w ⬝ᵥ w))
  calc 4 * (w ⬝ᵥ w) * (factor * (d ⬝ᵥ d))
      = ((w + factor • v) ⬝ᵥ H *ᵥ (w + factor • v) -
          (w + -factor • v) ⬝ᵥ H *ᵥ (w + -factor • v)) * (d ⬝ᵥ d) := by
        rw [hcurvature, hcurvature]
        ring
    _ ≤ (|(w + factor • v) ⬝ᵥ H *ᵥ (w + factor • v)| +
          |(w + -factor • v) ⬝ᵥ H *ᵥ (w + -factor • v)|) * (d ⬝ᵥ d) :=
        mul_le_mul_of_nonneg_right ((le_abs_self _).trans (abs_sub _ _)) hd
    _ ≤ |d ⬝ᵥ H *ᵥ d| * ((w + factor • v) ⬝ᵥ (w + factor • v) +
          (w + -factor • v) ⬝ᵥ (w + -factor • v)) := by
        rw [add_mul, mul_add]
        exact add_le_add hplus hminus
    _ = 4 * (w ⬝ᵥ w) * |d ⬝ᵥ H *ᵥ d| := by
        rw [hlength, hlength]
        linear_combination 2 * |d ⬝ᵥ H *ᵥ d| * hsq

theorem image_curvature_eq (hH : H.IsSymm) (hv : 0 < v ⬝ᵥ v) :
    H *ᵥ v ⬝ᵥ H *ᵥ (H *ᵥ v) =
      v ⬝ᵥ H *ᵥ v / (v ⬝ᵥ v) *
        (H *ᵥ v ⬝ᵥ H *ᵥ v + acrossImage H v ⬝ᵥ acrossImage H v) +
      acrossImage H v ⬝ᵥ H *ᵥ acrossImage H v := by
  have hsplit := mulVec_eq_acrossImage_add H v
  have hacross : acrossImage H v ⬝ᵥ H *ᵥ v = acrossImage H v ⬝ᵥ acrossImage H v := by
    have hv_across : acrossImage H v ⬝ᵥ v = 0 := by
      rw [dotProduct_comm, acrossImage, gradient_dotProduct_across hv]
    rw [hsplit, dotProduct_add, dotProduct_smul, hv_across, smul_zero, add_zero]
  set x := acrossImage H v
  set w := H *ᵥ v
  set along := v ⬝ᵥ w / (v ⬝ᵥ v)
  have hvx : v ⬝ᵥ H *ᵥ x = x ⬝ᵥ x := by
    rw [dotProduct_mulVec_comm hH x v, hacross]
  calc w ⬝ᵥ H *ᵥ w = w ⬝ᵥ H *ᵥ (x + along • v) := by rw [← hsplit]
    _ = w ⬝ᵥ H *ᵥ x + along * (w ⬝ᵥ w) := by
        rw [mulVec_add, mulVec_smul, dotProduct_add, dotProduct_smul, smul_eq_mul]
    _ = (x + along • v) ⬝ᵥ H *ᵥ x + along * (w ⬝ᵥ w) := by rw [← hsplit]
    _ = along * (w ⬝ᵥ w + x ⬝ᵥ x) + x ⬝ᵥ H *ᵥ x := by
        rw [add_dotProduct, smul_dotProduct, smul_eq_mul, hvx]
        ring

/-- Where the image is nearly a multiple of the vector, the curvature along it is at least the
stretch of the vector, less what the part across may take away. -/
theorem stretch_le_of_isParallel (hH : H.IsSymm) (himage : H *ᵥ v ≠ 0) {tolerance : ℝ}
    (htolerance : 0.5 ≤ tolerance) (hparallel : IsParallel tolerance H v) {bound : ℝ}
    (hbound : ∀ u, |u ⬝ᵥ H *ᵥ u| ≤ bound * (u ⬝ᵥ u)) (hnonneg : 0 ≤ bound) :
    stretch H v * (H *ᵥ v ⬝ᵥ H *ᵥ v) ≤
      |H *ᵥ v ⬝ᵥ H *ᵥ (H *ᵥ v)| + (1 - tolerance) * bound * (H *ᵥ v ⬝ᵥ H *ᵥ v) := by
  have hv := vector_pos himage
  have hw := dotProduct_self_pos himage
  have hsq := stretch_sq (H := H) hv
  have hacross := acrossImage_dotProduct_self (H := H) hv
  have hx := dotProduct_self_nonneg (acrossImage H v)
  have hthrough := hbound (acrossImage H v)
  rw [IsParallel] at hparallel
  rw [image_curvature_eq hH hv]
  set a := v ⬝ᵥ v
  set b := H *ᵥ v ⬝ᵥ H *ᵥ v
  set p := v ⬝ᵥ H *ᵥ v
  set x := acrossImage H v ⬝ᵥ acrossImage H v
  set factor := stretch H v
  have hsmall : x ≤ (1 - tolerance) * b := by
    refine le_of_mul_le_mul_left ?_ hv
    rw [hacross]
    linarith
  -- What the image loses across the vector in length it gains in curvature, as long as the part
  -- across is the smaller one.
  have hhalf : 2 * x ≤ b := by nlinarith
  have hroom : 0 ≤ x * (b ^ 2 - b * x - x ^ 2) := mul_nonneg hx (by nlinarith)
  have hlong : factor * b ≤ |p / a * (b + x)| := by
    have hsquares : (factor * b) ^ 2 ≤ (p / a * (b + x)) ^ 2 := by
      refine le_of_mul_le_mul_left ?_ hv
      calc a * (factor * b) ^ 2 = b ^ 3 := by linear_combination b ^ 2 * hsq
        _ ≤ b ^ 3 + x * (b ^ 2 - b * x - x ^ 2) := le_add_of_nonneg_right hroom
        _ = (b - x) * (b + x) ^ 2 := by ring
        _ = a * (p / a * (b + x)) ^ 2 := by
            have hne : a ≠ 0 := hv.ne'
            field_simp
            linear_combination -hacross
    exact (le_abs_self _).trans (sq_le_sq.1 hsquares)
  have htaken : |acrossImage H v ⬝ᵥ H *ᵥ acrossImage H v| ≤ (1 - tolerance) * bound * b := by
    calc |acrossImage H v ⬝ᵥ H *ᵥ acrossImage H v| ≤ bound * x := hthrough
      _ ≤ bound * ((1 - tolerance) * b) := mul_le_mul_of_nonneg_left hsmall hnonneg
      _ = (1 - tolerance) * bound * b := by ring
  calc factor * b ≤ |p / a * (b + x)| := hlong
    _ = |p / a * (b + x) + acrossImage H v ⬝ᵥ H *ᵥ acrossImage H v -
          acrossImage H v ⬝ᵥ H *ᵥ acrossImage H v| := by rw [add_sub_cancel_right]
    _ ≤ |p / a * (b + x) + acrossImage H v ⬝ᵥ H *ᵥ acrossImage H v| +
          |acrossImage H v ⬝ᵥ H *ᵥ acrossImage H v| := abs_sub _ _
    _ ≤ |p / a * (b + x) + acrossImage H v ⬝ᵥ H *ᵥ acrossImage H v| +
          (1 - tolerance) * bound * b := add_le_add_right htaken _

theorem stretch_le_direction (hH : H.IsSymm) (himage : H *ᵥ v ≠ 0) {tolerance : ℝ}
    (hhalf : 0.5 ≤ tolerance) (hless : tolerance < 1) {bound : ℝ}
    (hbound : ∀ u, |u ⬝ᵥ H *ᵥ u| ≤ bound * (u ⬝ᵥ u)) (hnonneg : 0 ≤ bound)
    (hd : (extremalDirection tolerance H v).1 = d) :
    stretch H v * (d ⬝ᵥ d) ≤ |d ⬝ᵥ H *ᵥ d| + (1 - tolerance) * bound * (d ⬝ᵥ d) := by
  by_cases hparallel : IsParallel tolerance H v
  · rw [extremalDirection_of_isParallel hparallel] at hd
    rw [← hd]
    exact stretch_le_of_isParallel hH himage hhalf hparallel hbound hnonneg
  · have hextremal := extremalDirection_isExtremal hH himage hless hparallel
    rw [hd] at hextremal
    have htaken : 0 ≤ (1 - tolerance) * bound * (d ⬝ᵥ d) :=
      mul_nonneg (mul_nonneg (sub_nonneg.2 hless.le) hnonneg) (dotProduct_self_nonneg d)
    exact (stretch_le_of_isExtremal hH himage hextremal).trans (le_add_of_nonneg_right htaken)

end Direction

/-- Nowhere does a symmetric matrix have much more curvature than along the direction that is taken
from its longest column. -/
theorem abs_curvature_le_direction (hH : H.IsSymm) {k : Fin n} {d : Fin n → ℝ}
    (hlongest : ∀ l, H.col l ⬝ᵥ H.col l ≤ H.col k ⬝ᵥ H.col k) {tolerance : ℝ}
    (hhalf : 0.5 ≤ tolerance) (hless : tolerance < 1)
    (hd : (extremalDirection tolerance H (H.col k)).1 = d) {c : ℝ} (hc : 0 ≤ c)
    (hn : (n ^ 2 - n + 1 : ℝ) ≤ c ^ 4) (hroom : (1 - tolerance) * c < 1) (u : Fin n → ℝ) :
    |u ⬝ᵥ H *ᵥ u| * (d ⬝ᵥ d) ≤ c / (1 - (1 - tolerance) * c) * |d ⬝ᵥ H *ᵥ d| * (u ⬝ᵥ u) := by
  have hpos : 0 < 1 - (1 - tolerance) * c := sub_pos.2 hroom
  by_cases hzero : H = 0
  · rw [hzero]
    simp
  · have hk := col_dotProduct_self_pos hzero hlongest
    have hbound := abs_curvature_le_stretch hlongest hH hk hc hn
    have hstretch := stretch_le_direction hH (mulVec_col_ne_zero hH hk) hhalf hless hbound
      (mul_nonneg hc (stretch_nonneg H _)) hd
    have hdirection : stretch H (H.col k) * (d ⬝ᵥ d) ≤
        |d ⬝ᵥ H *ᵥ d| / (1 - (1 - tolerance) * c) := by
      rw [le_div_iff₀ hpos]
      linarith
    calc |u ⬝ᵥ H *ᵥ u| * (d ⬝ᵥ d)
        ≤ c * stretch H (H.col k) * (u ⬝ᵥ u) * (d ⬝ᵥ d) :=
          mul_le_mul_of_nonneg_right (hbound u) (dotProduct_self_nonneg d)
      _ = c * (u ⬝ᵥ u) * (stretch H (H.col k) * (d ⬝ᵥ d)) := by ring
      _ ≤ c * (u ⬝ᵥ u) * (|d ⬝ᵥ H *ᵥ d| / (1 - (1 - tolerance) * c)) :=
          mul_le_mul_of_nonneg_left hdirection (mul_nonneg hc (dotProduct_self_nonneg u))
      _ = c / (1 - (1 - tolerance) * c) * |d ⬝ᵥ H *ᵥ d| * (u ⬝ᵥ u) := by ring

end Quadratic

end InterpolationGeometry
