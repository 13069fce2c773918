import InterpolationGeometry.Proofs.Quadratic.Credit
import InterpolationGeometry.Proofs.Quadratic.Turning
import InterpolationGeometry.Proofs.Tensor.Euclidean
import Mathlib.LinearAlgebra.Matrix.Symmetric

/-!
# The plane of the gradient

In the plane of the gradient and a vector across it a quadratic model is a form in an orthonormal
pair, with a slope along the first axis alone.  A combination of the turned axes has the length of
its coefficients and changes the model by the value of the combination.
-/

namespace InterpolationGeometry

namespace Quadratic

open Matrix

variable {n : ℕ}

/-- The change of the model with gradient `g` and second derivatives `H` along a step. -/
noncomputable def modelValue (g : Fin n → ℝ) (H : Matrix (Fin n) (Fin n) ℝ) (s : Fin n → ℝ) : ℝ :=
  g ⬝ᵥ s + 0.5 * (s ⬝ᵥ H *ᵥ s)

def Form.ofPair (H : Matrix (Fin n) (Fin n) ℝ) (u w : Fin n → ℝ) : Form where
  own := u ⬝ᵥ H *ᵥ u
  cross := u ⬝ᵥ H *ᵥ w
  other := w ⬝ᵥ H *ᵥ w

def Combination.point (best : Combination ℝ) (turn : Rotation ℝ) (u w : Fin n → ℝ) : Fin n → ℝ :=
  best.first • (turn.cosine • u + turn.sine • w) + best.second • (turn.cosine • w - turn.sine • u)

theorem dotProduct_mulVec_comm {H : Matrix (Fin n) (Fin n) ℝ} (hH : H.IsSymm) (u w : Fin n → ℝ) :
    w ⬝ᵥ H *ᵥ u = u ⬝ᵥ H *ᵥ w := by
  calc w ⬝ᵥ H *ᵥ u = w ᵥ* H ⬝ᵥ u := dotProduct_mulVec w H u
    _ = H *ᵥ w ⬝ᵥ u := by rw [← mulVec_transpose, hH.eq]
    _ = u ⬝ᵥ H *ᵥ w := dotProduct_comm _ _

section Pair

variable {H : Matrix (Fin n) (Fin n) ℝ} {u w : Fin n → ℝ} (best : Combination ℝ)
  {turn : Rotation ℝ}

theorem point_eq (best : Combination ℝ) (turn : Rotation ℝ) (u w : Fin n → ℝ) :
    best.point turn u w =
      (best.first * turn.cosine - best.second * turn.sine) • u +
        (best.first * turn.sine + best.second * turn.cosine) • w := by
  funext i
  simp only [Combination.point, Pi.add_apply, Pi.sub_apply, Pi.smul_apply, smul_eq_mul]
  ring

theorem point_dotProduct_self (hu : u ⬝ᵥ u = 1) (hw : w ⬝ᵥ w = 1) (huw : u ⬝ᵥ w = 0)
    (hturn : turn.cosine ^ 2 + turn.sine ^ 2 = 1) :
    best.point turn u w ⬝ᵥ best.point turn u w = best.first ^ 2 + best.second ^ 2 := by
  rw [point_eq]
  simp only [add_dotProduct, dotProduct_add, smul_dotProduct, dotProduct_smul, smul_eq_mul, hu, hw,
    huw, dotProduct_comm w u]
  linear_combination (best.first ^ 2 + best.second ^ 2) * hturn

theorem point_dotProduct_mulVec (hH : H.IsSymm) :
    best.point turn u w ⬝ᵥ H *ᵥ best.point turn u w =
      best.first ^ 2 * ((Form.ofPair H u w).turned turn.cosine turn.sine).own +
        2 * (best.first * best.second) *
          ((Form.ofPair H u w).turned turn.cosine turn.sine).cross +
        best.second ^ 2 * ((Form.ofPair H u w).turned turn.cosine turn.sine).other := by
  rw [point_eq]
  simp only [mulVec_add, mulVec_smul, add_dotProduct, dotProduct_add, smul_dotProduct,
    dotProduct_smul, smul_eq_mul, dotProduct_mulVec_comm hH u w, Form.turned, Form.ofPair]
  ring

/-- The change of the model along a combination of the turned axes, where the gradient lies along
the first axis before the turn. -/
theorem modelValue_point (hH : H.IsSymm) (hu : u ⬝ᵥ u = 1) (huw : u ⬝ᵥ w = 0) {size radius : ℝ}
    (hradius : radius ≠ 0) :
    modelValue (size • u) H (best.point turn u w) =
      best.value (turn.cosine * size / radius) (-turn.sine * size / radius)
        ((Form.ofPair H u w).turned turn.cosine turn.sine).own
        ((Form.ofPair H u w).turned turn.cosine turn.sine).other radius
        ((Form.ofPair H u w).turned turn.cosine turn.sine).cross := by
  have hslope : size • u ⬝ᵥ best.point turn u w =
      size * (best.first * turn.cosine - best.second * turn.sine) := by
    rw [point_eq]
    simp only [dotProduct_add, smul_dotProduct, dotProduct_smul, smul_eq_mul, hu, huw]
    ring
  rw [modelValue, hslope, point_dotProduct_mulVec best hH, Combination.value]
  field_simp
  ring

end Pair

end Quadratic

end InterpolationGeometry
