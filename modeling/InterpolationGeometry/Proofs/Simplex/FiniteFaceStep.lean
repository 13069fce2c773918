import InterpolationGeometry.Proofs.Simplex.FaceNormal
import InterpolationGeometry.Proofs.Tensor.Finite

/-!
# Steps across a face among extended values

On finite arrays the routine has one division, by the length of the row of the vertex.  If the row is
zero, the routine fails with a division by zero, which no condition on the arguments excludes;
otherwise it returns one of the two steps along the normal, of the length it was asked for.
-/

namespace InterpolationGeometry

namespace Simplex

open Scalar Matrix Extended

variable {n : ℕ} {S : Matrix (Fin n) (Fin n) ℝ} {j : Fin n}

theorem isProper_finite (x : ℝ) : IsProper (Extended.finite x) := ⟨rfl, isNaN_finite x⟩

namespace Merit

variable (merit : Merit n)

noncomputable def finiteProblem (S : Matrix (Fin n) (Fin n) ℝ) : FaceProblem Extended :=
  .ofEntries n merit.constraintCount (fun i k => .finite (cell S i k))
    (fun i k => .finite (cell merit.constraints i k))
    (fun k => .finite (continued merit.violations k)) fun k => .finite (continued merit.values k)

theorem ofTensors_finite {inverse : Tensor Extended} (h : inverse.asMatrix = .finiteMatrix S) :
    FaceProblem.ofTensors inverse (.finiteMatrix merit.constraints)
      (.finiteVector merit.violations) (.finiteVector merit.values) =
      .ok (merit.finiteProblem S) :=
  FaceProblem.ofTensors_of_asMatrix h _ _

theorem normalStep_finiteProblem (S : Matrix (Fin n) (Fin n) ℝ) (j : Fin n) (length : Extended) :
    (merit.finiteProblem S).normalStep j length =
      (divide 1 (.finite √(S j ⬝ᵥ S j))).bind fun height =>
        .ok (.vector n fun l => length * (height * .finite (cell S j l))) := by
  have hnormal : (merit.finiteProblem S).normalStep j length = _ :=
    FaceProblem.normalStep_matrix (s := fun i k => .finite (cell S i k)) rfl j.isLt length
  have hsquare : (sum n fun l => square (Extended.finite (cell S j l))) = .finite (S j ⬝ᵥ S j) := by
    simp only [square_finite, sum_finite, ← sum_square_row, square_real]
  rw [hnormal, hsquare, sqrt_finite (dotProduct_self_nonneg _)]

theorem normalStep_of_ne_zero (hS : S j ≠ 0) (r : ℝ) :
    (merit.finiteProblem S).normalStep j (.finite r) =
      .ok (.finiteVector (faceNormal S j r)) := by
  have hroot : √(S j ⬝ᵥ S j) ≠ 0 := (Real.sqrt_pos.2 (dotProduct_self_pos hS)).ne'
  rw [normalStep_finiteProblem, one_eq, divide_finite hroot]
  show Except.ok (Tensor.vector n fun l => Extended.finite r * (_ * Extended.finite _)) = _
  simp only [finite_mul]
  rw [Tensor.vector_eq_finiteVector]
  congr 2
  funext l
  simp [faceNormal, faceHeight]
  ring

theorem normalStep_of_zero (hS : S j = 0) (length : Extended) :
    (merit.finiteProblem S).normalStep j length = .error .divisionByZero := by
  rw [normalStep_finiteProblem, hS, dotProduct_zero, Real.sqrt_zero]
  have hdivide : divide (1 : Extended) (.finite 0) = .error .divisionByZero := by
    simp [divide, same, zero_eq]
  rw [hdivide]
  rfl

theorem exists_betterSense_finite (S : Matrix (Fin n) (Fin n) ℝ) (penalty : Extended)
    (v : Fin n → ℝ) :
    ∃ d, (d = v ∨ d = -v) ∧
      (merit.finiteProblem S).betterSense penalty (.finiteVector v) = .ok (.finiteVector d) := by
  have hsense : (merit.finiteProblem S).betterSense penalty (.finiteVector v) = _ :=
    FaceProblem.betterSense_vector (n := n) (m := merit.constraintCount)
      (s := fun i k => .finite (cell S i k)) (c := fun i k => .finite (cell merit.constraints i k))
      (f := fun k => .finite (continued merit.values k)) rfl rfl rfl rfl rfl penalty
      (fun k => .finite (continued v k)) _ fun _ => rfl
  rw [hsense]
  split
  · refine ⟨-v, Or.inr rfl, ?_⟩
    rw [← Tensor.neg_finiteVector, Tensor.finiteVector, Tensor.neg_vector]
  · exact ⟨v, Or.inl rfl, rfl⟩

theorem verify_faceChecks_finiteProblem (hmerit : merit.IsAdmissible)
    (S : Matrix (Fin n) (Fin n) ℝ) (j : Fin n) {radius stepFactor : ℝ} (hradius : 0 < radius)
    (hpos : 0 < stepFactor) (hlt : stepFactor < 1) :
    verify "GEOSTEP" (faceChecks (merit.finiteProblem S) ((j + 1 : ℕ) : Rat)
      (.finite merit.penalty) (.finite radius) (.finite stepFactor)) = .ok () := by
  have hentries : FaceProblem.HasProperEntries n merit.constraintCount
      (fun i k => Extended.finite (cell S i k))
      (fun i k => .finite (cell merit.constraints i k))
      (fun k => .finite (continued merit.violations k))
      fun k => .finite (continued merit.values k) :=
    { inverse := fun _ _ _ _ => rfl
      constraints := fun _ _ _ _ => isProper_finite _
      violations := fun k hk => by
        rw [continued_of_lt _ hk, zero_eq, finite_lt_finite]
        exact ⟨isProper_finite _, not_lt.2 (hmerit.violations_nonneg ⟨k, hk⟩)⟩
      values := fun _ _ => isProper_finite _ }
  exact verify_faceChecks hentries j.isLt (finite_le_finite.2 hmerit.penalty_nonneg)
    (finite_lt_finite.2 hradius) (finite_lt_finite.2 hpos) (finite_lt_finite.2 hlt)

section Routine

variable (settings : Settings Extended) {radius stepFactor : ℝ} (hmerit : merit.IsAdmissible)
  (hradius : 0 < radius) (hpos : 0 < stepFactor) (hlt : stepFactor < 1)

include hmerit hradius hpos hlt

/-- Beside a row that is not zero the routine returns a step of the length it was asked for. -/
theorem exists_faceStep_of_ne_zero (hS : S j ≠ 0) :
    ∃ d : Fin n → ℝ, d ⬝ᵥ d = (stepFactor * radius) ^ 2 ∧
      faceStep settings (merit.finiteProblem S) ((j + 1 : ℕ) : Rat) (.finite merit.penalty)
        (.finite radius) (.finite stepFactor) = pure (.finiteVector d) := by
  have hprod : 0 < stepFactor * radius := mul_pos hpos hradius
  obtain ⟨d, hd, hsense⟩ := merit.exists_betterSense_finite S (.finite merit.penalty)
    (faceNormal S j (stepFactor * radius))
  have hlength : d ⬝ᵥ d = (stepFactor * radius) ^ 2 := by
    rcases hd with rfl | rfl
    · exact faceNormal_dotProduct_self hS
    · rw [neg_dotProduct_neg, faceNormal_dotProduct_self hS]
  have hnorm : (Tensor.finiteVector d).norm = .finite (stepFactor * radius) := by
    rw [Tensor.norm_finiteVector, hlength, Real.sqrt_sq hprod.le]
  refine ⟨d, hlength, faceStep_of_betterSense
    (fun _ => merit.verify_faceChecks_finiteProblem hmerit S j hradius hpos hlt) ?_ hsense
    fun _ => verify_faceStepChecks (fun _ _ => rfl) ?_ ?_⟩
  · rw [finite_mul]
    exact merit.normalStep_of_ne_zero hS _
  · show _ < (Tensor.finiteVector d).norm
    rw [hnorm, ofScientific_eq, finite_mul, finite_mul, finite_lt_finite, mul_assoc]
    norm_num
    linarith
  · show (Tensor.finiteVector d).norm ≤ _
    rw [hnorm, ofScientific_eq, finite_mul, finite_mul, finite_le_finite, mul_assoc]
    norm_num
    linarith

/-- Beside a zero row the routine divides by zero. -/
theorem result_faceStep_of_zero (hS : S j = 0) :
    (faceStep settings (merit.finiteProblem S) ((j + 1 : ℕ) : Rat) (.finite merit.penalty)
      (.finite radius) (.finite stepFactor)).result = .error .divisionByZero :=
  faceStep_of_normalStep_error
    (fun _ => merit.verify_faceChecks_finiteProblem hmerit S j hradius hpos hlt)
    (merit.normalStep_of_zero hS _)

end Routine

end Merit

end Simplex

end InterpolationGeometry
