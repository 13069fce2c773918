import InterpolationGeometry.Proofs.Simplex.FaceContract
import InterpolationGeometry.Proofs.Simplex.Validity

/-!
# The normal of a face

A vertex is replaced by a point on the normal of its opposite face through the base vertex.  In
exact arithmetic its new height and its new edge have the length of the step.  The other edges stay,
and no other height decreases: the rows of the inverse only lose their part along the row of the
vertex.
-/

namespace InterpolationGeometry

namespace Simplex

open Scalar Matrix

variable {n : ℕ} {E S : Matrix (Fin n) (Fin n) ℝ} {j k : Fin n} {r : ℝ}

/-- The multiple of a row of the inverse that has the length `r`, or its opposite. -/
noncomputable def faceNormal (S : Matrix (Fin n) (Fin n) ℝ) (j : Fin n) (r : ℝ) : Fin n → ℝ :=
  (r * faceHeight S j) • S j

theorem faceHeight_sq_mul (hS : S k ≠ 0) : faceHeight S k ^ 2 * (S k ⬝ᵥ S k) = 1 := by
  have hpos := dotProduct_self_pos hS
  rw [faceHeight, div_pow, one_pow, Real.sq_sqrt hpos.le, one_div_mul_cancel hpos.ne']

theorem faceNormal_dotProduct_self (hS : S j ≠ 0) :
    faceNormal S j r ⬝ᵥ faceNormal S j r = r ^ 2 := by
  have hheight := faceHeight_sq_mul hS
  calc faceNormal S j r ⬝ᵥ faceNormal S j r
      = r ^ 2 * (faceHeight S j ^ 2 * (S j ⬝ᵥ S j)) := by
        simp only [faceNormal, smul_dotProduct, dotProduct_smul, smul_eq_mul]
        ring
    _ = r ^ 2 := by rw [hheight, mul_one]

theorem neg_faceNormal (S : Matrix (Fin n) (Fin n) ℝ) (j : Fin n) (r : ℝ) :
    -faceNormal S j r = faceNormal S j (-r) := by
  rw [faceNormal, faceNormal, neg_mul, neg_smul]

section Exchange

theorem inv_mulVec_faceNormal (S : Matrix (Fin n) (Fin n) ℝ) (j k : Fin n) (r : ℝ) :
    (S *ᵥ faceNormal S j r) k = r * faceHeight S j * (S k ⬝ᵥ S j) := by
  rw [faceNormal, mulVec_smul]
  rfl

theorem coordinate_faceNormal_ne_zero (hE : IsUnit E) (hr : r ≠ 0) :
    (E⁻¹ *ᵥ faceNormal E⁻¹ j r) j ≠ 0 := by
  rw [inv_mulVec_faceNormal]
  exact mul_ne_zero (mul_ne_zero hr (faceHeight_pos hE j).ne') (inv_row_dotProduct_pos hE j).ne'

theorem isUnit_updateCol_faceNormal (hE : IsUnit E) (hr : r ≠ 0) :
    IsUnit (E.updateCol j (faceNormal E⁻¹ j r)) :=
  (isUnit_updateCol_iff hE).2 (coordinate_faceNormal_ne_zero hE hr)

theorem edgeLength_updateCol_faceNormal (hE : IsUnit E) :
    edgeLength (E.updateCol j (faceNormal E⁻¹ j r)) j = |r| := by
  have hcol : (E.updateCol j (faceNormal E⁻¹ j r)).col j = faceNormal E⁻¹ j r := by
    funext i
    exact updateCol_self
  rw [edgeLength, hcol, faceNormal_dotProduct_self (inv_row_ne_zero hE j), Real.sqrt_sq_eq_abs]

theorem edgeLength_updateCol_of_ne (h : k ≠ j) (d : Fin n → ℝ) :
    edgeLength (E.updateCol j d) k = edgeLength E k := by
  have hcol : (E.updateCol j d).col k = E.col k := by
    funext i
    exact updateCol_ne h
  rw [edgeLength, hcol, edgeLength]

/-- The new row of the vertex has the reciprocal length of the step. -/
theorem faceHeight_updateCol_faceNormal (hE : IsUnit E) (hr : r ≠ 0) :
    faceHeight (E.updateCol j (faceNormal E⁻¹ j r))⁻¹ j = |r| := by
  have hheight := faceHeight_sq_mul (inv_row_ne_zero hE j)
  rw [faceHeight_updateCol hE (coordinate_faceNormal_ne_zero hE hr), inv_mulVec_faceNormal]
  calc |r * faceHeight E⁻¹ j * (E⁻¹ j ⬝ᵥ E⁻¹ j)| * faceHeight E⁻¹ j
      = |r| * (faceHeight E⁻¹ j ^ 2 * (E⁻¹ j ⬝ᵥ E⁻¹ j)) := by
        rw [abs_mul, abs_mul, abs_of_pos (faceHeight_pos hE j),
          abs_of_pos (inv_row_dotProduct_pos hE j)]
        ring
    _ = |r| := by rw [hheight, mul_one]

/-- The other rows lose their part along the row of the vertex. -/
theorem exchangedInverse_dotProduct_self (hE : IsUnit E) (hr : r ≠ 0) (h : k ≠ j) :
    exchangedInverse E⁻¹ (faceNormal E⁻¹ j r) j k ⬝ᵥ
        exchangedInverse E⁻¹ (faceNormal E⁻¹ j r) j k =
      E⁻¹ k ⬝ᵥ E⁻¹ k - (E⁻¹ k ⬝ᵥ E⁻¹ j) ^ 2 / (E⁻¹ j ⬝ᵥ E⁻¹ j) := by
  have hpos := (inv_row_dotProduct_pos hE j).ne'
  have hh := (faceHeight_pos hE j).ne'
  have hratio : (E⁻¹ *ᵥ faceNormal E⁻¹ j r) k / (E⁻¹ *ᵥ faceNormal E⁻¹ j r) j =
      (E⁻¹ k ⬝ᵥ E⁻¹ j) / (E⁻¹ j ⬝ᵥ E⁻¹ j) := by
    rw [inv_mulVec_faceNormal, inv_mulVec_faceNormal]
    field_simp
  rw [exchangedInverse_of_ne _ _ h, hratio]
  simp only [sub_dotProduct, dotProduct_sub, smul_dotProduct, dotProduct_smul, smul_eq_mul,
    dotProduct_comm (E⁻¹ j) (E⁻¹ k)]
  field_simp
  ring

theorem faceHeight_le_updateCol (hE : IsUnit E) (hr : r ≠ 0) (h : k ≠ j) :
    faceHeight E⁻¹ k ≤ faceHeight (E.updateCol j (faceNormal E⁻¹ j r))⁻¹ k := by
  have hunit := isUnit_updateCol_faceNormal (j := j) hE hr
  have hpos := inv_row_dotProduct_pos hunit k
  have hinverse := inv_updateCol hE (coordinate_faceNormal_ne_zero (j := j) hE hr)
  have hle : (E.updateCol j (faceNormal E⁻¹ j r))⁻¹ k ⬝ᵥ (E.updateCol j (faceNormal E⁻¹ j r))⁻¹ k ≤
      E⁻¹ k ⬝ᵥ E⁻¹ k := by
    rw [hinverse, exchangedInverse_dotProduct_self hE hr h]
    exact sub_le_self _ (div_nonneg (sq_nonneg _) (inv_row_dotProduct_pos hE j).le)
  unfold faceHeight
  exact one_div_le_one_div_of_le (Real.sqrt_pos.2 hpos) (Real.sqrt_le_sqrt hle)

end Exchange

/-! ## The routine -/

/-- What is known of the merit at the vertices of a simplex, the base vertex last. -/
structure Merit (n : ℕ) where
  penalty : ℝ
  constraintCount : ℕ
  constraints : Matrix (Fin constraintCount) (Fin (n + 1)) ℝ
  violations : Fin (n + 1) → ℝ
  values : Fin (n + 1) → ℝ

namespace Merit

structure IsAdmissible (merit : Merit n) : Prop where
  penalty_nonneg : 0 ≤ merit.penalty
  violations_nonneg : ∀ k, 0 ≤ merit.violations k

noncomputable def flat (n : ℕ) : Merit n where
  penalty := 0
  constraintCount := 1
  constraints := 0
  violations := 0
  values := 0

theorem flat_isAdmissible (n : ℕ) : (flat n).IsAdmissible := ⟨le_rfl, fun _ => le_rfl⟩

noncomputable def step (merit : Merit n) (settings : Settings ℝ) (S : Matrix (Fin n) (Fin n) ℝ)
    (number : Rat) (radius stepFactor : ℝ) : Outcome ℝ (Tensor ℝ) := do
  let problem ← FaceProblem.ofTensors (.ofMatrix S) (.ofMatrix merit.constraints)
    (.ofVector merit.violations) (.ofVector merit.values)
  faceStep settings problem number merit.penalty radius stepFactor

noncomputable def problem (merit : Merit n) (S : Matrix (Fin n) (Fin n) ℝ) : FaceProblem ℝ where
  inverse := .ofMatrix S
  dimension := n
  constraints := .ofMatrix merit.constraints
  constraintCount := merit.constraintCount
  violations := .ofVector merit.violations
  values := .ofVector merit.values

theorem step_eq (merit : Merit n) (settings : Settings ℝ) (S : Matrix (Fin n) (Fin n) ℝ)
    (number : Rat) (radius stepFactor : ℝ) :
    merit.step settings S number radius stepFactor =
      faceStep settings (merit.problem S) number merit.penalty radius stepFactor := by
  have hproblem : FaceProblem.ofTensors (.ofMatrix S) (.ofMatrix merit.constraints)
      (.ofVector merit.violations) (.ofVector merit.values) = .ok (merit.problem S) :=
    FaceProblem.ofTensors_matrix n merit.constraintCount (cell S) (cell merit.constraints)
      (continued merit.violations) (continued merit.values)
  rw [step, hproblem, Outcome.liftM_ok_bind]

variable (merit : Merit n) {settings : Settings ℝ} {radius stepFactor : ℝ}

theorem normalStep_eq (hS : S j ≠ 0) (r : ℝ) :
    (merit.problem S).normalStep j r = .ok (.ofVector (faceNormal S j r)) := by
  have hroot : √(S j ⬝ᵥ S j) ≠ 0 := (Real.sqrt_pos.2 (dotProduct_self_pos hS)).ne'
  have hnormal : (merit.problem S).normalStep j r = _ :=
    FaceProblem.normalStep_matrix (s := cell S) rfl j.isLt r
  rw [hnormal, sum_square_row, sqrt_real, divide_real hroot]
  show Except.ok (Tensor.vector n fun l => r * (1 / √(S j ⬝ᵥ S j) * cell S j l)) = _
  rw [Tensor.vector_eq_ofVector]
  congr 2
  funext l
  simp [faceNormal, faceHeight]
  ring

theorem verify_faceChecks_problem (hmerit : merit.IsAdmissible) (S : Matrix (Fin n) (Fin n) ℝ)
    (j : Fin n) (hradius : 0 < radius) (hpos : 0 < stepFactor) (hlt : stepFactor < 1) :
    verify "GEOSTEP" (faceChecks (merit.problem S) ((j + 1 : ℕ) : Rat) merit.penalty radius
      stepFactor) = .ok () := by
  have hproper : ∀ x : ℝ, IsProper x := fun x => ⟨isFinite_real x, isNaN_real x⟩
  have hentries : FaceProblem.HasProperEntries n merit.constraintCount (cell S)
      (cell merit.constraints) (continued merit.violations) (continued merit.values) :=
    { inverse := fun _ _ _ _ => isFinite_real _
      constraints := fun _ _ _ _ => hproper _
      violations := fun k hk => by
        rw [continued_of_lt _ hk]
        exact ⟨hproper _, not_lt.2 (hmerit.violations_nonneg ⟨k, hk⟩)⟩
      values := fun _ _ => hproper _ }
  exact verify_faceChecks hentries j.isLt hmerit.penalty_nonneg hradius hpos hlt

theorem verify_faceStepChecks_ofVector {v : Fin n → ℝ} (hradius : 0 < radius)
    (hpos : 0 < stepFactor) (hlength : v ⬝ᵥ v = (stepFactor * radius) ^ 2) :
    verify "GEOSTEP" (faceStepChecks n radius stepFactor (.ofVector v)) = .ok () := by
  have hprod : 0 < stepFactor * radius := mul_pos hpos hradius
  have hnorm : (Tensor.vector n (continued v)).norm = stepFactor * radius := by
    rw [Tensor.norm_vector, sum_square_continued, hlength, sqrt_real, Real.sqrt_sq hprod.le]
  refine verify_faceStepChecks (fun _ _ => isFinite_real _) ?_ ?_
  · rw [hnorm, mul_assoc]
    norm_num
    linarith
  · rw [hnorm, mul_assoc]
    norm_num
    linarith

/-- The routine comes to whichever sense of the normal of the face is the better one. -/
theorem step_of_betterSense (hS : S j ≠ 0)
    (hchecked : settings.checked = true →
      merit.IsAdmissible ∧ 0 < radius ∧ 0 < stepFactor ∧ stepFactor < 1) {v : Fin n → ℝ}
    (hlength : v ⬝ᵥ v = (stepFactor * radius) ^ 2)
    (hsense : (merit.problem S).betterSense merit.penalty
      (.ofVector (faceNormal S j (stepFactor * radius))) = .ok (.ofVector v)) :
    merit.step settings S ((j + 1 : ℕ) : Rat) radius stepFactor = pure (.ofVector v) := by
  rw [step_eq]
  refine faceStep_of_betterSense (fun h => ?_) (merit.normalStep_eq hS _) hsense fun h => ?_
  · obtain ⟨hmerit, hradius, hpos, hlt⟩ := hchecked h
    exact merit.verify_faceChecks_problem hmerit S j hradius hpos hlt
  · obtain ⟨-, hradius, hpos, -⟩ := hchecked h
    exact verify_faceStepChecks_ofVector hradius hpos hlength

end Merit

end Simplex

end InterpolationGeometry
