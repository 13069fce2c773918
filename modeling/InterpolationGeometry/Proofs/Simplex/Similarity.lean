import InterpolationGeometry.Proofs.Simplex.Degeneration
import InterpolationGeometry.Proofs.Simplex.MeritModel
import InterpolationGeometry.Proofs.Simplex.Multiples
import InterpolationGeometry.Proofs.Simplex.WorstVertex
import Mathlib.LinearAlgebra.UnitaryGroup

/-!
# Other coordinates and other units

A similarity turns the coordinate system and changes the unit of length.  It multiplies lengths and
heights by the unit and keeps the coordinates of a step in the edges; the base vertex does not
matter.  So in exact arithmetic a similarity of the simplex, of its inverse, of the step and of the
radius changes no choice of a vertex and no report of it, and it carries the step across a face to
the step across the face of the similar simplex.
-/

namespace InterpolationGeometry

namespace Simplex

open Scalar Matrix

theorem columnLength_val {n : ℕ} (E : Matrix (Fin n) (Fin n) ℝ) (b : Fin n → ℝ) (k : Fin n) :
    columnLength n (vertexEntry E b) k = edgeLength E k := by
  simp [columnLength, edgeLength, sum_real, dotProduct, pow_two]

/-- An orthogonal matrix and a positive unit of length. -/
structure Similarity (n : ℕ) where
  rotation : Matrix (Fin n) (Fin n) ℝ
  unit : ℝ
  orthogonal : rotation ∈ orthogonalGroup (Fin n) ℝ
  unit_pos : 0 < unit

namespace Similarity

variable {n : ℕ} (φ : Similarity n)

def vector (v : Fin n → ℝ) : Fin n → ℝ := φ.unit • φ.rotation *ᵥ v

def edges (E : Matrix (Fin n) (Fin n) ℝ) : Matrix (Fin n) (Fin n) ℝ := φ.unit • (φ.rotation * E)

/-- The matrix that goes with the image of the edges as the inverse goes with the edges. -/
noncomputable def inverse (S : Matrix (Fin n) (Fin n) ℝ) : Matrix (Fin n) (Fin n) ℝ :=
  φ.unit⁻¹ • (S * φ.rotationᵀ)

/-! ## Vectors -/

theorem transpose_mul_rotation : φ.rotationᵀ * φ.rotation = 1 :=
  (mem_orthogonalGroup_iff' (Fin n) ℝ).1 φ.orthogonal

theorem unit_ne_zero : φ.unit ≠ 0 := φ.unit_pos.ne'

theorem vector_dotProduct (u v : Fin n → ℝ) :
    φ.vector u ⬝ᵥ φ.vector v = φ.unit ^ 2 * (u ⬝ᵥ v) := by
  have hturned : (φ.rotation *ᵥ u) ⬝ᵥ (φ.rotation *ᵥ v) = u ⬝ᵥ v := by
    rw [dotProduct_mulVec, ← mulVec_transpose, mulVec_mulVec, φ.transpose_mul_rotation, one_mulVec]
  rw [vector, vector, smul_dotProduct, dotProduct_smul, hturned, smul_eq_mul, smul_eq_mul]
  ring

theorem vector_sub (u v : Fin n → ℝ) : φ.vector (u - v) = φ.vector u - φ.vector v := by
  rw [vector, vector, vector, mulVec_sub, smul_sub]

theorem vector_neg (v : Fin n → ℝ) : φ.vector (-v) = -φ.vector v := by
  rw [vector, vector, mulVec_neg, smul_neg]

theorem vector_smul (r : ℝ) (v : Fin n → ℝ) : φ.vector (r • v) = r • φ.vector v := by
  rw [vector, vector, mulVec_smul, smul_comm]

theorem col_edges (E : Matrix (Fin n) (Fin n) ℝ) (k : Fin n) :
    (φ.edges E).col k = φ.vector (E.col k) := by
  ext i
  simp [edges, vector, mul_apply, mulVec, dotProduct]

/-! ## The inverse -/

theorem vector_vecMul (S : Matrix (Fin n) (Fin n) ℝ) (w : Fin n → ℝ) :
    φ.vector (w ᵥ* S) = φ.unit ^ 2 • w ᵥ* φ.inverse S := by
  have hunit := φ.unit_ne_zero
  have hturned : φ.rotation *ᵥ (w ᵥ* S) = w ᵥ* (S * φ.rotationᵀ) := by
    rw [← vecMul_transpose, vecMul_vecMul]
  rw [vector, inverse, vecMul_smul, hturned, smul_smul]
  congr 1
  field_simp

/-- A row of the new inverse is the image of the old row, up to the square of the unit. -/
theorem vector_row (S : Matrix (Fin n) (Fin n) ℝ) (j : Fin n) :
    φ.vector (S j) = φ.unit ^ 2 • φ.inverse S j := by
  have hrow := φ.vector_vecMul S (Pi.single j 1)
  rwa [single_one_vecMul, single_one_vecMul] at hrow

theorem inverse_mulVec (S : Matrix (Fin n) (Fin n) ℝ) (d : Fin n → ℝ) :
    φ.inverse S *ᵥ φ.vector d = S *ᵥ d := by
  rw [inverse, vector, smul_mulVec, mulVec_smul, smul_smul, inv_mul_cancel₀ φ.unit_ne_zero,
    one_smul, mulVec_mulVec, Matrix.mul_assoc, φ.transpose_mul_rotation, Matrix.mul_one]

theorem inverse_row_ne_zero {S : Matrix (Fin n) (Fin n) ℝ} {j : Fin n} (hS : S j ≠ 0) :
    φ.inverse S j ≠ 0 := by
  intro hzero
  have hrow := φ.vector_dotProduct (S j) (S j)
  rw [φ.vector_row, hzero, smul_zero, zero_dotProduct] at hrow
  exact (mul_pos (pow_pos φ.unit_pos 2) (dotProduct_self_pos hS)).ne hrow

/-! ## Lengths and heights -/

theorem sqrt_unit_sq_mul (r : ℝ) : √(φ.unit ^ 2 * r) = φ.unit * √r := by
  rw [Real.sqrt_mul (sq_nonneg _), Real.sqrt_sq φ.unit_pos.le]

theorem edgeLength_edges (E : Matrix (Fin n) (Fin n) ℝ) (k : Fin n) :
    edgeLength (φ.edges E) k = φ.unit * edgeLength E k := by
  rw [edgeLength, edgeLength, φ.col_edges, φ.vector_dotProduct, φ.sqrt_unit_sq_mul]

theorem faceHeight_inverse (S : Matrix (Fin n) (Fin n) ℝ) (k : Fin n) :
    faceHeight (φ.inverse S) k = φ.unit * faceHeight S k := by
  have hunit := φ.unit_ne_zero
  have hrow : S k ⬝ᵥ S k = φ.unit ^ 2 * (φ.inverse S k ⬝ᵥ φ.inverse S k) := by
    have hdot := φ.vector_dotProduct (S k) (S k)
    rw [φ.vector_row, smul_dotProduct, dotProduct_smul, smul_eq_mul, smul_eq_mul] at hdot
    exact (mul_left_cancel₀ (pow_ne_zero 2 hunit) hdot).symm
  rw [faceHeight, faceHeight, hrow, φ.sqrt_unit_sq_mul, one_div, one_div, mul_inv,
    mul_inv_cancel_left₀ hunit]

section Multiples

variable (E S : Matrix (Fin n) (Fin n) ℝ) (b t d : Fin n → ℝ) (improved : Bool)

theorem isMultiple_columnLength :
    IsMultiple φ.unit n (columnLength n (vertexEntry E b))
      (columnLength n (vertexEntry (φ.edges E) t)) := by
  intro k hk
  have hold := columnLength_val E b ⟨k, hk⟩
  have hnew := columnLength_val (φ.edges E) t ⟨k, hk⟩
  rw [φ.edgeLength_edges, ← hold] at hnew
  exact hnew

theorem isMultiple_rowHeight :
    IsMultiple φ.unit n (rowHeight n (cell S)) (rowHeight n (cell (φ.inverse S))) := by
  intro k hk
  have hold := rowHeight_val S ⟨k, hk⟩
  have hnew := rowHeight_val (φ.inverse S) ⟨k, hk⟩
  rw [φ.faceHeight_inverse, ← hold] at hnew
  exact hnew

theorem isMultiple_gapSquare :
    IsMultiple (φ.unit ^ 2) n (gapSquare improved n (continued d) (vertexEntry E b))
      (gapSquare improved n (continued (φ.vector d)) (vertexEntry (φ.edges E) t)) := by
  intro k hk
  have hold := gapSquare_val improved E b d ⟨k, hk⟩
  have hnew := gapSquare_val improved (φ.edges E) t (φ.vector d) ⟨k, hk⟩
  rw [φ.col_edges, ← φ.vector_sub, φ.vector_dotProduct, φ.vector_dotProduct, ← mul_ite,
    ← hold] at hnew
  exact hnew

theorem isMultiple_gapLength :
    IsMultiple φ.unit n (gapLength improved n (continued d) (vertexEntry E b))
      (gapLength improved n (continued (φ.vector d)) (vertexEntry (φ.edges E) t)) := by
  intro k hk
  rw [gapLength, gapLength, φ.isMultiple_gapSquare E b t d improved k hk, sqrt_real, sqrt_real,
    φ.sqrt_unit_sq_mul]

theorem baseSquare_vector :
    baseSquare improved n (continued (φ.vector d)) =
      φ.unit ^ 2 * baseSquare improved n (continued d) := by
  rw [baseSquare_val, baseSquare_val, φ.vector_dotProduct, mul_ite, mul_zero]

theorem coordinate_vector :
    coordinate n (cell (φ.inverse S)) (continued (φ.vector d)) =
      coordinate n (cell S) (continued d) := by
  funext k
  by_cases hk : k < n
  · have hold := coordinate_val S d ⟨k, hk⟩
    have hnew := coordinate_val (φ.inverse S) (φ.vector d) ⟨k, hk⟩
    rw [φ.inverse_mulVec, ← hold] at hnew
    exact hnew
  · simp [coordinate, cell, hk]

end Multiples

/-! ## The routines -/

section Routines

variable (E S : Matrix (Fin n) (Fin n) ℝ) (b t d : Fin n → ℝ) {settings : Settings ℝ}
  (hchecked : settings.checked = false) (radius : ℝ)

include hchecked

theorem isAcceptable_similar (minHeightFactor maxLengthFactor : ℝ) :
    isAcceptable settings (φ.unit * radius) minHeightFactor maxLengthFactor
        (ofEdges (φ.edges E) t) (.ofMatrix (φ.inverse S)) =
      isAcceptable settings radius minHeightFactor maxLengthFactor (ofEdges E b) (.ofMatrix S) := by
  have hacceptable := areAcceptable_multiple φ.unit_pos (φ.isMultiple_rowHeight S)
    (φ.isMultiple_columnLength E b t) (minHeightFactor * radius) (maxLengthFactor * radius)
  rw [isAcceptable_of_asMatrix (asMatrix_ofEdges _ _) (Tensor.asMatrix_ofMatrix _),
    isAcceptable_of_asMatrix (asMatrix_ofEdges _ _) (Tensor.asMatrix_ofMatrix _), hchecked,
    guarded_false, guarded_false, mul_left_comm, mul_left_comm maxLengthFactor, hacceptable]

theorem dropForGeometry_similar (minHeightFactor maxLengthFactor : ℝ) :
    dropForGeometry settings (φ.unit * radius) minHeightFactor maxLengthFactor
        (ofEdges (φ.edges E) t) (.ofMatrix (φ.inverse S)) =
      dropForGeometry settings radius minHeightFactor maxLengthFactor (ofEdges E b)
        (.ofMatrix S) := by
  have hworst := worstVertex_multiple φ.unit_pos (φ.isMultiple_rowHeight S)
    (φ.isMultiple_columnLength E b t) (minHeightFactor * radius) (maxLengthFactor * radius)
  rw [dropForGeometry_of_asMatrix (asMatrix_ofEdges _ _) (Tensor.asMatrix_ofMatrix _),
    dropForGeometry_of_asMatrix (asMatrix_ofEdges _ _) (Tensor.asMatrix_ofMatrix _), hchecked,
    guarded_false, guarded_false, mul_left_comm, mul_left_comm maxLengthFactor, hworst]

omit hchecked in
/-- Every stage of the choice stays as it is, with what it reports. -/
theorem chosenForStep_similar (improved : Bool) (minHeightFactor farLengthFactor : ℝ) :
    chosenForStep settings improved n (continued (φ.vector d)) (vertexEntry (φ.edges E) t)
        (cell (φ.inverse S)) (φ.unit * radius) minHeightFactor farLengthFactor =
      chosenForStep settings improved n (continued d) (vertexEntry E b) (cell S) radius
        minHeightFactor farLengthFactor := by
  have hlengths := φ.isMultiple_gapLength E b t d improved
  have hsquares := φ.isMultiple_gapSquare E b t d improved
  have hunit := φ.unit_pos
  have hscores := score_multiple hsquares (baseSquare improved n (continued d))
    (coordinate n (cell S) (continued d))
  have hthreshold := farVertex_multiple hunit (φ.isMultiple_rowHeight S) hlengths improved
    (minHeightFactor * radius) (farLengthFactor * radius) (coordinate n (cell S) (continued d))
  unfold chosenForStep
  rw [φ.coordinate_vector, thresholdChoice_eq, thresholdChoice_eq, mul_left_comm,
    mul_left_comm farLengthFactor, hthreshold, orFarthest_multiple hunit hlengths]
  congr 1
  funext byThreshold
  congr 1
  cases settings.dropScheme with
  | score =>
      simp only [schemeChoice, scoreChoice_eq, φ.baseSquare_vector,
        exists_pos_multiple (pow_pos hunit 2) hsquares,
        bestScore_multiple (pow_pos hunit 2) hscores,
        amongCoincident_multiple (pow_pos hunit 2) hsquares]
  | powell => rfl
  | unlisted name => rfl

theorem dropForStep_similar (improved : Bool) (minHeightFactor farLengthFactor : ℝ) :
    dropForStep settings improved (.ofVector (φ.vector d)) (φ.unit * radius) minHeightFactor
        farLengthFactor (ofEdges (φ.edges E) t) (.ofMatrix (φ.inverse S)) =
      dropForStep settings improved (.ofVector d) radius minHeightFactor farLengthFactor
        (ofEdges E b) (.ofMatrix S) := by
  simp only [Tensor.ofVector, Tensor.ofMatrix, ofEdges, dropForStep_matrix, hchecked,
    guarded_false, φ.chosenForStep_similar E S b t d]

end Routines

/-! ## The step across a face -/

section FaceStep

variable (merit : Merit n) (S : Matrix (Fin n) (Fin n) ℝ)

theorem modelGradient_dotProduct_vector (values : Fin (n + 1) → ℝ) (s : Fin n → ℝ) :
    modelGradient (φ.inverse S) values ⬝ᵥ φ.vector s = modelGradient S values ⬝ᵥ s := by
  have hgradient : φ.vector (modelGradient S values) =
      φ.unit ^ 2 • modelGradient (φ.inverse S) values := φ.vector_vecMul S _
  have hdot := φ.vector_dotProduct (modelGradient S values) s
  rw [hgradient, smul_dotProduct, smul_eq_mul] at hdot
  exact mul_left_cancel₀ (pow_ne_zero 2 φ.unit_ne_zero) hdot

theorem linearModel_vector (s : Fin n → ℝ) :
    merit.linearModel (φ.inverse S) (φ.vector s) = merit.linearModel S s := by
  simp only [Merit.linearModel, Merit.violation, φ.modelGradient_dotProduct_vector]

theorem faceNormal_vector (j : Fin n) (r : ℝ) :
    faceNormal (φ.inverse S) j (φ.unit * r) = φ.vector (faceNormal S j r) := by
  rw [faceNormal, faceNormal, φ.vector_smul, φ.vector_row, φ.faceHeight_inverse, smul_smul]
  congr 1
  ring

theorem step_similar {settings : Settings ℝ} (hchecked : settings.checked = false) {j : Fin n}
    (hS : S j ≠ 0) (radius stepFactor : ℝ) :
    ∃ v : Fin n → ℝ,
      merit.step settings S ((j + 1 : ℕ) : Rat) radius stepFactor = pure (.ofVector v) ∧
      merit.step settings (φ.inverse S) ((j + 1 : ℕ) : Rat) (φ.unit * radius) stepFactor =
        pure (.ofVector (φ.vector v)) := by
  refine ⟨_, merit.step_eq_better_unchecked hS hchecked, ?_⟩
  rw [merit.step_eq_better_unchecked (φ.inverse_row_ne_zero hS) hchecked]
  simp only [mul_left_comm stepFactor, φ.faceNormal_vector, ← φ.vector_neg, φ.linearModel_vector,
    apply_ite φ.vector]

end FaceStep

end Similarity

/-- In exact arithmetic and without checking, a similarity of edges, inverse, step and radius with
any new base vertex leaves every choice of a vertex as it is, with all that is reported, and turns
the step across a face into its image. -/
theorem routines_similar {n : ℕ} (φ : Similarity n) (E : Matrix (Fin n) (Fin n) ℝ)
    {S : Matrix (Fin n) (Fin n) ℝ} (hS : ∀ k, S k ≠ 0) (b t d : Fin n → ℝ)
    {settings : Settings ℝ} (hchecked : settings.checked = false) {radius : ℝ} :
    (∀ minHeightFactor maxLengthFactor,
      isAcceptable settings (φ.unit * radius) minHeightFactor maxLengthFactor
          (ofEdges (φ.edges E) t) (.ofMatrix (φ.inverse S)) =
        isAcceptable settings radius minHeightFactor maxLengthFactor (ofEdges E b)
          (.ofMatrix S)) ∧
    (∀ minHeightFactor maxLengthFactor,
      dropForGeometry settings (φ.unit * radius) minHeightFactor maxLengthFactor
          (ofEdges (φ.edges E) t) (.ofMatrix (φ.inverse S)) =
        dropForGeometry settings radius minHeightFactor maxLengthFactor (ofEdges E b)
          (.ofMatrix S)) ∧
    (∀ improved minHeightFactor farLengthFactor,
      dropForStep settings improved (.ofVector (φ.vector d)) (φ.unit * radius) minHeightFactor
          farLengthFactor (ofEdges (φ.edges E) t) (.ofMatrix (φ.inverse S)) =
        dropForStep settings improved (.ofVector d) radius minHeightFactor farLengthFactor
          (ofEdges E b) (.ofMatrix S)) ∧
    ∀ (merit : Merit n) (j : Fin n) (stepFactor : ℝ), ∃ v : Fin n → ℝ,
      merit.step settings S ((j + 1 : ℕ) : Rat) radius stepFactor = pure (.ofVector v) ∧
      merit.step settings (φ.inverse S) ((j + 1 : ℕ) : Rat) (φ.unit * radius) stepFactor =
        pure (.ofVector (φ.vector v)) :=
  ⟨φ.isAcceptable_similar E S b t hchecked radius,
    φ.dropForGeometry_similar E S b t hchecked radius,
    φ.dropForStep_similar E S b t d hchecked radius,
    fun merit j stepFactor => φ.step_similar merit S hchecked (hS j) radius stepFactor⟩

/-- A quarter turn of the plane that doubles lengths. -/
def Similarity.quarterTurn : Similarity 2 where
  rotation := !![0, -1; 1, 0]
  unit := 2
  orthogonal := by
    rw [mem_orthogonalGroup_iff']
    ext i k
    fin_cases i <;> fin_cases k <;> simp [mul_apply]
  unit_pos := two_pos

/-- The simplex of the axes, turned, doubled and moved, loses the same vertex to the turned and
doubled step. -/
theorem routines_similar_quarterTurn :
    (∀ k, (!![1, 0; 0, 1] : Matrix (Fin 2) (Fin 2) ℝ) k ≠ 0) ∧
    (Settings.standard : Settings ℝ).checked = false ∧
    dropForStep .standard true (.ofVector ![-4, 2]) 2 0.5 2 (ofEdges !![0, -2; 2, 0] ![7, 9])
        (.ofMatrix !![0, 1 / 2; -(1 / 2), 0]) =
      dropForStep .standard true (.ofVector ![1, 2]) 1 0.5 2 (ofEdges !![1, 0; 0, 1] 0)
        (.ofMatrix !![1, 0; 0, 1]) := by
  have hrows : ∀ k, (1 : Matrix (Fin 2) (Fin 2) ℝ) k ≠ 0 := fun k hk => by
    simpa using congrFun hk k
  obtain ⟨-, -, hstep, -⟩ := routines_similar Similarity.quarterTurn 1 hrows 0 ![7, 9] ![1, 2]
    (rfl : (Settings.standard : Settings ℝ).checked = false)
  have hvector : Similarity.quarterTurn.vector ![1, 2] = ![-4, 2] := by
    ext i
    fin_cases i <;> norm_num [Similarity.vector, Similarity.quarterTurn, mulVec, dotProduct]
  have hedges : Similarity.quarterTurn.edges 1 = !![0, -2; 2, 0] := by
    ext i k
    fin_cases i <;> fin_cases k <;> norm_num [Similarity.edges, Similarity.quarterTurn]
  have hinverse : Similarity.quarterTurn.inverse 1 = !![0, 1 / 2; -(1 / 2), 0] := by
    ext i k
    fin_cases i <;> fin_cases k <;> norm_num [Similarity.inverse, Similarity.quarterTurn]
  have hunit : Similarity.quarterTurn.unit * 1 = 2 := mul_one 2
  specialize hstep true 0.5 2
  rw [hvector, hedges, hinverse, hunit] at hstep
  rw [← one_fin_two]
  exact ⟨hrows, rfl, hstep⟩

end Simplex

end InterpolationGeometry
