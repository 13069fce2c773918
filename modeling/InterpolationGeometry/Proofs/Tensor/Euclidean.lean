import InterpolationGeometry.Proofs.Arithmetic.Exact
import InterpolationGeometry.Simplex.Distances
import Mathlib.LinearAlgebra.Matrix.DotProduct
import Mathlib.LinearAlgebra.Matrix.NonsingularInverse

/-!
# Vectors and matrices as arrays

Finite vectors and matrices of reals, continued by zero to all places, are the arrays that the
routines work on.  A simplex is the array of a square matrix of edges beside a base vertex.  In
these terms a sum over the places of an array is a dot product, the length of an edge is that of its
column, and a height is the reciprocal length of a row of the inverse.
-/

namespace InterpolationGeometry

open Scalar Matrix

variable {m n : ℕ}

/-- The entries of a vector, continued by zero. -/
noncomputable def continued (v : Fin n → ℝ) (k : ℕ) : ℝ :=
  if h : k < n then v ⟨k, h⟩ else 0

noncomputable def cell (A : Matrix (Fin m) (Fin n) ℝ) (i k : ℕ) : ℝ :=
  if h : i < m ∧ k < n then A ⟨i, h.1⟩ ⟨k, h.2⟩ else 0

theorem continued_of_lt (v : Fin n → ℝ) {k : ℕ} (h : k < n) : continued v k = v ⟨k, h⟩ := by
  simp [continued, h]

theorem cell_of_lt (A : Matrix (Fin m) (Fin n) ℝ) {i k : ℕ} (hi : i < m) (hk : k < n) :
    cell A i k = A ⟨i, hi⟩ ⟨k, hk⟩ := by
  simp [cell, hi, hk]

@[simp] theorem continued_val (v : Fin n → ℝ) (k : Fin n) : continued v k = v k := by
  simp [continued]

@[simp] theorem cell_val (A : Matrix (Fin m) (Fin n) ℝ) (i : Fin m) (k : Fin n) :
    cell A i k = A i k := by
  simp [cell]

theorem continued_row (A : Matrix (Fin m) (Fin n) ℝ) (i : Fin m) (k : ℕ) :
    continued (A i) k = cell A i k := by
  simp [continued, cell]

theorem sum_square_continued (v : Fin n → ℝ) :
    (sum n fun k => square (continued v k)) = v ⬝ᵥ v := by
  simp [sum_real, dotProduct, pow_two]

theorem sum_square_row (A : Matrix (Fin m) (Fin n) ℝ) (i : Fin m) :
    (sum n fun k => square (cell A i k)) = A i ⬝ᵥ A i := by
  simp [sum_real, dotProduct, pow_two]

theorem sum_square_col (A : Matrix (Fin m) (Fin n) ℝ) (k : Fin n) :
    (sum m fun i => square (cell A i k)) = A.col k ⬝ᵥ A.col k := by
  simp [sum_real, dotProduct, pow_two]

theorem dotProduct_self_nonneg (v : Fin n → ℝ) : 0 ≤ v ⬝ᵥ v :=
  Finset.sum_nonneg fun i _ => mul_self_nonneg (v i)

theorem dotProduct_self_pos {v : Fin n → ℝ} (h : v ≠ 0) : 0 < v ⬝ᵥ v :=
  lt_of_le_of_ne (dotProduct_self_nonneg v) (Ne.symm (mt dotProduct_self_eq_zero.1 h))

/-- The inequality of Cauchy and Schwarz. -/
theorem dotProduct_sq_le (u v : Fin n → ℝ) : (u ⬝ᵥ v) ^ 2 ≤ (u ⬝ᵥ u) * (v ⬝ᵥ v) := by
  simpa only [dotProduct, pow_two] using Finset.sum_mul_sq_le_sq_mul_sq Finset.univ u v

theorem abs_dotProduct_le (u v : Fin n → ℝ) : |u ⬝ᵥ v| ≤ √(u ⬝ᵥ u) * √(v ⬝ᵥ v) := by
  rw [← Real.sqrt_mul (dotProduct_self_nonneg u)]
  exact Real.abs_le_sqrt (dotProduct_sq_le u v)

namespace Tensor

noncomputable def ofVector (v : Fin n → ℝ) : Tensor ℝ := .vector n (continued v)

noncomputable def ofMatrix (A : Matrix (Fin m) (Fin n) ℝ) : Tensor ℝ :=
  .matrix m n (cell A)

@[simp] theorem asMatrix_ofMatrix (A : Matrix (Fin m) (Fin n) ℝ) :
    (ofMatrix A).asMatrix = ofMatrix A :=
  asMatrix_matrix m n (cell A)

@[simp] theorem get_ofVector (v : Fin n → ℝ) (k : Fin n) : (ofVector v).get [(k : ℕ)] = v k := by
  rw [ofVector, get_vector _ k.isLt, continued_val]

theorem ofVector_injective {u v : Fin n → ℝ} (h : ofVector u = ofVector v) : u = v :=
  funext fun k => by rw [← get_ofVector u k, h, get_ofVector]

theorem vector_eq_ofVector (f : ℕ → ℝ) : vector n f = ofVector fun k : Fin n => f k := by
  refine vector_congr fun k hk => ?_
  rw [continued_of_lt _ hk]

theorem isFinite_real (t : Tensor ℝ) : t.isFinite = true := by
  simp [isFinite, all]

section Algebra

variable (A : Matrix (Fin m) (Fin n) ℝ) (u v : Fin n → ℝ) (c : ℝ)

@[simp] theorem flatten_ofVector : (ofVector v).flatten = ofVector v :=
  flatten_vector n (continued v)

@[simp] theorem size_ofVector : (ofVector v).size = n := size_vector n (continued v)

@[simp] theorem matmul_ofVector : (ofVector u).matmul (ofVector v) = .ok (scalar (u ⬝ᵥ v)) := by
  rw [ofVector, ofVector, matmul_vector_vector, sum_real]
  simp [dotProduct]

@[simp] theorem dot_ofVector : (ofVector u).dot (ofVector v) = .ok (u ⬝ᵥ v) := by
  rw [ofVector, ofVector, dot_vector, sum_real]
  simp [dotProduct]

@[simp] theorem matmul_ofMatrix : (ofMatrix A).matmul (ofVector v) = .ok (ofVector (A *ᵥ v)) := by
  rw [ofMatrix, ofVector, matmul_matrix_vector, vector_eq_ofVector]
  congr 2
  funext i
  simp [sum_real, mulVec, dotProduct]

@[simp] theorem product_ofMatrix : (ofMatrix A).product (ofVector v) = .ok (ofVector (A *ᵥ v)) := by
  rw [ofMatrix, ofVector, product_matrix_vector, vector_eq_ofVector]
  congr 2
  funext i
  simp [sum_real, mulVec, dotProduct]

@[simp] theorem column_ofMatrix (k : Fin n) :
    (ofMatrix A).column k = .ok (ofVector (A.col k)) := by
  rw [ofMatrix, column_matrix _ k.isLt, vector_eq_ofVector]
  congr 2
  funext i
  exact cell_val A i k

@[simp] theorem scale_ofVector : (ofVector v).scale c = ofVector (c • v) := by
  rw [ofVector, scale_vector, vector_eq_ofVector]
  congr 1
  funext k
  simp

@[simp] theorem neg_ofVector : (ofVector v).neg = ofVector (-v) := by
  rw [ofVector, neg_vector, vector_eq_ofVector]
  congr 1
  funext k
  simp

@[simp] theorem add_ofVector : (ofVector u).add (ofVector v) = .ok (ofVector (u + v)) := by
  rw [ofVector, ofVector, add_vector, vector_eq_ofVector]
  congr 2
  funext k
  simp

@[simp] theorem sub_ofVector : (ofVector u).sub (ofVector v) = .ok (ofVector (u - v)) := by
  rw [ofVector, ofVector, sub_vector, vector_eq_ofVector]
  congr 2
  funext k
  simp

end Algebra

end Tensor

namespace Simplex

/-- The entries of the edges and, after them, of the base vertex. -/
noncomputable def vertexEntry (E : Matrix (Fin n) (Fin n) ℝ) (b : Fin n → ℝ) (i k : ℕ) : ℝ :=
  if k = n then continued b i else cell E i k

noncomputable def ofEdges (E : Matrix (Fin n) (Fin n) ℝ) (b : Fin n → ℝ) : Tensor ℝ :=
  .matrix n (n + 1) (vertexEntry E b)

@[simp] theorem asMatrix_ofEdges (E : Matrix (Fin n) (Fin n) ℝ) (b : Fin n → ℝ) :
    (ofEdges E b).asMatrix = ofEdges E b :=
  Tensor.asMatrix_matrix n (n + 1) (vertexEntry E b)

@[simp] theorem axisLength_ofEdges (E : Matrix (Fin n) (Fin n) ℝ) (b : Fin n → ℝ) :
    (ofEdges E b).axisLength 0 = .ok n :=
  Tensor.axisLength_matrix_zero n (n + 1) (vertexEntry E b)

@[simp] theorem vertexEntry_val (E : Matrix (Fin n) (Fin n) ℝ) (b : Fin n → ℝ) (i k : Fin n) :
    vertexEntry E b i k = E i k := by
  simp [vertexEntry, k.isLt.ne]

/-- The height over the opposite face, from the inverse of the edges. -/
noncomputable def faceHeight (S : Matrix (Fin n) (Fin n) ℝ) (k : Fin n) : ℝ := 1 / √(S k ⬝ᵥ S k)

noncomputable def edgeLength (E : Matrix (Fin n) (Fin n) ℝ) (k : Fin n) : ℝ :=
  √(E.col k ⬝ᵥ E.col k)

theorem distances_ofEdges (E S : Matrix (Fin n) (Fin n) ℝ) (b : Fin n → ℝ) :
    distances (ofEdges E b) (.ofMatrix S) =
      .ok ⟨.ofVector (faceHeight S), .ofVector (edgeLength E)⟩ := by
  have hdistances : distances (ofEdges E b) (.ofMatrix S) = _ :=
    distances_matrix n (vertexEntry E b) (cell S)
  rw [hdistances, Tensor.vector_eq_ofVector, Tensor.vector_eq_ofVector]
  congr 3
  · funext k
    rw [faceHeight, sum_square_row]
    rfl
  · funext k
    simp [edgeLength, sum_real, dotProduct, pow_two]

end Simplex

end InterpolationGeometry
