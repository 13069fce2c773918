import InterpolationGeometry.Proofs.Arithmetic.Embedding
import InterpolationGeometry.Proofs.Tensor.Euclidean

/-!
# Finite arrays of extended values

Vectors and matrices of reals as arrays of extended values.  Products, sums and multiples of such
arrays are again such arrays, of the products, sums and multiples of the reals; a multiple by a
value that is no number has no number among its entries.
-/

namespace InterpolationGeometry

open Scalar Matrix Extended

variable {m n : ℕ}

namespace Tensor

/-- The array of a vector of reals, entries read as extended values. -/
noncomputable def finiteVector (v : Fin n → ℝ) : Tensor Extended :=
  .vector n fun k => .finite (continued v k)

noncomputable def finiteMatrix (A : Matrix (Fin m) (Fin n) ℝ) : Tensor Extended :=
  .matrix m n fun i k => .finite (cell A i k)

noncomputable def nanVector (n : ℕ) : Tensor Extended := .vector n fun _ => .nan

theorem vector_eq_finiteVector (f : ℕ → ℝ) :
    (vector n fun k => Extended.finite (f k)) = finiteVector fun k : Fin n => f k := by
  refine vector_congr fun k hk => ?_
  rw [continued_of_lt _ hk]

theorem exists_finiteVector {f : ℕ → Extended} (h : ∀ k, k < n → Scalar.isFinite (f k) = true) :
    ∃ v : Fin n → ℝ, vector n f = finiteVector v ∧ ∀ k : Fin n, f k = .finite (v k) := by
  choose v hv using fun k : Fin n => eq_finite_of_isFinite (h k k.isLt)
  refine ⟨v, vector_congr fun k hk => ?_, hv⟩
  rw [continued_of_lt v hk]
  exact hv ⟨k, hk⟩

theorem exists_finiteMatrix {f : ℕ → ℕ → Extended}
    (h : ∀ i k, i < m → k < n → Scalar.isFinite (f i k) = true) :
    ∃ A : Matrix (Fin m) (Fin n) ℝ, matrix m n f = finiteMatrix A := by
  choose A hA using fun (i : Fin m) (k : Fin n) => eq_finite_of_isFinite (h i k i.isLt k.isLt)
  refine ⟨A, matrix_congr fun i k hi hk => ?_⟩
  rw [cell_of_lt A hi hk]
  exact hA ⟨i, hi⟩ ⟨k, hk⟩

@[simp] theorem isFinite_finiteVector (v : Fin n → ℝ) : (finiteVector v).isFinite = true := by
  simp [isFinite, finiteVector, all_vector_iff]

@[simp] theorem isFinite_finiteMatrix (A : Matrix (Fin m) (Fin n) ℝ) :
    (finiteMatrix A).isFinite = true := by
  simp [isFinite, finiteMatrix, all_matrix_iff]

@[simp] theorem asMatrix_finiteMatrix (A : Matrix (Fin m) (Fin n) ℝ) :
    (finiteMatrix A).asMatrix = finiteMatrix A :=
  asMatrix_matrix m n _

theorem finiteMatrix_injective :
    Function.Injective (finiteMatrix : Matrix (Fin m) (Fin n) ℝ → Tensor Extended) := by
  intro A B h
  ext i k
  have hentry := congrArg (fun t => t.get [(i : ℕ), (k : ℕ)]) h
  simpa [finiteMatrix] using hentry

section Algebra

variable (A : Matrix (Fin m) (Fin n) ℝ) (u v : Fin n → ℝ) (c : ℝ)

@[simp] theorem matmul_finiteVector :
    (finiteVector u).matmul (finiteVector v) = .ok (scalar (.finite (u ⬝ᵥ v))) := by
  rw [finiteVector, finiteVector, matmul_vector_vector]
  simp only [finite_mul, sum_finite, sum_real, continued_val]
  rfl

@[simp] theorem dot_finiteVector :
    (finiteVector u).dot (finiteVector v) = .ok (.finite (u ⬝ᵥ v)) := by
  simp [dot, bind, Except.bind]

@[simp] theorem matmul_finiteMatrix :
    (finiteMatrix A).matmul (finiteVector v) = .ok (finiteVector (A *ᵥ v)) := by
  rw [finiteMatrix, finiteVector, matmul_matrix_vector]
  simp only [finite_mul, sum_finite]
  rw [vector_eq_finiteVector]
  congr 2
  funext i
  simp [sum_real, mulVec, dotProduct]

@[simp] theorem product_finiteMatrix :
    (finiteMatrix A).product (finiteVector v) = .ok (finiteVector (A *ᵥ v)) := by
  rw [← matmul_finiteMatrix A v, finiteMatrix, finiteVector, product_matrix_vector,
    matmul_matrix_vector]

@[simp] theorem column_finiteMatrix (k : Fin n) :
    (finiteMatrix A).column k = .ok (finiteVector (A.col k)) := by
  rw [finiteMatrix, column_matrix _ k.isLt, vector_eq_finiteVector]
  congr 2
  funext i
  exact cell_val A i k

@[simp] theorem scale_finiteVector :
    (finiteVector v).scale (.finite c) = finiteVector (c • v) := by
  rw [finiteVector, scale_vector]
  simp only [finite_mul]
  rw [vector_eq_finiteVector]
  congr 1
  funext k
  simp

@[simp] theorem neg_finiteVector : (finiteVector v).neg = finiteVector (-v) := by
  rw [finiteVector, neg_vector]
  simp only [neg_finite]
  rw [vector_eq_finiteVector]
  congr 1
  funext k
  simp

@[simp] theorem add_finiteVector :
    (finiteVector u).add (finiteVector v) = .ok (finiteVector (u + v)) := by
  rw [finiteVector, finiteVector, add_vector]
  simp only [finite_add]
  rw [vector_eq_finiteVector]
  congr 2
  funext k
  simp

@[simp] theorem sub_finiteVector :
    (finiteVector u).sub (finiteVector v) = .ok (finiteVector (u - v)) := by
  rw [finiteVector, finiteVector, sub_vector]
  simp only [sub_finite]
  rw [vector_eq_finiteVector]
  congr 2
  funext k
  simp

theorem norm_finiteVector : (finiteVector v).norm = .finite √(v ⬝ᵥ v) := by
  rw [finiteVector, norm_vector]
  simp only [square_finite, sum_finite]
  rw [← sqrt_finite (dotProduct_self_nonneg v), ← sum_square_continued]
  simp only [square_real]

end Algebra

/-! ## No numbers -/

section NaN

variable (v : Fin n → ℝ)

@[simp] theorem scale_finiteVector_nan : (finiteVector v).scale .nan = nanVector n := by
  rw [finiteVector, scale_vector]
  simp only [nan_mul]
  rfl

@[simp] theorem scale_nanVector (c : Extended) : (nanVector n).scale c = nanVector n := by
  rw [nanVector, scale_vector]
  simp only [mul_nan]

@[simp] theorem add_nanVector : (nanVector n).add (nanVector n) = .ok (nanVector n) := by
  rw [nanVector, add_vector]
  simp only [nan_add]

@[simp] theorem sub_nanVector : (nanVector n).sub (nanVector n) = .ok (nanVector n) := by
  rw [nanVector, sub_vector]
  simp only [nan_sub]

@[simp] theorem sub_finiteVector_nanVector :
    (finiteVector v).sub (nanVector n) = .ok (nanVector n) := by
  rw [finiteVector, nanVector, sub_vector]
  simp only [sub_nan]

end NaN

end Tensor

end InterpolationGeometry
