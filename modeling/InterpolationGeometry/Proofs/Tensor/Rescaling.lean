import InterpolationGeometry.Proofs.Arithmetic.Rescaling
import InterpolationGeometry.Proofs.Tensor.Finite

/-!
# Arrays in other units

Vectors and square matrices whose entries have one unit each, read in two units.  Products have the
product of the units, sums need a common one, and the place of the largest entry does not depend on
the unit.
-/

namespace InterpolationGeometry

open Scalar Extended

namespace Tensor

/-- Two vectors of length `n`, the second the first in units in which numbers are multiplied by
`q`. -/
def RescaledVector (q : ℝ) (n : ℕ) (t t' : Tensor Extended) : Prop :=
  ∃ f f' : ℕ → Extended, t = .vector n f ∧ t' = .vector n f' ∧ ∀ k, Rescaled q (f k) (f' k)

def RescaledMatrix (q : ℝ) (n : ℕ) (t t' : Tensor Extended) : Prop :=
  ∃ f f' : ℕ → ℕ → Extended,
    t = .matrix n n f ∧ t' = .matrix n n f' ∧ ∀ i k, Rescaled q (f i k) (f' i k)

variable {n : ℕ} {q r : ℝ} {t t' u u' A A' : Tensor Extended} {c c' : Extended}

theorem rescaledVector_vector {f f' : ℕ → Extended} (h : ∀ k, Rescaled q (f k) (f' k)) :
    RescaledVector q n (.vector n f) (.vector n f') :=
  ⟨f, f', rfl, rfl, h⟩

theorem RescaledVector.pos (h : RescaledVector q n t t') : 0 < q := by
  obtain ⟨f, f', -, -, hf⟩ := h
  exact (hf 0).pos

theorem RescaledMatrix.pos (h : RescaledMatrix q n A A') : 0 < q := by
  obtain ⟨f, f', -, -, hf⟩ := h
  exact (hf 0 0).pos

theorem RescaledVector.cast (h : RescaledVector q n t t') (hqr : q = r) :
    RescaledVector r n t t' := by
  rwa [← hqr]

/-! ## Real entries -/

section Reals

open Matrix

theorem rescaledVector_finiteVector (hq : 0 < q) (v : Fin n → ℝ) :
    RescaledVector q n (finiteVector v) (finiteVector (q • v)) := by
  refine rescaledVector_vector fun k => ?_
  have hentry : continued (q • v) k = q * continued v k := by
    by_cases hk : k < n
    · rw [continued_of_lt _ hk, continued_of_lt _ hk, Pi.smul_apply, smul_eq_mul]
    · simp [continued, hk]
  rw [hentry]
  exact .finite hq _

theorem rescaledMatrix_finiteMatrix (hq : 0 < q) (B : Matrix (Fin n) (Fin n) ℝ) :
    RescaledMatrix q n (finiteMatrix B) (finiteMatrix (q • B)) := by
  refine ⟨_, _, rfl, rfl, fun i k => ?_⟩
  have hentry : cell (q • B) i k = q * cell B i k := by
    by_cases h : i < n ∧ k < n
    · rw [cell_of_lt _ h.1 h.2, cell_of_lt _ h.1 h.2, Matrix.smul_apply, smul_eq_mul]
    · simp [cell, h]
  rw [hentry]
  exact .finite hq _

theorem RescaledVector.eq_finiteVector {v : Fin n → ℝ}
    (h : RescaledVector q n (finiteVector v) t) : t = finiteVector (q • v) := by
  obtain ⟨f, f', hf, rfl, hrescaled⟩ := h
  refine vector_congr fun k hk => ?_
  have hentry : f k = .finite (v ⟨k, hk⟩) := by
    have hget := congrArg (fun t => t.get [k]) hf
    simp only [finiteVector, get_vector _ hk, continued_of_lt _ hk] at hget
    exact hget.symm
  have hk' := hrescaled k
  rw [hentry] at hk'
  rw [hk'.eq_finite, continued_of_lt _ hk]
  rfl

end Reals

/-! ## Operations -/

theorem RescaledVector.scale (hc : Rescaled q c c') (ht : RescaledVector r n t t') :
    RescaledVector (q * r) n (t.scale c) (t'.scale c') := by
  obtain ⟨f, f', rfl, rfl, hf⟩ := ht
  rw [scale_vector, scale_vector]
  exact rescaledVector_vector fun k => hc.mul (hf k)

theorem RescaledVector.neg (ht : RescaledVector q n t t') :
    RescaledVector q n t.neg t'.neg := by
  obtain ⟨f, f', rfl, rfl, hf⟩ := ht
  rw [neg_vector, neg_vector]
  exact rescaledVector_vector fun k => (hf k).neg

theorem RescaledVector.add (ht : RescaledVector q n t t') (hu : RescaledVector q n u u') :
    Alike (RescaledVector q n) (t.add u) (t'.add u') := by
  obtain ⟨f, f', rfl, rfl, hf⟩ := ht
  obtain ⟨g, g', rfl, rfl, hg⟩ := hu
  rw [add_vector, add_vector]
  exact .ok (rescaledVector_vector fun k => (hf k).add (hg k))

theorem RescaledVector.sub (ht : RescaledVector q n t t') (hu : RescaledVector q n u u') :
    Alike (RescaledVector q n) (t.sub u) (t'.sub u') := by
  obtain ⟨f, f', rfl, rfl, hf⟩ := ht
  obtain ⟨g, g', rfl, rfl, hg⟩ := hu
  rw [sub_vector, sub_vector]
  exact .ok (rescaledVector_vector fun k => (hf k).sub (hg k))

theorem RescaledVector.dot (ht : RescaledVector q n t t') (hu : RescaledVector r n u u') :
    Alike (Rescaled (q * r)) (t.dot u) (t'.dot u') := by
  have hqr := mul_pos ht.pos hu.pos
  obtain ⟨f, f', rfl, rfl, hf⟩ := ht
  obtain ⟨g, g', rfl, rfl, hg⟩ := hu
  rw [dot_vector, dot_vector]
  exact .ok (.sum hqr fun k => (hf k).mul (hg k))

theorem RescaledMatrix.matmul (hA : RescaledMatrix q n A A') (ht : RescaledVector r n t t') :
    Alike (RescaledVector (q * r) n) (A.matmul t) (A'.matmul t') := by
  have hqr := mul_pos hA.pos ht.pos
  obtain ⟨F, F', rfl, rfl, hF⟩ := hA
  obtain ⟨f, f', rfl, rfl, hf⟩ := ht
  rw [matmul_matrix_vector, matmul_matrix_vector]
  exact .ok (rescaledVector_vector fun i => .sum hqr fun k => (hF i k).mul (hf k))

theorem RescaledMatrix.column (hA : RescaledMatrix q n A A') (k : ℕ) :
    Alike (RescaledVector q n) (A.column k) (A'.column k) := by
  obtain ⟨F, F', rfl, rfl, hF⟩ := hA
  by_cases hk : k < n
  · rw [column_matrix _ hk, column_matrix _ hk]
    exact .ok (rescaledVector_vector fun i => hF i k)
  · simp only [Tensor.column, shape_matrix, hk, if_false]
    exact .error _

theorem RescaledMatrix.sumSquares (hA : RescaledMatrix q n A A') :
    Alike (RescaledVector (q * q) n) (A.squares.sumAxis 0) (A'.squares.sumAxis 0) := by
  have hqq := mul_pos hA.pos hA.pos
  obtain ⟨F, F', rfl, rfl, hF⟩ := hA
  rw [squares, squares, map_matrix, map_matrix, sumAxis_zero_matrix, sumAxis_zero_matrix]
  exact .ok (rescaledVector_vector fun k => .sum hqq fun i => (hF i k).square)

/-! ## Entries -/

theorem RescaledVector.isFinite_eq (ht : RescaledVector q n t t') : t'.isFinite = t.isFinite := by
  obtain ⟨f, f', rfl, rfl, hf⟩ := ht
  rw [Bool.eq_iff_iff, Tensor.isFinite, Tensor.isFinite, all_vector_iff, all_vector_iff]
  simp only [(hf _).isFinite_eq]

theorem RescaledMatrix.isFinite_eq (hA : RescaledMatrix q n A A') : A'.isFinite = A.isFinite := by
  obtain ⟨F, F', rfl, rfl, hF⟩ := hA
  rw [Bool.eq_iff_iff, Tensor.isFinite, Tensor.isFinite, all_matrix_iff, all_matrix_iff]
  simp only [(hF _ _).isFinite_eq]

theorem RescaledVector.argmax?_eq (ht : RescaledVector q n t t') :
    Selection.argmax? t' none = Selection.argmax? t none := by
  obtain ⟨f, f', rfl, rfl, hf⟩ := ht
  simp only [Selection.argmax?_vector, (hf _).isNaN_eq]
  congr 1
  exact Selection.best?_congr_beats fun i _ k _ => decide_eq_decide.2 ((hf k).lt_iff (hf i))

end Tensor

end InterpolationGeometry
