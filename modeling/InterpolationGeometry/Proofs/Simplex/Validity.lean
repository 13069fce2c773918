import InterpolationGeometry.Proofs.Simplex.Exchange
import InterpolationGeometry.Proofs.Tensor.InverseTest
import InterpolationGeometry.Simplex.Assessment

/-!
# Exact simplices are valid

In exact arithmetic independent edges and their inverse satisfy every condition that the routines
state about a simplex, whatever the tolerance of the inverse.  So the assessment of such a simplex
compares its heights and lengths with the thresholds, checked or not.
-/

namespace InterpolationGeometry

open Scalar Matrix

namespace Simplex

variable {n : ℕ} {E : Matrix (Fin n) (Fin n) ℝ}

theorem hasNoZeroEdge_matrix_iff {α : Type} [Scalar α] {x : ℕ → ℕ → α} :
    hasNoZeroEdge n (.matrix n (n + 1) x) = true ↔
      ∀ k, k < n → ∃ i, i < n ∧ 0 < Scalar.abs (x i k) := by
  simp only [hasNoZeroEdge, List.all_eq_true, List.any_eq_true, List.mem_range, decide_eq_true_eq]
  refine forall₂_congr fun k hk => exists_congr fun i => and_congr_right fun hi => ?_
  rw [Tensor.get_matrix _ hi (by omega)]

theorem exists_vertexEntry_ne_zero {k : ℕ} (hk : k < n) (h : E.col ⟨k, hk⟩ ≠ 0) (b : Fin n → ℝ) :
    ∃ i, i < n ∧ vertexEntry E b i k ≠ 0 := by
  obtain ⟨i, hi⟩ := Function.ne_iff.1 h
  refine ⟨i, i.isLt, ?_⟩
  have hentry : vertexEntry E b i k = E i ⟨k, hk⟩ := vertexEntry_val E b i ⟨k, hk⟩
  rwa [hentry]

theorem hasNoZeroEdge_ofEdges (hE : IsUnit E) (b : Fin n → ℝ) :
    hasNoZeroEdge n (ofEdges E b) = true := by
  rw [ofEdges, hasNoZeroEdge_matrix_iff]
  intro k hk
  obtain ⟨i, hi, hne⟩ := exists_vertexEntry_ne_zero hk (col_ne_zero hE ⟨k, hk⟩) b
  exact ⟨i, hi, abs_pos.2 hne⟩

/-- Independent edges and their inverse satisfy every condition on a simplex. -/
theorem holds_of_mem_shapeChecks {settings : Settings ℝ} (hn : 1 ≤ n)
    (htolerance : 0 ≤ settings.inverseTolerance) (hE : IsUnit E) (b : Fin n → ℝ) {check : Check}
    (h : check ∈ shapeChecks settings n (ofEdges E b) (.ofMatrix E⁻¹)) :
    check.holds = .ok true := by
  have hdet := (isUnit_iff_isUnit_det E).1 hE
  have hedges : (ofEdges E b).leadingColumns n = .ok (.ofMatrix E) := by
    rw [ofEdges, Tensor.leadingColumns_matrix, Nat.min_eq_left (Nat.le_succ n)]
    congr 1
    refine Tensor.matrix_congr fun i k hi hk => ?_
    simp [vertexEntry, hk.ne]
  have hinverse := Tensor.isInverse_of_mul_eq_one hn htolerance (mul_nonsing_inv E hdet)
    (nonsing_inv_mul E hdet)
  simp only [shapeChecks, Check.that, List.mem_cons, List.not_mem_nil, or_false] at h
  rcases h with rfl | rfl | rfl | rfl | rfl | rfl | rfl
  · simp [hn]
  · exact congrArg Except.ok (decide_eq_true rfl)
  · exact congrArg Except.ok (Tensor.isFinite_real _)
  · exact congrArg Except.ok (hasNoZeroEdge_ofEdges hE b)
  · exact congrArg Except.ok (decide_eq_true rfl)
  · exact congrArg Except.ok (Tensor.isFinite_real _)
  · simp only [hedges, hinverse, bind, Except.bind]

theorem holds_of_mem_assessmentChecks {settings : Settings ℝ}
    {radius minHeightFactor maxLengthFactor : ℝ} (hn : 1 ≤ n)
    (htolerance : 0 ≤ settings.inverseTolerance) (hE : IsUnit E) (b : Fin n → ℝ)
    (hradius : 0 < radius) (hpos : 0 < minHeightFactor) (hlt : minHeightFactor < 1)
    (hmax : 1 < maxLengthFactor) {check : Check}
    (h : check ∈ shapeChecks settings n (ofEdges E b) (.ofMatrix E⁻¹) ++
      [radiusCheck radius, minHeightCheck minHeightFactor, maxLengthCheck maxLengthFactor]) :
    check.holds = .ok true := by
  rcases List.mem_append.1 h with hshape | hrest
  · exact holds_of_mem_shapeChecks hn htolerance hE b hshape
  · simp only [radiusCheck, minHeightCheck, maxLengthCheck, Check.that, List.mem_cons,
      List.not_mem_nil, or_false] at hrest
    rcases hrest with rfl | rfl | rfl
    · exact congrArg Except.ok (decide_eq_true hradius)
    · simp only [hpos, hlt, decide_true, Bool.and_true]
    · exact congrArg Except.ok (decide_eq_true hmax)

open Classical in
/-- Such a simplex is acceptable exactly when its heights and lengths are within the thresholds. -/
theorem isAcceptable_ofEdges (settings : Settings ℝ)
    (radius minHeightFactor maxLengthFactor : ℝ) (hn : 1 ≤ n) (hE : IsUnit E) (b : Fin n → ℝ)
    (hchecked : settings.checked = true → 0 ≤ settings.inverseTolerance ∧ 0 < radius ∧
      0 < minHeightFactor ∧ minHeightFactor < 1 ∧ 1 < maxLengthFactor) :
    isAcceptable settings radius minHeightFactor maxLengthFactor (ofEdges E b) (.ofMatrix E⁻¹) =
      pure (decide (∀ k, minHeightFactor * radius ≤ faceHeight E⁻¹ k ∧
        edgeLength E k ≤ maxLengthFactor * radius)) := by
  have hacceptable : Distances.areAcceptable
      ⟨.ofVector (faceHeight E⁻¹), .ofVector (edgeLength E)⟩ (minHeightFactor * radius)
      (maxLengthFactor * radius) = decide (∀ k, minHeightFactor * radius ≤ faceHeight E⁻¹ k ∧
        edgeLength E k ≤ maxLengthFactor * radius) := by
    rw [Bool.eq_iff_iff, Tensor.ofVector, Tensor.ofVector, Distances.areAcceptable_vector_iff,
      decide_eq_true_eq]
    constructor
    · intro h k
      have hk := h k k.isLt
      rwa [continued_val, continued_val] at hk
    · intro h k hk
      rw [continued_of_lt _ hk, continued_of_lt _ hk]
      exact h ⟨k, hk⟩
  simp only [isAcceptable, asMatrix_ofEdges, Tensor.asMatrix_ofMatrix, axisLength_ofEdges,
    Outcome.liftM_ok_bind]
  apply guarded_eq_pure
  · rw [distances_ofEdges, Outcome.liftM_ok_bind, hacceptable]
  · intro h
    obtain ⟨htolerance, hradius, hpos, hlt, hmax⟩ := hchecked h
    exact verify_eq_ok_iff.2 fun check hmem =>
      holds_of_mem_assessmentChecks hn htolerance hE b hradius hpos hlt hmax hmem
  · intro _
    rfl

end Simplex

end InterpolationGeometry
