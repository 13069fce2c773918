import InterpolationGeometry.Proofs.Simplex.FaceNormal
import InterpolationGeometry.Simplex.Replacement
import Mathlib.LinearAlgebra.Span.Basic

/-!
# Distances from faces

The face opposite a vertex spans, from the base vertex, the edges of the other vertices.  A point of
it has no coordinate in the edge of the vertex.  In exact arithmetic the least distance of a point
from the face is therefore the absolute value of that coordinate times the height of the vertex, and
the foot of the normal through the point attains it.  The heights are the distances of the vertices
from their faces, the thresholds compare the distances of a new point with them, and the assessment
is a statement about distances from faces and from the base vertex.
-/

namespace InterpolationGeometry

namespace Simplex

open Scalar Matrix

variable {n : ℕ} {E : Matrix (Fin n) (Fin n) ℝ} {j : Fin n} {d p : Fin n → ℝ}

/-- The face opposite a vertex, seen from the base vertex: the span of the other edges. -/
def face (E : Matrix (Fin n) (Fin n) ℝ) (j : Fin n) : Submodule ℝ (Fin n → ℝ) :=
  Submodule.span ℝ (E.col '' {k | k ≠ j})

noncomputable def distancesFrom (points : Set (Fin n → ℝ)) (d : Fin n → ℝ) : Set ℝ :=
  (fun p => √((d - p) ⬝ᵥ (d - p))) '' points

theorem sum_coordinate_smul_col (hE : IsUnit E) (p : Fin n → ℝ) :
    ∑ k, (E⁻¹ *ᵥ p) k • E.col k = p := by
  have hdet := (isUnit_iff_isUnit_det E).1 hE
  calc ∑ k, (E⁻¹ *ᵥ p) k • E.col k = E *ᵥ (E⁻¹ *ᵥ p) := by
        funext i
        simp [mulVec, dotProduct, mul_comm]
    _ = p := by rw [mulVec_mulVec, mul_nonsing_inv E hdet, one_mulVec]

/-- The points of a face are those without a coordinate in the edge of the opposite vertex. -/
theorem mem_face_iff (hE : IsUnit E) : p ∈ face E j ↔ (E⁻¹ *ᵥ p) j = 0 := by
  constructor
  · intro hp
    induction hp using Submodule.span_induction with
    | mem q hq =>
        obtain ⟨k, hk, rfl⟩ := hq
        rw [inv_mulVec_col hE, Pi.single_eq_of_ne (Ne.symm hk)]
    | zero => rw [mulVec_zero, Pi.zero_apply]
    | add q r _ _ hq hr => rw [mulVec_add, Pi.add_apply, hq, hr, add_zero]
    | smul c q _ hq => rw [mulVec_smul, Pi.smul_apply, hq, smul_zero]
  · intro hzero
    rw [← sum_coordinate_smul_col hE p]
    refine Submodule.sum_mem _ fun k _ => ?_
    by_cases hk : k = j
    · rw [hk, hzero, zero_smul]
      exact Submodule.zero_mem _
    · exact Submodule.smul_mem _ _ (Submodule.subset_span ⟨k, hk, rfl⟩)

/-- The distance of a point from its foot on the face. -/
theorem mem_distancesFrom_face (hE : IsUnit E) (d : Fin n → ℝ) (j : Fin n) :
    |(E⁻¹ *ᵥ d) j| * faceHeight E⁻¹ j ∈ distancesFrom (face E j : Set (Fin n → ℝ)) d := by
  let r := (E⁻¹ *ᵥ d) j * faceHeight E⁻¹ j
  have hrow := inv_row_ne_zero hE j
  refine ⟨d - faceNormal E⁻¹ j r, (mem_face_iff hE).2 ?_, ?_⟩
  · calc (E⁻¹ *ᵥ (d - faceNormal E⁻¹ j r)) j
        = (E⁻¹ *ᵥ d) j - r * faceHeight E⁻¹ j * (E⁻¹ j ⬝ᵥ E⁻¹ j) := by
          rw [mulVec_sub, Pi.sub_apply, inv_mulVec_faceNormal]
      _ = (E⁻¹ *ᵥ d) j * (1 - faceHeight E⁻¹ j ^ 2 * (E⁻¹ j ⬝ᵥ E⁻¹ j)) := by
          simp only [r]
          ring
      _ = 0 := by rw [faceHeight_sq_mul hrow, sub_self, mul_zero]
  · show √((d - (d - faceNormal E⁻¹ j r)) ⬝ᵥ (d - (d - faceNormal E⁻¹ j r))) = _
    rw [sub_sub_cancel, faceNormal_dotProduct_self hrow, Real.sqrt_sq_eq_abs, abs_mul,
      abs_of_pos (faceHeight_pos hE j)]

/-- No point of the face is closer: along the row of the vertex in the inverse all of them differ
from the given point by its coordinate. -/
theorem mul_faceHeight_le_distance (hE : IsUnit E) (d : Fin n → ℝ) (hp : p ∈ face E j) :
    |(E⁻¹ *ᵥ d) j| * faceHeight E⁻¹ j ≤ √((d - p) ⬝ᵥ (d - p)) := by
  have hroot : 0 < √(E⁻¹ j ⬝ᵥ E⁻¹ j) := Real.sqrt_pos.2 (inv_row_dotProduct_pos hE j)
  have hcoordinate : (E⁻¹ *ᵥ d) j = E⁻¹ j ⬝ᵥ (d - p) := by
    have hzero : E⁻¹ j ⬝ᵥ p = 0 := (mem_face_iff hE).1 hp
    rw [dotProduct_sub, hzero, sub_zero]
    rfl
  rw [faceHeight, mul_one_div, div_le_iff₀ hroot, hcoordinate, mul_comm]
  exact abs_dotProduct_le (E⁻¹ j) (d - p)

/-- The least distance of a point from a face. -/
theorem isLeast_distancesFrom_face (hE : IsUnit E) (d : Fin n → ℝ) (j : Fin n) :
    IsLeast (distancesFrom (face E j : Set (Fin n → ℝ)) d)
      (|(E⁻¹ *ᵥ d) j| * faceHeight E⁻¹ j) := by
  refine ⟨mem_distancesFrom_face hE d j, ?_⟩
  rintro _ ⟨p, hp, rfl⟩
  exact mul_faceHeight_le_distance hE d hp

theorem forall_le_distance_iff (hE : IsUnit E) (d : Fin n → ℝ) (j : Fin n) {x : ℝ} :
    (∀ p ∈ face E j, x ≤ √((d - p) ⬝ᵥ (d - p))) ↔ x ≤ |(E⁻¹ *ᵥ d) j| * faceHeight E⁻¹ j := by
  rw [le_isGLB_iff (isLeast_distancesFrom_face hE d j).isGLB, mem_lowerBounds]
  exact Set.forall_mem_image.symm

theorem isLeast_faceHeight (hE : IsUnit E) (j : Fin n) :
    IsLeast (distancesFrom (face E j : Set (Fin n → ℝ)) (E.col j)) (faceHeight E⁻¹ j) := by
  have hleast := isLeast_distancesFrom_face hE (E.col j) j
  rwa [inv_mulVec_col hE, Pi.single_eq_same, abs_one, one_mul] at hleast

/-- The base vertex is a point of every face. -/
theorem faceHeight_le_edgeLength (hE : IsUnit E) (j : Fin n) :
    faceHeight E⁻¹ j ≤ edgeLength E j := by
  apply (isLeast_faceHeight hE j).2
  exact ⟨0, Submodule.zero_mem _, by simp only [sub_zero, edgeLength]⟩

theorem newHeights_ofVector (c heights : Fin n → ℝ) :
    ((Tensor.ofVector c).map Scalar.abs).mul (.ofVector heights) =
      .ok (.ofVector fun j => |c j| * heights j) := by
  rw [Tensor.ofVector, Tensor.ofVector, Tensor.map_vector, Tensor.mul_vector,
    Tensor.vector_eq_ofVector]
  congr 2
  funext j
  rw [continued_val, continued_val, abs_real]

/-- The thresholds take a far vertex for replaceable when the new point is far enough from all
points of the opposite face. -/
theorem exists_mask (hE : IsUnit E) (d gaps : Fin n → ℝ) (minHeight farLength : ℝ) :
    ∃ mask : ℕ → Bool,
      replaceableFar minHeight farLength (.ofVector gaps) (.ofVector (faceHeight E⁻¹))
        (.ofVector (E⁻¹ *ᵥ d)) = .ok (.vector n mask) ∧
      ∀ j : Fin n, mask j = true ↔ farLength < gaps j ∧
        ((∀ p ∈ face E j, minHeight ≤ √((d - p) ⬝ᵥ (d - p))) ∨
          ∀ p ∈ face E j, faceHeight E⁻¹ j ≤ √((d - p) ⬝ᵥ (d - p))) := by
  refine ⟨_, replaceableFar_vector minHeight farLength n _ _ _, fun j => ?_⟩
  simp only [continued_val, abs_real, Bool.and_eq_true, Bool.or_eq_true, decide_eq_true_eq,
    forall_le_distance_iff hE]

/-- The distances in a simplex are distances from the faces and from the base vertex.  Each height
is the least distance of the vertex from the opposite face, and is at most the length of the edge.
The heights that the thresholds compute for a new point are its least distances from the faces.
The simplex is acceptable exactly when no point of a face is too close to the opposite vertex and no
vertex is too far from the base vertex, and under a positive radius stays so when the factors are
weakened. -/
theorem distances_from_faces (hn : 1 ≤ n) (hE : IsUnit E) (b : Fin n → ℝ) :
    ∃ heights lengths : Fin n → ℝ,
      distances (ofEdges E b) (.ofMatrix E⁻¹) = .ok ⟨.ofVector heights, .ofVector lengths⟩ ∧
      (∀ j, IsLeast (distancesFrom (face E j : Set (Fin n → ℝ)) (E.col j)) (heights j) ∧
        lengths j = √(E.col j ⬝ᵥ E.col j) ∧ 0 < heights j ∧ heights j ≤ lengths j) ∧
      (∀ d : Fin n → ℝ, ∃ (coordinates : Tensor ℝ) (newHeights : Fin n → ℝ),
        (Tensor.ofMatrix E⁻¹).product (.ofVector d) = .ok coordinates ∧
        (coordinates.map Scalar.abs).mul (.ofVector heights) = .ok (.ofVector newHeights) ∧
        (∀ j, newHeights j = |(E⁻¹ *ᵥ d) j| * heights j ∧
          IsLeast (distancesFrom (face E j : Set (Fin n → ℝ)) d) (newHeights j)) ∧
        ∀ (gaps : Fin n → ℝ) (minHeight farLength : ℝ), ∃ mask : ℕ → Bool,
          replaceableFar minHeight farLength (.ofVector gaps) (.ofVector heights) coordinates =
            .ok (.vector n mask) ∧
          ∀ j : Fin n, mask j = true ↔ farLength < gaps j ∧
            ((∀ p ∈ face E j, minHeight ≤ √((d - p) ⬝ᵥ (d - p))) ∨
              ∀ p ∈ face E j, heights j ≤ √((d - p) ⬝ᵥ (d - p)))) ∧
      ∀ (settings : Settings ℝ) (radius minHeightFactor maxLengthFactor : ℝ),
        (settings.checked = true → 0 ≤ settings.inverseTolerance ∧ 0 < radius ∧
          0 < minHeightFactor ∧ minHeightFactor < 1 ∧ 1 < maxLengthFactor) →
        ∃ accepted,
          isAcceptable settings radius minHeightFactor maxLengthFactor (ofEdges E b)
            (.ofMatrix E⁻¹) = pure accepted ∧
          (accepted = true ↔
            ∀ j, (∀ p ∈ face E j,
                minHeightFactor * radius ≤ √((E.col j - p) ⬝ᵥ (E.col j - p))) ∧
              √(E.col j ⬝ᵥ E.col j) ≤ maxLengthFactor * radius) ∧
          (0 < radius → accepted = true → ∀ lower ≤ minHeightFactor, ∀ upper ≥ maxLengthFactor,
            (settings.checked = true → 0 < lower) →
            isAcceptable settings radius lower upper (ofEdges E b) (.ofMatrix E⁻¹) =
              pure true) := by
  classical
  refine ⟨faceHeight E⁻¹, edgeLength E, distances_ofEdges E E⁻¹ b, fun j => ?_, fun d => ?_, ?_⟩
  · exact ⟨isLeast_faceHeight hE j, rfl, faceHeight_pos hE j, faceHeight_le_edgeLength hE j⟩
  · exact ⟨_, _, Tensor.product_ofMatrix E⁻¹ d, newHeights_ofVector (E⁻¹ *ᵥ d) (faceHeight E⁻¹),
      fun j => ⟨rfl, isLeast_distancesFrom_face hE d j⟩,
      fun gaps minHeight farLength => exists_mask hE d gaps minHeight farLength⟩
  · intro settings radius minHeightFactor maxLengthFactor hchecked
    refine ⟨_, isAcceptable_ofEdges settings radius minHeightFactor maxLengthFactor hn hE b hchecked,
      ?_, ?_⟩
    · rw [decide_eq_true_iff]
      refine forall_congr' fun j => and_congr ?_ Iff.rfl
      rw [forall_le_distance_iff hE, inv_mulVec_col hE, Pi.single_eq_same, abs_one, one_mul]
    · intro hradius haccepted lower hlower upper hupper hpos
      rw [decide_eq_true_iff] at haccepted
      rw [isAcceptable_ofEdges settings radius lower upper hn hE b fun h => ?_]
      · congr 1
        rw [decide_eq_true_iff]
        intro k
        exact ⟨(mul_le_mul_of_nonneg_right hlower hradius.le).trans (haccepted k).1,
          (haccepted k).2.trans (mul_le_mul_of_nonneg_right hupper hradius.le)⟩
      · obtain ⟨htolerance, -, -, hlt, hmax⟩ := hchecked h
        exact ⟨htolerance, hradius, hpos h, hlower.trans_lt hlt, hmax.trans_le hupper⟩

def slantedEdges : Matrix (Fin 2) (Fin 2) ℝ := !![1, 1; 0, 1]

theorem isUnit_slantedEdges : IsUnit slantedEdges := by
  rw [isUnit_iff_isUnit_det, slantedEdges, det_fin_two_of]
  norm_num

theorem inv_slantedEdges : slantedEdges⁻¹ = !![1, -1; 0, 1] := by
  apply inv_eq_right_inv
  ext i k
  fin_cases i <;> fin_cases k <;> norm_num [slantedEdges, mul_apply, Fin.sum_univ_two]

theorem faceHeight_slantedEdges : faceHeight slantedEdges⁻¹ = ![1 / √2, 1] := by
  funext k
  fin_cases k <;> norm_num [faceHeight, inv_slantedEdges, dotProduct, Fin.sum_univ_two]

theorem edgeLength_slantedEdges : edgeLength slantedEdges = ![1, √2] := by
  funext k
  fin_cases k <;> norm_num [edgeLength, slantedEdges, dotProduct, Fin.sum_univ_two]

/-- The first vertex has the distance 1 / √2 from the line along the second edge.  At the radius one
the simplex is acceptable under the factors 0.25 and 2.1, hence also under 0.2 and three. -/
theorem distances_from_slanted_faces :
    1 ≤ 2 ∧ IsUnit slantedEdges ∧
      IsLeast (distancesFrom (face slantedEdges 0 : Set (Fin 2 → ℝ)) (slantedEdges.col 0))
        (1 / √2) ∧
      isAcceptable (Settings.standard : Settings ℝ) 1 0.25 2.1 (ofEdges slantedEdges 0)
        (.ofMatrix slantedEdges⁻¹) = pure true ∧
      isAcceptable (Settings.standard : Settings ℝ) 1 0.2 3 (ofEdges slantedEdges 0)
        (.ofMatrix slantedEdges⁻¹) = pure true := by
  obtain ⟨heights, lengths, hdistances, hleast, -, hassess⟩ :=
    distances_from_faces one_le_two isUnit_slantedEdges 0
  rw [distances_ofEdges, Except.ok.injEq, Distances.mk.injEq] at hdistances
  have hheights : heights = ![1 / √2, 1] := by
    rw [← Tensor.ofVector_injective hdistances.1, faceHeight_slantedEdges]
  have hlengths : lengths = ![1, √2] := by
    rw [← Tensor.ofVector_injective hdistances.2, edgeLength_slantedEdges]
  rw [hheights, hlengths] at hleast
  have hroot : √(2 : ℝ) ≤ 2 := Real.sqrt_le_iff.2 ⟨by norm_num, by norm_num⟩
  have hlow : ∀ k, 0.25 * 1 ≤ (![1 / √2, 1] : Fin 2 → ℝ) k := by
    rw [Fin.forall_fin_two]
    have hpos : 0 < √(2 : ℝ) := Real.sqrt_pos.2 two_pos
    constructor
    · show 0.25 * 1 ≤ 1 / √2
      rw [le_div_iff₀ hpos]
      linarith
    · norm_num
  have hlong : ∀ k, (![1, √2] : Fin 2 → ℝ) k ≤ 2.1 * 1 := by
    rw [Fin.forall_fin_two]
    constructor
    · norm_num
    · show √2 ≤ 2.1 * 1
      linarith
  obtain ⟨accepted, haccepted, hiff, hweaker⟩ := hassess Settings.standard 1 0.25 2.1
    (by simp [Settings.standard])
  have htrue : accepted = true := by
    refine hiff.2 fun k => ⟨fun p hp => ?_, ?_⟩
    · exact (hlow k).trans ((hleast k).1.2 (Set.mem_image_of_mem _ hp))
    · rw [← (hleast k).2.1]
      exact hlong k
  refine ⟨one_le_two, isUnit_slantedEdges, (hleast 0).1, ?_, ?_⟩
  · rw [haccepted, htrue]
  · exact hweaker one_pos htrue 0.2 (by norm_num) 3 (by norm_num) (by norm_num)

end Simplex

end InterpolationGeometry
