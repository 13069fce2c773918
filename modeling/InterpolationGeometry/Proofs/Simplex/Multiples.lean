import InterpolationGeometry.Proofs.Arithmetic.Exact
import InterpolationGeometry.Proofs.Simplex.Choices
import InterpolationGeometry.Simplex.Assessment

/-!
# Choices among multiples

A choice compares lengths with lengths, heights with heights and squared distances with squared
distances, and never a quantity of one degree with one of another.  So in exact arithmetic every
choice is the same, ties included, when the lengths, the heights and their thresholds are multiplied
by one positive factor and the squared distances by another.
-/

namespace InterpolationGeometry

namespace Simplex

open Scalar

/-- The entries of the second sequence are those of the first times a factor. -/
def IsMultiple (q : ℝ) (n : ℕ) (f f' : ℕ → ℝ) : Prop := ∀ k, k < n → f' k = q * f k

variable {q : ℝ} {n : ℕ} {f f' : ℕ → ℝ}

section Selection

variable (hq : 0 < q) (h : IsMultiple q n f f')

include hq h

/-- The first greatest entry stays where it is. -/
theorem IsMultiple.greatest {mask mask' : ℕ → Bool} (hmask : ∀ k, k < n → mask' k = mask k) :
    Selection.greatest n f' mask' = Selection.greatest n f mask := by
  have hoffered : Selection.offered n f' mask' = Selection.offered n f mask := by
    refine List.filter_congr fun k hk => ?_
    rw [isNaN_real, isNaN_real, hmask k (List.mem_range.1 hk)]
  rw [Selection.greatest, Selection.greatest, hoffered]
  refine Selection.best?_congr_beats fun i hi k hk => ?_
  rw [h i (Selection.mem_offered_iff.1 hi).1, h k (Selection.mem_offered_iff.1 hk).1]
  exact decide_eq_decide.2 (mul_lt_mul_iff_right₀ hq)

theorem IsMultiple.argmax? :
    Selection.argmax? (.vector n f') none = Selection.argmax? (.vector n f) none := by
  rw [Selection.argmax?_eq_greatest, Selection.argmax?_eq_greatest, h.greatest hq fun _ _ => rfl]

theorem IsMultiple.argmin? :
    Selection.argmin? (.vector n f') none = Selection.argmin? (.vector n f) none := by
  simp only [Selection.argmin?_vector, isNaN_real]
  congr 1
  refine Selection.best?_congr_beats fun i hi k hk => ?_
  rw [h i (List.mem_range.1 (List.mem_filter.1 hi).1),
    h k (List.mem_range.1 (List.mem_filter.1 hk).1)]
  exact decide_eq_decide.2 (mul_lt_mul_iff_right₀ hq)

theorem IsMultiple.any_lt (t : ℝ) :
    ((Tensor.vector n f').any fun x => decide (q * t < x)) =
      (Tensor.vector n f).any fun x => decide (t < x) := by
  rw [Bool.eq_iff_iff, Tensor.any_vector_iff, Tensor.any_vector_iff]
  refine exists_congr fun k => and_congr_right fun hk => ?_
  rw [h k hk, decide_eq_true_eq, decide_eq_true_eq, mul_lt_mul_iff_right₀ hq]

theorem IsMultiple.any_gt (t : ℝ) :
    ((Tensor.vector n f').any fun x => decide (x < q * t)) =
      (Tensor.vector n f).any fun x => decide (x < t) := by
  rw [Bool.eq_iff_iff, Tensor.any_vector_iff, Tensor.any_vector_iff]
  refine exists_congr fun k => and_congr_right fun hk => ?_
  rw [h k hk, decide_eq_true_eq, decide_eq_true_eq, mul_lt_mul_iff_right₀ hq]

end Selection

/-! ## Thresholds on lengths and heights -/

section Thresholds

variable {heights heights' lengths lengths' : ℕ → ℝ} (hq : 0 < q)
  (hheights : IsMultiple q n heights heights') (hlengths : IsMultiple q n lengths lengths')

include hq hheights hlengths

theorem areAcceptable_multiple (minHeight maxLength : ℝ) :
    Distances.areAcceptable ⟨.vector n heights', .vector n lengths'⟩ (q * minHeight)
        (q * maxLength) =
      Distances.areAcceptable ⟨.vector n heights, .vector n lengths⟩ minHeight maxLength := by
  rw [Bool.eq_iff_iff, Distances.areAcceptable_vector_iff, Distances.areAcceptable_vector_iff]
  refine forall_congr' fun k => imp_congr_right fun hk => ?_
  rw [hheights k hk, hlengths k hk, mul_le_mul_iff_right₀ hq, mul_le_mul_iff_right₀ hq]

theorem worstVertex_multiple (minHeight maxLength : ℝ) :
    Distances.worstVertex ⟨.vector n heights', .vector n lengths'⟩ (q * minHeight)
        (q * maxLength) =
      Distances.worstVertex ⟨.vector n heights, .vector n lengths⟩ minHeight maxLength := by
  simp only [Distances.worstVertex, hlengths.any_lt hq, hheights.any_gt hq, hlengths.argmax? hq,
    hheights.argmin? hq]

theorem isReplaceable_multiple (minHeight farLength : ℝ) (c : ℕ → ℝ) {k : ℕ} (hk : k < n) :
    isReplaceable (q * minHeight) (q * farLength) lengths' heights' c k =
      isReplaceable minHeight farLength lengths heights c k := by
  have hnew : |c k| * (q * heights k) = q * (|c k| * heights k) := by ring
  simp only [isReplaceable, hlengths k hk, hheights k hk, abs_real, hnew,
    mul_lt_mul_iff_right₀ hq, mul_le_mul_iff_right₀ hq]

theorem farVertex_multiple (improved : Bool) (minHeight farLength : ℝ) (c : ℕ → ℝ) :
    farVertex improved n (q * minHeight) (q * farLength) lengths' heights' c =
      farVertex improved n minHeight farLength lengths heights c := by
  have hmask : ∀ k, k < n → isReplaceable (q * minHeight) (q * farLength) lengths' heights' c k =
      isReplaceable minHeight farLength lengths heights c k := fun k hk =>
    isReplaceable_multiple hq hheights hlengths minHeight farLength c hk
  have hany : (∃ k, k < n ∧
      isReplaceable (q * minHeight) (q * farLength) lengths' heights' c k = true) ↔
      ∃ k, k < n ∧ isReplaceable minHeight farLength lengths heights c k = true :=
    exists_congr fun k => and_congr_right fun hk => by rw [hmask k hk]
  simp only [farVertex, hany, hlengths.greatest hq hmask]

end Thresholds

/-! ## Farthest vertices and scores -/

section Scores

variable (hq : 0 < q) (h : IsMultiple q n f f')

include hq h

theorem orFarthest_multiple (improved : Bool) (choice : Option ℕ) :
    orFarthest improved (.vector n f') choice = orFarthest improved (.vector n f) choice := by
  rw [orFarthest, orFarthest, h.argmax? hq]

theorem amongCoincident_multiple (improved : Bool) :
    amongCoincident improved (.vector n f') = amongCoincident improved (.vector n f) := by
  rw [amongCoincident, amongCoincident, h.argmax? hq]

theorem bestScore_multiple (m : ℕ) (other : Option ℕ) :
    bestScore m (.vector n f') other = bestScore m (.vector n f) other := by
  rw [bestScore, bestScore, h.argmax? hq]

omit hq in
theorem score_multiple (base : ℝ) (c : ℕ → ℝ) :
    IsMultiple q (n + 1) (score n f base c) (score n f' (q * base) c) := by
  intro k _
  unfold score
  split
  · rename_i hk
    rw [h k hk, mul_assoc]
  · rw [mul_assoc]

theorem exists_pos_multiple : (∃ k, k < n ∧ 0 < f' k) ↔ ∃ k, k < n ∧ 0 < f k :=
  exists_congr fun k => and_congr_right fun hk => by rw [h k hk, mul_pos_iff_of_pos_left hq]

end Scores

end Simplex

end InterpolationGeometry
