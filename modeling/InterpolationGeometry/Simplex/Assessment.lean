import InterpolationGeometry.Selection
import InterpolationGeometry.Simplex.Distances

/-!
# Assessing and mending a simplex

A simplex is acceptable when no height is below the least one allowed and no edge is longer than
the longest one allowed.  When it is not, one vertex is dropped: that of the longest edge if some
edge is too long, otherwise that of the least height.  Vertices are places counted from zero; a
vertex number counts from one, and zero stands for no vertex.
-/

namespace InterpolationGeometry

namespace Simplex

/-- The number of a vertex, zero for none. -/
def vertexNumber : Option Nat → Nat
  | none => 0
  | some place => place + 1

@[simp] theorem vertexNumber_none : vertexNumber none = 0 := rfl

@[simp] theorem vertexNumber_some (place : Nat) : vertexNumber (some place) = place + 1 := rfl

theorem vertexNumber_eq_zero_iff {vertex : Option Nat} :
    vertexNumber vertex = 0 ↔ vertex = none := by
  cases vertex <;> simp

variable {α : Type} [Scalar α]

def Distances.areAcceptable (distances : Distances α) (minHeight maxLength : α) : Bool :=
  distances.heights.all (fun height => decide (minHeight ≤ height)) &&
    distances.lengths.all fun length => decide (length ≤ maxLength)

/-- The vertex whose distances violate a threshold most, lengths before heights. -/
def Distances.worstVertex (distances : Distances α) (minHeight maxLength : α) :
    Outcome α (Option Nat) := do
  if distances.lengths.any fun length => decide (maxLength < length) then
    Selection.argmax? distances.lengths none
  else if distances.heights.any fun height => decide (height < minHeight) then
    Selection.argmin? distances.heights none
  else
    Outcome.report .noVertexForGeometry
    return none

theorem Distances.areAcceptable_vector_iff {n : Nat} {heights lengths : Nat → α}
    {minHeight maxLength : α} :
    Distances.areAcceptable ⟨.vector n heights, .vector n lengths⟩ minHeight maxLength = true ↔
      ∀ k, k < n → minHeight ≤ heights k ∧ lengths k ≤ maxLength := by
  simp only [areAcceptable, Bool.and_eq_true, Tensor.all_vector_iff, decide_eq_true_eq]
  constructor
  · rintro ⟨hheights, hlengths⟩ k hk
    exact ⟨hheights k hk, hlengths k hk⟩
  · intro h
    exact ⟨fun k hk => (h k hk).1, fun k hk => (h k hk).2⟩

section WorstVertex

variable {n : Nat} {heights lengths : Nat → α} {minHeight maxLength : α}

private theorem any_long_eq_false (h : ¬ ∃ k, k < n ∧ maxLength < lengths k) :
    (Tensor.vector n lengths).any (fun length => decide (maxLength < length)) = false := by
  rw [Bool.eq_false_iff, ne_eq, Tensor.any_vector_iff]
  simpa using h

theorem Distances.worstVertex_of_long (h : ∃ k, k < n ∧ maxLength < lengths k) :
    Distances.worstVertex ⟨.vector n heights, .vector n lengths⟩ minHeight maxLength =
      pure (Selection.best? (fun y x => decide (x < y)) lengths
        ((List.range n).filter fun k => !Scalar.isNaN (lengths k))) := by
  have hany : (Tensor.vector n lengths).any (fun length => decide (maxLength < length)) = true := by
    simpa [Tensor.any_vector_iff] using h
  simp only [worstVertex, hany, if_true, Selection.argmax?_vector]
  rfl

theorem Distances.worstVertex_of_thin (hlong : ¬ ∃ k, k < n ∧ maxLength < lengths k)
    (h : ∃ k, k < n ∧ heights k < minHeight) :
    Distances.worstVertex ⟨.vector n heights, .vector n lengths⟩ minHeight maxLength =
      pure (Selection.best? (fun y x => decide (y < x)) heights
        ((List.range n).filter fun k => !Scalar.isNaN (heights k))) := by
  have hnone := any_long_eq_false hlong
  have hany : (Tensor.vector n heights).any (fun height => decide (height < minHeight)) =
      true := by
    simpa [Tensor.any_vector_iff] using h
  simp only [worstVertex, hnone, hany, if_true, Bool.false_eq_true, if_false,
    Selection.argmin?_vector]
  rfl

theorem Distances.worstVertex_of_neither (hlong : ¬ ∃ k, k < n ∧ maxLength < lengths k)
    (hthin : ¬ ∃ k, k < n ∧ heights k < minHeight) :
    Distances.worstVertex ⟨.vector n heights, .vector n lengths⟩ minHeight maxLength =
      { log := [.noVertexForGeometry], result := .ok none } := by
  have hnone := any_long_eq_false hlong
  have hnone' : (Tensor.vector n heights).any (fun height => decide (height < minHeight)) =
      false := by
    rw [Bool.eq_false_iff, ne_eq, Tensor.any_vector_iff]
    simpa using hthin
  simp only [worstVertex, hnone, hnone', Bool.false_eq_true, if_false, Outcome.report_bind]
  rfl

end WorstVertex

def isAcceptable (settings : Settings α) (radius minHeightFactor maxLengthFactor : α)
    (simplex inverse : Tensor α) : Outcome α Bool := do
  let simplex := simplex.asMatrix
  let inverse := inverse.asMatrix
  let n ← simplex.axisLength 0
  guarded settings.checked "ASSESS_GEO"
    (shapeChecks settings n simplex inverse ++
      [radiusCheck radius, minHeightCheck minHeightFactor, maxLengthCheck maxLengthFactor])
    (do
      let distances ← distances simplex inverse
      return distances.areAcceptable (minHeightFactor * radius) (maxLengthFactor * radius))
    fun _ => []

def dropForGeometry (settings : Settings α) (radius minHeightFactor maxLengthFactor : α)
    (simplex inverse : Tensor α) : Outcome α (Option Nat) := do
  let simplex := simplex.asMatrix
  let inverse := inverse.asMatrix
  let n ← simplex.axisLength 0
  guarded settings.checked "SETDROP_GEO"
    (shapeChecks settings n simplex inverse ++
      [minHeightCheck minHeightFactor, maxLengthCheck maxLengthFactor])
    (do
      let distances ← distances simplex inverse
      distances.worstVertex (minHeightFactor * radius) (maxLengthFactor * radius))
    fun vertex =>
      [.that (decide (1 ≤ vertexNumber vertex) && decide (vertexNumber vertex ≤ n))
        "1 <= JDROP <= N"]

end Simplex

end InterpolationGeometry
