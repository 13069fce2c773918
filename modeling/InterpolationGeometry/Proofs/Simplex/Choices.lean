import InterpolationGeometry.Proofs.Arithmetic.Ordered
import InterpolationGeometry.Simplex.Replacement

/-!
# The choices that make room for a new point, in closed form

On arrays of the right shapes each stage of the choice is a function of the coordinates of the step,
the gaps between the vertices and the vertex that will be best, and the heights.  The stages report
no warning; only a choice that is missing for a better point is one.
-/

namespace InterpolationGeometry

namespace Outcome

variable {α β γ : Type}

/-- The outcome is a value, with no warning on the way. -/
def Yields (x : Outcome α β) (value : β) : Prop :=
  x.result = .ok value ∧ ∀ event ∈ x.log, event.level = .debug

theorem yields_pure (value : β) : Yields (pure value : Outcome α β) value := by
  constructor
  · rfl
  · intro event h
    simp at h

theorem yields_report {event : Event α} (h : event.level = .debug) : Yields (report event) () := by
  constructor
  · rfl
  · intro event' h'
    obtain rfl := List.mem_singleton.1 h'
    exact h

theorem Yields.bind {x : Outcome α β} {f : β → Outcome α γ} {value : β} {value' : γ}
    (h : x.Yields value) (h' : (f value).Yields value') : (x >>= f).Yields value' := by
  rw [bind_of_ok h.1]
  refine ⟨h'.1, fun event hmem => ?_⟩
  rcases List.mem_append.1 hmem with hleft | hright
  · exact h.2 event hleft
  · exact h'.2 event hright

end Outcome

namespace Simplex

open Scalar hiding abs

variable {α : Type} [Scalar α]

def coordinate (n : Nat) (s : Nat → Nat → α) (d : Nat → α) (k : Nat) : α :=
  sum n fun l => s k l * d l

/-- The entry of an edge as seen from the vertex that will be the best one. -/
def gap (improved : Bool) (d : Nat → α) (x : Nat → Nat → α) (i k : Nat) : α :=
  if improved then x i k - d i else x i k

def gapSquare (improved : Bool) (n : Nat) (d : Nat → α) (x : Nat → Nat → α) (k : Nat) : α :=
  sum n fun i => square (gap improved d x i k)

def gapLength (improved : Bool) (n : Nat) (d : Nat → α) (x : Nat → Nat → α) (k : Nat) : α :=
  sqrt (gapSquare improved n d x k)

def rowHeight (n : Nat) (s : Nat → Nat → α) (k : Nat) : α :=
  1 / sqrt (sum n fun l => square (s k l))

/-- The vertex is far away and its replacement keeps the simplex high enough. -/
def isReplaceable (minHeight farLength : α) (lengths heights c : Nat → α) (k : Nat) : Bool :=
  decide (farLength < lengths k) &&
    (decide (minHeight ≤ Scalar.abs (c k) * heights k) ||
      decide (heights k ≤ Scalar.abs (c k) * heights k))

def coordinateVertex (improved : Bool) (n : Nat) (c : Nat → α) : Option Nat :=
  if (∃ k, k < n ∧ 1 < Scalar.abs (c k)) ∨ improved ∧ ∃ k, k < n ∧ isNaN (c k) = false then
    Selection.greatest n (fun k => Scalar.abs (c k)) fun _ => true
  else none

/-- The choice by thresholds, before the farthest vertex is taken for want of another. -/
def farVertex (improved : Bool) (n : Nat) (minHeight farLength : α) (lengths heights c : Nat → α) :
    Option Nat :=
  if ∃ k, k < n ∧ isReplaceable minHeight farLength lengths heights c k = true then
    Selection.greatest n lengths (isReplaceable minHeight farLength lengths heights c)
  else coordinateVertex improved n c

def thresholdVertex (improved : Bool) (n : Nat) (minHeight farLength : α)
    (lengths heights c : Nat → α) : Option Nat :=
  match farVertex improved n minHeight farLength lengths heights c with
  | some j => some j
  | none => if improved then Selection.greatest n lengths fun _ => true else none

/-- The scores of the vertices and, at place `n`, of the base vertex. -/
def score (n : Nat) (squares : Nat → α) (base : α) (c : Nat → α) (k : Nat) : α :=
  if k < n then squares k * Scalar.abs (c k) else base * Scalar.abs (1 - sum n c)

def scoreVertex (improved : Bool) (n : Nat) (squares : Nat → α) (base : α) (c : Nat → α)
    (other : Option Nat) : Option Nat :=
  if ∃ k, k < n ∧ 0 < squares k then
    match Selection.greatest (n + 1) (score n squares base c) fun _ => true with
    | none => other
    | some j => if j = n then other else some j
  else if improved then Selection.greatest n squares fun _ => true
  else none

/-! ## Thresholds -/

section Thresholds

variable (improved : Bool) (n : Nat) (d : Nat → α) (x s : Nat → Nat → α) (c : Nat → α)

theorem coordinateChoice_eq :
    coordinateChoice improved (.vector n c) = .ok (coordinateVertex improved n c) := by
  rw [coordinateChoice_vector, coordinateVertex, Selection.greatest, Selection.offered_true]

theorem farthestAmong_vector (lengths : Nat → α) (mask : Nat → Bool) (other : Option Nat) :
    farthestAmong (.vector n lengths) (.vector n mask) other =
      .ok (if ∃ k, k < n ∧ mask k = true then Selection.greatest n lengths mask else other) := by
  unfold farthestAmong
  by_cases h : ∃ k, k < n ∧ mask k = true
  · have hany : (Tensor.vector n mask).any id = true :=
      (Tensor.any_vector_iff (f := mask) (p := id)).2 h
    rw [if_pos hany, if_pos h]
    exact Selection.argmax?_eq_greatest_masked n lengths mask
  · have hany : ¬ (Tensor.vector n mask).any id = true :=
      mt (Tensor.any_vector_iff (f := mask) (p := id)).1 h
    rw [if_neg hany, if_neg h]

theorem orFarthest_yields (lengths : Nat → α) (choice : Option Nat) :
    (orFarthest improved (.vector n lengths) choice).Yields
      (match choice with
        | some j => some j
        | none => if improved then Selection.greatest n lengths fun _ => true else none) := by
  unfold orFarthest
  cases choice with
  | some j =>
      simp only [Option.isNone_some, Bool.and_false, Bool.false_eq_true, if_false]
      exact Outcome.yields_pure _
  | none =>
      cases improved with
      | false => exact Outcome.yields_pure _
      | true =>
          simp only [Option.isNone_none, Bool.and_true, if_true, Selection.argmax?_eq_greatest,
            Outcome.liftM_ok_bind]
          exact (Outcome.yields_report rfl).bind (Outcome.yields_pure _)

/-- The choice by thresholds in terms of lengths, heights and coordinates. -/
theorem thresholdChoice_eq (radius minHeightFactor farLengthFactor : α) :
    thresholdChoice improved (.vector n d) radius minHeightFactor farLengthFactor
        (.matrix n (n + 1) x) (.matrix n n s) (.vector n c) =
      orFarthest improved (.vector n (gapLength improved n d x))
        (farVertex improved n (minHeightFactor * radius) (farLengthFactor * radius)
          (gapLength improved n d x) (rowHeight n s) c) := by
  have hlengths : (Tensor.matrix n n (gap improved d x)).columnNorms =
      .ok (.vector n (gapLength improved n d x)) := Tensor.columnNorms_matrix n n _
  have hedges : edgesFromBest improved (.vector n d) (.matrix n (n + 1) x) =
      .ok (.matrix n n (gap improved d x)) := edgesFromBest_matrix improved n d x
  have hheights : heights (.matrix n n s) = .ok (.vector n (rowHeight n s)) := heights_matrix n s
  simp only [thresholdChoice, Tensor.axisLength_matrix_zero, coordinateChoice_eq, hedges, hlengths,
    hheights, replaceableFar_vector, farthestAmong_vector, Outcome.liftM_ok_bind]
  rfl

theorem thresholdChoice_yields (radius minHeightFactor farLengthFactor : α) :
    (thresholdChoice improved (.vector n d) radius minHeightFactor farLengthFactor
        (.matrix n (n + 1) x) (.matrix n n s) (.vector n c)).Yields
      (thresholdVertex improved n (minHeightFactor * radius) (farLengthFactor * radius)
        (gapLength improved n d x) (rowHeight n s) c) := by
  rw [thresholdChoice_eq]
  exact orFarthest_yields improved n _ _

end Thresholds

/-! ## Scores -/

section Scores

variable (improved : Bool) (n : Nat) (d : Nat → α) (x : Nat → Nat → α) (c : Nat → α)

def baseSquare : α := if improved then sum n fun i => d i * d i else 0

theorem baseDistance_vector :
    baseDistance improved (.vector n d) = .ok (baseSquare improved n d) := by
  cases improved with
  | true => exact Tensor.dot_vector n d d
  | false => rfl

theorem bestScore_yields (scores : Nat → α) (other : Option Nat) :
    (bestScore n (.vector (n + 1) scores) other).Yields
      (match Selection.greatest (n + 1) scores fun _ => true with
        | none => other
        | some j => if j = n then other else some j) := by
  simp only [bestScore, Selection.argmax?_eq_greatest, Outcome.liftM_ok_bind]
  cases Selection.greatest (n + 1) scores fun _ => true with
  | none =>
      simp only [true_or, if_true]
      exact (Outcome.yields_report rfl).bind (Outcome.yields_pure _)
  | some j =>
      by_cases hj : j = n
      · simp only [hj, or_true, if_true]
        exact (Outcome.yields_report rfl).bind (Outcome.yields_pure _)
      · simp only [hj, Option.some.injEq, reduceCtorEq, or_self, if_false]
        exact Outcome.yields_pure _

theorem amongCoincident_yields (distances : Nat → α) :
    (amongCoincident improved (.vector n distances)).Yields
      (if improved then Selection.greatest n distances fun _ => true else none) := by
  cases improved with
  | false => exact Outcome.yields_pure _
  | true =>
      simp only [amongCoincident, if_true, Selection.argmax?_eq_greatest, Outcome.liftM_ok_bind]
      exact (Outcome.yields_report rfl).bind (Outcome.yields_pure _)

/-- The choice by scores in terms of squared distances and coordinates. -/
theorem scoreChoice_eq (other : Option Nat) :
    scoreChoice improved (.vector n d) (.matrix n (n + 1) x) (.vector n c) other =
      if ∃ k, k < n ∧ 0 < gapSquare improved n d x k then
        bestScore n (.vector (n + 1) (score n (gapSquare improved n d x) (baseSquare improved n d) c))
          other
      else amongCoincident improved (.vector n (gapSquare improved n d x)) := by
  have hedges : edgesFromBest improved (.vector n d) (.matrix n (n + 1) x) =
      .ok (.matrix n n (gap improved d x)) := edgesFromBest_matrix improved n d x
  have hsquares : (Tensor.matrix n n (gap improved d x)).squares.sumAxis 0 =
      .ok (.vector n (gapSquare improved n d x)) := by
    rw [Tensor.squares, Tensor.map_matrix]
    exact Tensor.sumAxis_zero_matrix n n _
  simp only [scoreChoice, Tensor.axisLength_matrix_zero, hedges, hsquares, baseDistance_vector,
    scores_vector, Outcome.liftM_ok_bind]
  by_cases h : ∃ k, k < n ∧ 0 < gapSquare improved n d x k
  · have hany : (Tensor.vector n (gapSquare improved n d x)).any
        (fun distance => decide (0 < distance)) = true := by
      simpa [Tensor.any_vector_iff] using h
    rw [if_pos hany, if_pos h]
    rfl
  · have hany : ¬ (Tensor.vector n (gapSquare improved n d x)).any
        (fun distance => decide (0 < distance)) = true := by
      simpa [Tensor.any_vector_iff] using h
    rw [if_neg hany, if_neg h]

theorem scoreChoice_yields (other : Option Nat) :
    (scoreChoice improved (.vector n d) (.matrix n (n + 1) x) (.vector n c) other).Yields
      (scoreVertex improved n (gapSquare improved n d x) (baseSquare improved n d) c other) := by
  rw [scoreChoice_eq, scoreVertex]
  split
  · exact bestScore_yields n _ other
  · exact amongCoincident_yields improved n _

end Scores

end Simplex

end InterpolationGeometry
