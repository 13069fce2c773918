import InterpolationGeometry.Simplex.Assessment

/-!
# Making room for a new point

The vertex that a new point replaces.  The point is given as a step from the base vertex, and its
coordinates are those of the step in the edges.  Replacing a vertex multiplies the volume of the
simplex by the absolute value of its coordinate.

The thresholds prefer a far vertex whose replacement keeps the simplex high enough, then the vertex
of the largest coordinate.  The scores weigh the squared distance of each vertex from the new point,
or from the base vertex if the point is no better, with its coordinate; the base vertex has a score
too, and stands for the choice of the thresholds.
-/

namespace InterpolationGeometry

open Scalar hiding abs

namespace Simplex

variable {α : Type} [Scalar α]

/-- The edges as seen from the vertex that will be the best one: the new point if it is better,
otherwise the base vertex. -/
def edgesFromBest (improved : Bool) (step simplex : Tensor α) : Except Failure (Tensor α) := do
  let edges ← edges simplex
  if improved then edges.columnsMinus step else return edges

/-! ## Thresholds -/

/-- The vertex of the largest coordinate, if its replacement enlarges the simplex or the new point
is better. -/
def coordinateChoice (improved : Bool) (coordinates : Tensor α) : Except Failure (Option Nat) :=
  let sizes := coordinates.map Scalar.abs
  if sizes.any (fun size => decide (1 < size)) ||
      (improved && coordinates.any fun x => !isNaN x) then
    Selection.argmax? sizes none
  else
    .ok none

/-- The far vertices whose replacement keeps the simplex high enough, or as high as it is. -/
def replaceableFar (minHeight farLength : α) (lengths heights coordinates : Tensor α) :
    Except Failure (Tensor Bool) := do
  let newHeights ← (coordinates.map Scalar.abs).mul heights
  let staysHigh ← Tensor.zipWith
    (fun new old => decide (minHeight ≤ new) || decide (old ≤ new)) newHeights heights
  Tensor.zipWith (· && ·) (lengths.map fun length => decide (farLength < length)) staysHigh

def farthestAmong (lengths : Tensor α) (mask : Tensor Bool) (other : Option Nat) :
    Except Failure (Option Nat) :=
  if mask.any id then Selection.argmax? lengths (some mask) else .ok other

/-- A choice, or the farthest vertex when there is none and the new point is better. -/
def orFarthest (improved : Bool) (lengths : Tensor α) (choice : Option Nat) :
    Outcome α (Option Nat) := do
  if improved && choice.isNone then
    let farthest ← Selection.argmax? lengths none
    Outcome.report (.farthestVertex farthest)
    return farthest
  return choice

def thresholdChoice (improved : Bool) (step : Tensor α)
    (radius minHeightFactor farLengthFactor : α) (simplex inverse coordinates : Tensor α) :
    Outcome α (Option Nat) := do
  let _ ← simplex.axisLength 0
  let byCoordinate ← coordinateChoice improved coordinates
  let lengths ← (← edgesFromBest improved step simplex).columnNorms
  let heights ← heights inverse
  let mask ← replaceableFar (minHeightFactor * radius) (farLengthFactor * radius) lengths heights
    coordinates
  let choice ← farthestAmong lengths mask byCoordinate
  orFarthest improved lengths choice

/-! ## Scores -/

def baseDistance (improved : Bool) (step : Tensor α) : Except Failure α :=
  if improved then step.dot step else .ok 0

/-- The scores of the vertices and then that of the base vertex, whose coordinate makes the sum of
all coordinates one. -/
def scores (distances : Tensor α) (baseDistance : α) (coordinates : Tensor α) :
    Except Failure (Tensor α) :=
  Tensor.zipWith (fun distance weight => distance * Scalar.abs weight)
    (.ofList (distances.toList ++ [baseDistance]))
    (.ofList (coordinates.toList ++ [1 - coordinates.total]))

/-- The vertex of the best of the scores of `n` vertices and the base vertex.  The base vertex and
the absence of a score stand for another choice. -/
def bestScore (n : Nat) (scores : Tensor α) (other : Option Nat) : Outcome α (Option Nat) := do
  let best ← Selection.argmax? scores none
  if best = none ∨ best = some n then
    Outcome.report (.thresholdChoiceKept best)
    return other
  return best

/-- The farthest vertex when all coincide with the best one, unless the new point is no better. -/
def amongCoincident (improved : Bool) (distances : Tensor α) : Outcome α (Option Nat) := do
  if improved then
    let farthest ← Selection.argmax? distances none
    Outcome.report (.verticesCoincide farthest)
    return farthest
  return none

def scoreChoice (improved : Bool) (step simplex coordinates : Tensor α) (other : Option Nat) :
    Outcome α (Option Nat) := do
  let n ← simplex.axisLength 0
  let distances ← (← edgesFromBest improved step simplex).squares.sumAxis 0
  let base ← baseDistance improved step
  let scores ← scores distances base coordinates
  if distances.any fun distance => decide (0 < distance) then
    bestScore n scores other
  else
    amongCoincident improved distances

/-! ## The vertex to drop -/

def schemeChoice (scheme : DropScheme) (improved : Bool) (step simplex coordinates : Tensor α)
    (byThreshold : Option Nat) : Outcome α (Option Nat) :=
  match scheme with
  | .score => scoreChoice improved step simplex coordinates byThreshold
  | _ => pure byThreshold

def reportMissing (improved : Bool) (choice : Option Nat) : Outcome α (Option Nat) := do
  if improved && choice.isNone then
    Outcome.report .noVertexForStep
  return choice

/-- The vertex that the point at `step` from the base vertex replaces. -/
def dropForStep (settings : Settings α) (improved : Bool) (step : Tensor α)
    (radius minHeightFactor farLengthFactor : α) (simplex inverse : Tensor α) :
    Outcome α (Option Nat) := do
  let step := step.flatten
  let simplex := simplex.asMatrix
  let inverse := inverse.asMatrix
  let n ← simplex.axisLength 0
  guarded settings.checked "SETDROP_TR"
    (.that (decide (step.size = n) && step.isFinite) "SIZE(D) == N, D is finite" ::
      shapeChecks settings n simplex inverse ++
      [minHeightCheck minHeightFactor, farLengthCheck farLengthFactor])
    (do
      let coordinates ← inverse.product step
      let byThreshold ← thresholdChoice improved step radius minHeightFactor farLengthFactor
        simplex inverse coordinates
      let choice ← schemeChoice settings.dropScheme improved step simplex coordinates byThreshold
      reportMissing improved choice)
    fun choice =>
      [.that (choice.isSome || !improved) "JDROP >= 1 unless the trust-region step failed"]

/-! ## On a simplex of the right shape -/

theorem edgesFromBest_matrix (improved : Bool) (n : Nat) (d : Nat → α) (x : Nat → Nat → α) :
    edgesFromBest improved (.vector n d) (.matrix n (n + 1) x) =
      .ok (.matrix n n fun i j => if improved then x i j - d i else x i j) := by
  cases improved with
  | true => simp [edgesFromBest, edges_matrix, Tensor.columnsMinus_matrix, bind, Except.bind]
  | false => simp [edgesFromBest, edges_matrix, bind, Except.bind, pure, Except.pure]

theorem coordinateChoice_vector (improved : Bool) (n : Nat) (c : Nat → α) :
    coordinateChoice improved (.vector n c) =
      .ok (if (∃ k, k < n ∧ 1 < Scalar.abs (c k)) ∨ improved ∧ ∃ k, k < n ∧ isNaN (c k) = false then
        Selection.best? (fun y x => decide (x < y)) (fun k => Scalar.abs (c k))
          ((List.range n).filter fun k => !isNaN (Scalar.abs (c k)))
      else none) := by
  have hgrows : ((Tensor.vector n fun k => Scalar.abs (c k)).any fun size => decide (1 < size)) =
      decide (∃ k, k < n ∧ 1 < Scalar.abs (c k)) := by
    rw [Bool.eq_iff_iff, Tensor.any_vector_iff]
    simp
  have hknown : ((Tensor.vector n c).any fun x => !isNaN x) =
      decide (∃ k, k < n ∧ isNaN (c k) = false) := by
    rw [Bool.eq_iff_iff, Tensor.any_vector_iff]
    simp
  simp only [coordinateChoice, Tensor.map_vector, hgrows, hknown, Selection.argmax?_vector]
  by_cases h : (∃ k, k < n ∧ 1 < Scalar.abs (c k)) ∨
      improved ∧ ∃ k, k < n ∧ isNaN (c k) = false
  · rw [if_pos h, if_pos]
    simpa using h
  · rw [if_neg h, if_neg]
    simpa using h

theorem replaceableFar_vector (minHeight farLength : α) (n : Nat) (lengths heights c : Nat → α) :
    replaceableFar minHeight farLength (.vector n lengths) (.vector n heights) (.vector n c) =
      .ok (.vector n fun k => decide (farLength < lengths k) &&
        (decide (minHeight ≤ Scalar.abs (c k) * heights k) ||
          decide (heights k ≤ Scalar.abs (c k) * heights k))) := by
  simp [replaceableFar, bind, Except.bind]

theorem scores_vector (n : Nat) (distances : Nat → α) (base : α) (c : Nat → α) :
    scores (.vector n distances) base (.vector n c) =
      .ok (.vector (n + 1) fun k =>
        if k < n then distances k * Scalar.abs (c k) else base * Scalar.abs (1 - sum n c)) := by
  have happend : ∀ (f : Nat → α) (last : α),
      Tensor.ofList ((Tensor.vector n f).toList ++ [last]) =
        .vector (n + 1) fun k => if k < n then f k else last := by
    intro f last
    rw [Tensor.toList_vector, ← Tensor.ofList_map_range, List.range_succ, List.map_append]
    congr 2
    · exact List.map_congr_left fun k hk => by simp [List.mem_range.1 hk]
    · simp
  simp only [scores, happend, Tensor.total_vector, Tensor.zipWith_vector]
  congr 1
  refine Tensor.vector_congr fun k _ => ?_
  by_cases hk : k < n <;> simp [hk]

end Simplex

end InterpolationGeometry
