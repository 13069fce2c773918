import InterpolationGeometry.Contract
import InterpolationGeometry.Settings
import InterpolationGeometry.Tensor.Inverse

/-!
# Distances in a simplex

A simplex in `n` dimensions has a base vertex and `n` others.  It is held as a matrix of `n` rows:
its first `n` columns are the edges from the base vertex to the others, its last column is the base
vertex.  Beside it goes the inverse of the edges.  The height of a vertex over the opposite face is
the reciprocal length of its row of the inverse, and the length of its edge is the length of its
column.
-/

namespace InterpolationGeometry

open Scalar hiding abs

namespace Simplex

/-- Height over the opposite face and distance from the base vertex, for each other vertex. -/
structure Distances (α : Type) where
  heights : Tensor α
  lengths : Tensor α

variable {α : Type} [Scalar α]

def heights (inverse : Tensor α) : Except Failure (Tensor α) := do
  return (← inverse.rowNorms).map (1 / ·)

/-- The edges from the base vertex: as many columns as there are rows. -/
def edges (simplex : Tensor α) : Except Failure (Tensor α) := do
  simplex.leadingColumns (← simplex.axisLength 0)

def distances (simplex inverse : Tensor α) : Except Failure (Distances α) := do
  let _ ← simplex.axisLength 0
  let heights ← heights inverse
  let lengths ← (← edges simplex).columnNorms
  return { heights := heights, lengths := lengths }

theorem heights_matrix (n : Nat) (s : Nat → Nat → α) :
    heights (Tensor.matrix n n s) =
      .ok (.vector n fun j => 1 / sqrt (sum n fun k => square (s j k))) := by
  simp [heights, Tensor.rowNorms_matrix, bind, Except.bind, pure, Except.pure]

theorem edges_matrix (n : Nat) (x : Nat → Nat → α) :
    edges (Tensor.matrix n (n + 1) x) = .ok (.matrix n n x) := by
  simp [edges, Tensor.leadingColumns_matrix, bind, Except.bind]

theorem distances_matrix (n : Nat) (x s : Nat → Nat → α) :
    distances (Tensor.matrix n (n + 1) x) (Tensor.matrix n n s) =
      .ok { heights := .vector n fun j => 1 / sqrt (sum n fun k => square (s j k))
            lengths := .vector n fun j => sqrt (sum n fun i => square (x i j)) } := by
  simp [distances, heights_matrix, edges_matrix, Tensor.columnNorms_matrix, bind, Except.bind, pure,
    Except.pure]

/-! ## Conditions -/

def hasNoZeroEdge (n : Nat) (simplex : Tensor α) : Bool :=
  (List.range n).all fun j => (List.range n).any fun i =>
    decide (0 < Scalar.abs (simplex.get [i, j]))

def shapeChecks (settings : Settings α) (n : Nat) (simplex inverse : Tensor α) : List Check :=
  [ .that (decide (1 ≤ n)) "N >= 1",
    .that (decide (simplex.shape = [n, n + 1])) "SIZE(SIM) == [N, N+1]",
    .that simplex.isFinite "SIM is finite",
    .that (hasNoZeroEdge n simplex) "SIM(:, 1:N) has no zero column",
    .that (decide (inverse.shape = [n, n])) "SIZE(SIMI) == [N, N]",
    .that inverse.isFinite "SIMI is finite",
    { statement := "SIMI = SIM(:, 1:N)^\x7b-1\x7d"
      holds := do (← simplex.leadingColumns n).isInverse settings.inverseTolerance inverse } ]

def minHeightCheck (factor : α) : Check :=
  .that (decide (0 < factor) && decide (factor < 1)) "0 < FACTOR_ALPHA < 1"

def maxLengthCheck (factor : α) : Check := .that (decide (1 < factor)) "FACTOR_BETA > 1"

def farLengthCheck (factor : α) : Check := .that (decide (1 < factor)) "FACTOR_DELTA > 1"

def radiusCheck (radius : α) : Check := .that (decide (0 < radius)) "DELTA > 0"

end Simplex

end InterpolationGeometry
