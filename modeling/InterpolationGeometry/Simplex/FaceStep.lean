import InterpolationGeometry.Simplex.Distances

/-!
# Steps across a face

A vertex that is dropped to mend a simplex is replaced by a point on the normal of its opposite
face through the base vertex, at a given distance.  Of the two such points, the one with the smaller
linear model of the merit: the objective plus a penalty times the largest violated constraint.
-/

namespace InterpolationGeometry

open Scalar hiding abs

namespace Simplex

/-- What is known at the vertices of a simplex of `dimension + 1` vertices, the base vertex last,
beside the inverse of the edges. -/
structure FaceProblem (α : Type) where
  inverse : Tensor α
  dimension : Nat
  constraints : Tensor α
  constraintCount : Nat
  /-- The largest violation at each vertex; it is only checked. -/
  violations : Tensor α
  values : Tensor α

variable {α : Type} [Scalar α]

namespace FaceProblem

/-- Constraint values with one row for each constraint; no values at all mean no constraints. -/
def constraintRows (dimension : Nat) (constraints : Tensor α) : Tensor α :=
  if constraints.size = 0 then .matrix 0 (dimension + 1) fun _ _ => 0 else constraints.asMatrix

/-- A problem from its parts, each of which may have failed to be read.  The parts are taken in the
order of the arguments, so the first one that is missing or does not fit is the failure. -/
def ofParts (inverse constraints violations values : Except Failure (Tensor α)) :
    Except Failure (FaceProblem α) := do
  let inverse := (← inverse).asMatrix
  let dimension ← inverse.axisLength 0
  let constraints := constraintRows dimension (← constraints)
  let constraintCount ← constraints.axisLength 0
  let violations := (← violations).flatten
  let values := (← values).flatten
  return { inverse, dimension, constraints, constraintCount, violations, values }

def ofTensors (inverse constraints violations values : Tensor α) :
    Except Failure (FaceProblem α) :=
  ofParts (.ok inverse) (.ok constraints) (.ok violations) (.ok values)

def constraintGradients (problem : FaceProblem α) : Except Failure (Tensor α) := do
  let others ← problem.constraints.leadingColumns problem.dimension
  let base ← problem.constraints.column problem.dimension
  let gradients ← (← others.columnsMinus base).product problem.inverse
  gradients.transpose.spread [problem.dimension, problem.constraintCount]

def descent (problem : FaceProblem α) : Except Failure (Tensor α) := do
  let base ← problem.values.entry problem.dimension
  let drops := (problem.values.take problem.dimension).map (base - ·)
  (← drops.product problem.inverse).spread [problem.dimension]

def normalStep (problem : FaceProblem α) (place : Int) (length : α) :
    Except Failure (Tensor α) := do
  let row ← problem.inverse.row place
  let height ← divide 1 row.norm
  return (row.scale height).scale length

/-- The step or its opposite, whichever has the smaller linear model of the merit. -/
def betterSense (problem : FaceProblem α) (penalty : α) (step : Tensor α) :
    Except Failure (Tensor α) := do
  let gradients ← problem.constraintGradients
  let descent ← problem.descent
  let slopes ← step.product gradients
  let base ← problem.constraints.column problem.dimension
  let ahead := (← Tensor.zipWith (fun slope c => -slope - c) slopes base).greatestWithZero
  let behind := (← Tensor.zipWith (fun slope c => slope - c) slopes base).greatestWithZero
  let gain ← step.dot descent
  return if 2.0 * gain < penalty * (ahead - behind) then step.neg else step

/-! ## On a simplex of the right shape -/

theorem constraintRows_matrix (n m : Nat) (c : Nat → Nat → α) :
    constraintRows n (.matrix m (n + 1) c) = .matrix m (n + 1) c := by
  unfold constraintRows
  split
  · rename_i hempty
    rw [Tensor.size_matrix] at hempty
    have hm : m = 0 := by
      rcases Nat.mul_eq_zero.1 hempty with hm | hn
      · exact hm
      · omega
    subst hm
    exact Tensor.matrix_congr fun i _ hi _ => absurd hi (Nat.not_lt_zero i)
  · exact Tensor.asMatrix_matrix m (n + 1) c

theorem ofTensors_matrix (n m : Nat) (s c : Nat → Nat → α) (z f : Nat → α) :
    ofTensors (.matrix n n s) (.matrix m (n + 1) c) (.vector (n + 1) z) (.vector (n + 1) f) =
      .ok { inverse := .matrix n n s, dimension := n, constraints := .matrix m (n + 1) c,
            constraintCount := m, violations := .vector (n + 1) z,
            values := .vector (n + 1) f } := by
  simp [ofTensors, ofParts, constraintRows_matrix, bind, Except.bind, pure, Except.pure]

section RightShape

variable {problem : FaceProblem α} {n m : Nat} {s c : Nat → Nat → α} {f : Nat → α}

theorem normalStep_matrix (hdimension : problem.inverse = .matrix n n s) {k : Nat} (hk : k < n)
    (length : α) :
    problem.normalStep k length =
      (divide 1 (sqrt (sum n fun l => square (s k l)))).bind fun height =>
        .ok (.vector n fun l => length * (height * s k l)) := by
  simp only [normalStep, hdimension, Tensor.row_matrix s hk, Tensor.norm_vector, bind,
    Except.bind, pure, Except.pure, Tensor.scale_vector]

theorem constraintGradients_matrix (hinverse : problem.inverse = .matrix n n s)
    (hdimension : problem.dimension = n) (hcount : problem.constraintCount = m)
    (hconstraints : problem.constraints = .matrix m (n + 1) c) :
    problem.constraintGradients =
      .ok (.matrix n m fun k i => sum n fun l => (c i l - c i n) * s l k) := by
  have hspread := Tensor.spread_self
    (Tensor.matrix n m fun k i => sum n fun l => (c i l - c i n) * s l k)
  simp only [Tensor.shape_matrix] at hspread
  simp only [constraintGradients, hinverse, hdimension, hcount, hconstraints,
    Tensor.leadingColumns_matrix, Tensor.column_matrix c (Nat.lt_succ_self n),
    Nat.min_eq_left (Nat.le_succ n), Tensor.columnsMinus_matrix, Tensor.product_matrix_matrix,
    Tensor.transpose_matrix, bind, Except.bind]
  exact hspread

theorem descent_vector (hinverse : problem.inverse = .matrix n n s)
    (hdimension : problem.dimension = n) (hvalues : problem.values = .vector (n + 1) f) :
    problem.descent = .ok (.vector n fun k => sum n fun l => (f n - f l) * s l k) := by
  have hspread := Tensor.spread_self (Tensor.vector n fun k => sum n fun l => (f n - f l) * s l k)
  simp only [Tensor.shape_vector] at hspread
  simp only [descent, hinverse, hdimension, hvalues, Tensor.entry_vector f (Nat.lt_succ_self n),
    Tensor.take_vector, Nat.min_eq_left (Nat.le_succ n), Tensor.map_vector,
    Tensor.product_vector_matrix, bind, Except.bind]
  exact hspread

theorem betterSense_vector (hinverse : problem.inverse = .matrix n n s)
    (hdimension : problem.dimension = n) (hcount : problem.constraintCount = m)
    (hconstraints : problem.constraints = .matrix m (n + 1) c)
    (hvalues : problem.values = .vector (n + 1) f) (penalty : α) (v slopes : Nat → α)
    (hslopes : ∀ i, slopes i = sum n fun k => v k * sum n fun l => (c i l - c i n) * s l k) :
    problem.betterSense penalty (.vector n v) =
      .ok (if 2.0 * (sum n fun k => v k * sum n fun l => (f n - f l) * s l k) <
            penalty * ((Tensor.vector m fun i => -slopes i - c i n).greatestWithZero -
              (Tensor.vector m fun i => slopes i - c i n).greatestWithZero) then
          .vector n fun k => -v k
        else .vector n v) := by
  simp only [betterSense, constraintGradients_matrix hinverse hdimension hcount hconstraints,
    descent_vector hinverse hdimension hvalues, hdimension, hconstraints,
    Tensor.column_matrix c (Nat.lt_succ_self n), Tensor.product_vector_matrix, ← hslopes,
    Tensor.zipWith_vector, Tensor.dot_vector, Tensor.neg_vector, bind, Except.bind, pure,
    Except.pure]

end RightShape

end FaceProblem

/-- The place of the vertex of a number, which is cut to a whole number first. -/
def placeOfNumber (number : Rat) : Int := number.num.tdiv number.den - 1

def faceChecks (problem : FaceProblem α) (number : Rat) (penalty radius stepFactor : α) :
    List Check :=
  let n := problem.dimension
  [ .that (decide (1 ≤ n)) "N >= 1",
    .that (decide (0 ≤ penalty)) "CPEN >= 0",
    .that (decide (problem.inverse.shape = [n, n])) "SIZE(SIMI) == [N, N]",
    .that problem.inverse.isFinite "SIMI is finite",
    .that (decide (problem.values.size = n + 1) &&
        !problem.values.any fun x => isNaN x || isPosInf x)
      "SIZE(FVAL) == N+1 and FVAL is not NaN/+Inf",
    .that (decide (problem.constraints.shape = [problem.constraintCount, n + 1]))
      "SIZE(CONMAT) == [M, N+1]",
    .that (!problem.constraints.any fun x => isNaN x || isNegInf x)
      "CONMAT does not contain NaN/-Inf",
    .that (decide (problem.violations.size = n + 1) &&
        !problem.violations.any fun x => decide (x < 0) || isNaN x || isPosInf x)
      "SIZE(CVAL) == N+1 and CVAL does not contain negative values or NaN/+Inf",
    .that (decide (1 ≤ number) && decide (number ≤ n)) "1 <= JDROP <= N",
    radiusCheck radius,
    .that (decide (0 < stepFactor) && decide (stepFactor < 1)) "0 < FACTOR_GAMMA < 1" ]

def faceStepChecks (n : Nat) (radius stepFactor : α) (step : Tensor α) : List Check :=
  [ .that (decide (step.size = n) && step.isFinite) "SIZE(D) == N, D is finite",
    .that (decide (0.9 * stepFactor * radius < step.norm) &&
        decide (step.norm ≤ 1.1 * stepFactor * radius))
      "|D| == FACTOR_GAMMA*DELTA" ]

def faceStep (settings : Settings α) (problem : FaceProblem α) (number : Rat)
    (penalty radius stepFactor : α) : Outcome α (Tensor α) :=
  guarded settings.checked "GEOSTEP" (faceChecks problem number penalty radius stepFactor)
    (do
      let step ← problem.normalStep (placeOfNumber number) (stepFactor * radius)
      problem.betterSense penalty step)
    (faceStepChecks problem.dimension radius stepFactor)

theorem placeOfNumber_ofNat (k : Nat) : placeOfNumber ((k + 1 : Nat) : Rat) = k := by
  rw [placeOfNumber, Rat.num_natCast, Rat.den_natCast]
  simp

end Simplex

end InterpolationGeometry
