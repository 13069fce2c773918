import InterpolationGeometry.Contract
import InterpolationGeometry.Selection
import InterpolationGeometry.Settings
import InterpolationGeometry.Tensor.Symmetry
import InterpolationGeometry.Quadratic.Combination
import InterpolationGeometry.Quadratic.Curvature
import InterpolationGeometry.Quadratic.Rotation

/-!
# Steps for a quadratic model

For a model `Q(s) = gᵀ s + ½ sᵀ H s` and a radius, a step within the radius that changes the model
by nearly as much as possible.  The search goes from a direction of extremal curvature in the plane
of one column of `H` and its image to the plane of the gradient and that direction.  Each way out of
the search is an `Exit`, and every way leads back to the scaled gradient when its own step vanishes.
-/

namespace InterpolationGeometry

open Scalar hiding abs

namespace Quadratic

inductive Exit where
  /-- The model has an entry that is not finite. -/
  | nonfinite
  /-- The gradient or the curvature direction vanishes. -/
  | degenerate
  /-- A multiple of the curvature direction is good enough. -/
  | scaled
  /-- The best of eight steps in the plane. -/
  | planar
  deriving DecidableEq, Repr

/-- A step, the change of the model that it is credited with, and how the search ended. -/
structure Step (α : Type) where
  step : Tensor α
  change : α
  exit : Exit

variable {α : Type} [Scalar α]

def finiteOrZero (x : α) : α := if Scalar.isFinite x then x else 0

/-- A step with its entries that are not a number set to zero, which is reported. -/
def clearNaN (kind : StepKind) (step : Tensor α) : Outcome α (Tensor α) := do
  if step.countNaN = 0 then
    return step
  Outcome.report (.zeroedEntries step.countNaN kind)
  return step.zeroNaN

/-- The gradient at the length of the radius, turned around when the curvature along it is
negative. -/
def cauchyStep (g h : Tensor α) (radius : α) : Outcome α (Tensor α) := do
  let gg ← g.dot g
  let ghg ← g.dot (← h.matmul g)
  let along := g.scale (radius / sqrt gg)
  clearNaN .cauchy (if ghg < 0 then along.neg else along)

def modelChange (g h step : Tensor α) : Except Failure α := do
  let slope ← g.dot step
  let curvature ← step.dot (← h.matmul step)
  return finiteOrZero (Scalar.abs (slope + 0.5 * curvature))

def unlessVanished (kind : StepKind) (step other : Tensor α) : Outcome α (Tensor α) := do
  if (← step.dot step) ≤ 0 then
    Outcome.report (.stepVanished kind)
    return other
  return step

def longestColumn (h : Tensor α) : Except Failure Nat := do
  match ← Selection.argmax? (← h.squares.sumAxis 0) none with
  | some k => return k
  | none => .error .emptyReduction

/-- The best of eight steps in the plane of the gradient `g` and the vector `v` across it, given
the squares of their lengths. -/
def planarStep (settings : Settings α) (g h v : Tensor α) (gg vv radius : α) :
    Except Failure (Tensor α × α) := do
  let hv ← h.matmul v
  let gLength := sqrt gg
  let vLength := sqrt vv
  let ghg := (← g.dot (← h.matmul g)) / gg
  let vhg := (← g.dot hv) / (vLength * gLength)
  let vhv ← divide (← v.dot hv) vv
  let turn ← Rotation.ofCrossSquare settings.crossTermTolerance ghg vhg vhv (.ok (square vhg))
  let first ← (g.scale (turn.cosine / gLength)).add (v.scale (turn.sine / vLength))
  let second ← (v.scale (turn.cosine / vLength)).sub (g.scale (turn.sine / gLength))
  let slope := turn.cosine * gLength / radius
  let slope' := -turn.sine * gLength / radius
  let best := Combination.best slope slope' turn.shift ghg vhv radius
  let step ← (first.scale best.first).add (second.scale best.second)
  return (step, best.change)

/-- The squared lengths of the gradient and of a direction, and the slope and the curvature along
the direction. -/
structure Line (α : Type) where
  gradientSquare : α
  slope : α
  directionSquare : α
  curvature : α

namespace Line

def of (g h d : Tensor α) : Except Failure (Line α) := do
  let gradientSquare ← g.dot g
  let slope ← g.dot d
  let directionSquare ← d.dot d
  let curvature ← d.dot (← h.matmul d)
  return { gradientSquare, slope, directionSquare, curvature }

def spansPlane (line : Line α) : Bool :=
  decide (0 < line.gradientSquare) && decide (0 < line.directionSquare)

/-- The factor that brings the direction to the length of the radius, in the sense in which slope
and curvature pull together. -/
def scaling (line : Line α) (radius : α) : α :=
  if line.slope * line.curvature < 0 then -radius / sqrt line.directionSquare
  else radius / sqrt line.directionSquare

def change (line : Line α) (factor : α) : α :=
  finiteOrZero (Scalar.abs (factor * (line.slope + 0.5 * factor * line.curvature)))

/-- Whether the plane of gradient and direction is worth a search: the slope must weigh enough
beside the curvature, and the part of the direction across the gradient must be long enough, its
squared length being the last argument. -/
def isWide (line : Line α) (settings : Settings α) (radius residualSquare : α) : Bool :=
  decide (settings.curvatureRatioTolerance * radius * Scalar.abs line.curvature <
      sqrt line.gradientSquare * line.directionSquare) &&
    decide (settings.orthogonalityTolerance * line.directionSquare < residualSquare)

end Line

/-- The search in the plane of the gradient and a direction of extremal curvature, with the scaled
gradient to fall back to. -/
def searchPlane (settings : Settings α) (g h d cauchy : Tensor α) (radius : α) :
    Outcome α (Step α) := do
  let line ← Line.of g h d
  if !line.spansPlane then
    let change ← modelChange g h cauchy
    Outcome.report (.degeneratePlane line.gradientSquare line.directionSquare change)
    return { step := cauchy, change := change, exit := .degenerate }
  let v ← d.sub (g.scale (line.slope / line.gradientSquare))
  let vv ← v.dot v
  let scaled ← clearNaN .scaled (d.scale (line.scaling radius))
  if !line.isWide settings radius vv then
    let change := line.change (line.scaling radius)
    Outcome.report (.planeAddsNothing vv line.directionSquare change)
    let step ← unlessVanished .scaled scaled cauchy
    return { step := step, change := change, exit := .scaled }
  let (planar, change) ← planarStep settings g h v line.gradientSquare vv radius
  let step ← unlessVanished .planar (← clearNaN .planar planar) cauchy
  return { step := step, change := finiteOrZero change, exit := .planar }

def search (settings : Settings α) (g h : Tensor α) (radius : α) : Outcome α (Step α) := do
  let cauchy ← cauchyStep g h radius
  if !(g.isFinite && h.isFinite) then
    Outcome.report .modelNotFinite
    return { step := cauchy, change := 0, exit := .nonfinite }
  let column ← h.column (← longestColumn h)
  let d := (← curvatureDirection settings.parallelTolerance h column).direction
  searchPlane settings g h d cauchy radius

def routine : String := "QGEOSTEP"

def modelChecks (settings : Settings α) (n : Nat) (h : Tensor α) (radius : α) : List Check :=
  [ .that (decide (1 ≤ n)) "N >= 1",
    .that (decide (0 < radius)) "DELBAR > 0",
    .that (decide (h.shape = [n, n]) && h.isSymmetric settings.symmetryTolerance)
      "H is n-by-n and symmetric" ]

def stepChecks (n : Nat) (radius : α) (result : Step α) : List Check :=
  [ .that (decide (result.step.shape = [n])) "SIZE(D) == N",
    { statement := "||D|| <= DELBAR"
      holds := do
        let length := sqrt (← result.step.dot result.step)
        return decide (length ≤ radius * (1 + 1e-6) + 1e-300) },
    .that (decide (0 ≤ result.change)) "VMAX >= 0" ]

def geometryStep (settings : Settings α) (gradient hessian : Tensor α) (radius : α) :
    Outcome α (Step α) :=
  let g := gradient.flatten
  let h := hessian.asMatrix
  guarded settings.checked routine (modelChecks settings g.size h radius)
    (search settings g h radius) (stepChecks g.size radius)

/-! ## On vectors and matrices -/

theorem Line.of_vector (n : Nat) (g d : Nat → α) (h : Nat → Nat → α) :
    Line.of (.vector n g) (.matrix n n h) (.vector n d) =
      .ok { gradientSquare := sum n fun k => g k * g k
            slope := sum n fun k => g k * d k
            directionSquare := sum n fun k => d k * d k
            curvature := sum n fun k => d k * sum n fun l => h k l * d l } := by
  simp [Line.of, Tensor.dot_vector, Tensor.matmul_matrix_vector, bind, Except.bind, pure,
    Except.pure]

theorem modelChange_vector (n : Nat) (g d : Nat → α) (h : Nat → Nat → α) :
    modelChange (.vector n g) (.matrix n n h) (.vector n d) =
      .ok (finiteOrZero (Scalar.abs ((sum n fun k => g k * d k) +
        0.5 * sum n fun k => d k * sum n fun l => h k l * d l))) := by
  simp [modelChange, Tensor.dot_vector, Tensor.matmul_matrix_vector, bind, Except.bind, pure,
    Except.pure]

theorem planarStep_vector (settings : Settings α) (n : Nat) (g v : Nat → α) (h : Nat → Nat → α)
    (gg vv radius : α) :
    planarStep settings (.vector n g) (.matrix n n h) (.vector n v) gg vv radius =
      (divide (sum n fun k => v k * sum n fun l => h k l * v l) vv).bind fun vhv =>
        let ghg := (sum n fun k => g k * sum n fun l => h k l * g l) / gg
        let vhg := (sum n fun k => g k * sum n fun l => h k l * v l) / (sqrt vv * sqrt gg)
        (Rotation.ofCrossSquare settings.crossTermTolerance ghg vhg vhv
          (.ok (square vhg))).bind fun turn =>
            let best := Combination.best (turn.cosine * sqrt gg / radius)
              (-turn.sine * sqrt gg / radius) turn.shift ghg vhv radius
            .ok (.vector n fun k =>
              best.first * (turn.cosine / sqrt gg * g k + turn.sine / sqrt vv * v k) +
                best.second * (turn.cosine / sqrt vv * v k - turn.sine / sqrt gg * g k),
              best.change) := by
  simp only [planarStep, Tensor.matmul_matrix_vector, Tensor.dot_vector, Tensor.scale_vector,
    Tensor.sub_vector, Tensor.add_vector, bind, Except.bind, pure, Except.pure]

theorem clearNaN_of_forall {kind : StepKind} {n : Nat} {d : Nat → α}
    (h : ∀ k, k < n → isNaN (d k) = false) :
    clearNaN kind (.vector n d) = pure (.vector n d) := by
  have hcount : (Tensor.vector n d).countNaN = 0 := by
    rw [Tensor.countNaN, List.countP_eq_zero, Tensor.toList_vector]
    intro x hx
    obtain ⟨k, hk, rfl⟩ := List.mem_map.1 hx
    simp [h k (List.mem_range.1 hk)]
  simp [clearNaN, hcount]

theorem result_clearNaN {kind : StepKind} {n : Nat} {d : Nat → α} :
    (clearNaN kind (.vector n d)).result =
      .ok (.vector n fun k => if isNaN (d k) then 0 else d k) := by
  by_cases h : (Tensor.vector n d).countNaN = 0
  · have hnumbers : ∀ k, k < n → isNaN (d k) = false := by
      intro k hk
      rw [Tensor.countNaN, List.countP_eq_zero, Tensor.toList_vector] at h
      have := h (d k) (List.mem_map.2 ⟨k, List.mem_range.2 hk, rfl⟩)
      simpa using this
    rw [clearNaN_of_forall hnumbers]
    simp only [Outcome.result_pure]
    congr 1
    exact Tensor.vector_congr fun k hk => by simp [hnumbers k hk]
  · simp only [clearNaN, h, if_false, Outcome.report_bind, Outcome.result_pure,
      Tensor.zeroNaN, Tensor.map_vector]

end Quadratic

end InterpolationGeometry
