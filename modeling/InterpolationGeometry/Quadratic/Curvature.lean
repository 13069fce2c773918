import InterpolationGeometry.Tensor.Product

/-!
# Directions of extremal curvature

Among the directions of the plane of `v` and `H v`, one of extremal curvature `dᵀ H d / dᵀ d`.  The
part of `H v` across `v` is brought to the length of `v`; in that basis the curvature is a two by
two form, whose eigenvectors are known in closed form.  When `v` and `H v` are parallel the plane is
a line and `H v` itself is the answer.
-/

namespace InterpolationGeometry

open Scalar hiding abs

namespace Quadratic

inductive CurvatureBranch where
  | parallel
  | positive
  | negative
  deriving DecidableEq, Repr

structure CurvatureDirection (α : Type) where
  direction : Tensor α
  branch : CurvatureBranch

variable {α : Type} [Scalar α]

/-- The weight of the second basis vector in an eigenvector of a two by two form, when the first
has the weight `cross`: the eigenvalue of larger absolute value less the curvature of the first. -/
def eigenWeight (first cross second : α) : α × CurvatureBranch :=
  let half := 0.5 * (second - first)
  let root := sqrt (square half + square cross)
  if second + first < 0 then (half - root, .negative) else (half + root, .positive)

/-- The eigenvector in the plane of `v` and a vector `across` it, given the square `vv` of the
length of `v` and the curvature `vhv` along it.  The other vector is brought to the length of `v`
by bringing `v` to the length of the other. -/
def directionInPlane (h v across : Tensor α) (vv vhv : α) :
    Except Failure (CurvatureDirection α) := do
  let dd ← (← across.matmul across).item .ambiguous
  let bend ← across.matmul (← h.product across)
  let dhd ← bend.item .ambiguous
  let ratio := sqrt (dd / vv)
  let cross := ratio * dd
  let (weight, branch) := eigenWeight (ratio * ratio * vhv) cross dhd
  let alongAcross ← (bend.map fun _ => weight).mul across
  let direction ← ((v.scale ratio).scale cross).add alongAcross
  return { direction := direction, branch := branch }

def curvatureDirection (parallelTolerance : α) (h v : Tensor α) :
    Except Failure (CurvatureDirection α) := do
  let lengthSquare ← v.matmul v
  let image ← h.product v
  let overlap ← v.matmul image
  let imageSquare ← image.matmul image
  let vv ← lengthSquare.item .ambiguous
  let vhv ← overlap.item .ambiguous
  let ww ← imageSquare.item .ambiguous
  if vhv * vhv ≤ parallelTolerance * ww * vv then
    directionInPlane h v (← image.sub (v.scale (vhv / vv))) vv vhv
  else
    return { direction := image, branch := .parallel }

/-! ## On a matrix and a vector -/

theorem directionInPlane_vector (n : Nat) (h : Nat → Nat → α) (v d : Nat → α) (vv vhv : α) :
    directionInPlane (.matrix n n h) (.vector n v) (.vector n d) vv vhv =
      let dd := sum n fun k => d k * d k
      let dhd := sum n fun k => d k * sum n fun l => h k l * d l
      let ratio := sqrt (dd / vv)
      let eigen := eigenWeight (ratio * ratio * vhv) (ratio * dd) dhd
      .ok { direction := .vector n fun k => ratio * dd * (ratio * v k) + eigen.1 * d k
            branch := eigen.2 } := by
  simp [directionInPlane, Tensor.matmul_vector_vector, Tensor.product_matrix_vector, bind,
    Except.bind, pure, Except.pure]

theorem curvatureDirection_matrix (parallelTolerance : α) (n : Nat) (h : Nat → Nat → α)
    (v : Nat → α) :
    curvatureDirection parallelTolerance (.matrix n n h) (.vector n v) =
      let w := fun k => sum n fun l => h k l * v l
      let vv := sum n fun k => v k * v k
      let vhv := sum n fun k => v k * w k
      let ww := sum n fun k => w k * w k
      if vhv * vhv ≤ parallelTolerance * ww * vv then
        directionInPlane (.matrix n n h) (.vector n v) (.vector n fun k => w k - vhv / vv * v k)
          vv vhv
      else .ok { direction := .vector n w, branch := .parallel } := by
  simp only [curvatureDirection, Tensor.matmul_vector_vector, Tensor.product_matrix_vector,
    Tensor.item_scalar, Tensor.scale_vector, Tensor.sub_vector, bind, Except.bind, pure,
    Except.pure]

end Quadratic

end InterpolationGeometry
