import InterpolationGeometry.Scalar

/-!
# Removing the cross term

A quadratic form in an orthonormal pair is given by the two curvatures and a cross term.  A rotation
of the pair removes the cross term; a cross term that is small beside the curvatures is left as it
is.
-/

namespace InterpolationGeometry

open Scalar hiding abs

namespace Quadratic

inductive RotationBranch where
  | aligned
  | rotated
  deriving DecidableEq, Repr

/-- A rotation of an orthonormal pair.  The curvature along the first axis after the rotation is
`shift` plus the second curvature before it. -/
structure Rotation (α : Type) where
  shift : α
  cosine : α
  sine : α
  branch : RotationBranch
  deriving DecidableEq, Repr

variable {α : Type} [Scalar α]

namespace Rotation

/-- The rotation that removes the cross term, given the square of the cross term.  Half the
difference of the curvatures must have a finite square. -/
def ofCrossSquare (tolerance first cross second : α) (crossSquare : Except Failure α) :
    Except Failure (Rotation α) :=
  if Scalar.abs cross ≤ tolerance * larger (Scalar.abs first) (Scalar.abs second) then
    .ok { shift := first - second, cosine := 1, sine := 0, branch := .aligned }
  else do
    let half := 0.5 * (first - second)
    let root := sqrt ((← boundedSquare half) + (← crossSquare))
    let shift := if half < 0 then half - root else half + root
    let length := sqrt (square shift + square cross)
    return { shift := shift, cosine := shift / length, sine := cross / length, branch := .rotated }

def ofForm (tolerance first cross second : α) : Except Failure (Rotation α) :=
  ofCrossSquare tolerance first cross second (boundedSquare cross)

end Rotation

end Quadratic

end InterpolationGeometry
