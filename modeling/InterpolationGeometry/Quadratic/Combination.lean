import InterpolationGeometry.Scalar

/-!
# The best of eight steps

In an orthonormal pair without a cross term a quadratic model is two slopes and two curvatures.  Of
the steps of full length along either axis and along either diagonal, in both senses, one that
changes the model most.
-/

namespace InterpolationGeometry

open Scalar hiding abs

namespace Quadratic

inductive CombinationBranch where
  | first
  | second
  | diagonal
  deriving DecidableEq, Repr

/-- A step in an orthonormal pair and the change of the model that it makes. -/
structure Combination (α : Type) where
  first : α
  second : α
  change : α
  branch : CombinationBranch
  deriving DecidableEq, Repr

variable {α : Type} [Scalar α]

/-- A length with the sign that makes a slope and a curvature pull together. -/
def agreeing (slope curvature length : α) : α :=
  if slope * curvature < 0 then -length else length

/-- The best step of full length.  Slopes are per radius, and the curvatures along the axes are
`shift + other` and `own - shift`. -/
def Combination.best (slope slope' shift own other radius : α) : Combination α :=
  let along := Scalar.abs slope + 0.5 * Scalar.abs (shift + other)
  let across := Scalar.abs slope' + 0.5 * Scalar.abs (own - shift)
  let between := sqrt 0.5 * (Scalar.abs slope + Scalar.abs slope') + 0.25 * Scalar.abs (own + other)
  let change := radius * radius * larger (larger along across) between
  if across ≤ along ∧ between ≤ along then
    { first := agreeing slope (shift + other) radius, second := 0
      change := change, branch := .first }
  else if between ≤ across then
    { first := 0, second := agreeing slope' (own - shift) radius
      change := change, branch := .second }
  else
    { first := agreeing slope (own + other) (sqrt 0.5 * radius)
      second := agreeing slope' (own + other) (sqrt 0.5 * radius)
      change := change, branch := .diagonal }

end Quadratic

end InterpolationGeometry
