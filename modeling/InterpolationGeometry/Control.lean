import InterpolationGeometry.Quadratic.Step
import InterpolationGeometry.Simplex.FaceStep
import InterpolationGeometry.Simplex.Replacement

/-!
# Geometry control

What a trust-region method asks about its interpolation points, answered under one set of settings.
Each answer comes with a report: the answer itself and the facts that explain it.
-/

namespace InterpolationGeometry

namespace Control

open Simplex

variable {α : Type} [Scalar α]

/-- The least height and the greatest length in a simplex, if it has any. -/
structure DistanceReport (α : Type) where
  minHeight : Option α
  maxLength : Option α
  deriving DecidableEq, Repr

def distanceReport (simplex inverse : Tensor α) : Except Failure (DistanceReport α) := do
  let distances ← distances simplex.asMatrix inverse.asMatrix
  return { minHeight := distances.heights.least?, maxLength := distances.lengths.greatest? }

/-- Why a vertex is dropped to mend a simplex. -/
inductive DropReason where
  | longEdge
  | thinFace
  | none
  deriving DecidableEq, Repr

def DistanceReport.reason (report : DistanceReport α) (minHeight maxLength : α) : DropReason :=
  if report.maxLength.any fun length => decide (maxLength < length) then .longEdge
  else if report.minHeight.any fun height => decide (height < minHeight) then .thinFace
  else .none

structure StepDrop (α : Type) where
  vertex : Option Nat
  improved : Bool
  scheme : DropScheme
  distances : DistanceReport α

structure GeometryDrop (α : Type) where
  vertex : Option Nat
  distances : DistanceReport α
  reason : DropReason

def GeometryDrop.isAdequate (drop : GeometryDrop α) : Bool := drop.reason = .none

/-- A step across a face, its length, and the length it was meant to have. -/
structure FaceReport (α : Type) where
  step : Tensor α
  number : Int
  length : α
  targetLength : α

structure QuadraticReport (α : Type) where
  step : Quadratic.Step α
  length : α
  radius : α

def isAcceptable (settings : Settings α) (radius : α) (simplex inverse : Tensor α) :
    Outcome α Bool :=
  Simplex.isAcceptable settings radius settings.minHeightFactor settings.maxLengthFactor simplex
    inverse

def dropForStep (settings : Settings α) (improved : Bool) (step : Tensor α) (radius : α)
    (simplex inverse : Tensor α) : Outcome α (StepDrop α) := do
  let vertex ← Simplex.dropForStep settings improved step radius settings.minHeightFactor
    settings.farLengthFactor simplex inverse
  let distances ← distanceReport simplex inverse
  return { vertex, improved, scheme := settings.dropScheme, distances }

def dropForGeometry (settings : Settings α) (radius : α) (simplex inverse : Tensor α) :
    Outcome α (GeometryDrop α) := do
  let vertex ← Simplex.dropForGeometry settings radius settings.minHeightFactor
    settings.maxLengthFactor simplex inverse
  let distances ← distanceReport simplex inverse
  let reason := distances.reason (settings.minHeightFactor * radius)
    (settings.maxLengthFactor * radius)
  return { vertex, distances, reason }

def faceStep (settings : Settings α) (problem : FaceProblem α) (number : Rat)
    (penalty radius : α) : Outcome α (FaceReport α) := do
  let step ← Simplex.faceStep settings problem number penalty radius settings.stepFactor
  return {
    step
    number := placeOfNumber number + 1
    length := step.norm
    targetLength := settings.stepFactor * radius }

def quadraticStep (settings : Settings α) (gradient hessian : Tensor α) (radius : α) :
    Outcome α (QuadraticReport α) := do
  let step ← Quadratic.geometryStep settings gradient hessian radius
  return { step, length := step.step.norm, radius }

end Control

end InterpolationGeometry
