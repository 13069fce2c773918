/-!
# Events

What the routines report while they work.  An event is a fact, with the numbers that belong to it;
its text and its level are functions of it, given a way to write numbers.
-/

namespace InterpolationGeometry

inductive Level where
  | debug
  | warning
  deriving DecidableEq, Repr

def Level.name : Level → String
  | debug => "debug"
  | warning => "warning"

inductive StepKind where
  | cauchy
  | scaled
  | planar
  deriving DecidableEq, Repr

def StepKind.name : StepKind → String
  | cauchy => "Cauchy direction"
  | scaled => "scaled step"
  | planar => "two-dimensional step"

inductive Event (α : Type) where
  /-- No coordinate of the step chose a vertex, so the farthest one was taken. -/
  | farthestVertex (place : Option Nat)
  /-- The scores gave no better vertex than the thresholds did. -/
  | thresholdChoiceKept (place : Option Nat)
  /-- All vertices lie at the new point, so the choice was made by distance. -/
  | verticesCoincide (place : Option Nat)
  /-- The step improved the merit and still no vertex was chosen. -/
  | noVertexForStep
  | noVertexForGeometry
  | zeroedEntries (count : Nat) (kind : StepKind)
  | modelNotFinite
  /-- The gradient or the curvature direction vanishes. -/
  | degeneratePlane (gradientSquare directionSquare change : α)
  /-- The plane of gradient and curvature direction offers no better step. -/
  | planeAddsNothing (residualSquare directionSquare change : α)
  | stepVanished (kind : StepKind)
  deriving DecidableEq, Repr

namespace Event

variable {α : Type}

/-- Choices without a vertex are worth a warning. -/
def level : Event α → Level
  | noVertexForStep => .warning
  | noVertexForGeometry => .warning
  | _ => .debug

def placeText : Option Nat → String
  | none => "None"
  | some k => toString k

/-- The text of an event, with `number` to write its numbers.  The square of the residual is a
difference of nearly equal numbers when the plane is nearly a line, so that its digits may mean
nothing; `residual` writes it. -/
def message (number residual : α → String) : Event α → String
  | farthestVertex place =>
      "[SetdropTR] no candidate from SIMID; dropping the farthest vertex (j=" ++
        placeText place ++ ")"
  | thresholdChoiceKept place =>
      "[SetdropTR] score pass kept the threshold choice (slot=" ++ placeText place ++ ")"
  | verticesCoincide place =>
      "[SetdropTR] every vertex coincides with x_0 + d; dropping j=" ++ placeText place ++
        " by distance"
  | noVertexForStep => "[SetdropTR] no vertex to drop although the step improved the merit"
  | noVertexForGeometry => "[SetdropGeo] no vertex violates the geometry thresholds"
  | zeroedEntries count kind =>
      "[QGeo] zeroed " ++ toString count ++ " NaN component(s) of the " ++ kind.name
  | modelNotFinite => "[QGeo] non-finite g or H; returning the Cauchy direction"
  | degeneratePlane gradientSquare directionSquare change =>
      "[QGeo] degenerate subspace (gg=" ++ number gradientSquare ++ ", dd=" ++
        number directionSquare ++ "); returning the Cauchy direction, vmax=" ++ number change
  | planeAddsNothing residualSquare directionSquare change =>
      "[QGeo] span\x7bg, d\x7d adds nothing (vv=" ++ residual residualSquare ++ ", dd=" ++
        number directionSquare ++ "); returning the scaled curvature direction, vmax=" ++
        number change
  | stepVanished kind =>
      "[QGeo] " ++ kind.name ++ " vanished; returning the Cauchy direction"

end Event

end InterpolationGeometry
