import InterpolationGeometry.Scalar
import InterpolationGeometry.Text.Quoted

/-!
# Settings

The thresholds, tolerances and choices that the routines are run with.  A simplex is kept in shape
by factors of the radius with

  `0 < minHeightFactor < stepFactor < 1 < maxLengthFactor` and `1 < farLengthFactor`;

nothing enforces this order.  Settings that are built anew must name a known drop scheme
(`Settings.build`), while a single assignment takes any name.
-/

namespace InterpolationGeometry

inductive DropScheme where
  /-- By a score of distance and volume, after the thresholds. -/
  | score
  /-- By the thresholds alone. -/
  | powell
  /-- A name that is no scheme; it acts like the thresholds alone. -/
  | unlisted (name : Option String)
  deriving DecidableEq, Repr

namespace DropScheme

def ofName (name : Option String) : DropScheme :=
  if name = some "score" then score else if name = some "powell" then powell else unlisted name

def name : DropScheme → Option String
  | score => some "score"
  | powell => some "powell"
  | unlisted name => name

@[simp] theorem name_ofName (n : Option String) : (ofName n).name = n := by
  unfold ofName
  split
  · simp_all [name]
  · split <;> simp_all [name]

end DropScheme

/-- The thresholds, tolerances and choices of the routines. -/
structure Settings (α : Type) where
  /-- Least height of a vertex over its face, relative to the radius. -/
  minHeightFactor : α
  /-- Greatest length of an edge, relative to the radius. -/
  maxLengthFactor : α
  /-- Length of an edge, relative to the radius, beyond which its vertex is far away. -/
  farLengthFactor : α
  /-- Length of a step that mends the geometry, relative to the radius. -/
  stepFactor : α
  checked : Bool
  /-- Tolerance of the test that one matrix is the inverse of another. -/
  inverseTolerance : α
  /-- Relative tolerance of the test that a matrix is symmetric. -/
  symmetryTolerance : α
  dropScheme : DropScheme
  /-- A vector and its image are parallel beyond this squared cosine. -/
  parallelTolerance : α
  /-- Slope against curvature below which the plane is not searched. -/
  curvatureRatioTolerance : α
  /-- Squared sine below which gradient and curvature direction are parallel. -/
  orthogonalityTolerance : α
  /-- Cross term, relative to the curvatures, below which the axes are not rotated. -/
  crossTermTolerance : α
  deriving DecidableEq, Repr

inductive Setting (α : Type) where
  | minHeightFactor (value : α)
  | maxLengthFactor (value : α)
  | farLengthFactor (value : α)
  | stepFactor (value : α)
  | checked (value : Bool)
  | inverseTolerance (value : α)
  | symmetryTolerance (value : α)
  | dropScheme (value : DropScheme)
  | parallelTolerance (value : α)
  | curvatureRatioTolerance (value : α)
  | orthogonalityTolerance (value : α)
  | crossTermTolerance (value : α)

namespace Settings

variable {α : Type}

def standard [Scalar α] : Settings α where
  minHeightFactor := 0.25
  maxLengthFactor := 2.1
  farLengthFactor := 1.1
  stepFactor := 0.5
  checked := false
  inverseTolerance := 0.1
  symmetryTolerance := 1e-10
  dropScheme := .score
  parallelTolerance := 0.9999
  curvatureRatioTolerance := 5e-3
  orthogonalityTolerance := 1e-4
  crossTermTolerance := 0.01

def assign (settings : Settings α) : Setting α → Settings α
  | .minHeightFactor value => { settings with minHeightFactor := value }
  | .maxLengthFactor value => { settings with maxLengthFactor := value }
  | .farLengthFactor value => { settings with farLengthFactor := value }
  | .stepFactor value => { settings with stepFactor := value }
  | .checked value => { settings with checked := value }
  | .inverseTolerance value => { settings with inverseTolerance := value }
  | .symmetryTolerance value => { settings with symmetryTolerance := value }
  | .dropScheme value => { settings with dropScheme := value }
  | .parallelTolerance value => { settings with parallelTolerance := value }
  | .curvatureRatioTolerance value => { settings with curvatureRatioTolerance := value }
  | .orthogonalityTolerance value => { settings with orthogonalityTolerance := value }
  | .crossTermTolerance value => { settings with crossTermTolerance := value }

def validate (settings : Settings α) : Except Failure (Settings α) :=
  match settings.dropScheme with
  | .unlisted name => .error (.unknownScheme (Text.quotedOrNone name))
  | _ => .ok settings

/-- The standard settings with some of them changed, if they name a known drop scheme. -/
def build [Scalar α] (changes : List (Setting α)) : Except Failure (Settings α) :=
  validate (changes.foldl assign standard)

theorem eq_of_build [Scalar α] {changes : List (Setting α)} {settings : Settings α}
    (h : build changes = .ok settings) : settings = changes.foldl assign standard := by
  unfold build validate at h
  split at h <;> simp_all

theorem validate_standard [Scalar α] :
    validate (standard : Settings α) = .ok standard := rfl

end Settings

end InterpolationGeometry
