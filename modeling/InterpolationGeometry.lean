import InterpolationGeometry.Control
import InterpolationGeometry.Decimal.Scientific
import InterpolationGeometry.Floating
import InterpolationGeometry.Tensor.Nested
import InterpolationGeometry.Proofs.Control.AcceptedStep
import InterpolationGeometry.Proofs.Control.Checking
import InterpolationGeometry.Proofs.Quadratic.EightSteps
import InterpolationGeometry.Proofs.Quadratic.TwoDimensions
import InterpolationGeometry.Proofs.Simplex.Mending
import InterpolationGeometry.Proofs.Simplex.Renumbering
import InterpolationGeometry.Proofs.Simplex.Scores
import InterpolationGeometry.Proofs.Simplex.Thresholds
import InterpolationGeometry.Proofs.Tensor.Residual
import InterpolationGeometry.Proofs.Tensor.SymmetryTest
