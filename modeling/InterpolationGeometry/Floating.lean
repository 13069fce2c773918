import InterpolationGeometry.Scalar

/-!
# Binary floating point as a scalar

Binary64 with its own operations: division by zero gives an infinity or no number, and comparisons
with a value that is not a number are false.
-/

namespace InterpolationGeometry

/-- Binary floating point, with the operations of its standard. -/
instance : Scalar Float where
  zero := 0.0
  one := 1.0
  sqrt := Float.sqrt
  abs := Float.abs
  isFinite := Float.isFinite
  decideLT := inferInstance
  decideLE := inferInstance

theorem zero_eq_float : (0 : Float) = 0.0 := rfl

end InterpolationGeometry
