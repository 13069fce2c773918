import InterpolationGeometry.Tensor.Product

/-!
# Inverses up to a tolerance

Two square matrices are inverse to a tolerance when both of their products are close to the
identity, measured by the largest row sum of absolute values and relative to the larger of the two
matrices.
-/

namespace InterpolationGeometry

open Scalar hiding abs

namespace Tensor

variable {α : Type} [Scalar α]

def identity (n : Nat) : Tensor α := matrix n n fun i j => if i = j then 1 else 0

/-- The largest row sum of absolute values.  It asks for finite entries and at least one row. -/
def rowSumNorm (t : Tensor α) : Except Failure α :=
  if t.isFinite then do
    let sums ← (t.map Scalar.abs).sumAxis 1
    match sums.greatest? with
    | some x => return x
    | none => .error .emptyReduction
  else
    .error .notFinite

def nearIdentity (bound : α) (n : Nat) (a b : Tensor α) : Except Failure Bool := do
  let gap ← (← a.matmul b).sub (identity n)
  return decide ((← gap.rowSumNorm) ≤ bound)

/-- Whether `b` is an inverse of the square matrix `a` up to a tolerance. -/
def isInverse (tolerance : α) (a b : Tensor α) : Except Failure Bool := do
  let n ← a.axisLength 0
  if a.shape = [n, n] ∧ b.shape = [n, n] ∧ a.isFinite ∧ b.isFinite then
    let size := larger (← a.rowSumNorm) (← b.rowSumNorm)
    let bound := larger tolerance (tolerance * size)
    if ← nearIdentity bound n a b then nearIdentity bound n b a else return false
  else
    return false

end Tensor

end InterpolationGeometry
