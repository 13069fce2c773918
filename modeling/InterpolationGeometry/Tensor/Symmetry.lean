import InterpolationGeometry.Tensor.Axis

/-!
# Symmetry up to a tolerance

A matrix is symmetric to a relative tolerance when it is square and passes three comparisons with
its transpose, one after the other: the places of the finite entries are the same, infinite entries
are equal, and so are the other entries, up to a tolerance that grows with the size of the matrix
and of the entry.  Before the last comparison all entries that are not finite are replaced by zero.
-/

namespace InterpolationGeometry

open Scalar hiding abs

namespace Tensor

def opposesBy {α : Type} [Inhabited α] (related : α → α → Bool) (n : Nat) (t : Tensor α) : Bool :=
  (List.range n).all fun i => (List.range n).all fun j => related (t.get [i, j]) (t.get [j, i])

variable {α : Type} [Scalar α]

def zeroNonFinite (t : Tensor α) : Tensor α := t.map fun x => if Scalar.isFinite x then x else 0

/-- The largest absolute value of a finite entry, and at least one. -/
def magnitude (t : Tensor α) : α :=
  larger 1 ((t.zeroNonFinite.map Scalar.abs).greatest?.getD 1)

/-- Whether two values are equal, or differ by at most a bound that grows with the second one. -/
def isClose (absolute relative x y : α) : Bool :=
  same x y || decide (Scalar.abs (x - y) ≤ absolute + relative * Scalar.abs y)

/-- Whether a tensor is a square matrix that equals its transpose up to a tolerance. -/
def isSymmetric (tolerance : α) (t : Tensor α) : Bool :=
  match t.shape with
  | [m, n] =>
      m == n &&
        ((t.map Scalar.isFinite).opposesBy (· == ·) n &&
          (t.opposesBy (fun x y => !isInfinite x || same x y) n &&
            t.zeroNonFinite.opposesBy (isClose (tolerance * t.magnitude) tolerance) n))
  | _ => false

theorem isSymmetric_eq_false_of_shape {tolerance : α} {t : Tensor α}
    (h : ∀ n, t.shape ≠ [n, n]) : t.isSymmetric tolerance = false := by
  unfold isSymmetric
  split
  · rename_i m n hshape
    have : m ≠ n := fun hmn => h n (by rw [hshape, hmn])
    simp [this]
  · rfl

theorem opposesBy_matrix_iff {β : Type} [Inhabited β] {related : β → β → Bool} {n : Nat}
    {f : Nat → Nat → β} :
    (matrix n n f).opposesBy related n = true ↔
      ∀ i j, i < n → j < n → related (f i j) (f j i) = true := by
  simp only [opposesBy, List.all_eq_true, List.mem_range]
  constructor
  · intro h i j hi hj
    simpa [hi, hj] using h i hi j hj
  · intro h i hi j hj
    simpa [hi, hj] using h i j hi hj

theorem isSymmetric_matrix_iff {tolerance : α} {n : Nat} {f : Nat → Nat → α} :
    (matrix n n f).isSymmetric tolerance = true ↔ ∀ i j, i < n → j < n →
      Scalar.isFinite (f i j) = Scalar.isFinite (f j i) ∧
        (isInfinite (f i j) = true → same (f i j) (f j i) = true) ∧
        isClose (tolerance * (matrix n n f).magnitude) tolerance
          (if Scalar.isFinite (f i j) then f i j else 0)
          (if Scalar.isFinite (f j i) then f j i else 0) = true := by
  simp only [isSymmetric, shape_matrix, BEq.rfl, Bool.true_and, Bool.and_eq_true, zeroNonFinite,
    map_matrix, opposesBy_matrix_iff, beq_iff_eq, Bool.or_eq_true, Bool.not_eq_true']
  constructor
  · rintro ⟨hfinite, hinfinite, hclose⟩ i j hi hj
    refine ⟨hfinite i j hi hj, fun h => ?_, hclose i j hi hj⟩
    exact (hinfinite i j hi hj).resolve_left (by simp [h])
  · intro h
    refine ⟨fun i j hi hj => (h i j hi hj).1, fun i j hi hj => ?_,
      fun i j hi hj => (h i j hi hj).2.2⟩
    cases hinfinite : isInfinite (f i j) with
    | false => exact Or.inl rfl
    | true => exact Or.inr ((h i j hi hj).2.1 hinfinite)

end Tensor

end InterpolationGeometry
