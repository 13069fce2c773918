import InterpolationGeometry.Proofs.Arithmetic.Ordered

/-!
# Values that are not numbers

How a value that is not a number spreads through sums, squares and roots.  These laws hold of exact
numbers and of rounded ones alike; none of them says what a sum or a product is.  Their use is that
a sum of squares is either not a number or not negative, and that its root is a number exactly when
it is one.
-/

namespace InterpolationGeometry

namespace Scalar

/-- Sums, squares and roots of numbers that are not negative, and the spread of values that are not
numbers. -/
class Numeric (α : Type) [Scalar α] : Prop extends Ordered α where
  zero_le_zero : (0 : α) ≤ 0
  add_nonneg {x y : α} : 0 ≤ x → 0 ≤ y → 0 ≤ x + y
  isNaN_add {x y : α} : isNaN x = true ∨ isNaN y = true → isNaN (x + y) = true
  square_nonneg {x : α} : isNaN x = false → 0 ≤ square x
  isNaN_square {x : α} : isNaN x = true → isNaN (square x) = true
  isNaN_sub {x y : α} : isFinite x = true → isFinite y = true → isNaN (x - y) = false
  sqrt_nonneg {x : α} : 0 ≤ x → 0 ≤ sqrt x
  isNaN_sqrt {x : α} : isNaN x = true → isNaN (sqrt x) = true
  isNaN_abs (x : α) : isNaN (abs x) = isNaN x

/-- Lengths of finite vectors, their reciprocals and products of positive numbers are numbers. -/
class Measured (α : Type) [Scalar α] : Prop extends Ordered α where
  isNaN_length {n : Nat} {f : Nat → α} : (∀ k, k < n → isFinite (f k) = true) →
    isNaN (sqrt (sum n fun k => square (f k))) = false
  isNaN_one_div_length {n : Nat} {f : Nat → α} : (∀ k, k < n → isFinite (f k) = true) →
    isNaN (1 / sqrt (sum n fun k => square (f k))) = false
  isNaN_mul {x y : α} : 0 < x → 0 < y → isNaN (x * y) = false

variable {α : Type} [Scalar α] [Numeric α] {n : Nat} {f : Nat → α}

theorem sum_square_nonneg (h : ∀ k, k < n → isNaN (f k) = false) :
    0 ≤ sum n fun k => square (f k) := by
  induction n with
  | zero => exact Numeric.zero_le_zero
  | succ n ih =>
      have hinit := ih fun k hk => h k (by omega)
      have hlast := Numeric.square_nonneg (h n (by omega))
      exact Numeric.add_nonneg hinit hlast

/-- A sum of squares of which one is not a number is not a number. -/
theorem isNaN_sum_square {k : Nat} (hk : k < n) (h : isNaN (f k) = true) :
    isNaN (sum n fun k => square (f k)) = true := by
  induction n with
  | zero => omega
  | succ n ih =>
      apply Numeric.isNaN_add
      rcases Nat.lt_succ_iff_lt_or_eq.1 hk with hlt | rfl
      · exact Or.inl (ih hlt)
      · exact Or.inr (Numeric.isNaN_square h)

theorem isNaN_sum_square_eq_false (h : ∀ k, k < n → isNaN (f k) = false) :
    isNaN (sum n fun k => square (f k)) = false :=
  isNaN_eq_false_of_le_right (sum_square_nonneg h)

/-- The length of a vector is a number exactly when the sum of its squares is. -/
theorem isNaN_sqrt_sum_square (n : Nat) (f : Nat → α) :
    isNaN (sqrt (sum n fun k => square (f k))) = isNaN (sum n fun k => square (f k)) := by
  by_cases h : ∃ k, k < n ∧ isNaN (f k) = true
  · obtain ⟨k, hk, hnan⟩ := h
    have hsum := isNaN_sum_square hk hnan
    rw [hsum, Numeric.isNaN_sqrt hsum]
  · have hnumbers : ∀ k, k < n → isNaN (f k) = false := by
      intro k hk
      cases hnan : isNaN (f k) with
      | false => rfl
      | true => exact absurd ⟨k, hk, hnan⟩ h
    have hroot := Numeric.sqrt_nonneg (sum_square_nonneg hnumbers)
    rw [isNaN_sum_square_eq_false hnumbers, isNaN_eq_false_of_le_right hroot]

end Scalar

end InterpolationGeometry
