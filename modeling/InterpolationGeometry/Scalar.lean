import InterpolationGeometry.Failure

/-!
# Scalars

The arithmetic that every routine is written in.  Only operations are asked for, no laws: binary
floating point, exact reals and reals with infinities and a not-a-number value are all scalars, and
a theorem names the laws it needs.

Comparisons are `<` and `≤` alone.  A value that is not `≤` itself is *not a number*.
-/

namespace InterpolationGeometry

/-- A type of numbers with the operations that the routines use. -/
class Scalar (α : Type) extends Zero α, One α, Add α, Sub α, Mul α, Div α, Neg α, LT α, LE α,
    OfScientific α, Inhabited α where
  /-- Square root; that of a negative value is the type's own choice. -/
  sqrt : α → α
  abs : α → α
  isFinite : α → Bool
  decideLT : DecidableLT α
  decideLE : DecidableLE α

namespace Scalar

-- A type that has an operation of its own is to be read with that one.
attribute [instance (100)] Scalar.toZero Scalar.toOne Scalar.toAdd Scalar.toSub Scalar.toMul
  Scalar.toDiv Scalar.toNeg Scalar.toLT Scalar.toLE Scalar.toOfScientific Scalar.toInhabited

variable {α : Type} [Scalar α]

instance (priority := 100) instDecidableLT : DecidableLT α := decideLT

instance (priority := 100) instDecidableLE : DecidableLE α := decideLE

/-- The value does not even compare with itself. -/
def isNaN (x : α) : Bool := !decide (x ≤ x)

def isInfinite (x : α) : Bool := !isFinite x && !isNaN x

def isPosInf (x : α) : Bool := isInfinite x && decide (0 < x)

def isNegInf (x : α) : Bool := isInfinite x && decide (x < 0)

def same (x y : α) : Bool := decide (x ≤ y) && decide (y ≤ x)

def square (x : α) : α := x * x

/-- The larger of two values: the first, unless the second is greater. -/
def larger (x y : α) : α := if x < y then y else x

/-- The upper bound of two values; a value that is not a number spreads. -/
def upper (x y : α) : α := if isNaN x then x else if isNaN y then y else larger x y

def lower (x y : α) : α :=
  if isNaN x then x else if isNaN y then y else if y < x then y else x

/-- Division by a divisor that must not be zero. -/
def divide (x y : α) : Except Failure α :=
  if same y 0 then .error .divisionByZero else .ok (x / y)

/-- The square of a value, which must stay finite when the value is. -/
def boundedSquare (x : α) : Except Failure α :=
  if isFinite x && !isFinite (square x) then .error .overflow else .ok (square x)

def sum : Nat → (Nat → α) → α
  | 0, _ => 0
  | n + 1, f => sum n f + f n

@[simp] theorem sum_zero (f : Nat → α) : sum 0 f = 0 := rfl

@[simp] theorem sum_succ (n : Nat) (f : Nat → α) : sum (n + 1) f = sum n f + f n := rfl

theorem sum_congr {n : Nat} {f g : Nat → α} (h : ∀ k, k < n → f k = g k) :
    sum n f = sum n g := by
  induction n with
  | zero => rfl
  | succ n ih =>
      rw [sum_succ, sum_succ, ih fun k hk => h k (by omega), h n (by omega)]

theorem isInfinite_eq_false_of_isNaN {x : α} (h : isNaN x = true) : isInfinite x = false := by
  simp [isInfinite, h]

theorem divide_eq_ok_iff {x y z : α} : divide x y = .ok z ↔ same y 0 = false ∧ x / y = z := by
  cases h : same y 0 <;> simp [divide, h]

end Scalar

end InterpolationGeometry
