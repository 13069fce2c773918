import InterpolationGeometry.Proofs.Arithmetic.Numeric
import Mathlib.Data.EReal.Basic
import Mathlib.Analysis.Real.Sqrt

/-!
# Reals with infinities and a value that is not a number

Arithmetic that is exact on reals and otherwise follows the rules of binary floating point: sums of
opposite infinities, products of zero and an infinity and quotients of two zeros or two infinities
are not numbers, and a real divided by zero is infinite with its own sign.  Zero has no sign.
-/

namespace InterpolationGeometry

/-- A real, an infinity or no number. -/
inductive Extended where
  | finite (x : ℝ)
  | infinite (negative : Bool)
  | nan

namespace Extended

/-- The place of a value in the order of its numbers. -/
noncomputable def rank : Extended → EReal
  | finite x => x
  | infinite true => ⊥
  | infinite false => ⊤
  | nan => 0

noncomputable def add : Extended → Extended → Extended
  | finite x, finite y => finite (x + y)
  | infinite s, infinite t => if s = t then infinite s else nan
  | infinite s, finite _ => infinite s
  | finite _, infinite s => infinite s
  | nan, _ => nan
  | _, nan => nan

noncomputable def neg : Extended → Extended
  | finite x => finite (-x)
  | infinite s => infinite !s
  | nan => nan

noncomputable def mul : Extended → Extended → Extended
  | finite x, finite y => finite (x * y)
  | infinite s, infinite t => infinite (s != t)
  | infinite s, finite x => if x = 0 then nan else infinite (s != decide (x < 0))
  | finite x, infinite s => if x = 0 then nan else infinite (s != decide (x < 0))
  | nan, _ => nan
  | _, nan => nan

noncomputable def div : Extended → Extended → Extended
  | finite x, finite y =>
      if y = 0 then if x = 0 then nan else infinite (decide (x < 0)) else finite (x / y)
  | infinite _, infinite _ => nan
  | infinite s, finite x => infinite (s != decide (x < 0))
  | finite _, infinite _ => finite 0
  | nan, _ => nan
  | _, nan => nan

noncomputable def sqrt : Extended → Extended
  | finite x => if x < 0 then nan else finite √x
  | infinite true => nan
  | infinite false => infinite false
  | nan => nan

noncomputable def abs : Extended → Extended
  | finite x => finite |x|
  | infinite _ => infinite false
  | nan => nan

noncomputable instance : Scalar Extended where
  zero := finite 0
  one := finite 1
  add := add
  sub x y := add x (neg y)
  mul := mul
  div := div
  neg := neg
  lt x y := x ≠ nan ∧ y ≠ nan ∧ x.rank < y.rank
  le x y := x ≠ nan ∧ y ≠ nan ∧ x.rank ≤ y.rank
  ofScientific mantissa negative exponent :=
    finite (OfScientific.ofScientific mantissa negative exponent)
  default := nan
  sqrt := sqrt
  abs := abs
  isFinite
    | finite _ => true
    | _ => false
  decideLT _ _ := Classical.propDecidable _
  decideLE _ _ := Classical.propDecidable _

theorem le_iff {x y : Extended} : x ≤ y ↔ x ≠ nan ∧ y ≠ nan ∧ x.rank ≤ y.rank := Iff.rfl

@[simp] theorem isNaN_finite (x : ℝ) : Scalar.isNaN (finite x) = false := by
  simp [Scalar.isNaN_eq_false_iff, le_iff]

@[simp] theorem isNaN_infinite (s : Bool) : Scalar.isNaN (infinite s) = false := by
  simp [Scalar.isNaN_eq_false_iff, le_iff]

@[simp] theorem isNaN_nan : Scalar.isNaN nan = true := by
  simp [Scalar.isNaN_eq_true_iff, le_iff]

theorem isNaN_eq_true_iff {x : Extended} : Scalar.isNaN x = true ↔ x = nan := by
  cases x <;> simp

@[simp] theorem finite_le_finite {x y : ℝ} : finite x ≤ finite y ↔ x ≤ y := by
  simp [le_iff, rank]

theorem zero_eq : (0 : Extended) = finite 0 := rfl

theorem sub_finite (x y : ℝ) : finite x - finite y = finite (x - y) := by
  show finite (x + -y) = finite (x - y)
  rw [sub_eq_add_neg]

theorem zero_le_iff {x : Extended} : 0 ≤ x ↔ (∃ r, 0 ≤ r ∧ x = finite r) ∨ x = infinite false := by
  rw [zero_eq]
  cases x with
  | finite x => simp
  | infinite s => cases s <;> simp [le_iff, rank]
  | nan => simp [le_iff]

instance : Scalar.Ordered Extended where
  le_trans hxy hyz := ⟨hxy.1, hyz.2.1, hxy.2.2.trans hyz.2.2⟩
  self_of_le h := ⟨⟨h.1, h.1, le_rfl⟩, ⟨h.2.1, h.2.1, le_rfl⟩⟩
  le_total {x y} hx hy := by
    rcases le_total x.rank y.rank with h | h
    · exact Or.inl ⟨hx.1, hy.1, h⟩
    · exact Or.inr ⟨hy.1, hx.1, h⟩
  lt_iff {x y} := by
    constructor
    · rintro ⟨hx, hy, h⟩
      exact ⟨⟨hx, hy, h.le⟩, fun h' => absurd h'.2.2 (not_le.2 h)⟩
    · rintro ⟨⟨hx, hy, h⟩, hnot⟩
      exact ⟨hx, hy, lt_of_le_not_ge h fun h' => hnot ⟨hy, hx, h'⟩⟩

private theorem zero_le_square {x : Extended} (h : Scalar.isNaN x = false) :
    0 ≤ Scalar.square x := by
  apply zero_le_iff.2
  cases x with
  | finite x => exact Or.inl ⟨x * x, mul_self_nonneg x, rfl⟩
  | infinite s =>
      right
      show infinite (s != s) = infinite false
      simp
  | nan => simp at h

private theorem zero_le_sqrt {x : Extended} (h : 0 ≤ x) : 0 ≤ Scalar.sqrt x := by
  apply zero_le_iff.2
  rcases zero_le_iff.1 h with ⟨r, hr, rfl⟩ | rfl
  · refine Or.inl ⟨√r, Real.sqrt_nonneg r, ?_⟩
    show (if r < 0 then nan else finite √r) = finite √r
    rw [if_neg (not_lt.2 hr)]
  · exact Or.inr rfl

private theorem zero_le_add {x y : Extended} (hx : 0 ≤ x) (hy : 0 ≤ y) : 0 ≤ x + y := by
  apply zero_le_iff.2
  rcases zero_le_iff.1 hx with ⟨r, hr, rfl⟩ | rfl <;>
    rcases zero_le_iff.1 hy with ⟨t, ht, rfl⟩ | rfl
  · exact Or.inl ⟨r + t, add_nonneg hr ht, rfl⟩
  · exact Or.inr rfl
  · exact Or.inr rfl
  · exact Or.inr rfl

private theorem isNaN_add_of_isNaN {x y : Extended}
    (h : Scalar.isNaN x = true ∨ Scalar.isNaN y = true) : Scalar.isNaN (x + y) = true := by
  rw [isNaN_eq_true_iff] at h ⊢
  rw [isNaN_eq_true_iff] at h
  rcases h with rfl | rfl
  · cases y <;> rfl
  · cases x <;> rfl

instance : Scalar.Numeric Extended where
  zero_le_zero := finite_le_finite.2 le_rfl
  add_nonneg := zero_le_add
  isNaN_add := isNaN_add_of_isNaN
  square_nonneg := zero_le_square
  isNaN_square h := by
    rw [isNaN_eq_true_iff] at h ⊢
    rw [h]
    rfl
  isNaN_sub {x y} hx hy := by
    cases x <;> cases y <;> simp_all [Scalar.isFinite, sub_finite]
  sqrt_nonneg := zero_le_sqrt
  isNaN_sqrt h := by
    rw [isNaN_eq_true_iff] at h ⊢
    rw [h]
    rfl
  isNaN_abs x := by
    cases x <;> simp [Scalar.abs, abs]

private theorem isNaN_of_isFinite {x : Extended} (h : Scalar.isFinite x = true) :
    Scalar.isNaN x = false := by
  cases x <;> simp_all [Scalar.isFinite]

private theorem isNaN_one_div {x : Extended} (h : 0 ≤ x) : Scalar.isNaN (1 / x) = false := by
  rcases zero_le_iff.1 h with ⟨r, -, rfl⟩ | rfl
  · show Scalar.isNaN (if r = 0 then if (1 : ℝ) = 0 then nan else infinite (decide ((1 : ℝ) < 0))
      else finite (1 / r)) = false
    split <;> simp
  · exact isNaN_finite 0

theorem zero_lt_iff {x : Extended} : 0 < x ↔ (∃ r, 0 < r ∧ x = finite r) ∨ x = infinite false := by
  rw [Scalar.Ordered.lt_iff, zero_le_iff, zero_eq]
  cases x with
  | finite x => simp +contextual [le_of_lt]
  | infinite s => cases s <;> simp [le_iff, rank]
  | nan => simp

private theorem isNaN_mul_of_pos {x y : Extended} (hx : 0 < x) (hy : 0 < y) :
    Scalar.isNaN (x * y) = false := by
  rcases zero_lt_iff.1 hx with ⟨r, hr, rfl⟩ | rfl <;>
    rcases zero_lt_iff.1 hy with ⟨t, ht, rfl⟩ | rfl
  · exact isNaN_finite (r * t)
  · show Scalar.isNaN (if r = 0 then nan else infinite (false != decide (r < 0))) = false
    simp [hr.ne']
  · show Scalar.isNaN (if t = 0 then nan else infinite (false != decide (t < 0))) = false
    simp [ht.ne']
  · exact isNaN_infinite false

private theorem zero_le_length {n : ℕ} {f : ℕ → Extended}
    (h : ∀ k, k < n → Scalar.isFinite (f k) = true) :
    0 ≤ Scalar.sqrt (Scalar.sum n fun k => Scalar.square (f k)) :=
  zero_le_sqrt (Scalar.sum_square_nonneg fun k hk => isNaN_of_isFinite (h k hk))

instance : Scalar.Measured Extended where
  isNaN_length h := Scalar.isNaN_eq_false_of_le_right (zero_le_length h)
  isNaN_one_div_length h := isNaN_one_div (zero_le_length h)
  isNaN_mul := isNaN_mul_of_pos

end Extended

end InterpolationGeometry
