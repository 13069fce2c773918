import InterpolationGeometry.Proofs.Arithmetic.Exact
import InterpolationGeometry.Quadratic.Rotation
import Mathlib.Tactic.FieldSimp
import Mathlib.Tactic.LinearCombination

/-!
# Turning an orthonormal pair

A quadratic form in an orthonormal pair has a curvature along each axis and a cross term.  The turn
that the search makes is a rotation, gives the curvatures that the search goes on with, and leaves
no cross term, or one that is small beside the curvatures and was left alone.
-/

namespace InterpolationGeometry

namespace Quadratic

open Scalar

/-- The two curvatures and the cross term of a form in an orthonormal pair. -/
structure Form where
  own : ℝ
  cross : ℝ
  other : ℝ

/-- The form in the pair turned by the angle of the given cosine and sine. -/
def Form.turned (form : Form) (c s : ℝ) : Form where
  own := c * (c * form.own + s * form.cross) + s * (c * form.cross + s * form.other)
  cross := c * (c * form.cross - s * form.own) + s * (c * form.other - s * form.cross)
  other := c * (c * form.other - s * form.cross) - s * (c * form.cross - s * form.own)

/-- What a turn does to a form, up to a tolerance. -/
structure Rotation.Turns (turn : Rotation ℝ) (form : Form) (tolerance : ℝ) : Prop where
  unit : turn.cosine ^ 2 + turn.sine ^ 2 = 1
  own_eq : (form.turned turn.cosine turn.sine).own = turn.shift + form.other
  other_eq : (form.turned turn.cosine turn.sine).other = form.own - turn.shift
  cross_le : |(form.turned turn.cosine turn.sine).cross| ≤
    tolerance * max |turn.shift + form.other| |form.own - turn.shift|
  cross_or : (form.turned turn.cosine turn.sine).cross = 0 ∨ turn.sine = 0

theorem turns_aligned {form : Form} {tolerance : ℝ}
    (h : |form.cross| ≤ tolerance * max |form.own| |form.other|) :
    Rotation.Turns ⟨form.own - form.other, 1, 0, .aligned⟩ form tolerance where
  unit := by norm_num
  own_eq := by simp [Form.turned]
  other_eq := by simp [Form.turned]
  cross_le := by simpa [Form.turned] using h
  cross_or := Or.inr rfl

/-- Either root of the equation of the shift gives a turn without a cross term. -/
theorem turns_of_root {form : Form} {tolerance shift length : ℝ} (htolerance : 0 ≤ tolerance)
    (hroot : shift ^ 2 = (form.own - form.other) * shift + form.cross ^ 2)
    (hlength : length ^ 2 = shift ^ 2 + form.cross ^ 2) (hne : length ≠ 0) :
    Rotation.Turns ⟨shift, shift / length, form.cross / length, .rotated⟩ form tolerance := by
  have hnone : (form.turned (shift / length) (form.cross / length)).cross = 0 := by
    simp only [Form.turned]
    field_simp
    linear_combination form.cross * hroot
  refine ⟨?_, ?_, ?_, ?_, Or.inl hnone⟩
  · show (shift / length) ^ 2 + (form.cross / length) ^ 2 = 1
    field_simp
    exact hlength.symm
  · simp only [Form.turned]
    field_simp
    linear_combination -shift * hroot - (shift + form.other) * hlength
  · simp only [Form.turned]
    field_simp
    linear_combination shift * hroot - (form.own - shift) * hlength
  · rw [hnone, abs_zero]
    exact mul_nonneg htolerance (le_max_of_le_left (abs_nonneg _))

theorem shift_root (half cross : ℝ) :
    (half - √(half ^ 2 + cross ^ 2)) ^ 2 = 2 * half * (half - √(half ^ 2 + cross ^ 2)) + cross ^ 2 ∧
      (half + √(half ^ 2 + cross ^ 2)) ^ 2 =
        2 * half * (half + √(half ^ 2 + cross ^ 2)) + cross ^ 2 := by
  have hroot : √(half ^ 2 + cross ^ 2) ^ 2 = half ^ 2 + cross ^ 2 :=
    Real.sq_sqrt (add_nonneg (sq_nonneg half) (sq_nonneg cross))
  constructor
  · linear_combination hroot
  · linear_combination hroot

/-! ## The turn that is found -/

/-- The root of the equation of the shift that is larger in absolute value. -/
noncomputable def Form.shift (form : Form) : ℝ :=
  if 0.5 * (form.own - form.other) < 0 then
    0.5 * (form.own - form.other) - √((0.5 * (form.own - form.other)) ^ 2 + form.cross ^ 2)
  else 0.5 * (form.own - form.other) + √((0.5 * (form.own - form.other)) ^ 2 + form.cross ^ 2)

def Form.IsNearlyDiagonal (form : Form) (tolerance : ℝ) : Prop :=
  |form.cross| ≤ tolerance * max |form.own| |form.other|

def Form.unturned (form : Form) : Rotation ℝ := ⟨form.own - form.other, 1, 0, .aligned⟩

noncomputable def Form.turn (form : Form) : Rotation ℝ where
  shift := form.shift
  cosine := form.shift / √(form.shift ^ 2 + form.cross ^ 2)
  sine := form.cross / √(form.shift ^ 2 + form.cross ^ 2)
  branch := .rotated

section Turn

variable {form : Form} {tolerance : ℝ}

theorem Form.shift_sq (form : Form) :
    form.shift ^ 2 = (form.own - form.other) * form.shift + form.cross ^ 2 := by
  have hhalf : 2 * (0.5 * (form.own - form.other)) = form.own - form.other := by ring
  obtain ⟨hminus, hplus⟩ := shift_root (0.5 * (form.own - form.other)) form.cross
  rw [hhalf] at hminus hplus
  unfold Form.shift
  split
  · exact hminus
  · exact hplus

theorem Form.cross_ne_zero (htolerance : 0 ≤ tolerance) (h : ¬ form.IsNearlyDiagonal tolerance) :
    form.cross ≠ 0 := by
  intro hzero
  apply h
  rw [Form.IsNearlyDiagonal, hzero, abs_zero]
  exact mul_nonneg htolerance (le_max_of_le_left (abs_nonneg _))

theorem Form.length_pos (hcross : form.cross ≠ 0) : 0 < √(form.shift ^ 2 + form.cross ^ 2) :=
  Real.sqrt_pos.2 (add_pos_of_nonneg_of_pos (sq_nonneg _) (sq_pos_iff.2 hcross))

theorem Form.unturned_turns (h : form.IsNearlyDiagonal tolerance) :
    form.unturned.Turns form tolerance :=
  turns_aligned h

theorem Form.turn_turns (htolerance : 0 ≤ tolerance) (hcross : form.cross ≠ 0) :
    form.turn.Turns form tolerance :=
  turns_of_root htolerance form.shift_sq
    (Real.sq_sqrt (add_nonneg (sq_nonneg _) (sq_nonneg _))) (Form.length_pos hcross).ne'

theorem ofForm_of_isNearlyDiagonal (h : form.IsNearlyDiagonal tolerance) :
    Rotation.ofForm tolerance form.own form.cross form.other = .ok form.unturned := by
  rw [Form.IsNearlyDiagonal, ← larger_real] at h
  exact if_pos h

theorem ofForm_of_not_isNearlyDiagonal (h : ¬ form.IsNearlyDiagonal tolerance) :
    Rotation.ofForm tolerance form.own form.cross form.other = .ok form.turn := by
  rw [Form.IsNearlyDiagonal, ← larger_real] at h
  simp only [Rotation.ofForm, Rotation.ofCrossSquare, boundedSquare_real, square_real, sqrt_real,
    abs_real, if_neg h, bind, Except.bind, pure, Except.pure]
  rfl

/-- Every real has a finite square, so the search finds the turn that the form has by itself. -/
theorem ofCrossSquare_eq_ofForm (tolerance first cross second : ℝ) :
    Rotation.ofCrossSquare tolerance first cross second (.ok (square cross)) =
      Rotation.ofForm tolerance first cross second := by
  rw [Rotation.ofForm, boundedSquare_real, square_real]

end Turn

theorem exists_turn (form : Form) {tolerance : ℝ} (htolerance : 0 ≤ tolerance) :
    ∃ turn, Rotation.ofCrossSquare tolerance form.own form.cross form.other
        (.ok (square form.cross)) = .ok turn ∧ turn.Turns form tolerance := by
  rw [ofCrossSquare_eq_ofForm]
  by_cases hsmall : form.IsNearlyDiagonal tolerance
  · exact ⟨_, ofForm_of_isNearlyDiagonal hsmall, Form.unturned_turns hsmall⟩
  · exact ⟨_, ofForm_of_not_isNearlyDiagonal hsmall,
      Form.turn_turns htolerance (Form.cross_ne_zero htolerance hsmall)⟩

end Quadratic

end InterpolationGeometry
