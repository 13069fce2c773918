import InterpolationGeometry.Proofs.Quadratic.FiniteModel

/-!
# Removing the cross term

What the turn of an orthonormal pair comes to, for every form.  The shift is the root of its
equation that is larger in absolute value, so that the turn divides by no zero and is by no more
than half a right angle.  The turned form has no cross term, unless the pair was left as it was, and
its curvatures are the ones that the search goes on with.
-/

namespace InterpolationGeometry

namespace Quadratic

open Scalar Extended

/-! ## The larger root -/

section Turn

variable {form : Form} {tolerance : ℝ}

theorem Form.abs_cross_le_abs_shift (form : Form) : |form.cross| ≤ |form.shift| := by
  have hroot : |form.cross| ≤ √((0.5 * (form.own - form.other)) ^ 2 + form.cross ^ 2) :=
    Real.abs_le_sqrt (le_add_of_nonneg_left (sq_nonneg _))
  unfold Form.shift
  split
  · rw [abs_sub_comm]
    exact hroot.trans (le_abs.2 (Or.inl (by linarith)))
  · exact hroot.trans (le_abs.2 (Or.inl (by linarith)))

theorem Form.abs_turn_sine_le (hcross : form.cross ≠ 0) :
    |form.turn.sine| ≤ |form.turn.cosine| := by
  have hlength := Form.length_pos hcross
  show |form.cross / √(form.shift ^ 2 + form.cross ^ 2)| ≤
    |form.shift / √(form.shift ^ 2 + form.cross ^ 2)|
  rw [abs_div, abs_div, abs_of_pos hlength]
  exact div_le_div_of_nonneg_right form.abs_cross_le_abs_shift hlength.le

/-! ## Among the extended values -/

theorem isNearlyDiagonal_finite_iff :
    Scalar.abs (finite form.cross) ≤
        finite tolerance * larger (Scalar.abs (finite form.own)) (Scalar.abs (finite form.other)) ↔
      form.IsNearlyDiagonal tolerance := by
  simp only [abs_finite, larger_finite, finite_mul, finite_le_finite, Form.IsNearlyDiagonal]

theorem ofForm_finite_of_isNearlyDiagonal (h : form.IsNearlyDiagonal tolerance) :
    Rotation.ofForm (finite tolerance) (finite form.own) (finite form.cross) (finite form.other) =
      .ok form.unturned.finite := by
  rw [Rotation.ofForm, Rotation.ofCrossSquare, if_pos (isNearlyDiagonal_finite_iff.2 h),
    sub_finite]
  rfl

/-- A quotient by zero would be infinite or no number, and the turn is finite. -/
theorem ofForm_finite_of_not_isNearlyDiagonal (hcross : form.cross ≠ 0)
    (h : ¬ form.IsNearlyDiagonal tolerance) :
    Rotation.ofForm (finite tolerance) (finite form.own) (finite form.cross) (finite form.other) =
      .ok form.turn.finite := by
  have hroot : ∀ x : ℝ, Scalar.sqrt (finite (x ^ 2 + form.cross ^ 2)) =
      finite √(x ^ 2 + form.cross ^ 2) := fun x =>
    sqrt_finite (add_nonneg (sq_nonneg x) (sq_nonneg form.cross))
  have hshift : (if finite (0.5 * (form.own - form.other)) < 0 then
        finite (0.5 * (form.own - form.other) -
          √((0.5 * (form.own - form.other)) ^ 2 + form.cross ^ 2))
      else finite (0.5 * (form.own - form.other) +
          √((0.5 * (form.own - form.other)) ^ 2 + form.cross ^ 2))) = finite form.shift := by
    simp only [zero_eq, finite_lt_finite, Form.shift]
    split
    · rfl
    · rfl
  have hlarge := mt isNearlyDiagonal_finite_iff.1 h
  have hlength := (Form.length_pos hcross).ne'
  simp only [Rotation.ofForm, Rotation.ofCrossSquare, if_neg hlarge, sub_finite, ofScientific_eq,
    finite_mul, boundedSquare_finite, square_finite, finite_add, hroot, hshift,
    finite_div hlength, bind, Except.bind, pure, Except.pure]
  rfl

end Turn

/-! ## What the turn does -/

/-- What a turn makes of two curvatures and a cross term, up to a tolerance. -/
structure Rotation.Diagonalizes (turn : Rotation ℝ) (tolerance first cross second : ℝ) :
    Prop where
  unit : turn.cosine ^ 2 + turn.sine ^ 2 = 1
  sine_le : |turn.sine| ≤ |turn.cosine|
  rotated : turn.branch = .rotated →
    (turn.cosine ^ 2 - turn.sine ^ 2) * cross - turn.cosine * turn.sine * (first - second) = 0
  aligned : turn.branch = .aligned →
    (turn.cosine ^ 2 - turn.sine ^ 2) * cross - turn.cosine * turn.sine * (first - second) = cross ∧
      |cross| ≤ tolerance * max |first| |second|
  first_eq : turn.cosine ^ 2 * first + 2 * turn.cosine * turn.sine * cross +
    turn.sine ^ 2 * second = turn.shift + second
  second_eq : turn.sine ^ 2 * first - 2 * turn.cosine * turn.sine * cross +
    turn.cosine ^ 2 * second = first - turn.shift

theorem Rotation.Turns.diagonalizes {turn : Rotation ℝ} {form : Form} {tolerance : ℝ}
    (h : turn.Turns form tolerance) (hsine : |turn.sine| ≤ |turn.cosine|)
    (hrotated : turn.branch = .rotated → (form.turned turn.cosine turn.sine).cross = 0)
    (haligned : turn.branch = .aligned →
      (form.turned turn.cosine turn.sine).cross = form.cross ∧ form.IsNearlyDiagonal tolerance) :
    turn.Diagonalizes tolerance form.own form.cross form.other := by
  have hcross : (form.turned turn.cosine turn.sine).cross =
      (turn.cosine ^ 2 - turn.sine ^ 2) * form.cross -
        turn.cosine * turn.sine * (form.own - form.other) := by
    simp only [Form.turned]
    ring
  rw [hcross] at hrotated haligned
  refine ⟨h.unit, hsine, hrotated, haligned, ?_, ?_⟩
  · rw [← h.own_eq]
    simp only [Form.turned]
    ring
  · rw [← h.other_eq]
    simp only [Form.turned]
    ring

theorem Form.unturned_diagonalizes {form : Form} {tolerance : ℝ}
    (h : form.IsNearlyDiagonal tolerance) :
    form.unturned.Diagonalizes tolerance form.own form.cross form.other := by
  refine (Form.unturned_turns h).diagonalizes (by simp [Form.unturned]) ?_ ?_
  · intro hbranch
    exact absurd hbranch RotationBranch.noConfusion
  · intro _
    exact ⟨by simp [Form.unturned, Form.turned], h⟩

theorem Form.turn_diagonalizes {form : Form} {tolerance : ℝ} (htolerance : 0 ≤ tolerance)
    (hcross : form.cross ≠ 0) :
    form.turn.Diagonalizes tolerance form.own form.cross form.other := by
  have hturns := Form.turn_turns htolerance hcross
  refine hturns.diagonalizes (Form.abs_turn_sine_le hcross) ?_ ?_
  · intro _
    rcases hturns.cross_or with hnone | hsine
    · exact hnone
    · exact absurd hsine (div_ne_zero hcross (Form.length_pos hcross).ne')
  · intro hbranch
    exact absurd hbranch RotationBranch.noConfusion

/-- Every form is turned, by itself and in a step, without a quotient by zero.  The turned pair has
the curvatures that the search goes on with, and no cross term or one that was small. -/
theorem ofForm_diagonalizes (first cross second : ℝ) {tolerance : ℝ} (htolerance : 0 ≤ tolerance) :
    ∃ turn : Rotation ℝ, Rotation.ofForm tolerance first cross second = .ok turn ∧
      Rotation.ofCrossSquare tolerance first cross second (.ok (square cross)) = .ok turn ∧
      Rotation.ofForm (finite tolerance) (finite first) (finite cross) (finite second) =
        .ok turn.finite ∧
      turn.Diagonalizes tolerance first cross second := by
  let form : Form := ⟨first, cross, second⟩
  rw [ofCrossSquare_eq_ofForm]
  by_cases hsmall : form.IsNearlyDiagonal tolerance
  · have hreal : Rotation.ofForm tolerance first cross second = .ok form.unturned :=
      ofForm_of_isNearlyDiagonal hsmall
    exact ⟨form.unturned, hreal, hreal, ofForm_finite_of_isNearlyDiagonal hsmall,
      Form.unturned_diagonalizes hsmall⟩
  · have hcross := Form.cross_ne_zero htolerance hsmall
    have hreal : Rotation.ofForm tolerance first cross second = .ok form.turn :=
      ofForm_of_not_isNearlyDiagonal hsmall
    exact ⟨form.turn, hreal, hreal, ofForm_finite_of_not_isNearlyDiagonal hcross hsmall,
      Form.turn_diagonalizes htolerance hcross⟩

theorem ofForm_diagonalizes_negative_half :
    (0 : ℝ) ≤ 0.01 ∧ Rotation.ofForm 0.01 0 12 7 = .ok (⟨-16, -0.8, 0.6, .rotated⟩ : Rotation ℝ) ∧
      Rotation.ofForm (finite 0.01) (finite 0) (finite 12) (finite 7) =
        .ok (⟨-16, -0.8, 0.6, .rotated⟩ : Rotation ℝ).finite ∧
      (⟨-16, -0.8, 0.6, .rotated⟩ : Rotation ℝ).Diagonalizes 0.01 0 12 7 := by
  have hturn : Rotation.ofForm 0.01 0 12 7 = .ok (⟨-16, -0.8, 0.6, .rotated⟩ : Rotation ℝ) := by
    norm_num [Rotation.ofForm, Rotation.ofCrossSquare, larger_real, bind, Except.bind, pure,
      Except.pure]
  obtain ⟨turn, hreal, -, hfinite, hdiagonal⟩ :=
    ofForm_diagonalizes 0 12 7 (show (0 : ℝ) ≤ 0.01 by norm_num)
  rw [Except.ok.inj (hreal.symm.trans hturn)] at hfinite hdiagonal
  exact ⟨by norm_num, hturn, hfinite, hdiagonal⟩

end Quadratic

end InterpolationGeometry
