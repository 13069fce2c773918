import InterpolationGeometry.Proofs.Arithmetic.Exact
import InterpolationGeometry.Quadratic.Combination
import Mathlib.Tactic.Linarith
import Mathlib.Tactic.LinearCombination

/-!
# The change that a step is credited with

A step in an orthonormal pair changes the model by two slopes, two curvatures and a cross term.
Without the cross term the step along an axis changes it by exactly the value it is credited with,
and so does the step along a diagonal as long as the curvatures do not cancel.  If they do and the
slopes have opposite signs, the slopes work against each other, while the credit adds them.
-/

namespace InterpolationGeometry

namespace Quadratic

open Scalar

/-- The change of the model along a combination of two axes: the slopes are per radius, and the last
argument is the cross term. -/
noncomputable def Combination.value (step : Combination ℝ)
    (slope slope' curvature curvature' radius cross : ℝ) : ℝ :=
  radius * (step.first * slope + step.second * slope') +
    0.5 * (step.first ^ 2 * curvature + step.second ^ 2 * curvature') +
    step.first * step.second * cross

section Agreeing

variable {slope curvature length : ℝ}

theorem agreeing_sq (slope curvature length : ℝ) :
    agreeing slope curvature length ^ 2 = length ^ 2 := by
  unfold agreeing
  split
  · exact neg_sq length
  · rfl

theorem abs_agreeing (hlength : 0 ≤ length) : |agreeing slope curvature length| = length := by
  unfold agreeing
  split
  · rw [abs_neg, abs_of_nonneg hlength]
  · exact abs_of_nonneg hlength

theorem agreeing_mul_nonneg (hlength : 0 ≤ length) :
    0 ≤ agreeing slope curvature length * slope * curvature := by
  unfold agreeing
  split
  · rename_i hneg
    have hmul := mul_nonneg hlength (neg_nonneg.2 hneg.le)
    linarith
  · rename_i hneg
    have hmul := mul_nonneg hlength (not_lt.1 hneg)
    linarith

end Agreeing

theorem abs_add_of_mul_nonneg {x y : ℝ} (h : 0 ≤ x * y) : |x + y| = |x| + |y| :=
  abs_add_eq_add_abs_iff x y |>.2 (mul_nonneg_iff.1 h)

theorem abs_add_of_mul_neg {x y : ℝ} (h : x * y < 0) : |x + y| = |x| + |y| - 2 * min |x| |y| := by
  rcases mul_neg_iff.1 h with ⟨hx, hy⟩ | ⟨hx, hy⟩
  · rw [abs_of_pos hx, abs_of_neg hy]
    rcases le_total x (-y) with hle | hle
    · rw [min_eq_left hle, abs_of_nonpos (by linarith)]
      ring
    · rw [min_eq_right hle, abs_of_nonneg (by linarith)]
      ring
  · rw [abs_of_neg hx, abs_of_pos hy]
    rcases le_total (-x) y with hle | hle
    · rw [min_eq_left hle, abs_of_nonneg (by linarith)]
      ring
    · rw [min_eq_right hle, abs_of_nonpos (by linarith)]
      ring

section Best

variable (slope slope' shift own other radius : ℝ)

/-- The value per squared radius along the first axis. -/
noncomputable def along : ℝ := |slope| + 0.5 * |shift + other|

noncomputable def across : ℝ := |slope'| + 0.5 * |own - shift|

noncomputable def between : ℝ := √0.5 * (|slope| + |slope'|) + 0.25 * |own + other|

/-- The three lines, and the values that decide between them. -/
theorem best_cases :
    (across slope' shift own ≤ along slope shift other ∧
      between slope slope' own other ≤ along slope shift other ∧
      Combination.best slope slope' shift own other radius =
        ⟨agreeing slope (shift + other) radius, 0, radius * radius * along slope shift other,
          .first⟩) ∨
    (along slope shift other ≤ across slope' shift own ∧
      between slope slope' own other ≤ across slope' shift own ∧
      Combination.best slope slope' shift own other radius =
        ⟨0, agreeing slope' (own - shift) radius, radius * radius * across slope' shift own,
          .second⟩) ∨
    (along slope shift other ≤ between slope slope' own other ∧
      across slope' shift own ≤ between slope slope' own other ∧
      Combination.best slope slope' shift own other radius =
        ⟨agreeing slope (own + other) (√0.5 * radius),
          agreeing slope' (own + other) (√0.5 * radius),
          radius * radius * between slope slope' own other, .diagonal⟩) := by
  have hbest : Combination.best slope slope' shift own other radius =
      if across slope' shift own ≤ along slope shift other ∧
          between slope slope' own other ≤ along slope shift other then
        ⟨agreeing slope (shift + other) radius, 0,
          radius * radius * max (max (along slope shift other) (across slope' shift own))
            (between slope slope' own other), .first⟩
      else if between slope slope' own other ≤ across slope' shift own then
        ⟨0, agreeing slope' (own - shift) radius,
          radius * radius * max (max (along slope shift other) (across slope' shift own))
            (between slope slope' own other), .second⟩
      else
        ⟨agreeing slope (own + other) (√0.5 * radius),
          agreeing slope' (own + other) (√0.5 * radius),
          radius * radius * max (max (along slope shift other) (across slope' shift own))
            (between slope slope' own other), .diagonal⟩ := by
    simp only [Combination.best, larger_real]
    rfl
  rw [hbest]
  split
  · rename_i h
    left
    refine ⟨h.1, h.2, ?_⟩
    rw [max_eq_left h.1, max_eq_left h.2]
  · rename_i hfirst
    split
    · rename_i hle
      have halong : along slope shift other ≤ across slope' shift own := by
        by_contra hnot
        have hlt := not_le.1 hnot
        exact hfirst ⟨hlt.le, hle.trans hlt.le⟩
      right; left
      refine ⟨halong, hle, ?_⟩
      rw [max_eq_right halong, max_eq_left hle]
    · rename_i hsecond
      have hacross := (not_le.1 hsecond).le
      have halong : along slope shift other ≤ between slope slope' own other := by
        by_contra hnot
        have hlt := not_le.1 hnot
        exact hfirst ⟨hacross.trans hlt.le, hlt.le⟩
      right; right
      refine ⟨halong, hacross, ?_⟩
      rw [max_eq_right (max_le halong hacross)]

variable {slope slope' shift own other radius}

theorem sqrt_half_sq : √(0.5 : ℝ) ^ 2 = 0.5 := Real.sq_sqrt (by norm_num)

theorem best_sq_add_sq :
    (Combination.best slope slope' shift own other radius).first ^ 2 +
      (Combination.best slope slope' shift own other radius).second ^ 2 = radius ^ 2 := by
  rcases best_cases slope slope' shift own other radius with
    ⟨-, -, hbest⟩ | ⟨-, -, hbest⟩ | ⟨-, -, hbest⟩
  · rw [hbest, agreeing_sq]
    ring
  · rw [hbest, agreeing_sq]
    ring
  · rw [hbest, agreeing_sq, agreeing_sq, mul_pow, sqrt_half_sq]
    ring

/-- The credit is the greatest of the three values. -/
theorem exists_bound (slope slope' shift own other radius : ℝ) :
    ∃ bound, (Combination.best slope slope' shift own other radius).change =
        radius * radius * bound ∧
      along slope shift other ≤ bound ∧ across slope' shift own ≤ bound ∧
      between slope slope' own other ≤ bound := by
  rcases best_cases slope slope' shift own other radius with
    ⟨hle, hle', hbest⟩ | ⟨hle, hle', hbest⟩ | ⟨hle, hle', hbest⟩
  · exact ⟨_, by rw [hbest], le_rfl, hle, hle'⟩
  · exact ⟨_, by rw [hbest], hle, le_rfl, hle'⟩
  · exact ⟨_, by rw [hbest], hle, hle', le_rfl⟩

theorem half_sq_mul_max_le_change :
    0.5 * radius ^ 2 * max |shift + other| |own - shift| ≤
      (Combination.best slope slope' shift own other radius).change := by
  obtain ⟨bound, hchange, halong, hacross, -⟩ :=
    exists_bound slope slope' shift own other radius
  have hfirst : 0.5 * |shift + other| ≤ bound :=
    (le_add_of_nonneg_left (abs_nonneg slope)).trans halong
  have hsecond : 0.5 * |own - shift| ≤ bound :=
    (le_add_of_nonneg_left (abs_nonneg slope')).trans hacross
  have hmax : 0.5 * max |shift + other| |own - shift| ≤ bound := by
    rw [mul_max_of_nonneg _ _ (by norm_num)]
    exact max_le hfirst hsecond
  rw [hchange]
  calc 0.5 * radius ^ 2 * max |shift + other| |own - shift|
      = radius * radius * (0.5 * max |shift + other| |own - shift|) := by ring
    _ ≤ radius * radius * bound := mul_le_mul_of_nonneg_left hmax (mul_self_nonneg radius)

theorem best_change_nonneg :
    0 ≤ (Combination.best slope slope' shift own other radius).change :=
  (by positivity : 0 ≤ 0.5 * radius ^ 2 * max |shift + other| |own - shift|).trans
    half_sq_mul_max_le_change

/-- The slopes work against each other: on a diagonal no curvature tells them how to agree. -/
def Cancels (slope slope' shift own other radius : ℝ) : Prop :=
  (Combination.best slope slope' shift own other radius).branch = .diagonal ∧ own + other = 0 ∧
    slope * slope' < 0

theorem abs_axis_value {slope curvature radius : ℝ} (hradius : 0 ≤ radius) :
    |radius * (agreeing slope curvature radius * slope) + 0.5 * (radius ^ 2 * curvature)| =
      radius * radius * (|slope| + 0.5 * |curvature|) := by
  have hagree : 0 ≤ agreeing slope curvature radius * slope * curvature :=
    agreeing_mul_nonneg hradius
  have hone : 0 ≤ radius * (agreeing slope curvature radius * slope) *
      (0.5 * (radius ^ 2 * curvature)) := by
    have hprod := mul_nonneg (mul_nonneg hradius (sq_nonneg radius)) hagree
    linarith
  rw [abs_add_of_mul_nonneg hone, abs_mul, abs_mul, abs_mul, abs_mul, abs_agreeing hradius,
    abs_of_nonneg hradius, abs_of_nonneg (sq_nonneg radius),
    abs_of_nonneg (by norm_num : (0 : ℝ) ≤ 0.5)]
  ring

/-- Along a diagonal the parts of the slopes have one sign unless the curvatures cancel, and the
sign of the sum of the curvatures. -/
theorem diagonal_signs {slope slope' curvature length : ℝ} (hlength : 0 ≤ length)
    (h : curvature = 0 → 0 ≤ slope * slope') :
    0 ≤ agreeing slope curvature length * slope * (agreeing slope' curvature length * slope') ∧
      0 ≤ (agreeing slope curvature length * slope + agreeing slope' curvature length * slope') *
        curvature := by
  have hone : 0 ≤ agreeing slope curvature length * slope * curvature := agreeing_mul_nonneg hlength
  have htwo : 0 ≤ agreeing slope' curvature length * slope' * curvature :=
    agreeing_mul_nonneg hlength
  constructor
  · by_cases hzero : curvature = 0
    · have hsame : ∀ x, agreeing x curvature length = length := by
        intro x
        simp [agreeing, hzero]
      rw [hsame, hsame]
      have hprod := mul_nonneg (mul_nonneg hlength hlength) (h hzero)
      linarith
    · have hprod := mul_nonneg hone htwo
      apply nonneg_of_mul_nonneg_left _ (sq_pos_iff.2 hzero)
      linarith
  · rw [add_mul]
    exact add_nonneg hone htwo

theorem abs_diagonal_value {slope slope' curvature radius : ℝ} (hradius : 0 ≤ radius)
    (h : curvature = 0 → 0 ≤ slope * slope') :
    |radius * (agreeing slope curvature (√0.5 * radius) * slope +
        agreeing slope' curvature (√0.5 * radius) * slope') +
        0.5 * (0.5 * radius ^ 2 * curvature)| =
      radius * radius * (√0.5 * (|slope| + |slope'|) + 0.25 * |curvature|) := by
  have hlength : 0 ≤ √0.5 * radius := mul_nonneg (Real.sqrt_nonneg _) hradius
  obtain ⟨hparts, hsum⟩ := diagonal_signs hlength h
  have hone : 0 ≤ radius * (agreeing slope curvature (√0.5 * radius) * slope +
      agreeing slope' curvature (√0.5 * radius) * slope') *
      (0.5 * (0.5 * radius ^ 2 * curvature)) := by
    have hprod := mul_nonneg (mul_nonneg hradius (sq_nonneg radius)) hsum
    linarith
  rw [abs_add_of_mul_nonneg hone, abs_mul radius, abs_add_of_mul_nonneg hparts, abs_mul, abs_mul,
    abs_agreeing hlength, abs_agreeing hlength, abs_mul, abs_mul, abs_mul, abs_of_nonneg hradius,
    abs_of_nonneg (sq_nonneg radius), abs_of_nonneg (by norm_num : (0 : ℝ) ≤ 0.5)]
  ring

/-- Without the cross term the step changes the model by what it is credited with, unless the
slopes work against each other. -/
theorem abs_value_eq_change (hradius : 0 ≤ radius)
    (h : ¬ Cancels slope slope' shift own other radius) :
    |(Combination.best slope slope' shift own other radius).value slope slope' (shift + other)
        (own - shift) radius 0| =
      (Combination.best slope slope' shift own other radius).change := by
  rcases best_cases slope slope' shift own other radius with
    ⟨-, -, hbest⟩ | ⟨-, -, hbest⟩ | ⟨-, -, hbest⟩
  · rw [hbest, along, ← abs_axis_value hradius]
    congr 1
    simp only [Combination.value, agreeing_sq]
    ring
  · rw [hbest, across, ← abs_axis_value hradius]
    congr 1
    simp only [Combination.value, agreeing_sq]
    ring
  · have hsigns : own + other = 0 → 0 ≤ slope * slope' := by
      intro hzero
      by_contra hneg
      exact h ⟨by rw [hbest], hzero, not_le.1 hneg⟩
    rw [hbest, between, ← abs_diagonal_value hradius hsigns]
    congr 1
    simp only [Combination.value, agreeing_sq, mul_pow, sqrt_half_sq]
    ring

/-- Slopes that work against each other change the model by their difference alone. -/
theorem abs_value_of_cancels (h : Cancels slope slope' shift own other radius) :
    |(Combination.best slope slope' shift own other radius).value slope slope' (shift + other)
        (own - shift) radius 0| =
      (Combination.best slope slope' shift own other radius).change -
        2 * (√0.5 * (radius * radius)) * min |slope| |slope'| ∧
    (Combination.best slope slope' shift own other radius).change =
      √0.5 * (radius * radius) * (|slope| + |slope'|) := by
  obtain ⟨hbranch, hzero, hneg⟩ := h
  rcases best_cases slope slope' shift own other radius with
    ⟨-, -, hbest⟩ | ⟨-, -, hbest⟩ | ⟨-, -, hbest⟩
  · rw [hbest] at hbranch
    contradiction
  · rw [hbest] at hbranch
    contradiction
  · have hsame : ∀ x, agreeing x (own + other) (√0.5 * radius) = √0.5 * radius := by
      intro x
      simp [agreeing, hzero]
    have hchange : (Combination.best slope slope' shift own other radius).change =
        √0.5 * (radius * radius) * (|slope| + |slope'|) := by
      rw [hbest]
      simp only [between, hzero, abs_zero]
      ring
    refine ⟨?_, hchange⟩
    have hvalue : (Combination.best slope slope' shift own other radius).value slope slope'
        (shift + other) (own - shift) radius 0 =
        √0.5 * (radius * radius) * (slope + slope') := by
      rw [hbest]
      simp only [Combination.value, hsame, mul_pow, sqrt_half_sq]
      linear_combination 0.25 * radius ^ 2 * hzero
    have hfactor : 0 ≤ √0.5 * (radius * radius) :=
      mul_nonneg (Real.sqrt_nonneg _) (mul_self_nonneg radius)
    rw [hvalue, hchange, abs_mul, abs_of_nonneg hfactor, abs_add_of_mul_neg hneg]
    ring

/-- Without slopes that work against each other the credit is wrong by at most the share of the
cross term, which is small beside the curvatures. -/
theorem abs_abs_value_sub_change_le {cross tolerance : ℝ} (hradius : 0 ≤ radius)
    (htolerance : 0 ≤ tolerance)
    (hcross : |cross| ≤ tolerance * max |shift + other| |own - shift|)
    (h : ¬ Cancels slope slope' shift own other radius) :
    |(|(Combination.best slope slope' shift own other radius).value slope slope' (shift + other)
        (own - shift) radius cross| -
        (Combination.best slope slope' shift own other radius).change)| ≤
      tolerance * (Combination.best slope slope' shift own other radius).change := by
  have hvalue := abs_value_eq_change hradius h
  have hsq : (Combination.best slope slope' shift own other radius).first ^ 2 +
      (Combination.best slope slope' shift own other radius).second ^ 2 = radius ^ 2 :=
    best_sq_add_sq
  have hchange : 0.5 * radius ^ 2 * max |shift + other| |own - shift| ≤
      (Combination.best slope slope' shift own other radius).change :=
    half_sq_mul_max_le_change
  -- Only the length of the step and the bound on its credit matter for the share of the cross term.
  generalize Combination.best slope slope' shift own other radius = best at hvalue hsq hchange ⊢
  have hsplit : best.value slope slope' (shift + other) (own - shift) radius cross =
      best.value slope slope' (shift + other) (own - shift) radius 0 +
        best.first * best.second * cross := by
    simp only [Combination.value]
    ring
  have hproduct : |best.first * best.second| ≤ 0.5 * radius ^ 2 := by
    have htwice := two_mul_le_add_sq |best.first| |best.second|
    rw [sq_abs, sq_abs, hsq] at htwice
    rw [abs_mul]
    linarith
  calc |(|best.value slope slope' (shift + other) (own - shift) radius cross| - best.change)|
      ≤ |best.value slope slope' (shift + other) (own - shift) radius cross -
          best.value slope slope' (shift + other) (own - shift) radius 0| := by
        rw [← hvalue]
        exact abs_abs_sub_abs_le_abs_sub _ _
    _ = |best.first * best.second| * |cross| := by rw [hsplit, add_sub_cancel_left, abs_mul]
    _ ≤ 0.5 * radius ^ 2 * (tolerance * max |shift + other| |own - shift|) :=
        mul_le_mul hproduct hcross (abs_nonneg _) (by positivity)
    _ = tolerance * (0.5 * radius ^ 2 * max |shift + other| |own - shift|) := by ring
    _ ≤ tolerance * best.change := mul_le_mul_of_nonneg_left hchange htolerance

/-- The credit is right up to a tolerance exactly when, of slopes that work against each other, the
smaller does not exceed the tolerance of their mean.  The cross term counts for nothing: it is small
beside the curvatures, or there is none. -/
theorem abs_abs_value_sub_change_le_iff {cross tolerance : ℝ} (hradius : 0 < radius)
    (htolerance : 0 ≤ tolerance)
    (hcross : |cross| ≤ tolerance * max |shift + other| |own - shift|)
    (hnone : cross = 0 ∨ slope' = 0) :
    |(|(Combination.best slope slope' shift own other radius).value slope slope' (shift + other)
        (own - shift) radius cross| -
        (Combination.best slope slope' shift own other radius).change)| ≤
        tolerance * (Combination.best slope slope' shift own other radius).change ↔
      ¬ (Cancels slope slope' shift own other radius ∧
        tolerance * (0.5 * (|slope| + |slope'|)) < min |slope| |slope'|) := by
  by_cases hcancels : Cancels slope slope' shift own other radius
  · obtain ⟨hvalue, hchange⟩ := abs_value_of_cancels hcancels
    have hslope' : slope' ≠ 0 := by
      intro hzero
      have hneg := hcancels.2.2
      rw [hzero, mul_zero] at hneg
      exact hneg.false
    have hfactor : 0 < 2 * (√(0.5 : ℝ) * (radius * radius)) :=
      mul_pos two_pos (mul_pos (Real.sqrt_pos.2 (by norm_num)) (mul_pos hradius hradius))
    have hmin : 0 ≤ min |slope| |slope'| := le_min (abs_nonneg _) (abs_nonneg _)
    have hcredit : tolerance * (√0.5 * (radius * radius) * (|slope| + |slope'|)) =
        2 * (√0.5 * (radius * radius)) * (tolerance * (0.5 * (|slope| + |slope'|))) := by ring
    -- A slope of the second axis rules the cross term out, so that only the slopes are left.
    rw [hnone.resolve_right hslope', hvalue, sub_right_comm, sub_self, zero_sub, abs_neg,
      abs_of_nonneg (mul_nonneg hfactor.le hmin), hchange, hcredit, mul_le_mul_iff_right₀ hfactor,
      and_iff_right hcancels, not_lt]
  · refine iff_of_true ?_ fun h => hcancels h.1
    exact abs_abs_value_sub_change_le hradius.le htolerance hcross hcancels

end Best

end Quadratic

end InterpolationGeometry
