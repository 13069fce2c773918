import InterpolationGeometry.Proofs.Quadratic.Credit
import Mathlib.Order.Bounds.Basic

/-!
# The greatest of eight steps

What the best combination is credited with is the greatest change of the model along the steps of
full length on either axis and on either diagonal, in both senses.  The combination itself is one of
the eight and makes that change, with one exception: on a diagonal of curvatures that cancel, slopes
of opposite signs work against each other, and it is the other diagonal that makes the change.
-/

namespace InterpolationGeometry

namespace Quadratic

open Scalar

/-- The change of the model along a step in an orthonormal pair without a cross term, by the data
that the best combination is found from. -/
noncomputable def pairValue (slope slope' shift own other radius x y : ℝ) : ℝ :=
  radius * (slope * x + slope' * y) + 0.5 * ((shift + other) * x ^ 2 + (own - shift) * y ^ 2)

noncomputable def eightSteps (radius : ℝ) : Set (ℝ × ℝ) :=
  {(radius, 0), (-radius, 0), (0, radius), (0, -radius), (√0.5 * radius, √0.5 * radius),
    (√0.5 * radius, -(√0.5 * radius)), (-(√0.5 * radius), √0.5 * radius),
    (-(√0.5 * radius), -(√0.5 * radius))}

section Eight

variable {slope slope' shift own other radius : ℝ}

theorem agreeing_eq_or (slope curvature length : ℝ) :
    agreeing slope curvature length = length ∨ agreeing slope curvature length = -length := by
  unfold agreeing
  split
  · exact Or.inr rfl
  · exact Or.inl rfl

theorem best_mem_eightSteps :
    ((Combination.best slope slope' shift own other radius).first,
      (Combination.best slope slope' shift own other radius).second) ∈ eightSteps radius := by
  rcases best_cases slope slope' shift own other radius with
    ⟨-, -, hbest⟩ | ⟨-, -, hbest⟩ | ⟨-, -, hbest⟩
  · rw [hbest]
    rcases agreeing_eq_or slope (shift + other) radius with h | h
    · simp [h, eightSteps]
    · simp [h, eightSteps]
  · rw [hbest]
    rcases agreeing_eq_or slope' (own - shift) radius with h | h
    · simp [h, eightSteps]
    · simp [h, eightSteps]
  · rw [hbest]
    rcases agreeing_eq_or slope (own + other) (√0.5 * radius) with h | h
    · rcases agreeing_eq_or slope' (own + other) (√0.5 * radius) with h' | h'
      · simp [h, h', eightSteps]
      · simp [h, h', eightSteps]
    · rcases agreeing_eq_or slope' (own + other) (√0.5 * radius) with h' | h'
      · simp [h, h', eightSteps]
      · simp [h, h', eightSteps]

theorem abs_axis_le (slope curvature : ℝ) {x : ℝ} (hradius : 0 ≤ radius) (hx : |x| = radius) :
    |radius * (slope * x) + 0.5 * (curvature * x ^ 2)| ≤
      radius * radius * (|slope| + 0.5 * |curvature|) := by
  have hsq : x ^ 2 = radius * radius := by rw [← sq_abs, hx, pow_two]
  calc |radius * (slope * x) + 0.5 * (curvature * x ^ 2)|
      ≤ |radius * (slope * x)| + |0.5 * (curvature * x ^ 2)| := abs_add_le _ _
    _ = radius * radius * (|slope| + 0.5 * |curvature|) := by
        rw [abs_mul, abs_mul, abs_mul, abs_mul, hx, hsq, abs_of_nonneg hradius,
          abs_of_nonneg (mul_self_nonneg radius), abs_of_nonneg (by norm_num : (0 : ℝ) ≤ 0.5)]
        ring

theorem abs_diagonal_le {x y : ℝ} (hradius : 0 ≤ radius) (hx : |x| = √0.5 * radius)
    (hy : |y| = √0.5 * radius) :
    |pairValue slope slope' shift own other radius x y| ≤
      radius * radius * between slope slope' own other := by
  have hsquare : ∀ z : ℝ, |z| = √0.5 * radius → z ^ 2 = 0.5 * (radius * radius) := by
    intro z hz
    rw [← sq_abs, hz, mul_pow, sqrt_half_sq, pow_two]
  have hcurvature : 0.5 * ((shift + other) * x ^ 2 + (own - shift) * y ^ 2) =
      0.25 * (radius * radius) * (own + other) := by
    rw [hsquare x hx, hsquare y hy]
    ring
  calc |pairValue slope slope' shift own other radius x y|
      ≤ |radius * (slope * x)| + |radius * (slope' * y)| +
          |0.25 * (radius * radius) * (own + other)| := by
        rw [pairValue, hcurvature, mul_add]
        exact abs_add_three _ _ _
    _ = radius * radius * between slope slope' own other := by
        rw [abs_mul, abs_mul, abs_mul, abs_mul, abs_mul, hx, hy, abs_of_nonneg hradius,
          abs_of_nonneg (by positivity : 0 ≤ 0.25 * (radius * radius)), between]
        ring

/-- None of the eight steps changes the model by more than the credit. -/
theorem abs_pairValue_le_change (hradius : 0 ≤ radius) {x y : ℝ}
    (h : (x, y) ∈ eightSteps radius) :
    |pairValue slope slope' shift own other radius x y| ≤
      (Combination.best slope slope' shift own other radius).change := by
  obtain ⟨bound, hchange, halong, hacross, hbetween⟩ :=
    exists_bound slope slope' shift own other radius
  rw [hchange]
  have hscale : ∀ {value}, value ≤ bound → radius * radius * value ≤ radius * radius * bound :=
    fun hle => mul_le_mul_of_nonneg_left hle (mul_self_nonneg radius)
  have haxis : |x| = radius → y = 0 → |pairValue slope slope' shift own other radius x y| ≤
      radius * radius * bound := by
    rintro hx rfl
    refine le_trans ?_ (hscale halong)
    simpa [pairValue, along] using abs_axis_le slope (shift + other) hradius hx
  have haxis' : x = 0 → |y| = radius → |pairValue slope slope' shift own other radius x y| ≤
      radius * radius * bound := by
    rintro rfl hy
    refine le_trans ?_ (hscale hacross)
    simpa [pairValue, across] using abs_axis_le slope' (own - shift) hradius hy
  have hdiagonal : |x| = √0.5 * radius → |y| = √0.5 * radius →
      |pairValue slope slope' shift own other radius x y| ≤ radius * radius * bound := by
    intro hx hy
    exact (abs_diagonal_le hradius hx hy).trans (hscale hbetween)
  have hlength : |radius| = radius := abs_of_nonneg hradius
  have hlength' : |√0.5 * radius| = √0.5 * radius :=
    abs_of_nonneg (mul_nonneg (Real.sqrt_nonneg _) hradius)
  simp only [eightSteps, Set.mem_insert_iff, Set.mem_singleton_iff, Prod.mk.injEq] at h
  rcases h with ⟨rfl, rfl⟩ | ⟨rfl, rfl⟩ | ⟨rfl, rfl⟩ | ⟨rfl, rfl⟩ | ⟨rfl, rfl⟩ | ⟨rfl, rfl⟩ |
    ⟨rfl, rfl⟩ | ⟨rfl, rfl⟩
  · exact haxis hlength rfl
  · exact haxis ((abs_neg _).trans hlength) rfl
  · exact haxis' rfl hlength
  · exact haxis' rfl ((abs_neg _).trans hlength)
  · exact hdiagonal hlength' hlength'
  · exact hdiagonal hlength' ((abs_neg _).trans hlength')
  · exact hdiagonal ((abs_neg _).trans hlength') hlength'
  · exact hdiagonal ((abs_neg _).trans hlength') ((abs_neg _).trans hlength')

theorem value_eq_pairValue (step : Combination ℝ) :
    step.value slope slope' (shift + other) (own - shift) radius 0 =
      pairValue slope slope' shift own other radius step.first step.second := by
  rw [Combination.value, pairValue]
  ring

/-- Where the slopes work against each other on one diagonal, the other one makes the change. -/
theorem abs_pairValue_of_cancels (h : Cancels slope slope' shift own other radius) :
    |pairValue slope slope' shift own other radius (√0.5 * radius) (-(√0.5 * radius))| =
      (Combination.best slope slope' shift own other radius).change := by
  obtain ⟨-, hchange⟩ := abs_value_of_cancels h
  obtain ⟨-, hzero, hneg⟩ := h
  have hvalue : pairValue slope slope' shift own other radius (√0.5 * radius) (-(√0.5 * radius)) =
      √0.5 * (radius * radius) * (slope + -slope') := by
    rw [pairValue]
    linear_combination 0.5 * (√0.5 * radius) ^ 2 * hzero
  have hsigns : 0 ≤ slope * -slope' := by linarith
  have hfactor : 0 ≤ √0.5 * (radius * radius) :=
    mul_nonneg (Real.sqrt_nonneg _) (mul_self_nonneg radius)
  rw [hvalue, hchange, abs_mul, abs_of_nonneg hfactor, abs_add_of_mul_nonneg hsigns, abs_neg]

/-- Some step of the eight makes the change that is credited. -/
theorem exists_eightSteps (hradius : 0 ≤ radius) :
    ∃ step ∈ eightSteps radius, |pairValue slope slope' shift own other radius step.1 step.2| =
      (Combination.best slope slope' shift own other radius).change := by
  by_cases hcancels : Cancels slope slope' shift own other radius
  · have hmem : (√0.5 * radius, -(√0.5 * radius)) ∈ eightSteps radius := by simp [eightSteps]
    exact ⟨_, hmem, abs_pairValue_of_cancels hcancels⟩
  · have hvalue := abs_value_eq_change hradius hcancels
    rw [value_eq_pairValue] at hvalue
    exact ⟨_, best_mem_eightSteps, hvalue⟩

theorem abs_pairValue_best_iff (hradius : 0 < radius) :
    |pairValue slope slope' shift own other radius
        (Combination.best slope slope' shift own other radius).first
        (Combination.best slope slope' shift own other radius).second| =
        (Combination.best slope slope' shift own other radius).change ↔
      ¬ Cancels slope slope' shift own other radius := by
  rw [← value_eq_pairValue]
  constructor
  · intro hvalue hcancels
    obtain ⟨hloss, -⟩ := abs_value_of_cancels hcancels
    have hslopes := mul_ne_zero_iff.1 hcancels.2.2.ne
    have hmin : 0 < min |slope| |slope'| :=
      lt_min (abs_pos.2 hslopes.1) (abs_pos.2 hslopes.2)
    have hlost : 0 < 2 * (√0.5 * (radius * radius)) * min |slope| |slope'| := by positivity
    linarith
  · exact abs_value_eq_change hradius.le

end Eight

/-- The credit is the greatest change of the model along the eight steps.  The combination is one of
them, and it makes that change exactly when it does not lie on a diagonal of curvatures that cancel
with slopes of opposite signs. -/
theorem best_attains_iff (slope slope' shift own other : ℝ) {radius : ℝ} (hradius : 0 < radius) :
    let best := Combination.best slope slope' shift own other radius
    IsGreatest ((fun step : ℝ × ℝ =>
        |pairValue slope slope' shift own other radius step.1 step.2|) '' eightSteps radius)
      best.change ∧
    (best.first, best.second) ∈ eightSteps radius ∧
    (|pairValue slope slope' shift own other radius best.first best.second| = best.change ↔
      ¬ (best.branch = .diagonal ∧ own + other = 0 ∧ slope * slope' < 0)) := by
  refine ⟨⟨exists_eightSteps hradius.le, ?_⟩, best_mem_eightSteps, abs_pairValue_best_iff hradius⟩
  rintro value ⟨⟨x, y⟩, hmem, rfl⟩
  exact abs_pairValue_le_change hradius.le hmem

/-- Curvatures of 25 and -25 along the axes, and slopes of 80 and -60. -/
theorem best_opposed :
    Combination.best 80 (-60) 32 7 (-7) (1 : ℝ) = ⟨√0.5, √0.5, 140 * √0.5, .diagonal⟩ := by
  have hlow : 7 / 10 < √(0.5 : ℝ) := (Real.lt_sqrt (by norm_num)).2 (by norm_num)
  have hbetween : between 80 (-60) 7 (-7) = 140 * √0.5 := by
    norm_num [between]
    ring
  have halong : along 80 32 (-7) < 140 * √0.5 := by
    have hvalue : along 80 32 (-7) = 92.5 := by norm_num [along]
    linarith
  have hacross : across (-60) 32 7 < 140 * √0.5 := by
    have hvalue : across (-60) 32 7 = 72.5 := by norm_num [across]
    linarith
  rcases best_cases 80 (-60) 32 7 (-7) 1 with ⟨-, hle, -⟩ | ⟨-, hle, -⟩ | ⟨-, -, hbest⟩
  · rw [hbetween] at hle
    exact absurd hle (not_le.2 halong)
  · rw [hbetween] at hle
    exact absurd hle (not_le.2 hacross)
  · rw [hbest, hbetween]
    norm_num [agreeing]

theorem best_attains_iff_opposed :
    let best := Combination.best 80 (-60) 32 7 (-7) (1 : ℝ)
    (0 : ℝ) < 1 ∧ best = ⟨√0.5, √0.5, 140 * √0.5, .diagonal⟩ ∧
      IsGreatest ((fun step : ℝ × ℝ => |pairValue 80 (-60) 32 7 (-7) 1 step.1 step.2|) ''
        eightSteps 1) best.change ∧
      (best.first, best.second) ∈ eightSteps 1 ∧
      (|pairValue 80 (-60) 32 7 (-7) 1 best.first best.second| = best.change ↔
        ¬ (best.branch = .diagonal ∧ (7 : ℝ) + -7 = 0 ∧ (80 : ℝ) * -60 < 0)) :=
  ⟨one_pos, best_opposed, best_attains_iff 80 (-60) 32 7 (-7) one_pos⟩

/-- The combination changes the model by less than it is credited with, and by less than another of
the eight steps. -/
theorem best_misses_greatest :
    ∃ best, Combination.best 80 (-60) 32 7 (-7) (1 : ℝ) = best ∧
      |pairValue 80 (-60) 32 7 (-7) 1 best.first best.second| ≠ best.change ∧
      |pairValue 80 (-60) 32 7 (-7) 1 (√0.5 * 1) (-(√0.5 * 1))| = best.change := by
  have hopposed : Cancels 80 (-60) 32 7 (-7) 1 := by
    refine ⟨by rw [best_opposed], by norm_num, by norm_num⟩
  refine ⟨_, rfl, ?_, abs_pairValue_of_cancels hopposed⟩
  rw [Ne, abs_pairValue_best_iff one_pos, not_not]
  exact hopposed

end Quadratic

end InterpolationGeometry
