import InterpolationGeometry.Proofs.Quadratic.Diagonal
import InterpolationGeometry.Proofs.Quadratic.EarlyExit
import InterpolationGeometry.Proofs.Quadratic.PlaneBound
import InterpolationGeometry.Proofs.Quadratic.Units

/-!
# Two dimensions

In two dimensions the plane of the gradient and the curvature direction is all there is, so that the
bounds for the steps of that plane hold of every step.  Each way out keeps at least half of what the
best step within the radius makes of a symmetric model: without second derivatives the scaled
gradient is best, beside a plane that is left alone two dimensions hold at most 1.4 times the
curvature of the direction, and the best combination of a plane that is searched is short of the
best step by a factor of 1.16.
-/

namespace InterpolationGeometry

namespace Quadratic

open Scalar hiding abs

open Matrix Extended

variable {n : ℕ} {g d : Fin n → ℝ} {H : Matrix (Fin n) (Fin n) ℝ} {radius : ℝ}

/-! ## The plane of a finite model -/

section Planar

variable {settings : Settings Extended} {crossTolerance : ℝ}

theorem exists_turn_finite (form : Form) (htolerance : 0 ≤ crossTolerance) :
    ∃ turn : Rotation ℝ,
      Rotation.ofCrossSquare (finite crossTolerance) (finite form.own) (finite form.cross)
        (finite form.other) (.ok (square (finite form.cross))) = .ok turn.finite ∧
      turn.Turns form crossTolerance := by
  have hform : Rotation.ofCrossSquare (finite crossTolerance) (finite form.own)
      (finite form.cross) (finite form.other) (.ok (square (finite form.cross))) =
        Rotation.ofForm (finite crossTolerance) (finite form.own) (finite form.cross)
          (finite form.other) := by
    rw [Rotation.ofForm, boundedSquare_eq]
  rw [hform]
  by_cases hsmall : form.IsNearlyDiagonal crossTolerance
  · exact ⟨_, ofForm_finite_of_isNearlyDiagonal hsmall, Form.unturned_turns hsmall⟩
  · have hcross := Form.cross_ne_zero htolerance hsmall
    exact ⟨_, ofForm_finite_of_not_isNearlyDiagonal hcross hsmall,
      Form.turn_turns htolerance hcross⟩

theorem searchPlane_of_wide_eq (cauchy : Fin n → ℝ)
    (hspan : (lineOf g H d).finite.spansPlane = true)
    (horthogonality : 0 ≤ settings.orthogonalityTolerance)
    (hcross : settings.crossTermTolerance = finite crossTolerance)
    (htolerance : 0 ≤ crossTolerance) (hradius : 0 < radius)
    (hwide : (lineOf g H d).finite.isWide settings (finite radius)
      (finite (acrossGradient g d ⬝ᵥ acrossGradient g d)) = true) :
    0 < acrossGradient g d ⬝ᵥ acrossGradient g d ∧
      (searchPlane settings (.finiteVector g) (.finiteMatrix H) (.finiteVector d)
        (.finiteVector cauchy) (finite radius)).Returns fun result =>
          ∃ turn : Rotation ℝ, turn.Turns (planeForm g H (acrossGradient g d)) crossTolerance ∧
            result = {
              step := .finiteVector ((planeBest g (planeForm g H (acrossGradient g d)) turn
                radius).point turn (unit g) (unit (acrossGradient g d)))
              change := finite (planeBest g (planeForm g H (acrossGradient g d)) turn
                radius).change
              exit := .planar } := by
  have hg : 0 < g ⬝ᵥ g := (spansPlane_finite.1 hspan).1
  have hv := finite_lt_finite.1 (pos_of_isWide horthogonality hspan hwide)
  obtain ⟨turn, hturn, hturns⟩ :=
    exists_turn_finite (planeForm g H (acrossGradient g d)) htolerance
  rw [← hcross] at hturn
  have hplanar := planarStep_finite_eq H hradius.ne' hg hv hturn
  have hlength : HasLength n radius (.finiteVector _) :=
    ⟨_, rfl, planeBest_point_dotProduct_self radius hg hv (gradient_dotProduct_across hg) hturns⟩
  refine ⟨hv, ?_⟩
  rw [searchPlane_of_planarStep settings H cauchy hspan hwide hplanar, clearNaN_finiteVector,
    pure_bind, unlessVanished_of_hasLength hradius hlength, pure_bind]
  exact Outcome.returns_pure ⟨turn, hturns, rfl⟩

end Planar

/-! ## The ways out -/

/-- Without second derivatives no step within the radius changes the model by more than the scaled
gradient. -/
theorem abs_modelValue_le_cauchyVector (hg : g ≠ 0) (hradius : 0 ≤ radius) {s : Fin n → ℝ}
    (hlength : √(s ⬝ᵥ s) ≤ radius) :
    |modelValue g 0 s| ≤ |modelValue g 0 (cauchyVector g 0 radius)| := by
  have hlinear : ∀ w, modelValue g 0 w = g ⬝ᵥ w := fun w => by
    rw [modelValue, zero_mulVec, dotProduct_zero, mul_zero, add_zero]
  rw [hlinear, hlinear, cauchyVector_hessian_zero, gradient_dotProduct_smul hg]
  exact ((isGreatest_abs_dotProduct hg hradius).2 ⟨s, hlength, rfl⟩).trans (le_abs_self _)

section Two

variable {g d : Fin 2 → ℝ} {H : Matrix (Fin 2) (Fin 2) ℝ}

/-- Two vectors of which neither is a multiple of the other span the plane. -/
theorem mem_span_of_across (hg : 0 < g ⬝ᵥ g) (hv : 0 < acrossGradient g d ⬝ᵥ acrossGradient g d)
    (s : Fin 2 → ℝ) : s ∈ Submodule.span ℝ {g, d} := by
  have harea : (g 0 * d 1 - g 1 * d 0) ^ 2 =
      (g ⬝ᵥ g) * (acrossGradient g d ⬝ᵥ acrossGradient g d) := by
    rw [acrossGradient_dotProduct_self hg]
    simp only [dotProduct, Fin.sum_univ_two]
    ring
  have hne : g 0 * d 1 - g 1 * d 0 ≠ 0 := by
    intro hzero
    rw [hzero, zero_pow two_ne_zero] at harea
    exact (mul_pos hg hv).ne harea
  -- The coordinates are quotients of areas.
  refine Submodule.mem_span_pair.2 ⟨(s 0 * d 1 - s 1 * d 0) / (g 0 * d 1 - g 1 * d 0),
    (g 0 * s 1 - g 1 * s 0) / (g 0 * d 1 - g 1 * d 0), ?_⟩
  funext i
  rw [Pi.add_apply, Pi.smul_apply, Pi.smul_apply, smul_eq_mul, smul_eq_mul, div_mul_eq_mul_div,
    div_mul_eq_mul_div, ← add_div, div_eq_iff hne]
  fin_cases i
  · show (s 0 * d 1 - s 1 * d 0) * g 0 + (g 0 * s 1 - g 1 * s 0) * d 0 = s 0 * _
    ring
  · show (s 0 * d 1 - s 1 * d 0) * g 1 + (g 0 * s 1 - g 1 * s 0) * d 1 = s 1 * _
    ring

theorem half_mul_le {value factor change : ℝ} (hvalue : value ≤ factor * change)
    (hfactor : factor ≤ 2) (hchange : 0 ≤ change) : 0.5 * value ≤ change := by
  have htwice := mul_le_mul_of_nonneg_right hfactor hchange
  linarith

/-- What a step is credited with is at least half of what any step within the radius makes of the
model. -/
def KeepsHalf (g : Fin 2 → ℝ) (H : Matrix (Fin 2) (Fin 2) ℝ) (radius : ℝ)
    (result : Step Extended) : Prop :=
  ∃ change : ℝ, result.change = finite change ∧
    ∀ s : Fin 2 → ℝ, √(s ⬝ᵥ s) ≤ radius → 0.5 * |modelValue g H s| ≤ change

/-- Beside a plane that is left alone the scaled direction keeps half. -/
theorem IsNarrow.keepsHalf (hH : H.IsSymm) (h : IsNarrow .standard g H d radius)
    (hradius : 0 < radius) {k : Fin 2} (hlongest : ∀ l, H.col l ⬝ᵥ H.col l ≤ H.col k ⬝ᵥ H.col k)
    (hd : (extremalDirection 0.9999 H (H.col k)).1 = d) :
    KeepsHalf g H radius ⟨.finiteVector (scaledDirection g H d radius),
      finite |modelValue g H (scaledDirection g H d radius)|, .scaled⟩ := by
  have hone : (1 : ℝ) ≤ 1.4 := by norm_num
  have hpower : (((2 : ℕ) : ℝ) ^ 2 - (2 : ℕ) + 1) ≤ (1.4 : ℝ) ^ 4 := by norm_num
  have hfactor : (1.4 : ℝ) / (1 - 1.4 / 10 ^ 4) + 0.01 ≤ 2 := by norm_num
  exact ⟨_, rfl, fun s hlength => half_mul_le
    (h.abs_modelValue_le_standard hH hradius hlongest hd hone hpower (by norm_num) hlength)
    hfactor (abs_nonneg _)⟩

/-- A plane that is searched is all there is, and its best combination keeps half. -/
theorem abs_modelValue_le_planeBest (hH : H.IsSymm) (hradius : 0 < radius) (hg : 0 < g ⬝ᵥ g)
    (hv : 0 < acrossGradient g d ⬝ᵥ acrossGradient g d) {turn : Rotation ℝ}
    (hturn : turn.Turns (planeForm g H (acrossGradient g d)) 0.01) {s : Fin 2 → ℝ}
    (hlength : √(s ⬝ᵥ s) ≤ radius) :
    0.5 * |modelValue g H s| ≤
      (planeBest g (planeForm g H (acrossGradient g d)) turn radius).change := by
  have hfactor : (1.15 : ℝ) + 0.01 ≤ 2 := by norm_num
  exact half_mul_le
    (abs_modelValue_le hH hradius (by norm_num) hg hv hturn (mem_span_of_across hg hv s) hlength)
    hfactor best_change_nonneg

theorem searchPlane_keepsHalf (hg : g ≠ 0) (hH : H.IsSymm) (hradius : 0 < radius) {k : Fin 2}
    (hlongest : ∀ l, H.col l ⬝ᵥ H.col l ≤ H.col k ⬝ᵥ H.col k)
    (hcolumn : 0 < H.col k ⬝ᵥ H.col k) (cauchy : Fin 2 → ℝ) :
    (searchPlane .standard (.finiteVector g) (.finiteMatrix H)
      (.finiteVector (extremalDirection 0.9999 H (H.col k)).1) (.finiteVector cauchy)
      (finite radius)).Returns (KeepsHalf g H radius) := by
  have hspan := spansPlane_of_ne_zero hg hH hcolumn (by norm_num : (0.9999 : ℝ) < 1)
  set d := (extremalDirection 0.9999 H (H.col k)).1 with hd
  cases hwide : (lineOf g H d).finite.isWide .standard (finite radius)
      (finite (acrossGradient g d ⬝ᵥ acrossGradient g d)) with
  | false =>
      refine (searchPlane_of_narrow .standard H cauchy hspan hradius hwide).mono ?_
      rintro _ rfl
      exact IsNarrow.keepsHalf hH ⟨hspan, hwide⟩ hradius hlongest hd.symm
  | true =>
      obtain ⟨hv, hplane⟩ := searchPlane_of_wide_eq cauchy hspan standard_orthogonality
        (rfl : (Settings.standard : Settings Extended).crossTermTolerance = finite 0.01)
        (by norm_num) hradius hwide
      refine hplane.mono ?_
      rintro _ ⟨turn, hturns, rfl⟩
      exact ⟨_, rfl, fun s hlength =>
        abs_modelValue_le_planeBest hH hradius (dotProduct_self_pos hg) hv hturns hlength⟩

theorem search_keepsHalf (hg : g ≠ 0) (hH : H.IsSymm) (hradius : 0 < radius) :
    (search .standard (.finiteVector g) (.finiteMatrix H) (finite radius)).Returns
      (KeepsHalf g H radius) := by
  have hparallel : (Settings.standard : Settings Extended).parallelTolerance = finite 0.9999 := rfl
  by_cases hzero : H = 0
  · refine (search_degenerate .standard one_le_two g hH standard_orthogonality hparallel
      (by norm_num) hradius).mono fun result hresult => ?_
    obtain ⟨-, hchange⟩ := hresult.2 (Or.inr hzero)
    refine ⟨_, hchange, fun s hlength => ?_⟩
    subst hzero
    have hle := abs_modelValue_le_cauchyVector hg hradius.le hlength
    have hnonneg := abs_nonneg (modelValue g 0 (cauchyVector g 0 radius))
    linarith
  · obtain ⟨k, hk, hlongest⟩ := exists_longestColumn_finite H one_le_two
    have hcolumn := col_dotProduct_self_pos hzero hlongest
    have hfound := curvatureDirection_finite_of_pos 0.9999 H hcolumn
    rw [← hparallel] at hfound
    exact search_returns_of_searchPlane .standard H _ (cauchyStep_eq_cauchyVector g H hradius) hk
      hfound (searchPlane_keepsHalf hg hH hradius hlongest hcolumn _)

end Two

/-- In two dimensions, with the standard settings, a step for a symmetric model whose gradient is
not zero is credited with at least half of what any step within the radius changes the model,
whatever way the search ends. -/
theorem geometryStep_keeps_half {g : Fin 2 → ℝ} (hg : g ≠ 0) {H : Matrix (Fin 2) (Fin 2) ℝ}
    (hH : H.IsSymm) {radius : ℝ} (hradius : 0 < radius) :
    ∃ (result : Step Extended) (change : ℝ),
      (geometryStep .standard (.finiteVector g) (.finiteMatrix H) (finite radius)).result =
        .ok result ∧
      result.change = finite change ∧
      ∀ s : Fin 2 → ℝ, √(s ⬝ᵥ s) ≤ radius →
        0.5 * |g ⬝ᵥ s + 0.5 * (s ⬝ᵥ H *ᵥ s)| ≤ change := by
  obtain ⟨result, hresult, change, hchange, hbound⟩ := search_keepsHalf hg hH hradius
  have hchecked : (Settings.standard : Settings Extended).checked = false := rfl
  refine ⟨result, change, ?_, hchange, hbound⟩
  rw [geometryStep_unchecked hchecked]
  exact hresult

/-- A gradient along the first axis gains 4 on that axis alone, so that the step is credited with at
least 2. -/
theorem geometryStep_keeps_half_axisSwap :
    ![(4 : ℝ), 0] ≠ 0 ∧ axisSwap.IsSymm ∧ (0 : ℝ) < 1 ∧
      ∃ (result : Step Extended) (change : ℝ),
        (geometryStep .standard (.finiteVector ![4, 0]) (.finiteMatrix axisSwap)
          (finite 1)).result = .ok result ∧
        result.change = finite change ∧ 2 ≤ change := by
  have hg : ![(4 : ℝ), 0] ≠ 0 := fun h => four_ne_zero (congrFun h 0)
  obtain ⟨result, change, hresult, hchange, hbound⟩ :=
    geometryStep_keeps_half hg axisSwap_isSymm one_pos
  have hstep := hbound ![1, 0] (by simp)
  rw [axisSwap_mulVec] at hstep
  norm_num [dotProduct, Fin.sum_univ_two] at hstep
  exact ⟨hg, axisSwap_isSymm, one_pos, result, change, hresult, hchange, by linarith⟩

end Quadratic

end InterpolationGeometry
