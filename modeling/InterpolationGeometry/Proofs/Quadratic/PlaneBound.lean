import InterpolationGeometry.Proofs.Quadratic.Disc
import InterpolationGeometry.Proofs.Quadratic.Planar
import Mathlib.LinearAlgebra.Span.Basic

/-!
# The whole plane

The credit of a step in the plane of the gradient and the curvature direction bounds what any step
within the radius can make of a symmetric model there, up to a factor of 1.15 and the tolerance of
the cross term.  Every step of the plane is a combination of the turned axes, and without a cross
term the value of a combination is bounded on the whole disc; the cross term that a turn may leave is
small beside the curvatures.
-/

namespace InterpolationGeometry

namespace Quadratic

open Scalar Matrix

section Combination

variable {slope slope' shift own other radius cross tolerance : ℝ} {step : Combination ℝ}

/-- What is left of the cross term changes the model by at most the tolerance of the credit. -/
theorem abs_cross_le_change (htolerance : 0 ≤ tolerance)
    (hstep : step.first ^ 2 + step.second ^ 2 ≤ radius ^ 2)
    (hcross : |cross| ≤ tolerance * max |shift + other| |own - shift|) :
    |step.first * step.second * cross| ≤
      tolerance * (Combination.best slope slope' shift own other radius).change := by
  have hproduct : |step.first * step.second| ≤ 0.5 * radius ^ 2 := by
    rw [abs_mul, ← sq_abs step.first, ← sq_abs step.second] at *
    nlinarith [sq_nonneg (|step.first| - |step.second|)]
  calc |step.first * step.second * cross|
      = |step.first * step.second| * |cross| := abs_mul _ _
    _ ≤ 0.5 * radius ^ 2 * (tolerance * max |shift + other| |own - shift|) := by gcongr
    _ = tolerance * (0.5 * radius ^ 2 * max |shift + other| |own - shift|) := by ring
    _ ≤ tolerance * (Combination.best slope slope' shift own other radius).change :=
        mul_le_mul_of_nonneg_left half_sq_mul_max_le_change htolerance

/-- No combination within the radius changes the model by much more than the credit of the best. -/
theorem abs_value_le_change (hradius : 0 < radius) (htolerance : 0 ≤ tolerance)
    (hstep : step.first ^ 2 + step.second ^ 2 ≤ radius ^ 2)
    (hcross : |cross| ≤ tolerance * max |shift + other| |own - shift|) :
    |step.value slope slope' (shift + other) (own - shift) radius cross| ≤
      (1.15 + tolerance) * (Combination.best slope slope' shift own other radius).change := by
  obtain ⟨bound, hchange, halong, hacross, hbetween⟩ :=
    exists_bound slope slope' shift own other radius
  have hdisc : (step.first / radius) ^ 2 + (step.second / radius) ^ 2 ≤ 1 := by
    rw [div_pow, div_pow, ← add_div]
    exact div_le_one_of_le₀ hstep (sq_nonneg radius)
  have hsum : (shift + other) + (own - shift) = own + other := by ring
  have hvalue := abs_disc_value_le hdisc halong hacross (by rw [hsum]; exact hbetween)
  have hsplit : step.value slope slope' (shift + other) (own - shift) radius cross =
      radius ^ 2 * (step.first / radius * slope + step.second / radius * slope' +
        0.5 * ((step.first / radius) ^ 2 * (shift + other) +
          (step.second / radius) ^ 2 * (own - shift))) + step.first * step.second * cross := by
    rw [Combination.value]
    field_simp
  rw [hsplit]
  refine (abs_add_le _ _).trans ?_
  rw [add_mul]
  refine add_le_add ?_ (abs_cross_le_change htolerance hstep hcross)
  rw [abs_mul, abs_of_nonneg (sq_nonneg radius), hchange]
  calc radius ^ 2 * _ ≤ radius ^ 2 * (1.15 * bound) :=
        mul_le_mul_of_nonneg_left hvalue (sq_nonneg radius)
    _ = 1.15 * (radius * radius * bound) := by ring

end Combination

section Plane

variable {n : ℕ} {g d s u w : Fin n → ℝ}

/-- Every vector of the plane of a pair is a combination of the turned pair. -/
theorem exists_point {turn : Rotation ℝ} (hturn : turn.cosine ^ 2 + turn.sine ^ 2 = 1) (x y : ℝ) :
    ∃ step : Combination ℝ, step.point turn u w = x • u + y • w := by
  refine ⟨⟨turn.cosine * x + turn.sine * y, turn.cosine * y - turn.sine * x, 0, .first⟩, ?_⟩
  rw [point_eq]
  congr 2
  · linear_combination x * hturn
  · linear_combination y * hturn

theorem exists_unit_combination (hg : 0 < g ⬝ᵥ g) (hv : 0 < acrossGradient g d ⬝ᵥ acrossGradient g d)
    (hs : s ∈ Submodule.span ℝ {g, d}) :
    ∃ x y : ℝ, s = x • unit g + y • unit (acrossGradient g d) := by
  obtain ⟨x, y, rfl⟩ := Submodule.mem_span_pair.1 hs
  have hd : d = (g ⬝ᵥ d / (g ⬝ᵥ g)) • g + acrossGradient g d := by
    rw [acrossGradient, add_sub_cancel]
  refine ⟨(x + y * (g ⬝ᵥ d / (g ⬝ᵥ g))) * √(g ⬝ᵥ g),
    y * √(acrossGradient g d ⬝ᵥ acrossGradient g d), ?_⟩
  rw [mul_smul, mul_smul, smul_unit hg, smul_unit hv]
  calc x • g + y • d = x • g + y • ((g ⬝ᵥ d / (g ⬝ᵥ g)) • g + acrossGradient g d) := by rw [← hd]
    _ = _ := by rw [smul_add, smul_smul, add_smul, add_assoc]

/-- No step of the plane within the radius changes the model by much more than the credit. -/
theorem abs_modelValue_le {H : Matrix (Fin n) (Fin n) ℝ} (hH : H.IsSymm) {tolerance radius : ℝ}
    (hradius : 0 < radius) (htolerance : 0 ≤ tolerance) (hg : 0 < g ⬝ᵥ g)
    (hv : 0 < acrossGradient g d ⬝ᵥ acrossGradient g d) {turn : Rotation ℝ}
    (hturn : turn.Turns (planeForm g H (acrossGradient g d)) tolerance)
    (hs : s ∈ Submodule.span ℝ {g, d}) (hlength : √(s ⬝ᵥ s) ≤ radius) :
    |modelValue g H s| ≤ (1.15 + tolerance) *
      (planeBest g (planeForm g H (acrossGradient g d)) turn radius).change := by
  obtain ⟨x, y, rfl⟩ := exists_unit_combination hg hv hs
  obtain ⟨step, hstep⟩ := exists_point (u := unit g) (w := unit (acrossGradient g d)) hturn.unit x y
  have huw := unit_dotProduct_unit (gradient_dotProduct_across (d := d) hg)
  rw [← hstep] at hlength ⊢
  rw [point_dotProduct_self _ (unit_dotProduct_self hg) (unit_dotProduct_self hv) huw hturn.unit,
    Real.sqrt_le_left hradius.le] at hlength
  have hvalue : modelValue (√(g ⬝ᵥ g) • unit g) H
      (step.point turn (unit g) (unit (acrossGradient g d))) = _ :=
    modelValue_point step hH (unit_dotProduct_self hg) huw hradius.ne'
  rw [smul_unit hg] at hvalue
  have hform : Form.ofPair H (unit g) (unit (acrossGradient g d)) =
      planeForm g H (acrossGradient g d) := rfl
  rw [hvalue, hform, hturn.own_eq, hturn.other_eq]
  exact abs_value_le_change hradius htolerance hlength hturn.cross_le

end Plane

/-- A search that ends in the plane of the gradient and the curvature direction is credited with
nearly as much as any step of that plane within the radius changes a symmetric model, the scaled
gradient among them. -/
theorem planar_credit_bounds_plane {n : ℕ} (hn : 1 ≤ n) {g : Fin n → ℝ}
    {H : Matrix (Fin n) (Fin n) ℝ} (hH : H.IsSymm) {settings : Settings ℝ} {radius : ℝ}
    (hradius : 0 < radius) (horthogonality : 0 ≤ settings.orthogonalityTolerance)
    (hcross : 0 ≤ settings.crossTermTolerance) {result : Step ℝ}
    (hresult : (search settings (.ofVector g) (.ofMatrix H) radius).result = .ok result)
    (hexit : result.exit = .planar) :
    ∃ (k : Fin n) (d cauchy : Fin n → ℝ) (branch : CurvatureBranch),
      longestColumn (.ofMatrix H) = .ok (k : ℕ) ∧
      curvatureDirection settings.parallelTolerance (.ofMatrix H) (.ofVector (H.col k)) =
        .ok ⟨.ofVector d, branch⟩ ∧
      (∀ s ∈ Submodule.span ℝ {g, d}, √(s ⬝ᵥ s) ≤ radius →
        |modelValue g H s| ≤ (1.15 + settings.crossTermTolerance) * result.change) ∧
      cauchyStep (.ofVector g) (.ofMatrix H) radius = pure (.ofVector cauchy) ∧
      |modelValue g H cauchy| ≤ (1.15 + settings.crossTermTolerance) * result.change := by
  obtain ⟨k, cauchy, hk, hsearch⟩ := exists_search hn settings g H radius
  obtain ⟨factor, hfactor, hcauchy⟩ := exists_cauchyStep g H radius
  set d := (extremalDirection settings.parallelTolerance H (H.col k)).1
  rw [hsearch] at hresult
  have hsearches : Searches settings g H d radius := by
    by_contra hnot
    exact exit_ne_planar_of_not_searches hnot hresult hexit
  obtain ⟨turn, -, hturns, hplane⟩ :=
    searchPlane_of_searches cauchy hradius horthogonality hcross hsearches
  rw [hplane] at hresult
  have hg := gradient_pos_of_searches hsearches
  have hv := across_pos_of_searches horthogonality hsearches
  have hbound : ∀ s ∈ Submodule.span ℝ {g, d}, √(s ⬝ᵥ s) ≤ radius →
      |modelValue g H s| ≤ (1.15 + settings.crossTermTolerance) * result.change := by
    intro s hs hlength
    rw [← Except.ok.inj hresult]
    exact abs_modelValue_le hH hradius hcross hg hv hturns hs hlength
  have hscaled : factor • g ∈ Submodule.span ℝ {g, d} :=
    Submodule.smul_mem _ _ (Submodule.subset_span (Set.mem_insert g {d}))
  have hlength : √((factor • g) ⬝ᵥ (factor • g)) ≤ radius := by
    rw [smul_dotProduct_smul hg hfactor, Real.sqrt_sq hradius.le]
  exact ⟨k, d, factor • g, _, hk, curvatureDirection_eq _ H _, hbound, hcauchy,
    hbound _ hscaled hlength⟩

theorem search_swap :
    (search .standard (.ofVector ![4, 0]) (.ofMatrix axisSwap) (1 : ℝ)).result =
      .ok ⟨.ofVector ![0, 1], 4, .planar⟩ := by
  have hstep := geometryStep_swap
  rwa [geometryStep, Tensor.flatten_ofVector, Tensor.asMatrix_ofMatrix,
    show (Settings.standard : Settings ℝ).checked = false from rfl, guarded_false] at hstep

theorem planar_credit_bounds_plane_axisSwap :
    axisSwap.IsSymm ∧
      (search .standard (.ofVector ![4, 0]) (.ofMatrix axisSwap) (1 : ℝ)).result =
        .ok ⟨.ofVector ![0, 1], 4, .planar⟩ ∧
      ∃ (k : Fin 2) (d cauchy : Fin 2 → ℝ) (branch : CurvatureBranch),
        longestColumn (.ofMatrix axisSwap) = .ok (k : ℕ) ∧
        curvatureDirection (Settings.standard : Settings ℝ).parallelTolerance
          (.ofMatrix axisSwap) (.ofVector (axisSwap.col k)) = .ok ⟨.ofVector d, branch⟩ ∧
        (∀ s ∈ Submodule.span ℝ {![4, 0], d}, √(s ⬝ᵥ s) ≤ 1 →
          |modelValue ![4, 0] axisSwap s| ≤
            (1.15 + (Settings.standard : Settings ℝ).crossTermTolerance) * 4) ∧
        cauchyStep (.ofVector ![4, 0]) (.ofMatrix axisSwap) 1 = pure (.ofVector cauchy) ∧
        |modelValue ![4, 0] axisSwap cauchy| ≤
          (1.15 + (Settings.standard : Settings ℝ).crossTermTolerance) * 4 :=
  ⟨axisSwap_isSymm, search_swap,
    planar_credit_bounds_plane (by norm_num) axisSwap_isSymm one_pos
      (by norm_num [Settings.standard]) (by norm_num [Settings.standard]) search_swap rfl⟩

end Quadratic

end InterpolationGeometry
