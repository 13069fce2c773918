import InterpolationGeometry.Proofs.Quadratic.Ball
import InterpolationGeometry.Proofs.Quadratic.Extremal

/-!
# Ways out along a line

Unless it searches the plane, the search ends on a line: with the scaled gradient where gradient
and curvature direction span no plane, and with the scaled direction where the plane adds nothing.
Along either step slope and curvature pull together, so that it changes the model by what it is
credited with, and no other multiple of it within the radius changes the model by more.  For
symmetric second derivatives there is no plane exactly when the gradient or all the second
derivatives are zero.
-/

namespace InterpolationGeometry

namespace Quadratic

open Scalar Matrix Extended

variable {n : ℕ} {g d : Fin n → ℝ} {H : Matrix (Fin n) (Fin n) ℝ} {radius : ℝ}

/-! ## Slope and curvature -/

/-- Slope and curvature of the model along a step pull together. -/
def Agrees (g : Fin n → ℝ) (H : Matrix (Fin n) (Fin n) ℝ) (d : Fin n → ℝ) : Prop :=
  0 ≤ (g ⬝ᵥ d) * (d ⬝ᵥ H *ᵥ d)

theorem agrees_smul {factor : ℝ} (h : 0 ≤ factor * ((g ⬝ᵥ d) * (d ⬝ᵥ H *ᵥ d))) :
    Agrees g H (factor • d) := by
  have hproduct : (g ⬝ᵥ factor • d) * (factor • d ⬝ᵥ H *ᵥ (factor • d)) =
      factor ^ 2 * (factor * ((g ⬝ᵥ d) * (d ⬝ᵥ H *ᵥ d))) := by
    simp only [mulVec_smul, smul_dotProduct, dotProduct_smul, smul_eq_mul]
    ring
  rw [Agrees, hproduct]
  exact mul_nonneg (sq_nonneg factor) h

theorem modelValue_smul (g : Fin n → ℝ) (H : Matrix (Fin n) (Fin n) ℝ) (d : Fin n → ℝ) (t : ℝ) :
    modelValue g H (t • d) = t * (g ⬝ᵥ d) + 0.5 * t ^ 2 * (d ⬝ᵥ H *ᵥ d) := by
  simp only [modelValue, mulVec_smul, smul_dotProduct, dotProduct_smul, smul_eq_mul]
  ring

/-- Where slope and curvature pull together, the change is the greatest that they can make. -/
theorem Agrees.abs_modelValue (h : Agrees g H d) :
    |modelValue g H d| = |g ⬝ᵥ d| + 0.5 * |d ⬝ᵥ H *ᵥ d| := by
  have hhalf : (0 : ℝ) ≤ 0.5 := by norm_num
  have hproduct : 0 ≤ (g ⬝ᵥ d) * (0.5 * (d ⬝ᵥ H *ᵥ d)) := by
    rw [mul_left_comm]
    exact mul_nonneg hhalf h
  rw [modelValue, abs_add_of_mul_nonneg hproduct, abs_mul, abs_of_nonneg hhalf]

/-- No multiple of a step that is not longer changes the model by more, where slope and curvature
pull together. -/
theorem Agrees.abs_modelValue_smul_le (h : Agrees g H d) {t : ℝ} (ht : |t| ≤ 1) :
    |modelValue g H (t • d)| ≤ |modelValue g H d| := by
  have hsquare : t ^ 2 ≤ 1 := (sq_le_one_iff_abs_le_one t).2 ht
  calc |modelValue g H (t • d)|
      = |t * (g ⬝ᵥ d) + 0.5 * t ^ 2 * (d ⬝ᵥ H *ᵥ d)| := by rw [modelValue_smul]
    _ ≤ |t * (g ⬝ᵥ d)| + |0.5 * t ^ 2 * (d ⬝ᵥ H *ᵥ d)| := abs_add_le _ _
    _ = |t| * |g ⬝ᵥ d| + 0.5 * t ^ 2 * |d ⬝ᵥ H *ᵥ d| := by
        rw [abs_mul, abs_mul, abs_of_nonneg (by positivity : 0 ≤ 0.5 * t ^ 2)]
    _ ≤ 1 * |g ⬝ᵥ d| + 0.5 * 1 * |d ⬝ᵥ H *ᵥ d| := by gcongr
    _ = |modelValue g H d| := by rw [h.abs_modelValue, one_mul, mul_one]

theorem agrees_scaledDirection (g : Fin n → ℝ) (H : Matrix (Fin n) (Fin n) ℝ) (d : Fin n → ℝ)
    (hradius : 0 ≤ radius) : Agrees g H (scaledDirection g H d radius) := by
  have hlength : 0 ≤ radius / √(d ⬝ᵥ d) := div_nonneg hradius (Real.sqrt_nonneg _)
  refine agrees_smul ?_
  unfold Line.scaling
  split
  · rename_i hneg
    rw [sqrt_real, neg_div]
    exact mul_nonneg_of_nonpos_of_nonpos (neg_nonpos.2 hlength) hneg.le
  · rename_i hnonneg
    exact mul_nonneg hlength (not_lt.1 hnonneg)

/-! ## The scaled gradient -/

/-- The gradient at the length of the radius, in the sense in which slope and curvature pull
together, and zero for the gradient zero. -/
noncomputable def cauchyVector (g : Fin n → ℝ) (H : Matrix (Fin n) (Fin n) ℝ) (radius : ℝ) :
    Fin n → ℝ :=
  (if g ⬝ᵥ H *ᵥ g < 0 then -(radius / √(g ⬝ᵥ g)) else radius / √(g ⬝ᵥ g)) • g

@[simp] theorem cauchyVector_zero (H : Matrix (Fin n) (Fin n) ℝ) (radius : ℝ) :
    cauchyVector 0 H radius = 0 :=
  smul_zero _

theorem cauchyVector_hessian_zero (g : Fin n → ℝ) (radius : ℝ) :
    cauchyVector g 0 radius = (radius / √(g ⬝ᵥ g)) • g := by
  simp [cauchyVector]

theorem agrees_cauchyVector (g : Fin n → ℝ) (H : Matrix (Fin n) (Fin n) ℝ) (hradius : 0 ≤ radius) :
    Agrees g H (cauchyVector g H radius) := by
  have hsquare := dotProduct_self_nonneg g
  have hlength : 0 ≤ radius / √(g ⬝ᵥ g) := div_nonneg hradius (Real.sqrt_nonneg _)
  refine agrees_smul ?_
  split
  · rename_i hneg
    exact mul_nonneg_of_nonpos_of_nonpos (neg_nonpos.2 hlength)
      (mul_nonpos_of_nonneg_of_nonpos hsquare hneg.le)
  · rename_i hnonneg
    exact mul_nonneg hlength (mul_nonneg hsquare (not_lt.1 hnonneg))

theorem cauchyVector_dotProduct_self (hg : g ≠ 0) (H : Matrix (Fin n) (Fin n) ℝ) (radius : ℝ) :
    cauchyVector g H radius ⬝ᵥ cauchyVector g H radius = radius ^ 2 := by
  refine smul_dotProduct_smul (dotProduct_self_pos hg) ?_
  split
  · exact neg_sq _
  · rfl

theorem cauchyStep_eq_cauchyVector (g : Fin n → ℝ) (H : Matrix (Fin n) (Fin n) ℝ)
    (hradius : 0 < radius) :
    (cauchyStep (.finiteVector g) (.finiteMatrix H) (.finite radius)).Returns
      (· = .finiteVector (cauchyVector g H radius)) := by
  by_cases hg : g = 0
  · have hproper : ¬ IsProper n fun k => Extended.finite (continued g k) := by
      rw [isProper_iff fun k => congrArg Extended.finite (continued_val g k), not_not]
      exact hg
    refine (cauchyStep_of_not_proper _ hradius hproper).mono fun step hstep => ?_
    rw [hstep, hg, cauchyVector_zero]
  · have hpos := dotProduct_self_pos hg
    simp only [cauchyStep, Tensor.dot_finiteVector, Tensor.matmul_finiteMatrix,
      Outcome.liftM_ok_bind, sqrt_finite hpos.le, finite_div (Real.sqrt_pos.2 hpos).ne',
      Tensor.scale_finiteVector, Tensor.neg_finiteVector, zero_eq, finite_lt_finite, cauchyVector]
    split
    · rw [clearNaN_finiteVector, ← neg_smul]
      exact Outcome.returns_pure rfl
    · rw [clearNaN_finiteVector]
      exact Outcome.returns_pure rfl

/-! ## The ways out -/

/-- A step within the radius along which slope and curvature pull together, credited with the change
that it makes. -/
structure IsExact (g : Fin n → ℝ) (H : Matrix (Fin n) (Fin n) ℝ) (radius : ℝ) (d : Fin n → ℝ)
    (result : Step Extended) : Prop where
  step : result.step = .finiteVector d
  change : result.change = .finite |modelValue g H d|
  agrees : Agrees g H d
  length : d = 0 ∨ d ⬝ᵥ d = radius ^ 2

theorem isExact_cauchyVector (g : Fin n → ℝ) (H : Matrix (Fin n) (Fin n) ℝ) (hradius : 0 ≤ radius) :
    IsExact g H radius (cauchyVector g H radius)
      ⟨.finiteVector (cauchyVector g H radius), .finite |modelValue g H (cauchyVector g H radius)|,
        .degenerate⟩ where
  step := rfl
  change := rfl
  agrees := agrees_cauchyVector g H hradius
  length := by
    by_cases hg : g = 0
    · rw [hg, cauchyVector_zero]
      exact Or.inl rfl
    · exact Or.inr (cauchyVector_dotProduct_self hg H radius)

theorem PlaneEnd.exact {settings : Settings Extended} {result : Step Extended}
    (hradius : 0 ≤ radius)
    (h : PlaneEnd settings g H d (cauchyVector g H radius) radius result) :
    result.exit = .planar ∨ ∃ s, IsExact g H radius s result := by
  cases h with
  | flat hflat => exact Or.inr ⟨_, isExact_cauchyVector g H hradius⟩
  | narrow hnarrow =>
      exact Or.inr ⟨_, rfl, rfl, agrees_scaledDirection g H d hradius,
        Or.inr (scaledDirection_dotProduct_self H hnarrow.spans radius)⟩
  | wide hspan hexit hstays => exact Or.inl hexit

variable (settings : Settings Extended)

/-- A finite model leads to a step in the plane or to an exact one. -/
theorem search_exact (hn : 1 ≤ n) (g : Fin n → ℝ) (H : Matrix (Fin n) (Fin n) ℝ)
    (horthogonality : 0 ≤ settings.orthogonalityTolerance) (hradius : 0 < radius) :
    (search settings (.finiteVector g) (.finiteMatrix H) (.finite radius)).Returns fun result =>
      result.exit = .planar ∨ ∃ s, IsExact g H radius s result :=
  search_returns_of_forall settings H (cauchyVector g H radius) hn
    (cauchyStep_eq_cauchyVector g H hradius)
    (Or.inr ⟨_, isExact_cauchyVector g H hradius.le⟩) fun d =>
      (searchPlane_ends settings H _ horthogonality hradius d).mono fun _ h => h.exact hradius.le

theorem IsExact.sqrt_le {result : Step Extended} (h : IsExact g H radius d result)
    (hradius : 0 ≤ radius) : √(d ⬝ᵥ d) ≤ radius := by
  rcases h.length with rfl | hlength
  · rwa [zero_dotProduct, Real.sqrt_zero]
  · rw [hlength, Real.sqrt_sq hradius]

/-- Within the radius no multiple of an exact step changes the model by more. -/
theorem IsExact.abs_modelValue_smul_le {result : Step Extended} (h : IsExact g H radius d result)
    (hradius : 0 < radius) {t : ℝ} (ht : √((t • d) ⬝ᵥ (t • d)) ≤ radius) :
    |modelValue g H (t • d)| ≤ |modelValue g H d| := by
  rcases h.length with rfl | hlength
  · rw [smul_zero]
  · refine h.agrees.abs_modelValue_smul_le ?_
    have hscaled : √((t • d) ⬝ᵥ (t • d)) = |t| * radius := by
      rw [smul_dotProduct, dotProduct_smul, smul_eq_mul, smul_eq_mul, hlength, ← mul_assoc,
        ← pow_two, ← mul_pow, Real.sqrt_sq_eq_abs, abs_mul, abs_of_pos hradius]
    rw [hscaled] at ht
    exact le_of_mul_le_mul_right (ht.trans_eq (one_mul radius).symm) hradius

/-- A search that ends with the scaled gradient or with the scaled direction is credited with the
change that its step makes, and within the radius no multiple of the step changes the model by
more. -/
theorem line_exits_exact (hn : 1 ≤ n) (g : Fin n → ℝ) (H : Matrix (Fin n) (Fin n) ℝ)
    {settings : Settings Extended} (horthogonality : 0 ≤ settings.orthogonalityTolerance)
    {radius : ℝ} (hradius : 0 < radius) :
    ∃ result,
      (search settings (.finiteVector g) (.finiteMatrix H) (.finite radius)).result = .ok result ∧
      (result.exit = .degenerate ∨ result.exit = .scaled →
        ∃ d : Fin n → ℝ, result.step = .finiteVector d ∧ √(d ⬝ᵥ d) ≤ radius ∧
          result.change = .finite |g ⬝ᵥ d + 0.5 * (d ⬝ᵥ H *ᵥ d)| ∧
          (∀ t ∈ Set.Icc (-1 : ℝ) 1,
            |t * (g ⬝ᵥ d) + 0.5 * t ^ 2 * (d ⬝ᵥ H *ᵥ d)| ≤ |g ⬝ᵥ d + 0.5 * (d ⬝ᵥ H *ᵥ d)|) ∧
          ∀ t : ℝ, √((t • d) ⬝ᵥ (t • d)) ≤ radius →
            |modelValue g H (t • d)| ≤ |modelValue g H d|) := by
  obtain ⟨result, hresult, hends⟩ := search_exact settings hn g H horthogonality hradius
  refine ⟨result, hresult, fun hexit => ?_⟩
  rcases hends with hplanar | ⟨d, hexact⟩
  · rw [hplanar] at hexit
    rcases hexit with hexit | hexit
    · exact Exit.noConfusion hexit
    · exact Exit.noConfusion hexit
  · refine ⟨d, hexact.step, hexact.sqrt_le hradius.le, hexact.change, fun t ht => ?_,
      fun t ht => hexact.abs_modelValue_smul_le hradius ht⟩
    rw [← modelValue_smul]
    exact hexact.agrees.abs_modelValue_smul_le (abs_le.2 ht)

theorem standard_orthogonality :
    0 ≤ (Settings.standard : Settings Extended).orthogonalityTolerance :=
  finite_le_finite.2 (by norm_num)

/-- Second derivatives that are not symmetric: both columns are the first axis. -/
def firstRow : Matrix (Fin 2) (Fin 2) ℝ := !![1, 1; 0, 0]

theorem firstRow_mulVec (x y : ℝ) : firstRow *ᵥ ![x, y] = ![x + y, 0] := by
  ext i
  fin_cases i
  · simp [firstRow, mulVec, dotProduct, Fin.sum_univ_two]
  · simp [firstRow, mulVec, dotProduct, Fin.sum_univ_two]

theorem firstRow_col (k : Fin 2) : firstRow.col k = ![1, 0] := by
  ext i
  fin_cases k <;> fin_cases i <;> rfl

theorem extremalDirection_firstRow :
    extremalDirection 0.9999 firstRow ![1, 0] = (![1, 0], .parallel) := by
  have himage : firstRow *ᵥ ![1, 0] = ![1, 0] := by
    rw [firstRow_mulVec, add_zero]
  rw [extremalDirection_of_isParallel, himage]
  rw [IsParallel, himage]
  norm_num

theorem search_firstRow :
    (search .standard (.finiteVector ![-1, 0]) (.finiteMatrix firstRow) (.finite 1)).Returns
      (·.exit = .scaled) := by
  obtain ⟨k, hk, -⟩ := exists_longestColumn_finite firstRow one_le_two
  have hcolumn : 0 < firstRow.col k ⬝ᵥ firstRow.col k := by
    rw [firstRow_col]
    norm_num
  have hfound := curvatureDirection_finite_of_pos 0.9999 firstRow hcolumn
  rw [firstRow_col, extremalDirection_firstRow] at hfound
  have hspan : (lineOf ![-1, 0] firstRow ![1, 0]).finite.spansPlane = true :=
    spansPlane_finite.2 ⟨by norm_num [lineOf], by norm_num [lineOf]⟩
  have hacross : acrossGradient ![-1, 0] ![1, 0] = (0 : Fin 2 → ℝ) := by
    ext i
    fin_cases i <;> norm_num [acrossGradient]
  have hnarrow : (lineOf ![-1, 0] firstRow ![1, 0]).finite.isWide .standard (.finite 1)
      (.finite (acrossGradient ![-1, 0] ![1, 0] ⬝ᵥ acrossGradient ![-1, 0] ![1, 0])) = false := by
    refine Bool.eq_false_iff.2 fun hwide => ?_
    have hpos := pos_of_isWide standard_orthogonality hspan hwide
    rw [hacross, zero_dotProduct] at hpos
    exact (finite_lt_finite.1 hpos).false
  refine search_returns_of_searchPlane .standard firstRow _
    (cauchyStep_eq_cauchyVector _ firstRow one_pos) hk (by rw [firstRow_col]; exact hfound) ?_
  refine (searchPlane_of_narrow .standard firstRow _ hspan one_pos hnarrow).mono ?_
  rintro _ rfl
  rfl

theorem line_exits_exact_firstRow :
    0 ≤ (Settings.standard : Settings Extended).orthogonalityTolerance ∧ (0 : ℝ) < 1 ∧
      ∃ (result : Step Extended) (d : Fin 2 → ℝ),
        (search .standard (.finiteVector ![-1, 0]) (.finiteMatrix firstRow) (.finite 1)).result =
          .ok result ∧
        result.exit = .scaled ∧ result.step = .finiteVector d ∧ √(d ⬝ᵥ d) ≤ 1 ∧
        result.change = .finite |![-1, 0] ⬝ᵥ d + 0.5 * (d ⬝ᵥ firstRow *ᵥ d)| ∧
        ∀ t ∈ Set.Icc (-1 : ℝ) 1,
          |t * (![-1, 0] ⬝ᵥ d) + 0.5 * t ^ 2 * (d ⬝ᵥ firstRow *ᵥ d)| ≤
            |![-1, 0] ⬝ᵥ d + 0.5 * (d ⬝ᵥ firstRow *ᵥ d)| := by
  obtain ⟨result, hresult, hexact⟩ :=
    line_exits_exact one_le_two ![-1, 0] firstRow standard_orthogonality one_pos
  obtain ⟨result', hresult', hexit⟩ := search_firstRow
  obtain rfl := Except.ok.inj (hresult.symm.trans hresult')
  obtain ⟨d, hstep, hlength, hchange, hmultiples, -⟩ := hexact (Or.inr hexit)
  exact ⟨standard_orthogonality, one_pos, result, d, hresult, hexit, hstep, hlength, hchange,
    hmultiples⟩

/-! ## No plane -/

/-- A column of zeros leads to no plane, and any other longest column to the plane of the gradient
and the direction of exact arithmetic. -/
theorem search_ends (hn : 1 ≤ n) (g : Fin n → ℝ) (H : Matrix (Fin n) (Fin n) ℝ)
    (horthogonality : 0 ≤ settings.orthogonalityTolerance) {parallelTolerance : ℝ}
    (hparallel : settings.parallelTolerance = .finite parallelTolerance) (hradius : 0 < radius) :
    (search settings (.finiteVector g) (.finiteMatrix H) (.finite radius)).Returns fun result =>
      ∃ k : Fin n, longestColumn (.finiteMatrix H) = .ok (k : ℕ) ∧
        (∀ l, H.col l ⬝ᵥ H.col l ≤ H.col k ⬝ᵥ H.col k) ∧
        (H.col k = 0 ∧ result = ⟨.finiteVector (cauchyVector g H radius),
            .finite |modelValue g H (cauchyVector g H radius)|, .degenerate⟩ ∨
          0 < H.col k ⬝ᵥ H.col k ∧ PlaneEnd settings g H
            (extremalDirection parallelTolerance H (H.col k)).1 (cauchyVector g H radius) radius
            result) := by
  obtain ⟨k, hk, hlongest⟩ := exists_longestColumn_finite H hn
  have hcauchy := cauchyStep_eq_cauchyVector g H hradius
  rcases (dotProduct_self_nonneg (H.col k)).eq_or_lt with hzero | hpos
  · have hcolumn : H.col k = 0 := dotProduct_self_eq_zero.1 hzero.symm
    obtain ⟨branch, hfound⟩ := curvatureDirection_finite_zero parallelTolerance H
    rw [← hparallel, ← hcolumn] at hfound
    obtain ⟨line, hline, hflat⟩ := exists_lineOf_nan hn g H
    refine search_returns_of_searchPlane settings H _ hcauchy hk hfound ?_
    refine (searchPlane_of_flat settings H _ hline hflat).mono fun result hresult => ?_
    exact ⟨k, hk, hlongest, Or.inl ⟨hcolumn, hresult⟩⟩
  · have hfound := curvatureDirection_finite_of_pos parallelTolerance H hpos
    rw [← hparallel] at hfound
    refine search_returns_of_searchPlane settings H _ hcauchy hk hfound ?_
    refine (searchPlane_ends settings H _ horthogonality hradius _).mono fun result hends => ?_
    exact ⟨k, hk, hlongest, Or.inr ⟨hpos, hends⟩⟩

/-- For symmetric second derivatives a plane is spanned as soon as neither the gradient nor all the
second derivatives are zero. -/
theorem spansPlane_of_ne_zero (hg : g ≠ 0) (hH : H.IsSymm) {k : Fin n}
    (hcolumn : 0 < H.col k ⬝ᵥ H.col k) {parallelTolerance : ℝ} (hless : parallelTolerance < 1) :
    (lineOf g H (extremalDirection parallelTolerance H (H.col k)).1).finite.spansPlane = true :=
  spansPlane_finite.2 ⟨dotProduct_self_pos hg,
    dotProduct_self_pos (extremalDirection_ne_zero hH (mulVec_col_ne_zero hH hcolumn) hless)⟩

/-- Without a plane the search ends with the scaled gradient, and that is without a gradient or
without second derivatives. -/
theorem search_degenerate (hn : 1 ≤ n) (g : Fin n → ℝ) (hH : H.IsSymm)
    (horthogonality : 0 ≤ settings.orthogonalityTolerance) {parallelTolerance : ℝ}
    (hparallel : settings.parallelTolerance = .finite parallelTolerance)
    (hless : parallelTolerance < 1) (hradius : 0 < radius) :
    (search settings (.finiteVector g) (.finiteMatrix H) (.finite radius)).Returns fun result =>
      (result.exit = .degenerate ↔ g = 0 ∨ H = 0) ∧
        (g = 0 ∨ H = 0 → result.step = .finiteVector (cauchyVector g H radius) ∧
          result.change = .finite |modelValue g H (cauchyVector g H radius)|) := by
  refine (search_ends settings hn g H horthogonality hparallel hradius).mono ?_
  rintro result ⟨k, -, hlongest, ⟨hcolumn, rfl⟩ | ⟨hcolumn, hends⟩⟩
  · have hzero : H = 0 := by
      by_contra hne
      have hpos := col_dotProduct_self_pos hne hlongest
      rw [hcolumn, zero_dotProduct] at hpos
      exact hpos.false
    exact ⟨iff_of_true rfl (Or.inr hzero), fun _ => ⟨rfl, rfl⟩⟩
  · have hne : H ≠ 0 := by
      rintro rfl
      exact hcolumn.ne' (zero_dotProduct _)
    cases hends with
    | flat hflat =>
        have hgradient : g = 0 := by
          by_contra hg
          rw [spansPlane_of_ne_zero hg hH hcolumn hless] at hflat
          contradiction
        exact ⟨iff_of_true rfl (Or.inl hgradient), fun _ => ⟨rfl, rfl⟩⟩
    | narrow hnarrow =>
        have hnot := not_or.2 ⟨gradient_ne_zero H hnarrow.spans, hne⟩
        exact ⟨iff_of_false Exit.noConfusion hnot, fun h => absurd h hnot⟩
    | wide hspan hexit hstays =>
        have hnot := not_or.2 ⟨gradient_ne_zero H hspan, hne⟩
        refine ⟨iff_of_false ?_ hnot, fun h => absurd h hnot⟩
        rw [hexit]
        exact Exit.noConfusion

theorem gradient_dotProduct_smul (hg : g ≠ 0) (radius : ℝ) :
    g ⬝ᵥ (radius / √(g ⬝ᵥ g)) • g = radius * √(g ⬝ᵥ g) := by
  have hpos := dotProduct_self_pos hg
  have hne : √(g ⬝ᵥ g) ≠ 0 := (Real.sqrt_pos.2 hpos).ne'
  rw [dotProduct_smul, smul_eq_mul, div_mul_eq_mul_div, div_eq_iff hne, mul_assoc,
    Real.mul_self_sqrt hpos.le]

/-- Within the radius a linear model changes most along the gradient. -/
theorem isGreatest_abs_dotProduct (hg : g ≠ 0) (hradius : 0 ≤ radius) :
    IsGreatest ((fun s => |g ⬝ᵥ s|) '' {s | √(s ⬝ᵥ s) ≤ radius}) (radius * √(g ⬝ᵥ g)) := by
  have hlength : 0 ≤ √(g ⬝ᵥ g) := Real.sqrt_nonneg _
  constructor
  · refine ⟨(radius / √(g ⬝ᵥ g)) • g, ?_, ?_⟩
    · show √((radius / √(g ⬝ᵥ g)) • g ⬝ᵥ (radius / √(g ⬝ᵥ g)) • g) ≤ radius
      rw [smul_dotProduct_smul (dotProduct_self_pos hg) rfl, Real.sqrt_sq hradius]
    · show |g ⬝ᵥ (radius / √(g ⬝ᵥ g)) • g| = _
      rw [gradient_dotProduct_smul hg, abs_of_nonneg (mul_nonneg hradius hlength)]
  · rintro _ ⟨s, hs, rfl⟩
    calc |g ⬝ᵥ s| ≤ √(g ⬝ᵥ g) * √(s ⬝ᵥ s) := abs_dotProduct_le g s
      _ ≤ √(g ⬝ᵥ g) * radius := mul_le_mul_of_nonneg_left hs hlength
      _ = radius * √(g ⬝ᵥ g) := mul_comm _ _

/-- For symmetric second derivatives the search ends without a plane exactly when the gradient or
all the second derivatives are zero.  A linear model is left at the gradient scaled to the length
of the radius, where it changes as much as it can, and a model without a gradient at the step zero.
-/
theorem degenerate_exit_iff (hn : 1 ≤ n) (g : Fin n → ℝ) {H : Matrix (Fin n) (Fin n) ℝ}
    (hH : H.IsSymm) {settings : Settings Extended}
    (horthogonality : 0 ≤ settings.orthogonalityTolerance)
    (hparallel : 0 ≤ settings.parallelTolerance) (hless : settings.parallelTolerance < 1)
    {radius : ℝ} (hradius : 0 < radius) :
    ∃ result,
      (search settings (.finiteVector g) (.finiteMatrix H) (.finite radius)).result = .ok result ∧
      (result.exit = .degenerate ↔ g = 0 ∨ H = 0) ∧
      (H = 0 → g ≠ 0 →
        result.step = .finiteVector ((radius / √(g ⬝ᵥ g)) • g) ∧
        result.change = .finite (radius * √(g ⬝ᵥ g)) ∧
        IsGreatest ((fun s => |g ⬝ᵥ s|) '' {s | √(s ⬝ᵥ s) ≤ radius}) (radius * √(g ⬝ᵥ g))) ∧
      (g = 0 → result.step = .finiteVector (0 : Fin n → ℝ) ∧ result.change = .finite 0) := by
  obtain ⟨tolerance, htolerance⟩ : ∃ t, settings.parallelTolerance = .finite t := by
    rcases zero_le_iff.1 hparallel with ⟨t, -, ht⟩ | hinfinite
    · exact ⟨t, ht⟩
    · rw [hinfinite] at hless
      exact absurd hless (not_infinite_lt 1)
  rw [htolerance, one_eq, finite_lt_finite] at hless
  obtain ⟨result, hresult, hiff, hvanishing⟩ :=
    search_degenerate settings hn g hH horthogonality htolerance hless hradius
  refine ⟨result, hresult, hiff, fun hzero hg => ?_, fun hzero => ?_⟩
  · obtain ⟨hstep, hchange⟩ := hvanishing (Or.inr hzero)
    have hvalue : modelValue g H (cauchyVector g H radius) = radius * √(g ⬝ᵥ g) := by
      rw [hzero, cauchyVector_hessian_zero, modelValue, gradient_dotProduct_smul hg, zero_mulVec,
        dotProduct_zero, mul_zero, add_zero]
    have hnonneg : 0 ≤ radius * √(g ⬝ᵥ g) := mul_nonneg hradius.le (Real.sqrt_nonneg _)
    rw [hvalue, abs_of_nonneg hnonneg] at hchange
    rw [hzero, cauchyVector_hessian_zero] at hstep
    exact ⟨hstep, hchange, isGreatest_abs_dotProduct hg hradius.le⟩
  · obtain ⟨hstep, hchange⟩ := hvanishing (Or.inl hzero)
    have hvalue : modelValue g H (cauchyVector g H radius) = 0 := by
      rw [hzero, modelValue, zero_dotProduct, cauchyVector_zero, zero_dotProduct, mul_zero,
        add_zero]
    rw [hvalue, abs_zero] at hchange
    rw [hzero, cauchyVector_zero] at hstep
    exact ⟨hstep, hchange⟩

/-- A linear model, and one whose second derivatives swap the axes. -/
theorem degenerate_exit_iff_linear :
    (∃ result : Step Extended,
      (search .standard (.finiteVector ![3, 4])
        (.finiteMatrix (0 : Matrix (Fin 2) (Fin 2) ℝ)) (.finite 2)).result = .ok result ∧
      result.exit = .degenerate ∧ result.step = .finiteVector ((2 / 5 : ℝ) • ![3, 4]) ∧
      result.change = .finite 10) ∧
    ∃ result : Step Extended,
      (search .standard (.finiteVector ![4, 0]) (.finiteMatrix axisSwap) (.finite 1)).result =
        .ok result ∧
      result.exit ≠ .degenerate := by
  have hparallel : 0 ≤ (Settings.standard : Settings Extended).parallelTolerance :=
    finite_le_finite.2 (by norm_num)
  have hless : (Settings.standard : Settings Extended).parallelTolerance < 1 :=
    finite_lt_finite.2 (by norm_num)
  have hroot : √(![3, 4] ⬝ᵥ ![3, 4] : ℝ) = 5 := by
    norm_num [Real.sqrt_eq_iff_mul_self_eq]
  have hgradient : (![3, 4] : Fin 2 → ℝ) ≠ 0 := fun hzero => by
    simpa using congrFun hzero 0
  constructor
  · obtain ⟨result, hresult, hiff, hlinear, -⟩ := degenerate_exit_iff one_le_two ![3, 4]
      isSymm_zero standard_orthogonality hparallel hless (two_pos : (0 : ℝ) < 2)
    obtain ⟨hstep, hchange, -⟩ := hlinear rfl hgradient
    rw [hroot] at hstep hchange
    exact ⟨result, hresult, hiff.2 (Or.inr rfl), hstep, hchange.trans (by norm_num)⟩
  · obtain ⟨result, hresult, hiff, -⟩ := degenerate_exit_iff one_le_two ![4, 0]
      axisSwap_isSymm standard_orthogonality hparallel hless one_pos
    refine ⟨result, hresult, fun hexit => ?_⟩
    rcases hiff.1 hexit with hzero | hzero
    · simpa using congrFun hzero 0
    · simpa using congrFun (congrFun hzero 0) 1

end Quadratic

end InterpolationGeometry
