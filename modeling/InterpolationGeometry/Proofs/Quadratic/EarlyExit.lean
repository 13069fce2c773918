import InterpolationGeometry.Proofs.Quadratic.CurvatureBound
import InterpolationGeometry.Proofs.Quadratic.LineExits

/-!
# The early exit

The search leaves a plane alone, and ends with the scaled direction, when the gradient is short
beside the curvature along the direction or nearly parallel to it.  Then slopes add little to what
the scaled direction is credited with, and the plane offers more only as far as it holds more
curvature.  In up to four dimensions nothing of the plane within the radius changes a symmetric
model by more than twice the credit.  In general the square root of the dimension takes the place of
two, and in five dimensions a step of the plane can exceed twice the credit.
-/

namespace InterpolationGeometry

namespace Quadratic

open Scalar hiding abs

open Matrix Extended

variable {n : ℕ} {g d s : Fin n → ℝ} {H : Matrix (Fin n) (Fin n) ℝ} {radius : ℝ}

/-! ## The credit of the scaled direction -/

section Credit

theorem abs_modelValue_scaledDirection (hradius : 0 ≤ radius) (hd : 0 < d ⬝ᵥ d) :
    |modelValue g H (scaledDirection g H d radius)| =
      radius / √(d ⬝ᵥ d) * |g ⬝ᵥ d| + 0.5 * (radius ^ 2 / (d ⬝ᵥ d) * |d ⬝ᵥ H *ᵥ d|) := by
  have hfactor : ((lineOf g H d).scaling radius) ^ 2 = (radius / √(d ⬝ᵥ d)) ^ 2 := scaling_sq _ _
  have hquotient : 0 ≤ radius / √(d ⬝ᵥ d) := div_nonneg hradius (Real.sqrt_nonneg _)
  have habs : |(lineOf g H d).scaling radius| = radius / √(d ⬝ᵥ d) := by
    rw [(sq_eq_sq_iff_abs_eq_abs _ _).1 hfactor, abs_of_nonneg hquotient]
  have hsquare : (radius / √(d ⬝ᵥ d)) ^ 2 = radius ^ 2 / (d ⬝ᵥ d) := by
    rw [div_pow, Real.sq_sqrt hd.le]
  rw [(agrees_scaledDirection g H d hradius).abs_modelValue, scaledDirection]
  simp only [mulVec_smul, smul_dotProduct, dotProduct_smul, smul_eq_mul]
  rw [abs_mul, habs, ← mul_assoc, ← pow_two, hfactor, abs_mul, abs_sq, hsquare]

theorem abs_slope_le (hlength : √(s ⬝ᵥ s) ≤ radius) : |g ⬝ᵥ s| ≤ √(g ⬝ᵥ g) * radius :=
  (abs_dotProduct_le g s).trans (mul_le_mul_of_nonneg_left hlength (Real.sqrt_nonneg _))

theorem abs_curvature_le (hd : 0 < d ⬝ᵥ d) (hlength : √(s ⬝ᵥ s) ≤ radius) {ratio : ℝ}
    (hratio : 0 ≤ ratio)
    (hcurvature : |s ⬝ᵥ H *ᵥ s| * (d ⬝ᵥ d) ≤ ratio * |d ⬝ᵥ H *ᵥ d| * (s ⬝ᵥ s)) :
    |s ⬝ᵥ H *ᵥ s| ≤ ratio * (radius ^ 2 / (d ⬝ᵥ d) * |d ⬝ᵥ H *ᵥ d|) := by
  have hsquare : s ⬝ᵥ s ≤ radius ^ 2 := (Real.sqrt_le_iff.1 hlength).2
  refine le_of_mul_le_mul_right ?_ hd
  calc |s ⬝ᵥ H *ᵥ s| * (d ⬝ᵥ d) ≤ ratio * |d ⬝ᵥ H *ᵥ d| * (s ⬝ᵥ s) := hcurvature
    _ ≤ ratio * |d ⬝ᵥ H *ᵥ d| * radius ^ 2 :=
        mul_le_mul_of_nonneg_left hsquare (mul_nonneg hratio (abs_nonneg _))
    _ = ratio * (radius ^ 2 / (d ⬝ᵥ d) * |d ⬝ᵥ H *ᵥ d|) * (d ⬝ᵥ d) := by
        field_simp

variable {settings : Settings Extended} {curvatureRatio orthogonality : ℝ}

/-- A plane is left alone because the gradient is short beside the curvature, or because it is
nearly parallel to the direction. -/
theorem IsNarrow.short_or_parallel (h : IsNarrow settings g H d radius)
    (hratio : settings.curvatureRatioTolerance = .finite curvatureRatio)
    (horthogonality : settings.orthogonalityTolerance = .finite orthogonality) :
    √(g ⬝ᵥ g) * (d ⬝ᵥ d) ≤ curvatureRatio * radius * |d ⬝ᵥ H *ᵥ d| ∨
      acrossGradient g d ⬝ᵥ acrossGradient g d ≤ orthogonality * (d ⬝ᵥ d) := by
  have hnarrow := h.narrow
  simp only [Line.isWide, Line.finite, lineOf, hratio, horthogonality, finite_mul, abs_finite,
    sqrt_finite (dotProduct_self_nonneg g), finite_lt_finite, Bool.and_eq_false_iff,
    decide_eq_false_iff_not, not_lt] at hnarrow
  exact hnarrow

/-- A gradient that is short beside the curvature adds little to the curvature of the direction. -/
theorem length_mul_le_of_short (hd : 0 < d ⬝ᵥ d) (hradius : 0 ≤ radius)
    (hshort : √(g ⬝ᵥ g) * (d ⬝ᵥ d) ≤ curvatureRatio * radius * |d ⬝ᵥ H *ᵥ d|) :
    √(g ⬝ᵥ g) * radius ≤ curvatureRatio * (radius ^ 2 / (d ⬝ᵥ d) * |d ⬝ᵥ H *ᵥ d|) := by
  refine le_of_mul_le_mul_right ?_ hd
  calc √(g ⬝ᵥ g) * radius * (d ⬝ᵥ d) = √(g ⬝ᵥ g) * (d ⬝ᵥ d) * radius := by ring
    _ ≤ curvatureRatio * radius * |d ⬝ᵥ H *ᵥ d| * radius :=
        mul_le_mul_of_nonneg_right hshort hradius
    _ = curvatureRatio * (radius ^ 2 / (d ⬝ᵥ d) * |d ⬝ᵥ H *ᵥ d|) * (d ⬝ᵥ d) := by field_simp

/-- A gradient that is nearly parallel to the direction has nearly the slope along it that it has
along itself. -/
theorem length_mul_le_of_parallel (hg : 0 < g ⬝ᵥ g) (hd : 0 < d ⬝ᵥ d) (hradius : 0 ≤ radius)
    {factor : ℝ} (hfactor : 0 ≤ factor) (hroom : 1 ≤ factor ^ 2 * (1 - orthogonality))
    (hparallel : acrossGradient g d ⬝ᵥ acrossGradient g d ≤ orthogonality * (d ⬝ᵥ d)) :
    √(g ⬝ᵥ g) * radius ≤ factor * (radius / √(d ⬝ᵥ d) * |g ⬝ᵥ d|) := by
  have hacross := acrossGradient_dotProduct_self (d := d) hg
  have hproduct : 0 < (g ⬝ᵥ g) * (d ⬝ᵥ d) := mul_pos hg hd
  have hslope : (1 - orthogonality) * ((g ⬝ᵥ g) * (d ⬝ᵥ d)) ≤ (g ⬝ᵥ d) ^ 2 := by
    have hscaled := mul_le_mul_of_nonneg_left hparallel hg.le
    rw [hacross] at hscaled
    linarith
  have hroots : √(g ⬝ᵥ g) * √(d ⬝ᵥ d) ≤ factor * |g ⬝ᵥ d| := by
    rw [← Real.sqrt_mul hg.le]
    refine Real.sqrt_le_iff.2 ⟨mul_nonneg hfactor (abs_nonneg _), ?_⟩
    calc (g ⬝ᵥ g) * (d ⬝ᵥ d)
        ≤ factor ^ 2 * (1 - orthogonality) * ((g ⬝ᵥ g) * (d ⬝ᵥ d)) :=
          le_mul_of_one_le_left hproduct.le hroom
      _ = factor ^ 2 * ((1 - orthogonality) * ((g ⬝ᵥ g) * (d ⬝ᵥ d))) := by ring
      _ ≤ factor ^ 2 * (g ⬝ᵥ d) ^ 2 := mul_le_mul_of_nonneg_left hslope (sq_nonneg factor)
      _ = (factor * |g ⬝ᵥ d|) ^ 2 := by rw [mul_pow, sq_abs]
  have hlength : 0 < √(d ⬝ᵥ d) := Real.sqrt_pos.2 hd
  calc √(g ⬝ᵥ g) * radius = √(g ⬝ᵥ g) * √(d ⬝ᵥ d) * (radius / √(d ⬝ᵥ d)) := by field_simp
    _ ≤ factor * |g ⬝ᵥ d| * (radius / √(d ⬝ᵥ d)) :=
        mul_le_mul_of_nonneg_right hroots (div_nonneg hradius hlength.le)
    _ = factor * (radius / √(d ⬝ᵥ d) * |g ⬝ᵥ d|) := by ring

/-- Beside a plane that is left alone, a step that has at most so many times the curvature of the
direction changes the model by little more than so many times the credit. -/
theorem IsNarrow.abs_modelValue_le (h : IsNarrow settings g H d radius) (hradius : 0 < radius)
    (hcurvatureRatio : settings.curvatureRatioTolerance = .finite curvatureRatio)
    (horthogonality : settings.orthogonalityTolerance = .finite orthogonality) {slack : ℝ}
    (hslack : 0 ≤ slack) (hshort : 2 * curvatureRatio ≤ slack)
    (hroom : 1 ≤ (1 + slack) ^ 2 * (1 - orthogonality)) {ratio : ℝ} (hratio : 1 ≤ ratio)
    (hlength : √(s ⬝ᵥ s) ≤ radius)
    (hcurvature : |s ⬝ᵥ H *ᵥ s| * (d ⬝ᵥ d) ≤ ratio * |d ⬝ᵥ H *ᵥ d| * (s ⬝ᵥ s)) :
    |modelValue g H s| ≤ (ratio + slack) * |modelValue g H (scaledDirection g H d radius)| := by
  obtain ⟨hg, hd⟩ := spansPlane_finite.1 h.spans
  have hslope := abs_slope_le (g := g) hlength
  have hbend := abs_curvature_le hd hlength (zero_le_one.trans hratio) hcurvature
  have hchange : |modelValue g H s| ≤ |g ⬝ᵥ s| + 0.5 * |s ⬝ᵥ H *ᵥ s| := by
    refine (abs_add_le _ _).trans_eq ?_
    rw [abs_mul, abs_of_nonneg (by norm_num : (0 : ℝ) ≤ 0.5)]
  rw [abs_modelValue_scaledDirection hradius.le hd]
  have hfirst : 0 ≤ radius / √(d ⬝ᵥ d) * |g ⬝ᵥ d| :=
    mul_nonneg (div_nonneg hradius.le (Real.sqrt_nonneg _)) (abs_nonneg _)
  have hsecond : 0 ≤ radius ^ 2 / (d ⬝ᵥ d) * |d ⬝ᵥ H *ᵥ d| :=
    mul_nonneg (div_nonneg (sq_nonneg _) hd.le) (abs_nonneg _)
  rcases h.short_or_parallel hcurvatureRatio horthogonality with hnear | hnear
  · have hadded := length_mul_le_of_short hd hradius.le hnear
    set first := radius / √(d ⬝ᵥ d) * |g ⬝ᵥ d|
    set second := radius ^ 2 / (d ⬝ᵥ d) * |d ⬝ᵥ H *ᵥ d|
    calc |modelValue g H s| ≤ curvatureRatio * second + 0.5 * (ratio * second) := by linarith
      _ ≤ 0.5 * slack * second + 0.5 * (ratio * second) := by
          have hhalf : curvatureRatio ≤ 0.5 * slack := by linarith
          gcongr
      _ = (ratio + slack) * (0.5 * second) := by ring
      _ ≤ (ratio + slack) * (first + 0.5 * second) := by
          have hnonneg : 0 ≤ ratio + slack := by linarith
          exact mul_le_mul_of_nonneg_left (le_add_of_nonneg_left hfirst) hnonneg
  · have hadded := length_mul_le_of_parallel hg hd hradius.le
      (add_nonneg zero_le_one hslack) hroom hnear
    set first := radius / √(d ⬝ᵥ d) * |g ⬝ᵥ d|
    set second := radius ^ 2 / (d ⬝ᵥ d) * |d ⬝ᵥ H *ᵥ d|
    calc |modelValue g H s| ≤ (1 + slack) * first + 0.5 * (ratio * second) := by linarith
      _ ≤ (ratio + slack) * first + 0.5 * ((ratio + slack) * second) := by
          have hmore : ratio ≤ ratio + slack := le_add_of_nonneg_right hslack
          gcongr
      _ = (ratio + slack) * (first + 0.5 * second) := by ring

end Credit

/-! ## The run -/

/-- A search that ends with the scaled direction took it from a longest column and left the plane
alone. -/
theorem search_narrow (hn : 1 ≤ n) (settings : Settings Extended) (g : Fin n → ℝ)
    (H : Matrix (Fin n) (Fin n) ℝ) (horthogonality : 0 ≤ settings.orthogonalityTolerance)
    {parallelTolerance : ℝ} (hparallel : settings.parallelTolerance = .finite parallelTolerance)
    (hradius : 0 < radius) :
    (search settings (.finiteVector g) (.finiteMatrix H) (.finite radius)).Returns fun result =>
      result.exit = .scaled → ∃ (k : Fin n) (d : Fin n → ℝ),
        longestColumn (.finiteMatrix H) = .ok (k : ℕ) ∧
        (∀ l, H.col l ⬝ᵥ H.col l ≤ H.col k ⬝ᵥ H.col k) ∧
        (extremalDirection parallelTolerance H (H.col k)).1 = d ∧
        curvatureDirection settings.parallelTolerance (.finiteMatrix H)
          (.finiteVector (H.col k)) =
            .ok ⟨.finiteVector d, (extremalDirection parallelTolerance H (H.col k)).2⟩ ∧
        IsNarrow settings g H d radius ∧
        result.change = .finite |modelValue g H (scaledDirection g H d radius)| := by
  refine (search_ends settings hn g H horthogonality hparallel hradius).mono ?_
  rintro result ⟨k, hk, hlongest, ⟨-, rfl⟩ | ⟨hcolumn, hends⟩⟩ hexit
  · exact Exit.noConfusion hexit
  · have hfound := curvatureDirection_finite_of_pos parallelTolerance H hcolumn
    rw [← hparallel] at hfound
    cases hends with
    | flat hflat => exact Exit.noConfusion hexit
    | narrow hnarrow => exact ⟨k, _, hk, hlongest, rfl, hfound, hnarrow, rfl⟩
    | wide hspan hplanar hstays =>
        rw [hplanar] at hexit
        exact Exit.noConfusion hexit

/-- With the standard settings the credit of the scaled direction bounds what any step within the
radius makes of a symmetric model, where `c` bounds how much more curvature than the stretch of its
longest column a matrix of the dimension can have. -/
theorem IsNarrow.abs_modelValue_le_standard (hH : H.IsSymm)
    (h : IsNarrow .standard g H d radius) (hradius : 0 < radius) {k : Fin n}
    (hlongest : ∀ l, H.col l ⬝ᵥ H.col l ≤ H.col k ⬝ᵥ H.col k)
    (hd : (extremalDirection 0.9999 H (H.col k)).1 = d) {c : ℝ} (hc : 1 ≤ c)
    (hpower : (n ^ 2 - n + 1 : ℝ) ≤ c ^ 4) (hroom : c < 10 ^ 4) (hlength : √(s ⬝ᵥ s) ≤ radius) :
    |modelValue g H s| ≤
      (c / (1 - c / 10 ^ 4) + 0.01) * |modelValue g H (scaledDirection g H d radius)| := by
  have hscale : (1 - 0.9999) * c = c / 10 ^ 4 := by ring
  have hbelow : c / 10 ^ 4 < 1 := (div_lt_one (by norm_num)).2 hroom
  have hpos : 0 < 1 - c / 10 ^ 4 := sub_pos.2 hbelow
  have hcurvature := abs_curvature_le_direction hH hlongest (by norm_num) (by norm_num) hd
    (zero_le_one.trans hc) hpower (by rwa [hscale]) s
  rw [hscale] at hcurvature
  have hratio : 1 ≤ c / (1 - c / 10 ^ 4) := by
    rw [one_le_div hpos]
    have hnonneg : 0 ≤ c / 10 ^ 4 := by positivity
    linarith
  exact h.abs_modelValue_le hradius rfl rfl (by norm_num) (by norm_num) (by norm_num) hratio hlength
    hcurvature

/-- A standard search of a symmetric model that ends early, with the scaled direction, is credited
with at least half of what any step of the plane of the gradient and the curvature direction within
the radius changes the model, in up to four dimensions.  In more dimensions the square root of the
dimension takes the place of two, nearly, and in any dimension the greatest ratio of a curvature in
the plane to that of the direction. -/
theorem early_exit_bounds_plane (hn : 1 ≤ n) {g : Fin n → ℝ} {H : Matrix (Fin n) (Fin n) ℝ}
    (hH : H.IsSymm) {radius : ℝ} (hradius : 0 < radius) {result : Step Extended}
    (hresult : (search .standard (.finiteVector g) (.finiteMatrix H) (.finite radius)).result =
      .ok result)
    (hexit : result.exit = .scaled) :
    ∃ (k : Fin n) (d : Fin n → ℝ) (branch : CurvatureBranch) (change : ℝ),
      longestColumn (.finiteMatrix H) = .ok (k : ℕ) ∧
      curvatureDirection (Settings.standard : Settings Extended).parallelTolerance
        (.finiteMatrix H) (.finiteVector (H.col k)) = .ok ⟨.finiteVector d, branch⟩ ∧
      result.change = .finite change ∧
      (n ≤ 4 → ∀ s ∈ Submodule.span ℝ {g, d}, √(s ⬝ᵥ s) ≤ radius →
        |modelValue g H s| ≤ 2 * change) ∧
      (n < 10 ^ 8 → ∀ s ∈ Submodule.span ℝ {g, d}, √(s ⬝ᵥ s) ≤ radius →
        |modelValue g H s| ≤ (√n / (1 - √n / 10 ^ 4) + 0.01) * change) ∧
      ∀ ratio ≥ (1 : ℝ),
        (∀ w ∈ Submodule.span ℝ {g, d},
          |w ⬝ᵥ H *ᵥ w| * (d ⬝ᵥ d) ≤ ratio * |d ⬝ᵥ H *ᵥ d| * (w ⬝ᵥ w)) →
        ∀ s ∈ Submodule.span ℝ {g, d}, √(s ⬝ᵥ s) ≤ radius →
          |modelValue g H s| ≤ (ratio + 0.01) * change := by
  obtain ⟨result', hresult', hends⟩ := search_narrow hn .standard g H standard_orthogonality
    (rfl : (Settings.standard : Settings Extended).parallelTolerance = .finite 0.9999) hradius
  obtain rfl := Except.ok.inj (hresult.symm.trans hresult')
  obtain ⟨k, d, hk, hlongest, hd, hfound, hnarrow, hchange⟩ := hends hexit
  have hone : (1 : ℝ) ≤ n := Nat.one_le_cast.2 hn
  refine ⟨k, d, _, _, hk, hfound, hchange, fun hfour s _ hlength => ?_, fun hless s _ hlength => ?_,
    fun ratio hratio hcurvature s hs hlength => ?_⟩
  · have hdimension : (n : ℝ) ≤ 4 := by exact_mod_cast hfour
    have hpower : (n ^ 2 - n + 1 : ℝ) ≤ 1.9 ^ 4 := by nlinarith
    refine (hnarrow.abs_modelValue_le_standard hH hradius hlongest hd (by norm_num) hpower
      (by norm_num) hlength).trans ?_
    exact mul_le_mul_of_nonneg_right (by norm_num) (abs_nonneg _)
  · have hpower : (n ^ 2 - n + 1 : ℝ) ≤ √n ^ 4 := by
      calc (n ^ 2 - n + 1 : ℝ) ≤ n ^ 2 := by linarith
        _ = (√n ^ 2) ^ 2 := by rw [Real.sq_sqrt (Nat.cast_nonneg n)]
        _ = √n ^ 4 := by ring
    have hroot : √(n : ℝ) < 10 ^ 4 := by
      rw [Real.sqrt_lt' (by norm_num)]
      calc (n : ℝ) < 10 ^ 8 := by exact_mod_cast hless
        _ = (10 ^ 4) ^ 2 := by norm_num
    exact hnarrow.abs_modelValue_le_standard hH hradius hlongest hd
      (Real.one_le_sqrt.2 hone) hpower hroot hlength
  · exact hnarrow.abs_modelValue_le hradius rfl rfl (by norm_num) (by norm_num) (by norm_num) hratio
      hlength (hcurvature s hs)

/-! ## A plane with more curvature -/

section Block

variable {m : ℕ}

/-- One large curvature beside a block of ones, whose columns are together more curved than any of
them is long. -/
noncomputable def block (m : ℕ) : Matrix (Fin (m + 1)) (Fin (m + 1)) ℝ :=
  Matrix.of (vecCons (vecCons 2.001 0) fun _ => vecCons 0 fun _ => 1)

noncomputable def shortGradient (m : ℕ) : Fin (m + 1) → ℝ := vecCons 0 fun _ => 0.004

theorem block_mulVec (x : ℝ) (y : Fin m → ℝ) :
    block m *ᵥ vecCons x y = vecCons (2.001 * x) fun _ => ∑ i, y i := by
  ext i
  refine Fin.cases ?_ (fun j => ?_) i
  · simp [block, mulVec, dotProduct, Fin.sum_univ_succ]
  · simp [block, mulVec, dotProduct, Fin.sum_univ_succ]

theorem block_col_zero : (block m).col 0 = vecCons 2.001 0 := by
  ext i
  refine Fin.cases rfl (fun j => ?_) i
  rfl

theorem block_col_succ (j : Fin m) : (block m).col j.succ = vecCons 0 fun _ => 1 := by
  ext i
  refine Fin.cases rfl (fun j => ?_) i
  rfl

theorem block_isSymm : (block m).IsSymm := by
  ext i j
  refine Fin.cases ?_ (fun i => ?_) i
  · refine Fin.cases rfl (fun j => ?_) j
    rfl
  · refine Fin.cases rfl (fun j => ?_) j
    rfl

theorem const_dotProduct (x y : ℝ) : ((fun _ => x) ⬝ᵥ fun _ : Fin m => y) = m * (x * y) := by
  simp [dotProduct]

/-- Up to four columns of the block are shorter than the large curvature. -/
theorem eq_zero_of_longest (hm : m ≤ 4) {k : Fin (m + 1)}
    (hlongest : ∀ l, (block m).col l ⬝ᵥ (block m).col l ≤ (block m).col k ⬝ᵥ (block m).col k) :
    k = 0 := by
  have hdimension : (m : ℝ) ≤ 4 := by exact_mod_cast hm
  have hzero := hlongest 0
  revert hzero
  refine Fin.cases (fun _ => rfl) (fun j hzero => ?_) k
  rw [block_col_zero, block_col_succ, cons_dotProduct_cons, cons_dotProduct_cons,
    const_dotProduct, zero_dotProduct] at hzero
  linarith

theorem block_mulVec_first (x : ℝ) : block m *ᵥ vecCons x 0 = vecCons (2.001 * x) 0 := by
  rw [block_mulVec]
  simp only [Pi.zero_apply, Finset.sum_const_zero]
  rfl

theorem extremalDirection_block :
    extremalDirection 0.9999 (block m) (vecCons 2.001 0) =
      (vecCons (2.001 * 2.001) 0, .parallel) := by
  rw [extremalDirection_of_isParallel, block_mulVec_first]
  rw [IsParallel, block_mulVec_first]
  simp only [cons_dotProduct_cons, zero_dotProduct]
  norm_num

theorem lineOf_block (m : ℕ) :
    lineOf (shortGradient m) (block m) (vecCons (2.001 * 2.001) 0) =
      ⟨m * (0.004 * 0.004), 0, 2.001 ^ 4, 2.001 ^ 5⟩ := by
  simp only [lineOf, shortGradient, block_mulVec_first, cons_dotProduct_cons, const_dotProduct,
    dotProduct_zero, Line.mk.injEq]
  norm_num

/-- The gradient is too short beside the large curvature for a search of the plane. -/
theorem block_narrow (hpos : 1 ≤ m) (hm : m ≤ 4) :
    IsNarrow .standard (shortGradient m) (block m) (vecCons (2.001 * 2.001) 0) 1 where
  spans := by
    have hdimension : (0 : ℝ) < m := Nat.cast_pos.2 hpos
    rw [spansPlane_finite, lineOf_block]
    exact ⟨by positivity, by norm_num⟩
  narrow := by
    have hdimension : (m : ℝ) ≤ 4 := by exact_mod_cast hm
    have hroot : √(m * (0.004 * 0.004) : ℝ) ≤ 0.008 := by
      rw [Real.sqrt_le_iff]
      constructor
      · norm_num
      · linarith
    have hshort : ¬ (5e-3 * 1 * |(2.001 : ℝ) ^ 5| < √(m * (0.004 * 0.004) : ℝ) * 2.001 ^ 4) := by
      rw [abs_of_pos (by positivity), not_lt]
      calc √(m * (0.004 * 0.004) : ℝ) * 2.001 ^ 4 ≤ 0.008 * 2.001 ^ 4 := by gcongr
        _ ≤ 5e-3 * 1 * 2.001 ^ 5 := by norm_num
    have hgradient : (0 : ℝ) ≤ m * (0.004 * 0.004) := by positivity
    rw [lineOf_block, Line.isWide, Bool.and_eq_false_iff]
    left
    rw [decide_eq_false_iff_not]
    simp only [Line.finite, sqrt_finite hgradient, Settings.standard, ofScientific_eq, finite_mul,
      abs_finite, finite_lt_finite]
    exact hshort

theorem scaledDirection_block (m : ℕ) :
    scaledDirection (shortGradient m) (block m) (vecCons (2.001 * 2.001) 0) 1 =
      vecCons 1 0 := by
  have hroot : √((2.001 : ℝ) ^ 4) = 2.001 ^ 2 := by
    rw [show (2.001 : ℝ) ^ 4 = (2.001 ^ 2) ^ 2 by ring, Real.sqrt_sq (by positivity)]
  rw [scaledDirection, lineOf_block]
  simp only [Line.scaling, zero_mul, lt_irrefl, if_false, sqrt_real, hroot, smul_cons, smul_zero,
    smul_eq_mul]
  norm_num

theorem direction_block (hm : m ≤ 4) :
    longestColumn (.finiteMatrix (block m)) = .ok ((0 : Fin (m + 1)) : ℕ) ∧
      curvatureDirection (Settings.standard : Settings Extended).parallelTolerance
        (.finiteMatrix (block m)) (.finiteVector ((block m).col 0)) =
          .ok ⟨.finiteVector (vecCons (2.001 * 2.001) 0 : Fin (m + 1) → ℝ), .parallel⟩ := by
  obtain ⟨k, hk, hlongest⟩ := exists_longestColumn_finite (block m) (Nat.succ_pos m)
  obtain rfl := eq_zero_of_longest hm hlongest
  have hcolumn : 0 < (block m).col 0 ⬝ᵥ (block m).col 0 := by
    rw [block_col_zero, cons_dotProduct_cons, zero_dotProduct]
    norm_num
  have hfound := curvatureDirection_finite_of_pos 0.9999 (block m) hcolumn
  rw [block_col_zero, extremalDirection_block, ← block_col_zero] at hfound
  exact ⟨hk, hfound⟩

theorem search_block (hpos : 1 ≤ m) (hm : m ≤ 4) :
    (search .standard (.finiteVector (shortGradient m)) (.finiteMatrix (block m))
      (.finite 1)).result =
        .ok ⟨.finiteVector (vecCons 1 0 : Fin (m + 1) → ℝ), .finite 1.0005, .scaled⟩ := by
  obtain ⟨hk, hfound⟩ := direction_block hm
  obtain ⟨hspan, hnarrow⟩ := block_narrow hpos hm
  have hvalue : |modelValue (shortGradient m) (block m) (vecCons 1 0)| = 1.0005 := by
    rw [modelValue, block_mulVec_first, shortGradient]
    simp only [cons_dotProduct_cons, dotProduct_zero]
    norm_num
  have hends := searchPlane_of_narrow .standard (block m)
    (cauchyVector (shortGradient m) (block m) 1) hspan one_pos hnarrow
  rw [scaledDirection_block, hvalue] at hends
  obtain ⟨_, hresult, rfl⟩ := search_returns_of_searchPlane .standard (block m) _
    (cauchyStep_eq_cauchyVector _ _ one_pos) hk hfound hends
  exact hresult

end Block

theorem early_exit_bounds_plane_block :
    (block 1).IsSymm ∧ (0 : ℝ) < 1 ∧
      (search .standard (.finiteVector (shortGradient 1)) (.finiteMatrix (block 1))
        (.finite 1)).result =
          .ok ⟨.finiteVector (vecCons 1 0 : Fin 2 → ℝ), .finite 1.0005, .scaled⟩ ∧
      ∃ (k : Fin 2) (d : Fin 2 → ℝ) (branch : CurvatureBranch),
        longestColumn (.finiteMatrix (block 1)) = .ok (k : ℕ) ∧
        curvatureDirection (Settings.standard : Settings Extended).parallelTolerance
          (.finiteMatrix (block 1)) (.finiteVector ((block 1).col k)) =
            .ok ⟨.finiteVector d, branch⟩ ∧
        ∀ s ∈ Submodule.span ℝ {shortGradient 1, d}, √(s ⬝ᵥ s) ≤ 1 →
          |modelValue (shortGradient 1) (block 1) s| ≤ 2 * 1.0005 := by
  have hsearch := search_block (m := 1) le_rfl (by norm_num)
  obtain ⟨k, d, branch, change, hk, hfound, hchange, hbound, -⟩ :=
    early_exit_bounds_plane one_le_two block_isSymm one_pos hsearch rfl
  obtain rfl := Extended.finite.inj hchange
  exact ⟨block_isSymm, one_pos, hsearch, k, d, branch, hk, hfound, hbound (by norm_num)⟩

/-- Along the short gradient, four ones beside the large curvature bend the model by more than twice
what the search is credited with. -/
theorem early_exit_misses_plane :
    (block 4).IsSymm ∧
      ∃ (result : Step Extended) (k : Fin 5) (d : Fin 5 → ℝ) (branch : CurvatureBranch)
        (change : ℝ) (s : Fin 5 → ℝ),
        (search .standard (.finiteVector (shortGradient 4)) (.finiteMatrix (block 4))
          (.finite 1)).result = .ok result ∧
        result.exit = .scaled ∧ result.change = .finite change ∧
        longestColumn (.finiteMatrix (block 4)) = .ok (k : ℕ) ∧
        curvatureDirection (Settings.standard : Settings Extended).parallelTolerance
          (.finiteMatrix (block 4)) (.finiteVector ((block 4).col k)) =
            .ok ⟨.finiteVector d, branch⟩ ∧
        s ∈ Submodule.span ℝ {shortGradient 4, d} ∧ √(s ⬝ᵥ s) ≤ 1 ∧
        2 * change < |modelValue (shortGradient 4) (block 4) s| := by
  obtain ⟨hk, hfound⟩ := direction_block (m := 4) le_rfl
  refine ⟨block_isSymm, _, 0, _, _, _, vecCons 0 fun _ => 0.5,
    search_block (by norm_num) le_rfl, rfl, rfl, hk, hfound, ?_, ?_, ?_⟩
  · refine Submodule.mem_span_pair.2 ⟨125, 0, ?_⟩
    rw [zero_smul, add_zero, shortGradient, smul_cons]
    ext i
    refine Fin.cases ?_ (fun j => ?_) i
    · simp
    · norm_num
  · rw [cons_dotProduct_cons, const_dotProduct]
    norm_num
  · rw [modelValue, block_mulVec, shortGradient, cons_dotProduct_cons, cons_dotProduct_cons,
      const_dotProduct, const_dotProduct]
    norm_num [abs_of_pos]

end Quadratic

end InterpolationGeometry
