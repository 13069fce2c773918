import InterpolationGeometry.Proofs.Causes
import InterpolationGeometry.Proofs.Quadratic.Existence

/-!
# The step stays in the ball

Whatever the entries of the model, the step has finite entries and at most the length of the radius:
exactly that length when the gradient is finite and not zero, and length zero otherwise.  The scaled
gradient is such a step, and so is every step that the search puts in its place: either it is a
vector of the length of the radius, or none of its entries is a number, and then it is cleared,
found to have vanished, and replaced by the scaled gradient.
-/

namespace InterpolationGeometry

namespace Quadratic

open Scalar Matrix Extended

variable {n : ℕ} {radius : ℝ}

def IsProper (n : ℕ) (g : ℕ → Extended) : Prop :=
  (∀ k, k < n → Scalar.isFinite (g k) = true) ∧ ∃ k, k < n ∧ g k ≠ 0

/-! ## Clearing and replacing -/

theorem clearNaN_finiteVector (kind : StepKind) (v : Fin n → ℝ) :
    clearNaN kind (.finiteVector v) = pure (.finiteVector v) :=
  clearNaN_of_forall fun k _ => isNaN_finite (continued v k)

theorem clearNaN_of_vanishing {kind : StepKind} {d : ℕ → Extended}
    (h : ∀ k, k < n → d k = nan ∨ d k = 0) :
    (clearNaN kind (.vector n d)).Returns (· = .finiteVector (0 : Fin n → ℝ)) := by
  refine ⟨_, result_clearNaN, Tensor.vector_congr fun k hk => ?_⟩
  have hzero : continued (0 : Fin n → ℝ) k = 0 := by
    rw [continued_of_lt _ hk]
    rfl
  rw [hzero, ← zero_eq]
  rcases h k hk with hnan | hzero
  · rw [hnan, isNaN_nan, if_pos rfl]
  · rw [hzero]
    exact ite_self 0

theorem clearNaN_nanVector (kind : StepKind) :
    (clearNaN kind (.nanVector n)).Returns (· = .finiteVector (0 : Fin n → ℝ)) :=
  clearNaN_of_vanishing fun _ _ => Or.inl rfl

theorem unlessVanished_of_hasLength {kind : StepKind} {step other : Tensor Extended}
    (hradius : 0 < radius) (h : HasLength n radius step) :
    unlessVanished kind step other = pure step := by
  obtain ⟨d, rfl, hd⟩ := h
  have hpos : ¬ Extended.finite (d ⬝ᵥ d) ≤ 0 := by
    rw [zero_eq, finite_le_finite, hd]
    exact not_le.2 (sq_pos_of_pos hradius)
  simp only [unlessVanished, Tensor.dot_finiteVector, Outcome.liftM_ok_bind, hpos, if_false]

theorem unlessVanished_zero (kind : StepKind) (other : Tensor Extended) :
    (unlessVanished kind (.finiteVector (0 : Fin n → ℝ)) other).Returns (· = other) := by
  have hzero : Extended.finite ((0 : Fin n → ℝ) ⬝ᵥ 0) ≤ 0 := by
    rw [zero_eq, finite_le_finite, zero_dotProduct]
  simp only [unlessVanished, Tensor.dot_finiteVector, Outcome.liftM_ok_bind, hzero, if_true]
  exact Outcome.Returns.report (Outcome.returns_pure rfl)

/-! ## The scaled gradient -/

section Gradient

variable {g : ℕ → Extended} (H : ℕ → ℕ → Extended)

theorem cauchyStep_finite {v : Fin n → ℝ} (hv : v ≠ 0) (radius : ℝ) :
    (cauchyStep (.finiteVector v) (.matrix n n H) (.finite radius)).Returns
      (HasLength n radius) := by
  have hpos := dotProduct_self_pos hv
  have himage : (Tensor.matrix n n H).matmul (.finiteVector v) = .ok (.vector n _) :=
    Tensor.matmul_matrix_vector n n H _
  have hcurvature : ∀ f, (Tensor.finiteVector v).dot (.vector n f) = .ok _ := fun f =>
    Tensor.dot_vector n _ f
  simp only [cauchyStep, Tensor.dot_finiteVector, himage, hcurvature, Outcome.liftM_ok_bind,
    sqrt_finite hpos.le, finite_div (Real.sqrt_pos.2 hpos).ne', Tensor.scale_finiteVector,
    Tensor.neg_finiteVector]
  split
  · rw [clearNaN_finiteVector, ← neg_smul]
    exact Outcome.returns_pure ⟨_, rfl, smul_dotProduct_smul hpos (neg_sq _)⟩
  · rw [clearNaN_finiteVector]
    exact Outcome.returns_pure ⟨_, rfl, smul_dotProduct_smul hpos rfl⟩

/-- The squared length of a gradient that is not finite is infinite or not a number. -/
theorem sum_mul_self_of_not_isFinite {k : ℕ} (hk : k < n) (h : Scalar.isFinite (g k) = false) :
    (sum n fun k => g k * g k) = infinite false ∨ (sum n fun k => g k * g k) = nan := by
  have hnot : Scalar.isFinite (sum n fun k => g k * g k) ≠ true := fun hfinite => by
    rw [isFinite_of_isFinite_mul_self (isFinite_of_isFinite_sum hfinite hk)] at h
    contradiction
  by_cases hnumbers : ∀ k, k < n → isNaN (g k) = false
  · rcases zero_le_iff.1 (sum_square_nonneg hnumbers) with ⟨r, -, hr⟩ | hinfinite
    · exact absurd (congrArg Scalar.isFinite hr) hnot
    · exact Or.inl hinfinite
  · simp only [not_forall, Bool.not_eq_false] at hnumbers
    obtain ⟨l, hl, hnan⟩ := hnumbers
    exact Or.inr (isNaN_eq_true_iff.1 (isNaN_sum_square hl hnan))

/-- Scaled, a gradient that is zero or not finite has no entries but zeros and no numbers. -/
theorem scaled_vanishes (hradius : 0 < radius) (h : ¬ IsProper n g) {k : ℕ} (hk : k < n) :
    Extended.finite radius / Scalar.sqrt (sum n fun k => g k * g k) * g k = nan ∨
      Extended.finite radius / Scalar.sqrt (sum n fun k => g k * g k) * g k = 0 := by
  by_cases hfinite : ∀ k, k < n → Scalar.isFinite (g k) = true
  · have hzero : ∀ k, k < n → g k = .finite 0 := fun k hk => by
      by_contra hne
      exact h ⟨hfinite, k, hk, hne⟩
    have hsquare : (sum n fun k => g k * g k) = .finite 0 := by
      have hreal : (sum n fun _ => (0 : ℝ)) = 0 := by simp [sum_real]
      rw [← hreal, ← sum_finite]
      refine sum_congr fun k hk => ?_
      rw [hzero k hk, finite_mul, mul_zero]
    rw [hsquare, hzero k hk, sqrt_finite le_rfl, Real.sqrt_zero]
    exact Or.inl (div_zero_mul_zero hradius.ne')
  · simp only [not_forall, Bool.not_eq_true] at hfinite
    obtain ⟨l, hl, hnot⟩ := hfinite
    rcases sum_mul_self_of_not_isFinite hl hnot with hsquare | hsquare
    · rw [hsquare, show Scalar.sqrt (infinite false) = infinite false from rfl, finite_div_infinite]
      exact zero_mul_eq (g k)
    · rw [hsquare, sqrt_nan, div_nan, nan_mul]
      exact Or.inl rfl

theorem cauchyStep_of_not_proper (hradius : 0 < radius) (h : ¬ IsProper n g) :
    (cauchyStep (.vector n g) (.matrix n n H) (.finite radius)).Returns
      (· = .finiteVector (0 : Fin n → ℝ)) := by
  simp only [cauchyStep, Tensor.dot_vector, Tensor.matmul_matrix_vector, Outcome.liftM_ok_bind,
    Tensor.scale_vector, Tensor.neg_vector]
  have hvanishes := fun k hk => scaled_vanishes hradius h (k := k) hk
  split
  · refine clearNaN_of_vanishing fun k hk => ?_
    rcases hvanishes k hk with hnan | hzero
    · exact Or.inl (by rw [hnan, neg_nan])
    · exact Or.inr (by rw [hzero, zero_eq, neg_finite, neg_zero])
  · exact clearNaN_of_vanishing hvanishes

end Gradient

/-! ## The search -/

/-- The scaled gradient or, when the gradient is not zero, another step of its length, and a change
that is not negative. -/
structure Stays (n : ℕ) (radius : ℝ) (proper : Prop) (cauchy : Tensor Extended)
    (result : Step Extended) : Prop where
  step : result.step = cauchy ∨ proper ∧ HasLength n radius result.step
  change : 0 ≤ result.change

section Search

variable (settings : Settings Extended) {g : Fin n → ℝ} (H : Matrix (Fin n) (Fin n) ℝ)
  (cauchy : Fin n → ℝ)

theorem modelChange_finiteVector (g s : Fin n → ℝ) (H : Matrix (Fin n) (Fin n) ℝ) :
    modelChange (.finiteVector g) (.finiteMatrix H) (.finiteVector s) =
      .ok (.finite |modelValue g H s|) := by
  simp only [modelChange, Tensor.dot_finiteVector, Tensor.matmul_finiteMatrix, bind, Except.bind,
    pure, Except.pure]
  rfl

/-- A direction that spans no plane with the gradient leaves the scaled gradient, credited with the
change that it makes. -/
theorem searchPlane_of_flat {direction : Tensor Extended} {line : Line Extended}
    (hline : Line.of (.finiteVector g) (.finiteMatrix H) direction = .ok line)
    (hflat : line.spansPlane = false) :
    (searchPlane settings (.finiteVector g) (.finiteMatrix H) direction (.finiteVector cauchy)
      (.finite radius)).Returns
        (· = ⟨.finiteVector cauchy, .finite |modelValue g H cauchy|, .degenerate⟩) := by
  simp only [searchPlane, hline, hflat, modelChange_finiteVector, Outcome.liftM_ok_bind,
    Bool.not_false, if_true]
  exact Outcome.Returns.report (Outcome.returns_pure rfl)

section Direction

variable {d : Fin n → ℝ} (hspan : (lineOf g H d).finite.spansPlane = true)

include hspan

theorem gradient_ne_zero : g ≠ 0 := by
  have hpos : 0 < g ⬝ᵥ g := (spansPlane_finite.1 hspan).1
  rintro rfl
  rw [zero_dotProduct] at hpos
  exact hpos.false

theorem slope_div_gradientSquare :
    (lineOf g H d).finite.slope / (lineOf g H d).finite.gradientSquare =
      .finite (g ⬝ᵥ d / (g ⬝ᵥ g)) :=
  finite_div (spansPlane_finite.1 hspan).1.ne' _

theorem scaledDirection_dotProduct_self (radius : ℝ) :
    scaledDirection g H d radius ⬝ᵥ scaledDirection g H d radius = radius ^ 2 :=
  smul_dotProduct_smul (spansPlane_finite.1 hspan).2 (scaling_sq (lineOf g H d) radius)

theorem scaledDirection_hasLength (radius : ℝ) :
    HasLength n radius (.finiteVector (scaledDirection g H d radius)) :=
  ⟨_, rfl, scaledDirection_dotProduct_self H hspan radius⟩

/-- A plane that is not worth a search leaves the direction at the length of the radius, credited
with the change that it makes. -/
theorem searchPlane_of_narrow (hradius : 0 < radius)
    (hnarrow : (lineOf g H d).finite.isWide settings (.finite radius)
      (.finite (acrossGradient g d ⬝ᵥ acrossGradient g d)) = false) :
    (searchPlane settings (.finiteVector g) (.finiteMatrix H) (.finiteVector d)
      (.finiteVector cauchy) (.finite radius)).Returns
        (· = ⟨.finiteVector (scaledDirection g H d radius),
          .finite |modelValue g H (scaledDirection g H d radius)|, .scaled⟩) := by
  have hacross : (Tensor.finiteVector d).sub (.finiteVector ((g ⬝ᵥ d / (g ⬝ᵥ g)) • g)) =
      .ok (.finiteVector (acrossGradient g d)) := Tensor.sub_finiteVector d _
  have hscaled : unlessVanished .scaled (.finiteVector (scaledDirection g H d radius))
      (.finiteVector cauchy) = pure _ :=
    unlessVanished_of_hasLength hradius (scaledDirection_hasLength H hspan radius)
  rw [scaledDirection] at hscaled
  simp only [searchPlane, lineOf_finite, hspan, slope_div_gradientSquare H hspan, hacross, hnarrow,
    scaling_finite radius (spansPlane_finite.1 hspan).2, change_finite, change_lineOf,
    Outcome.liftM_ok_bind, Bool.not_true, Bool.not_false, Bool.false_eq_true, if_false, if_true,
    Tensor.scale_finiteVector, Tensor.dot_finiteVector, clearNaN_finiteVector, pure_bind, hscaled]
  exact Outcome.Returns.report (Outcome.returns_pure rfl)

/-- A plane that is worth a search ends it with the step in the plane, less the entries that are no
numbers. -/
theorem searchPlane_of_planarStep {step : Tensor Extended} {change : Extended}
    (hwide : (lineOf g H d).finite.isWide settings (.finite radius)
      (.finite (acrossGradient g d ⬝ᵥ acrossGradient g d)) = true)
    (hplanar : planarStep settings (.finiteVector g) (.finiteMatrix H)
      (.finiteVector (acrossGradient g d)) (.finite (g ⬝ᵥ g))
      (.finite (acrossGradient g d ⬝ᵥ acrossGradient g d)) (.finite radius) = .ok (step, change)) :
    searchPlane settings (.finiteVector g) (.finiteMatrix H) (.finiteVector d)
        (.finiteVector cauchy) (.finite radius) = (do
      let planar ← clearNaN .planar step
      let step ← unlessVanished .planar planar (.finiteVector cauchy)
      return { step := step, change := finiteOrZero change, exit := .planar }) := by
  have hacross : (Tensor.finiteVector d).sub (.finiteVector ((g ⬝ᵥ d / (g ⬝ᵥ g)) • g)) =
      .ok (.finiteVector (acrossGradient g d)) := Tensor.sub_finiteVector d _
  have hsquare : (lineOf g H d).finite.gradientSquare = .finite (g ⬝ᵥ g) := rfl
  have hslope := slope_div_gradientSquare H hspan
  rw [hsquare] at hslope
  simp only [searchPlane, lineOf_finite, hspan, hsquare, hslope, hacross, hwide, hplanar,
    scaling_finite radius (spansPlane_finite.1 hspan).2, Outcome.liftM_ok_bind, Bool.not_true,
    Bool.false_eq_true, if_false, Tensor.scale_finiteVector, Tensor.dot_finiteVector,
    clearNaN_finiteVector, pure_bind]

/-- A plane that is worth a search leaves a step in it, of the length of the radius, or the scaled
gradient. -/
theorem searchPlane_of_wide (horthogonality : 0 ≤ settings.orthogonalityTolerance)
    (hradius : 0 < radius)
    (hwide : (lineOf g H d).finite.isWide settings (.finite radius)
      (.finite (acrossGradient g d ⬝ᵥ acrossGradient g d)) = true) :
    (searchPlane settings (.finiteVector g) (.finiteMatrix H) (.finiteVector d)
      (.finiteVector cauchy) (.finite radius)).Returns fun result =>
        result.exit = .planar ∧ Stays n radius (g ≠ 0) (.finiteVector cauchy) result := by
  have hg : 0 < g ⬝ᵥ g := (spansPlane_finite.1 hspan).1
  have hne := gradient_ne_zero H hspan
  have hv := finite_lt_finite.1 (pos_of_isWide horthogonality hspan hwide)
  obtain ⟨step, change, hplanar, hchange, hstep⟩ := planarStep_finite H hradius.ne' hg hv
    (gradient_dotProduct_across hg)
  rw [searchPlane_of_planarStep settings H cauchy hspan hwide hplanar]
  rcases hstep with hlength | rfl
  · obtain ⟨s, rfl, -⟩ := id hlength
    rw [clearNaN_finiteVector, pure_bind, unlessVanished_of_hasLength hradius hlength, pure_bind]
    exact Outcome.returns_pure ⟨rfl, Or.inr ⟨hne, hlength⟩, hchange⟩
  · refine (clearNaN_nanVector .planar).bind fun cleared hcleared => ?_
    rw [hcleared]
    refine (unlessVanished_zero .planar _).bind fun other hother => ?_
    exact Outcome.returns_pure ⟨rfl, Or.inl hother, hchange⟩

end Direction

structure IsNarrow (settings : Settings Extended) (g : Fin n → ℝ) (H : Matrix (Fin n) (Fin n) ℝ)
    (d : Fin n → ℝ) (radius : ℝ) : Prop where
  spans : (lineOf g H d).finite.spansPlane = true
  narrow : (lineOf g H d).finite.isWide settings (.finite radius)
    (.finite (acrossGradient g d ⬝ᵥ acrossGradient g d)) = false

/-- The ways out of the plane of the gradient and a real direction. -/
inductive PlaneEnd (settings : Settings Extended) (g : Fin n → ℝ) (H : Matrix (Fin n) (Fin n) ℝ)
    (d cauchy : Fin n → ℝ) (radius : ℝ) : Step Extended → Prop where
  | flat (hflat : (lineOf g H d).finite.spansPlane = false) :
      PlaneEnd settings g H d cauchy radius
        ⟨.finiteVector cauchy, .finite |modelValue g H cauchy|, .degenerate⟩
  | narrow (hnarrow : IsNarrow settings g H d radius) :
      PlaneEnd settings g H d cauchy radius
        ⟨.finiteVector (scaledDirection g H d radius),
          .finite |modelValue g H (scaledDirection g H d radius)|, .scaled⟩
  | wide {result : Step Extended} (hspan : (lineOf g H d).finite.spansPlane = true)
      (hexit : result.exit = .planar)
      (hstays : Stays n radius (g ≠ 0) (.finiteVector cauchy) result) :
      PlaneEnd settings g H d cauchy radius result

/-- From a real direction the search always comes to one of the ways out. -/
theorem searchPlane_ends (horthogonality : 0 ≤ settings.orthogonalityTolerance)
    (hradius : 0 < radius) (d : Fin n → ℝ) :
    (searchPlane settings (.finiteVector g) (.finiteMatrix H) (.finiteVector d)
      (.finiteVector cauchy) (.finite radius)).Returns
        (PlaneEnd settings g H d cauchy radius) := by
  cases hspan : (lineOf g H d).finite.spansPlane with
  | false =>
      refine (searchPlane_of_flat settings H cauchy (lineOf_finite g d H) hspan).mono ?_
      rintro _ rfl
      exact .flat hspan
  | true =>
      cases hwide : (lineOf g H d).finite.isWide settings (.finite radius)
          (.finite (acrossGradient g d ⬝ᵥ acrossGradient g d)) with
      | false =>
          refine (searchPlane_of_narrow settings H cauchy hspan hradius hwide).mono ?_
          rintro _ rfl
          exact .narrow ⟨hspan, hwide⟩
      | true =>
          refine (searchPlane_of_wide settings H cauchy hspan horthogonality hradius hwide).mono ?_
          rintro result ⟨hexit, hstays⟩
          exact .wide hspan hexit hstays

theorem stays_of_flat : Stays n radius (g ≠ 0) (.finiteVector cauchy)
    ⟨.finiteVector cauchy, .finite |modelValue g H cauchy|, .degenerate⟩ :=
  ⟨Or.inl rfl, finite_le_finite.2 (abs_nonneg _)⟩

theorem PlaneEnd.stays {settings : Settings Extended} {d : Fin n → ℝ} {H : Matrix (Fin n) (Fin n) ℝ}
    {cauchy : Fin n → ℝ} {result : Step Extended}
    (h : PlaneEnd settings g H d cauchy radius result) :
    Stays n radius (g ≠ 0) (.finiteVector cauchy) result := by
  cases h with
  | flat hflat => exact stays_of_flat H cauchy
  | narrow hnarrow =>
      have hlength := scaledDirection_hasLength H hnarrow.spans radius
      exact ⟨Or.inr ⟨gradient_ne_zero H hnarrow.spans, hlength⟩, finite_le_finite.2 (abs_nonneg _)⟩
  | wide hspan hexit hstays => exact hstays

theorem exists_longestColumn_finite (hn : 1 ≤ n) :
    ∃ k : Fin n, longestColumn (.finiteMatrix H) = .ok (k : ℕ) ∧
      ∀ l, H.col l ⬝ᵥ H.col l ≤ H.col k ⬝ᵥ H.col k := by
  have hsquare (l : ℕ) : (sum n fun i => square (Extended.finite (cell H i l))) =
      .finite (sum n fun i => square (cell H i l)) := by
    simp only [square_finite, sum_finite, square_real]
  obtain ⟨k, hk, hfirst⟩ := exists_longestColumn_matrix hn
    (h := fun i k => Extended.finite (cell H i k)) (by rw [hsquare, isNaN_finite])
  refine ⟨k, hk, fun l => ?_⟩
  have hle := hfirst.le l l.isLt (by rw [hsquare, isNaN_finite])
  rwa [hsquare, hsquare, finite_le_finite, sum_square_col, sum_square_col] at hle

theorem search_returns_of_searchPlane {k : Fin n} {found : CurvatureDirection Extended}
    {P : Step Extended → Prop}
    (hcauchy : (cauchyStep (.finiteVector g) (.finiteMatrix H) (.finite radius)).Returns
      (· = .finiteVector cauchy))
    (hk : longestColumn (.finiteMatrix H) = .ok (k : ℕ))
    (hfound : curvatureDirection settings.parallelTolerance (.finiteMatrix H)
      (.finiteVector (H.col k)) = .ok found)
    (h : (searchPlane settings (.finiteVector g) (.finiteMatrix H) found.direction
      (.finiteVector cauchy) (.finite radius)).Returns P) :
    (search settings (.finiteVector g) (.finiteMatrix H) (.finite radius)).Returns P := by
  refine hcauchy.bind fun step hstep => ?_
  simp only [hstep, Tensor.isFinite_finiteVector, Tensor.isFinite_finiteMatrix, Bool.and_self,
    Bool.not_true, Bool.false_eq_true, if_false, hk, Tensor.column_finiteMatrix, hfound,
    Outcome.liftM_ok_bind]
  exact h

/-- What holds of the scaled gradient and of every plane holds of the search, since a finite model
leads to a direction that is real or has no numbers. -/
theorem search_returns_of_forall (hn : 1 ≤ n) {P : Step Extended → Prop}
    (hcauchy : (cauchyStep (.finiteVector g) (.finiteMatrix H) (.finite radius)).Returns
      (· = .finiteVector cauchy))
    (hflat : P ⟨.finiteVector cauchy, .finite |modelValue g H cauchy|, .degenerate⟩)
    (hplane : ∀ d : Fin n → ℝ, (searchPlane settings (.finiteVector g) (.finiteMatrix H)
      (.finiteVector d) (.finiteVector cauchy) (.finite radius)).Returns P) :
    (search settings (.finiteVector g) (.finiteMatrix H) (.finite radius)).Returns P := by
  obtain ⟨k, hk, -⟩ := exists_longestColumn_finite H hn
  obtain ⟨found, hfound, hdirection⟩ :=
    curvatureDirection_finite settings.parallelTolerance H (H.col k)
  refine search_returns_of_searchPlane settings H cauchy hcauchy hk hfound ?_
  rcases hdirection with ⟨d, hd⟩ | hnan
  · rw [hd]
    exact hplane d
  · obtain ⟨line, hline, hnot⟩ := exists_lineOf_nan hn g H
    rw [hnan]
    refine (searchPlane_of_flat settings H cauchy hline hnot).mono ?_
    rintro _ rfl
    exact hflat

/-- For a finite model the step stays in the ball. -/
theorem search_finite (hn : 1 ≤ n) (horthogonality : 0 ≤ settings.orthogonalityTolerance)
    (hradius : 0 < radius)
    (hcauchy : (cauchyStep (.finiteVector g) (.finiteMatrix H) (.finite radius)).Returns
      (· = .finiteVector cauchy)) :
    (search settings (.finiteVector g) (.finiteMatrix H) (.finite radius)).Returns
      (Stays n radius (g ≠ 0) (.finiteVector cauchy)) :=
  search_returns_of_forall settings H cauchy hn hcauchy (stays_of_flat H cauchy) fun d =>
    (searchPlane_ends settings H cauchy horthogonality hradius d).mono fun _ h => h.stays

end Search

/-- A model that is not finite is left at the scaled gradient. -/
theorem search_of_not_isFinite (settings : Settings Extended) {g h cauchy : Tensor Extended}
    {radius : Extended} (hnot : (g.isFinite && h.isFinite) = false)
    (hcauchy : (cauchyStep g h radius).Returns (· = cauchy)) :
    (search settings g h radius).Returns fun result => result.step = cauchy ∧ 0 ≤ result.change := by
  refine hcauchy.bind fun step hstep => ?_
  simp only [hstep, hnot, Bool.not_false, if_true]
  exact Outcome.Returns.report (Outcome.returns_pure ⟨rfl, finite_le_finite.2 le_rfl⟩)

theorem isProper_iff {g : ℕ → Extended} {v : Fin n → ℝ} (h : ∀ k : Fin n, g k = .finite (v k)) :
    IsProper n g ↔ v ≠ 0 := by
  constructor
  · rintro ⟨-, k, hk, hne⟩ hzero
    have hvalue := h ⟨k, hk⟩
    rw [hzero] at hvalue
    exact hne hvalue
  · intro hne
    obtain ⟨k, hk⟩ := Function.ne_iff.1 hne
    refine ⟨fun l hl => ?_, k, k.isLt, fun hzero => hk ?_⟩
    · rw [h ⟨l, hl⟩]
      rfl
    · rw [h k, zero_eq] at hzero
      exact Extended.finite.inj hzero

theorem exists_cauchy (hradius : 0 < radius) (g : ℕ → Extended) (H : ℕ → ℕ → Extended) :
    ∃ cauchy : Fin n → ℝ,
      (cauchyStep (.vector n g) (.matrix n n H) (.finite radius)).Returns
        (· = .finiteVector cauchy) ∧
      (IsProper n g → cauchy ⬝ᵥ cauchy = radius ^ 2) ∧ (¬ IsProper n g → cauchy = 0) := by
  by_cases hproper : IsProper n g
  · obtain ⟨v, hvector, hv⟩ := Tensor.exists_finiteVector hproper.1
    obtain ⟨step, hstep, d, rfl, hd⟩ := cauchyStep_finite H ((isProper_iff hv).1 hproper) radius
    rw [hvector]
    exact ⟨d, ⟨_, hstep, rfl⟩, fun _ => hd, fun hnot => absurd hproper hnot⟩
  · exact ⟨0, cauchyStep_of_not_proper H hradius hproper, fun h => absurd h hproper, fun _ => rfl⟩

/-- The step has the length of the radius for a finite gradient other than zero, and is zero for any
other gradient. -/
structure InBall (n : ℕ) (radius : ℝ) (g : ℕ → Extended) (result : Step Extended) : Prop where
  hasLength : IsProper n g → HasLength n radius result.step
  vanishes : ¬ IsProper n g → result.step = .finiteVector (0 : Fin n → ℝ)
  change : 0 ≤ result.change

/-- The search always comes to a step, and the step stays in the ball. -/
theorem search_inBall (hn : 1 ≤ n) (settings : Settings Extended)
    (horthogonality : 0 ≤ settings.orthogonalityTolerance) (hradius : 0 < radius)
    (g : ℕ → Extended) (H : ℕ → ℕ → Extended) :
    (search settings (.vector n g) (.matrix n n H) (.finite radius)).Returns
      (InBall n radius g) := by
  obtain ⟨cauchy, hcauchy, hproper, hvanishes⟩ := exists_cauchy (n := n) hradius g H
  cases hfinite : (Tensor.vector n g).isFinite && (Tensor.matrix n n H).isFinite with
  | false =>
      refine (search_of_not_isFinite settings hfinite hcauchy).mono fun result hresult => ?_
      obtain ⟨hstep, hchange⟩ := hresult
      exact ⟨fun h => ⟨cauchy, hstep, hproper h⟩, fun h => by rw [hstep, hvanishes h], hchange⟩
  | true =>
      obtain ⟨hgradient, hhessian⟩ := Bool.and_eq_true_iff.1 hfinite
      rw [Tensor.isFinite, Tensor.all_vector_iff] at hgradient
      rw [Tensor.isFinite, Tensor.all_matrix_iff] at hhessian
      obtain ⟨v, hvector, hv⟩ := Tensor.exists_finiteVector hgradient
      obtain ⟨A, hmatrix⟩ := Tensor.exists_finiteMatrix hhessian
      rw [hvector, hmatrix] at hcauchy ⊢
      refine (search_finite settings A cauchy hn horthogonality hradius hcauchy).mono
        fun result hresult => ?_
      rw [← isProper_iff hv] at hresult
      obtain ⟨hstep | ⟨hself, hlength⟩, hchange⟩ := hresult
      · exact ⟨fun h => ⟨cauchy, hstep, hproper h⟩, fun h => by rw [hstep, hvanishes h], hchange⟩
      · exact ⟨fun _ => hlength, fun h => absurd hself h, hchange⟩

/-! ## The conditions on the step -/

theorem InBall.exists_finiteVector {g : ℕ → Extended} {result : Step Extended}
    (h : InBall n radius g result) (hradius : 0 < radius) :
    ∃ d : Fin n → ℝ, result.step = .finiteVector d ∧ √(d ⬝ᵥ d) ≤ radius ∧
      (IsProper n g → √(d ⬝ᵥ d) = radius) ∧ (¬ IsProper n g → d = 0) := by
  by_cases hproper : IsProper n g
  · obtain ⟨d, hstep, hd⟩ := h.hasLength hproper
    have hlength : √(d ⬝ᵥ d) = radius := by rw [hd, Real.sqrt_sq hradius.le]
    exact ⟨d, hstep, hlength.le, fun _ => hlength, fun hnot => absurd hproper hnot⟩
  · refine ⟨0, h.vanishes hproper, ?_, fun h => absurd h hproper, fun _ => rfl⟩
    rw [zero_dotProduct, Real.sqrt_zero]
    exact hradius.le

theorem ofScientific_nonneg (mantissa exponent : ℕ) :
    (0 : ℝ) ≤ OfScientific.ofScientific mantissa true exponent := by
  show (0 : ℝ) ≤ ((Rat.ofScientific mantissa true exponent : ℚ) : ℝ)
  rw [Rat.ofScientific_true_def]
  exact Rat.cast_nonneg.2 (Rat.mkRat_nonneg (Int.natCast_nonneg mantissa) _)

theorem InBall.verify_stepChecks {g : ℕ → Extended} {result : Step Extended}
    (h : InBall n radius g result) (hradius : 0 < radius) :
    verify routine (stepChecks n (.finite radius) result) = .ok () := by
  obtain ⟨d, hstep, hlength, -⟩ := h.exists_finiteVector hradius
  refine verify_eq_ok_iff.2 fun check hmem => ?_
  simp only [stepChecks, List.mem_cons, List.not_mem_nil, or_false] at hmem
  rcases hmem with rfl | rfl | rfl
  · rw [hstep]
    simp [Check.that, Tensor.finiteVector]
  · have hbound : √(d ⬝ᵥ d) ≤ radius * (1 + 1e-6) + 1e-300 := by
      refine hlength.trans ?_
      have hscaled : radius ≤ radius * (1 + 1e-6) :=
        le_mul_of_one_le_right hradius.le (by norm_num)
      exact hscaled.trans (le_add_of_nonneg_right (ofScientific_nonneg 1 300))
    simp only [hstep, Tensor.dot_finiteVector, sqrt_finite (dotProduct_self_nonneg d), bind,
      Except.bind, pure, Except.pure]
    exact congrArg Except.ok (decide_eq_true (finite_le_finite.2 hbound))
  · simp [Check.that, h.change]

theorem geometryStep_vector (settings : Settings Extended) (g : ℕ → Extended)
    (H : ℕ → ℕ → Extended) (radius : Extended) :
    geometryStep settings (.vector n g) (.matrix n n H) radius =
      guarded settings.checked routine (modelChecks settings n (.matrix n n H) radius)
        (search settings (.vector n g) (.matrix n n H) radius) (stepChecks n radius) := by
  rw [geometryStep, Tensor.flatten_vector, Tensor.asMatrix_matrix, Tensor.size_vector]

theorem verify_modelChecks_ne {settings : Settings Extended} {h : Tensor Extended}
    {radius : Extended} {statement : String}
    (hstatement : statement ∈ ["SIZE(D) == N", "||D|| <= DELBAR", "VMAX >= 0"]) :
    verify routine (modelChecks settings n h radius) ≠ .error (.contract routine statement) := by
  refine verify_ne_contract ?_ ?_
  · simp [modelChecks, Check.that, uncontracted_ok]
  · intro hwords
    simp only [modelChecks, Check.that, List.map_cons, List.map_nil, List.mem_cons,
      List.not_mem_nil, or_false] at hwords
    rcases hwords with rfl | rfl | rfl
    all_goals exact absurd hstatement (by decide)

/-- Whatever the entries of the model, there is a step, its entries are finite, and its length is
that of the radius for a finite gradient other than zero and zero for any other gradient.  So no
condition on the step can fail. -/
theorem geometryStep_in_ball (hn : 1 ≤ n) {settings : Settings Extended}
    (horthogonality : 0 ≤ settings.orthogonalityTolerance) (hradius : 0 < radius)
    (g : ℕ → Extended) (H : ℕ → ℕ → Extended) :
    let run := geometryStep settings (.vector n g) (.matrix n n H) (.finite radius)
    ((settings.checked = true →
        verify routine (modelChecks settings n (.matrix n n H) (.finite radius)) = .ok ()) →
      ∃ result, run.result = .ok result) ∧
    (∀ result, run.result = .ok result →
      0 ≤ result.change ∧
      ∃ d : Fin n → ℝ, result.step = .finiteVector d ∧ √(d ⬝ᵥ d) ≤ radius ∧
        ((∀ k, k < n → Scalar.isFinite (g k) = true) → (∃ k, k < n ∧ g k ≠ 0) →
          √(d ⬝ᵥ d) = radius) ∧
        ((∀ k, k < n → g k = 0) ∨ (∃ k, k < n ∧ Scalar.isFinite (g k) = false) → d = 0)) ∧
    ∀ statement ∈ ["SIZE(D) == N", "||D|| <= DELBAR", "VMAX >= 0"],
      run.result ≠ .error (.contract routine statement) := by
  have hsearch := search_inBall hn settings horthogonality hradius g H
  have hafter := fun result (h : InBall n radius g result) => h.verify_stepChecks hradius
  rw [geometryStep_vector]
  refine ⟨fun hbefore => ?_, fun result hresult => ?_, fun statement hstatement herror => ?_⟩
  · obtain ⟨result, hresult, -⟩ := guarded_returns hsearch hafter hbefore
    exact ⟨result, hresult⟩
  · obtain ⟨result', hresult', hball⟩ := hsearch
    rw [result_of_guarded_ok hresult] at hresult'
    obtain rfl := Except.ok.inj hresult'
    obtain ⟨d, hstep, hlength, hproper, hvanishes⟩ := hball.exists_finiteVector hradius
    refine ⟨hball.change, d, hstep, hlength, fun hfinite hne => hproper ⟨hfinite, hne⟩,
      fun hnot => hvanishes ?_⟩
    rintro ⟨hfinite, k, hk, hne⟩
    rcases hnot with hzero | ⟨l, hl, hinfinite⟩
    · exact hne (hzero k hk)
    · rw [hfinite l hl] at hinfinite
      contradiction
  · exact verify_modelChecks_ne hstatement (verify_of_guarded_error hsearch hafter herror)

/-- An unknown gradient gives the step zero, and one of length five without second derivatives a
step of the length of the radius. -/
theorem geometryStep_in_ball_of_nan :
    (∃ result, (geometryStep .standard (.vector 2 fun k => if k = 0 then nan else 1)
        (.matrix 2 2 fun _ _ => nan) (.finite 5)).result = .ok result ∧
      result.step = .finiteVector (0 : Fin 2 → ℝ)) ∧
    ∃ (result : Step Extended) (d : Fin 2 → ℝ),
      (geometryStep .standard (.vector 2 fun k => if k = 0 then .finite 3 else .finite 4)
        (.matrix 2 2 fun _ _ => 0) (.finite 5)).result = .ok result ∧
      result.step = .finiteVector d ∧ √(d ⬝ᵥ d) = 5 := by
  have horthogonality : 0 ≤ (Settings.standard : Settings Extended).orthogonalityTolerance :=
    finite_le_finite.2 (by norm_num)
  constructor
  · obtain ⟨hexists, hball, -⟩ := geometryStep_in_ball (n := 2) one_le_two horthogonality
      (by norm_num : (0 : ℝ) < 5) (fun k => if k = 0 then nan else 1) fun _ _ => nan
    obtain ⟨result, hresult⟩ := hexists fun hchecked => Bool.noConfusion hchecked
    obtain ⟨-, d, hstep, -, -, hvanishes⟩ := hball result hresult
    refine ⟨result, hresult, ?_⟩
    rw [hstep, hvanishes (Or.inr ⟨0, two_pos, rfl⟩)]
  · obtain ⟨hexists, hball, -⟩ := geometryStep_in_ball (n := 2) one_le_two horthogonality
      (by norm_num : (0 : ℝ) < 5) (fun k => if k = 0 then .finite 3 else .finite 4) fun _ _ => 0
    obtain ⟨result, hresult⟩ := hexists fun hchecked => Bool.noConfusion hchecked
    obtain ⟨-, d, hstep, -, hlength, -⟩ := hball result hresult
    refine ⟨result, d, hresult, hstep, hlength (fun k _ => ?_) ⟨0, two_pos, fun hzero => ?_⟩⟩
    · split
      · rfl
      · rfl
    · have hthree : (3 : ℝ) = 0 := Extended.finite.inj hzero
      norm_num at hthree

end Quadratic

end InterpolationGeometry
