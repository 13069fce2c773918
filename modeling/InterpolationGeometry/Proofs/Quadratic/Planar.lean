import InterpolationGeometry.Proofs.Quadratic.Plane
import InterpolationGeometry.Quadratic.Step
import Mathlib.LinearAlgebra.Matrix.Notation
import Mathlib.Tactic.FinCases
import Mathlib.Tactic.NormNum.RealSqrt

/-!
# Steps in the plane of the gradient

The last way out of the search, in exact arithmetic: the best of eight steps in the plane of the
gradient and the curvature direction.  Such a step has the length of the radius and changes a
symmetric model by what it is credited with, up to the tolerance of the cross term, with one
exception: on a diagonal of curvatures that cancel, slopes of opposite signs work against each
other.
-/

namespace InterpolationGeometry

namespace Quadratic

open Scalar Matrix

variable {n : ℕ}

/-! ## The step in the plane -/

noncomputable def unit (v : Fin n → ℝ) : Fin n → ℝ := (1 / √(v ⬝ᵥ v)) • v

noncomputable def acrossGradient (g d : Fin n → ℝ) : Fin n → ℝ := d - (g ⬝ᵥ d / (g ⬝ᵥ g)) • g

noncomputable def planeForm (g : Fin n → ℝ) (H : Matrix (Fin n) (Fin n) ℝ) (v : Fin n → ℝ) : Form :=
  .ofPair H (unit g) (unit v)

noncomputable def planeBest (g : Fin n → ℝ) (form : Form) (turn : Rotation ℝ) (radius : ℝ) :
    Combination ℝ :=
  .best (turn.cosine * √(g ⬝ᵥ g) / radius) (-turn.sine * √(g ⬝ᵥ g) / radius) turn.shift form.own
    form.other radius

section Pair

variable {g d v : Fin n → ℝ}

theorem unit_dotProduct_self (hv : 0 < v ⬝ᵥ v) : unit v ⬝ᵥ unit v = 1 := by
  have hroot : √(v ⬝ᵥ v) ^ 2 = v ⬝ᵥ v := Real.sq_sqrt hv.le
  have hne : √(v ⬝ᵥ v) ≠ 0 := (Real.sqrt_pos.2 hv).ne'
  simp only [unit, smul_dotProduct, dotProduct_smul, smul_eq_mul]
  field_simp
  exact hroot.symm

theorem smul_unit (hv : 0 < v ⬝ᵥ v) : √(v ⬝ᵥ v) • unit v = v := by
  have hne : √(v ⬝ᵥ v) ≠ 0 := (Real.sqrt_pos.2 hv).ne'
  rw [unit, smul_smul, mul_one_div_cancel hne, one_smul]

theorem gradient_dotProduct_across (hg : 0 < g ⬝ᵥ g) : g ⬝ᵥ acrossGradient g d = 0 := by
  have hne : g ⬝ᵥ g ≠ 0 := hg.ne'
  rw [acrossGradient, dotProduct_sub, dotProduct_smul, smul_eq_mul, div_mul_cancel₀ _ hne, sub_self]

/-- The squared length of the part across, from those of the gradient and the direction. -/
theorem acrossGradient_dotProduct_self (hg : 0 < g ⬝ᵥ g) :
    (g ⬝ᵥ g) * (acrossGradient g d ⬝ᵥ acrossGradient g d) =
      (d ⬝ᵥ d) * (g ⬝ᵥ g) - (g ⬝ᵥ d) * (g ⬝ᵥ d) := by
  have hne : g ⬝ᵥ g ≠ 0 := hg.ne'
  simp only [acrossGradient, sub_dotProduct, dotProduct_sub, smul_dotProduct, dotProduct_smul,
    smul_eq_mul, dotProduct_comm d g]
  field_simp
  ring

theorem unit_dotProduct_unit (h : g ⬝ᵥ v = 0) : unit g ⬝ᵥ unit v = 0 := by
  simp only [unit, smul_dotProduct, dotProduct_smul, smul_eq_mul, h, mul_zero]

theorem unit_dotProduct_mulVec (H : Matrix (Fin n) (Fin n) ℝ) (hv : 0 < v ⬝ᵥ v) :
    unit v ⬝ᵥ H *ᵥ unit v = (v ⬝ᵥ H *ᵥ v) / (v ⬝ᵥ v) := by
  have hne : √(v ⬝ᵥ v) ≠ 0 := (Real.sqrt_pos.2 hv).ne'
  calc unit v ⬝ᵥ H *ᵥ unit v = (v ⬝ᵥ H *ᵥ v) / (√(v ⬝ᵥ v) * √(v ⬝ᵥ v)) := by
        simp only [unit, mulVec_smul, smul_dotProduct, dotProduct_smul, smul_eq_mul]
        field_simp
    _ = (v ⬝ᵥ H *ᵥ v) / (v ⬝ᵥ v) := by rw [Real.mul_self_sqrt hv.le]

/-- The cross term of the form, as the search computes it. -/
theorem cross_planeForm (g : Fin n → ℝ) (H : Matrix (Fin n) (Fin n) ℝ) (v : Fin n → ℝ) :
    (g ⬝ᵥ H *ᵥ v) / (√(v ⬝ᵥ v) * √(g ⬝ᵥ g)) = (planeForm g H v).cross := by
  simp only [planeForm, Form.ofPair, unit, mulVec_smul, smul_dotProduct, dotProduct_smul,
    smul_eq_mul]
  field_simp

end Pair

theorem planarStep_eq (settings : Settings ℝ) {g v : Fin n → ℝ} (H : Matrix (Fin n) (Fin n) ℝ)
    (radius : ℝ) (hg : 0 < g ⬝ᵥ g) (hv : 0 < v ⬝ᵥ v) {turn : Rotation ℝ}
    (hturn : Rotation.ofCrossSquare settings.crossTermTolerance (planeForm g H v).own
      (planeForm g H v).cross (planeForm g H v).other (.ok (square (planeForm g H v).cross)) =
        .ok turn) :
    planarStep settings (.ofVector g) (.ofMatrix H) (.ofVector v) (g ⬝ᵥ g) (v ⬝ᵥ v) radius =
      .ok (.ofVector ((planeBest g (planeForm g H v) turn radius).point turn (unit g) (unit v)),
        (planeBest g (planeForm g H v) turn radius).change) := by
  have hown : (g ⬝ᵥ H *ᵥ g) / (g ⬝ᵥ g) = (planeForm g H v).own :=
    (unit_dotProduct_mulVec H hg).symm
  have hother : (v ⬝ᵥ H *ᵥ v) / (v ⬝ᵥ v) = (planeForm g H v).other :=
    (unit_dotProduct_mulVec H hv).symm
  simp only [planarStep, Tensor.matmul_ofMatrix, Tensor.dot_ofVector, sqrt_real,
    divide_real hv.ne', hown, cross_planeForm, hother, hturn, Tensor.scale_ofVector,
    Tensor.add_ofVector, Tensor.sub_ofVector, bind, Except.bind, pure, Except.pure]
  show Except.ok (Tensor.ofVector _, (planeBest g (planeForm g H v) turn radius).change) = _
  congr 3
  simp only [Combination.point, unit, smul_smul, mul_one_div]
  rfl

section Credit

variable {g v : Fin n → ℝ} {H : Matrix (Fin n) (Fin n) ℝ} {turn : Rotation ℝ}
  {tolerance radius : ℝ}

/-- The step in the plane has the length of the radius. -/
theorem planeBest_point_dotProduct_self (radius : ℝ) (hg : 0 < g ⬝ᵥ g) (hv : 0 < v ⬝ᵥ v)
    (hgv : g ⬝ᵥ v = 0) (hturn : turn.Turns (planeForm g H v) tolerance) :
    (planeBest g (planeForm g H v) turn radius).point turn (unit g) (unit v) ⬝ᵥ
      (planeBest g (planeForm g H v) turn radius).point turn (unit g) (unit v) = radius ^ 2 := by
  rw [point_dotProduct_self _ (unit_dotProduct_self hg) (unit_dotProduct_self hv)
    (unit_dotProduct_unit hgv) hturn.unit]
  exact best_sq_add_sq

/-- Slopes of opposite signs work against each other, and the smaller exceeds the tolerance of their
mean. -/
def LosesCredit (g : Fin n → ℝ) (form : Form) (turn : Rotation ℝ) (tolerance radius : ℝ) : Prop :=
  Cancels (turn.cosine * √(g ⬝ᵥ g) / radius) (-turn.sine * √(g ⬝ᵥ g) / radius) turn.shift form.own
      form.other radius ∧
    tolerance * (0.5 * (|turn.cosine * √(g ⬝ᵥ g) / radius| + |-turn.sine * √(g ⬝ᵥ g) / radius|)) <
      min |turn.cosine * √(g ⬝ᵥ g) / radius| |-turn.sine * √(g ⬝ᵥ g) / radius|

theorem planeBest_credit_iff (hH : H.IsSymm) (hg : 0 < g ⬝ᵥ g) (hgv : g ⬝ᵥ v = 0)
    (hradius : 0 < radius) (htolerance : 0 ≤ tolerance)
    (hturn : turn.Turns (planeForm g H v) tolerance) :
    |(|modelValue g H
          ((planeBest g (planeForm g H v) turn radius).point turn (unit g) (unit v))| -
        (planeBest g (planeForm g H v) turn radius).change)| ≤
        tolerance * (planeBest g (planeForm g H v) turn radius).change ↔
      ¬ LosesCredit g (planeForm g H v) turn tolerance radius := by
  have hvalue : modelValue (√(g ⬝ᵥ g) • unit g) H
      ((planeBest g (planeForm g H v) turn radius).point turn (unit g) (unit v)) = _ :=
    modelValue_point _ hH (unit_dotProduct_self hg) (unit_dotProduct_unit hgv) hradius.ne'
  rw [smul_unit hg] at hvalue
  have hform : Form.ofPair H (unit g) (unit v) = planeForm g H v := rfl
  rw [hform, hturn.own_eq, hturn.other_eq] at hvalue
  have hnone : ((planeForm g H v).turned turn.cosine turn.sine).cross = 0 ∨
      -turn.sine * √(g ⬝ᵥ g) / radius = 0 := by
    rcases hturn.cross_or with hzero | hzero
    · exact Or.inl hzero
    · right
      rw [hzero]
      simp
  rw [hvalue]
  exact abs_abs_value_sub_change_le_iff hradius htolerance hturn.cross_le hnone

end Credit

/-! ## The way to the plane -/

noncomputable def lineOf (g : Fin n → ℝ) (H : Matrix (Fin n) (Fin n) ℝ) (d : Fin n → ℝ) :
    Line ℝ where
  gradientSquare := g ⬝ᵥ g
  slope := g ⬝ᵥ d
  directionSquare := d ⬝ᵥ d
  curvature := d ⬝ᵥ H *ᵥ d

theorem clearNaN_ofVector (kind : StepKind) (v : Fin n → ℝ) :
    clearNaN kind (.ofVector v) = pure (.ofVector v) :=
  clearNaN_of_forall fun k _ => isNaN_real (continued v k)

theorem lineOf_eq (g d : Fin n → ℝ) (H : Matrix (Fin n) (Fin n) ℝ) :
    Line.of (.ofVector g) (.ofMatrix H) (.ofVector d) = .ok (lineOf g H d) := by
  simp [Line.of, lineOf, bind, Except.bind, pure, Except.pure]

/-- A direction at the length of the radius, in the sense in which slope and curvature agree. -/
noncomputable def scaledDirection (g : Fin n → ℝ) (H : Matrix (Fin n) (Fin n) ℝ) (d : Fin n → ℝ)
    (radius : ℝ) : Fin n → ℝ := (lineOf g H d).scaling radius • d

def Searches (settings : Settings ℝ) (g : Fin n → ℝ) (H : Matrix (Fin n) (Fin n) ℝ)
    (d : Fin n → ℝ) (radius : ℝ) : Prop :=
  (lineOf g H d).spansPlane = true ∧
    (lineOf g H d).isWide settings radius (acrossGradient g d ⬝ᵥ acrossGradient g d) = true

section Search

variable {settings : Settings ℝ} {g d : Fin n → ℝ} {H : Matrix (Fin n) (Fin n) ℝ}
  {radius : ℝ}

theorem gradient_pos_of_searches (h : Searches settings g H d radius) : 0 < g ⬝ᵥ g := by
  have hspan := h.1
  simp only [Line.spansPlane, Bool.and_eq_true, decide_eq_true_eq] at hspan
  exact hspan.1

theorem across_pos_of_searches (horthogonality : 0 ≤ settings.orthogonalityTolerance)
    (h : Searches settings g H d radius) : 0 < acrossGradient g d ⬝ᵥ acrossGradient g d := by
  have hwide := h.2
  simp only [Line.isWide, Bool.and_eq_true, decide_eq_true_eq] at hwide
  exact (mul_nonneg horthogonality (dotProduct_self_nonneg d)).trans_lt hwide.2

@[simp] theorem finiteOrZero_real (x : ℝ) : finiteOrZero x = x := rfl

theorem change_lineOf (g : Fin n → ℝ) (H : Matrix (Fin n) (Fin n) ℝ) (d : Fin n → ℝ) (factor : ℝ) :
    (lineOf g H d).change factor = |modelValue g H (factor • d)| := by
  simp only [Line.change, lineOf, finiteOrZero_real, abs_real, modelValue, mulVec_smul,
    smul_dotProduct, dotProduct_smul, smul_eq_mul]
  congr 1
  ring

theorem modelChange_ofVector (g s : Fin n → ℝ) (H : Matrix (Fin n) (Fin n) ℝ) :
    modelChange (.ofVector g) (.ofMatrix H) (.ofVector s) = .ok |modelValue g H s| := by
  simp [modelChange, modelValue, bind, Except.bind, pure, Except.pure]

theorem across_ofVector (g d : Fin n → ℝ) (H : Matrix (Fin n) (Fin n) ℝ) :
    (Tensor.ofVector d).sub
        (.ofVector (((lineOf g H d).slope / (lineOf g H d).gradientSquare) • g)) =
      .ok (.ofVector (acrossGradient g d)) :=
  Tensor.sub_ofVector d _

/-- A plane that is searched ends the search with the best combination in it. -/
theorem searchPlane_of_searches (cauchy : Fin n → ℝ) (hradius : 0 < radius)
    (horthogonality : 0 ≤ settings.orthogonalityTolerance)
    (hcross : 0 ≤ settings.crossTermTolerance) (h : Searches settings g H d radius) :
    ∃ turn,
      Rotation.ofCrossSquare settings.crossTermTolerance
          (planeForm g H (acrossGradient g d)).own (planeForm g H (acrossGradient g d)).cross
          (planeForm g H (acrossGradient g d)).other
          (.ok (square (planeForm g H (acrossGradient g d)).cross)) = .ok turn ∧
      turn.Turns (planeForm g H (acrossGradient g d)) settings.crossTermTolerance ∧
      searchPlane settings (.ofVector g) (.ofMatrix H) (.ofVector d) (.ofVector cauchy) radius =
        pure {
          step := .ofVector ((planeBest g (planeForm g H (acrossGradient g d)) turn radius).point
            turn (unit g) (unit (acrossGradient g d)))
          change := (planeBest g (planeForm g H (acrossGradient g d)) turn radius).change
          exit := .planar } := by
  have hg := gradient_pos_of_searches h
  have hv := across_pos_of_searches horthogonality h
  obtain ⟨turn, hturn, hturns⟩ := exists_turn (planeForm g H (acrossGradient g d)) hcross
  have hplanar := planarStep_eq settings H radius hg hv hturn
  have hlength := planeBest_point_dotProduct_self radius hg hv
    (gradient_dotProduct_across hg) hturns
  have hpos : ¬ radius ^ 2 ≤ 0 := not_le.2 (sq_pos_of_pos hradius)
  have hspan : (!(lineOf g H d).spansPlane) = false := by simp [h.1]
  have hwide : (!(lineOf g H d).isWide settings radius
      (acrossGradient g d ⬝ᵥ acrossGradient g d)) = false := by simp [h.2]
  have hsquare : (lineOf g H d).gradientSquare = g ⬝ᵥ g := rfl
  rw [← hsquare] at hplanar
  refine ⟨turn, hturn, hturns, ?_⟩
  simp only [searchPlane, lineOf_eq, Outcome.liftM_ok_bind, hspan, Bool.false_eq_true, if_false,
    Tensor.scale_ofVector, across_ofVector, Tensor.dot_ofVector, clearNaN_ofVector, pure_bind,
    hwide, hplanar, unlessVanished, hlength, hpos, finiteOrZero_real]

theorem exit_ne_planar_of_not_searches {cauchy : Fin n → ℝ}
    (h : ¬ Searches settings g H d radius) {result : Step ℝ}
    (hresult : (searchPlane settings (.ofVector g) (.ofMatrix H) (.ofVector d) (.ofVector cauchy)
      radius).result = .ok result) : result.exit ≠ .planar := by
  simp only [searchPlane, lineOf_eq, Outcome.liftM_ok_bind, modelChange_ofVector,
    Tensor.scale_ofVector, across_ofVector, Tensor.dot_ofVector, clearNaN_ofVector, pure_bind,
    unlessVanished] at hresult
  by_cases hspan : (lineOf g H d).spansPlane = true
  · have hwide : (lineOf g H d).isWide settings radius
        (acrossGradient g d ⬝ᵥ acrossGradient g d) = false :=
      Bool.eq_false_iff.2 fun hwide => h ⟨hspan, hwide⟩
    simp only [hspan, hwide, Bool.not_true, Bool.not_false, Bool.false_eq_true, if_false, if_true,
      Outcome.report_bind] at hresult
    split at hresult
    · rw [← Except.ok.inj hresult]
      exact Exit.noConfusion
    · rw [← Except.ok.inj hresult]
      exact Exit.noConfusion
  · have hflat : (lineOf g H d).spansPlane = false := Bool.eq_false_iff.2 hspan
    simp only [hflat, Bool.not_false, if_true, Outcome.report_bind] at hresult
    rw [← Except.ok.inj hresult]
    exact Exit.noConfusion

end Search

/-! ## The curvature direction -/

/-- The direction of extremal curvature in the plane of `v` and `H v`, and how it was found. -/
noncomputable def extremalDirection (parallelTolerance : ℝ) (H : Matrix (Fin n) (Fin n) ℝ)
    (v : Fin n → ℝ) : (Fin n → ℝ) × CurvatureBranch :=
  let w := H *ᵥ v
  if (v ⬝ᵥ w) * (v ⬝ᵥ w) ≤ parallelTolerance * (w ⬝ᵥ w) * (v ⬝ᵥ v) then
    let across := w - (v ⬝ᵥ w / (v ⬝ᵥ v)) • v
    let ratio := √((across ⬝ᵥ across) / (v ⬝ᵥ v))
    let eigen := eigenWeight (ratio * ratio * (v ⬝ᵥ w)) (ratio * (across ⬝ᵥ across))
      (across ⬝ᵥ H *ᵥ across)
    ((ratio * (across ⬝ᵥ across)) • ratio • v + eigen.1 • across, eigen.2)
  else (w, .parallel)

theorem curvatureDirection_eq (parallelTolerance : ℝ) (H : Matrix (Fin n) (Fin n) ℝ)
    (v : Fin n → ℝ) :
    curvatureDirection parallelTolerance (.ofMatrix H) (.ofVector v) =
      .ok ⟨.ofVector (extremalDirection parallelTolerance H v).1,
        (extremalDirection parallelTolerance H v).2⟩ := by
  simp only [curvatureDirection, directionInPlane, extremalDirection, Tensor.matmul_ofVector,
    Tensor.product_ofMatrix, Tensor.item_scalar, Tensor.scale_ofVector, Tensor.sub_ofVector,
    Tensor.map_scalar, Tensor.mul_scalar_left, Tensor.add_ofVector, sqrt_real, bind, Except.bind,
    pure, Except.pure]
  split
  · rfl
  · rfl

/-- Where the squared lengths of the columns are numbers, the column taken is the first of the
longest. -/
theorem exists_longestColumn_matrix {α : Type} [Scalar α] [Ordered α] (hn : 1 ≤ n)
    {h : ℕ → ℕ → α} (hnumber : isNaN (sum n fun i => square (h i 0)) = false) :
    ∃ k : Fin n, longestColumn (.matrix n n h) = .ok (k : ℕ) ∧
      Selection.IsFirstGreatest n (fun k => sum n fun i => square (h i k)) k := by
  have hsquares : (Tensor.matrix n n h).squares.sumAxis 0 =
      .ok (.vector n fun k => sum n fun i => square (h i k)) := by
    rw [Tensor.squares, Tensor.map_matrix, Tensor.sumAxis_zero_matrix]
  obtain ⟨j, hj, hfirst⟩ := Selection.exists_isFirstGreatest
    (f := fun k => sum n fun i => square (h i k)) hn hnumber
  refine ⟨⟨j, hfirst.lt_size⟩, ?_, hfirst⟩
  simp only [longestColumn, hsquares, Selection.argmax?_eq_greatest, hj, bind, Except.bind, pure,
    Except.pure]

theorem exists_longestColumn (hn : 1 ≤ n) (H : Matrix (Fin n) (Fin n) ℝ) :
    ∃ k : Fin n, longestColumn (.ofMatrix H) = .ok (k : ℕ) ∧
      ∀ l, H.col l ⬝ᵥ H.col l ≤ H.col k ⬝ᵥ H.col k := by
  obtain ⟨k, hk, hfirst⟩ := exists_longestColumn_matrix hn (h := cell H) (isNaN_real _)
  refine ⟨k, hk, fun l => ?_⟩
  rw [← sum_square_col, ← sum_square_col]
  exact hfirst.le l l.isLt (isNaN_real _)

theorem smul_dotProduct_smul {v : Fin n → ℝ} {radius factor : ℝ} (hv : 0 < v ⬝ᵥ v)
    (hfactor : factor ^ 2 = (radius / √(v ⬝ᵥ v)) ^ 2) :
    (factor • v) ⬝ᵥ (factor • v) = radius ^ 2 := by
  rw [smul_dotProduct, dotProduct_smul, smul_eq_mul, smul_eq_mul, ← mul_assoc, ← pow_two, hfactor,
    div_pow, Real.sq_sqrt hv.le, div_mul_cancel₀ _ hv.ne']

/-- The scaled gradient has the length of the radius, in either sense. -/
theorem exists_cauchyStep (g : Fin n → ℝ) (H : Matrix (Fin n) (Fin n) ℝ) (radius : ℝ) :
    ∃ factor : ℝ, factor ^ 2 = (radius / √(g ⬝ᵥ g)) ^ 2 ∧
      cauchyStep (.ofVector g) (.ofMatrix H) radius = pure (.ofVector (factor • g)) := by
  simp only [cauchyStep, Tensor.dot_ofVector, Tensor.matmul_ofMatrix, Tensor.scale_ofVector,
    Tensor.neg_ofVector, Outcome.liftM_ok_bind, sqrt_real]
  split
  · refine ⟨-(radius / √(g ⬝ᵥ g)), neg_sq _, ?_⟩
    rw [neg_smul]
    exact clearNaN_ofVector _ _
  · exact ⟨_, rfl, clearNaN_ofVector _ _⟩

/-- In exact arithmetic the search always comes to a direction and goes on in its plane. -/
theorem exists_search (hn : 1 ≤ n) (settings : Settings ℝ) (g : Fin n → ℝ)
    (H : Matrix (Fin n) (Fin n) ℝ) (radius : ℝ) :
    ∃ (k : Fin n) (cauchy : Fin n → ℝ),
      longestColumn (.ofMatrix H) = .ok (k : ℕ) ∧
      search settings (.ofVector g) (.ofMatrix H) radius =
        searchPlane settings (.ofVector g) (.ofMatrix H)
          (.ofVector (extremalDirection settings.parallelTolerance H (H.col k)).1)
          (.ofVector cauchy) radius := by
  obtain ⟨k, hk, -⟩ := exists_longestColumn hn H
  obtain ⟨factor, -, hcauchy⟩ := exists_cauchyStep g H radius
  refine ⟨k, factor • g, hk, ?_⟩
  simp only [search, hcauchy, pure_bind, Tensor.isFinite_real, Bool.and_self, Bool.not_true,
    Bool.false_eq_true, if_false, hk, Tensor.column_ofMatrix, curvatureDirection_eq,
    Outcome.liftM_ok_bind]

/-- A step in the plane has the length of the radius, and changes the model by what it is credited
with up to the tolerance of the cross term, exactly when it does not lose credit to slopes that
work against each other. -/
theorem planar_change_iff (hn : 1 ≤ n) {g : Fin n → ℝ} {H : Matrix (Fin n) (Fin n) ℝ}
    (hH : H.IsSymm) {settings : Settings ℝ} {radius : ℝ} (hradius : 0 < radius)
    (horthogonality : 0 ≤ settings.orthogonalityTolerance)
    (hcross : 0 ≤ settings.crossTermTolerance) {result : Step ℝ}
    (hresult : (geometryStep settings (.ofVector g) (.ofMatrix H) radius).result = .ok result)
    (hexit : result.exit = .planar) :
    ∃ (k : Fin n) (turn : Rotation ℝ) (s : Fin n → ℝ),
      let d := (extremalDirection settings.parallelTolerance H (H.col k)).1
      let form := planeForm g H (acrossGradient g d)
      longestColumn (.ofMatrix H) = .ok (k : ℕ) ∧
      Rotation.ofCrossSquare settings.crossTermTolerance form.own form.cross form.other
        (.ok (square form.cross)) = .ok turn ∧
      result.step = .ofVector s ∧ s ⬝ᵥ s = radius ^ 2 ∧
      (|(|modelValue g H s| - result.change)| ≤ settings.crossTermTolerance * result.change ↔
        ¬ LosesCredit g form turn settings.crossTermTolerance radius) := by
  obtain ⟨k, cauchy, hk, hsearch⟩ := exists_search hn settings g H radius
  -- A result that passed the conditions is that of the search itself.
  have hbody : (search settings (.ofVector g) (.ofMatrix H) radius).result = .ok result := by
    have hguarded := hresult
    simp only [geometryStep, Tensor.flatten_ofVector, Tensor.asMatrix_ofMatrix] at hguarded
    cases hchecked : settings.checked with
    | false => rwa [hchecked, guarded_false] at hguarded
    | true =>
        rw [hchecked] at hguarded
        rwa [guarded_true_of_ok hguarded] at hguarded
  rw [hsearch] at hbody
  have hsearches : Searches settings g H
      (extremalDirection settings.parallelTolerance H (H.col k)).1 radius := by
    by_contra hnot
    exact exit_ne_planar_of_not_searches hnot hbody hexit
  obtain ⟨turn, hturn, hturns, hplane⟩ :=
    searchPlane_of_searches cauchy hradius horthogonality hcross hsearches
  rw [hplane] at hbody
  have hg := gradient_pos_of_searches hsearches
  have hv := across_pos_of_searches horthogonality hsearches
  have hgv := gradient_dotProduct_across
    (d := (extremalDirection settings.parallelTolerance H (H.col k)).1) hg
  rw [← Except.ok.inj hbody]
  refine ⟨k, turn, _, hk, hturn, rfl, ?_, ?_⟩
  · exact planeBest_point_dotProduct_self radius hg hv hgv hturns
  · exact planeBest_credit_iff hH hg hgv hradius hcross hturns

/-! ## A model that loses its credit -/

/-- Second derivatives that swap the two axes. -/
def axisSwap : Matrix (Fin 2) (Fin 2) ℝ := !![0, 1; 1, 0]

@[simp] theorem axisSwap_apply (i j : Fin 2) : axisSwap i j = if i = j then 0 else 1 := by
  fin_cases i <;> fin_cases j <;> rfl

@[simp] theorem axisSwap_mulVec (x y : ℝ) : axisSwap *ᵥ ![x, y] = ![y, x] := by
  ext i
  fin_cases i
  · simp [mulVec, dotProduct, Fin.sum_univ_two]
  · simp [mulVec, dotProduct, Fin.sum_univ_two]

theorem axisSwap_col (k : Fin 2) : axisSwap.col k = ![0, 1] ∨ axisSwap.col k = ![1, 0] := by
  fin_cases k
  · left
    ext i
    fin_cases i <;> rfl
  · right
    ext i
    fin_cases i <;> rfl

theorem extremalDirection_swap (k : Fin 2) :
    (extremalDirection (Settings.standard : Settings ℝ).parallelTolerance axisSwap
      (axisSwap.col k)).1 = ![1, 1] := by
  rcases axisSwap_col k with hk | hk
  · rw [hk]
    norm_num [extremalDirection, eigenWeight, Settings.standard]
  · rw [hk]
    norm_num [extremalDirection, eigenWeight, Settings.standard]

theorem unit_four : unit ![4, 0] = ![1, 0] := by
  ext i
  fin_cases i <;> norm_num [unit]

theorem unit_second : unit ![0, 1] = ![0, 1] := by
  ext i
  fin_cases i <;> norm_num [unit]

theorem acrossGradient_four : acrossGradient ![4, 0] ![1, 1] = ![0, 1] := by
  ext i
  fin_cases i <;> norm_num [acrossGradient]

theorem planeForm_swap : planeForm ![4, 0] axisSwap ![0, 1] = ⟨0, 1, 0⟩ := by
  norm_num [planeForm, Form.ofPair, unit_four, unit_second]

theorem searches_swap : Searches .standard ![4, 0] axisSwap ![1, 1] 1 := by
  constructor
  · norm_num [Line.spansPlane, lineOf]
  · norm_num [Line.isWide, lineOf, acrossGradient_four, Settings.standard]

noncomputable def halfTurn : Rotation ℝ := ⟨1, √0.5, √0.5, .rotated⟩

theorem ofCrossSquare_swap :
    Rotation.ofCrossSquare (Settings.standard : Settings ℝ).crossTermTolerance 0 1 0
      (.ok (square 1)) = .ok halfTurn := by
  norm_num [Rotation.ofCrossSquare, Settings.standard, halfTurn, larger_real, bind, Except.bind,
    pure, Except.pure]

theorem planeBest_swap :
    planeBest ![4, 0] ⟨0, 1, 0⟩ halfTurn 1 = ⟨√0.5, √0.5, 4, .diagonal⟩ := by
  have hsq : √(0.5 : ℝ) ^ 2 = 0.5 := sqrt_half_sq
  have hpos : 0 < √(0.5 : ℝ) := Real.sqrt_pos.2 (by norm_num)
  have hlt : √(0.5 : ℝ) < 7 / 8 := (Real.sqrt_lt' (by norm_num)).2 (by norm_num)
  have hroot : √(![4, 0] ⬝ᵥ ![4, 0] : ℝ) = 4 := by
    norm_num
  have habs : |√(0.5 : ℝ) * 4| = √0.5 * 4 := abs_of_pos (by linarith)
  have hbest : planeBest ![4, 0] ⟨0, 1, 0⟩ halfTurn 1 =
      Combination.best (√0.5 * 4) (-(√0.5 * 4)) 1 0 0 1 := by
    rw [planeBest, hroot]
    simp only [halfTurn, div_one, neg_mul]
  have hbetween : between (√0.5 * 4) (-(√0.5 * 4)) 0 0 = 4 := by
    simp only [between, abs_neg, habs, add_zero, abs_zero, mul_zero]
    linear_combination 8 * hsq
  have halong : along (√0.5 * 4) 1 0 < 4 := by
    simp only [along, habs, add_zero, abs_one]
    linarith
  have hacross : across (-(√0.5 * 4)) 1 0 < 4 := by
    simp only [across, abs_neg, habs, zero_sub, abs_one]
    linarith
  rw [hbest]
  rcases best_cases (√0.5 * 4) (-(√0.5 * 4)) 1 0 0 1 with
    ⟨-, hle, -⟩ | ⟨-, hle, -⟩ | ⟨-, -, hdiagonal⟩
  · rw [hbetween] at hle
    exact absurd hle (not_le.2 halong)
  · rw [hbetween] at hle
    exact absurd hle (not_le.2 hacross)
  · rw [hdiagonal, hbetween]
    simp [agreeing]

theorem geometryStep_swap :
    (geometryStep .standard (.ofVector ![4, 0]) (.ofMatrix axisSwap) (1 : ℝ)).result =
      .ok ⟨.ofVector ![0, 1], 4, .planar⟩ := by
  obtain ⟨k, cauchy, -, hsearch⟩ :=
    exists_search (n := 2) (by norm_num) .standard ![4, 0] axisSwap 1
  rw [extremalDirection_swap] at hsearch
  obtain ⟨turn, hturn, -, hplane⟩ := searchPlane_of_searches cauchy one_pos
    (by norm_num [Settings.standard]) (by norm_num [Settings.standard]) searches_swap
  rw [acrossGradient_four, planeForm_swap] at hturn hplane
  have hpoint : (⟨√0.5, √0.5, 4, .diagonal⟩ : Combination ℝ).point halfTurn (unit ![4, 0])
      (unit ![0, 1]) = ![0, 1] := by
    rw [point_eq, unit_four, unit_second]
    ext i
    fin_cases i
    · simp [halfTurn]
    · have hsq : √(0.5 : ℝ) ^ 2 = 0.5 := sqrt_half_sq
      simp [halfTurn]
      linarith
  rw [← Except.ok.inj (ofCrossSquare_swap.symm.trans hturn), planeBest_swap, hpoint] at hplane
  rw [geometryStep, Tensor.flatten_ofVector, Tensor.asMatrix_ofMatrix]
  show (guarded false _ _ _ _).result = _
  rw [guarded_false, hsearch, hplane]
  rfl

theorem axisSwap_isSymm : axisSwap.IsSymm := by
  ext i j
  fin_cases i <;> fin_cases j <;> rfl

theorem planar_change_iff_axisSwap :
    axisSwap.IsSymm ∧
      (geometryStep .standard (.ofVector ![4, 0]) (.ofMatrix axisSwap) (1 : ℝ)).result =
        .ok ⟨.ofVector ![0, 1], 4, .planar⟩ ∧
      ∃ (k : Fin 2) (turn : Rotation ℝ) (s : Fin 2 → ℝ),
        let d := (extremalDirection (Settings.standard : Settings ℝ).parallelTolerance axisSwap
          (axisSwap.col k)).1
        let form := planeForm ![4, 0] axisSwap (acrossGradient ![4, 0] d)
        longestColumn (.ofMatrix axisSwap) = .ok (k : ℕ) ∧
        Rotation.ofCrossSquare (Settings.standard : Settings ℝ).crossTermTolerance form.own
          form.cross form.other (.ok (square form.cross)) = .ok turn ∧
        Tensor.ofVector ![(0 : ℝ), 1] = .ofVector s ∧ s ⬝ᵥ s = 1 ^ 2 ∧
        (|(|modelValue ![4, 0] axisSwap s| - 4)| ≤
            (Settings.standard : Settings ℝ).crossTermTolerance * 4 ↔
          ¬ LosesCredit ![4, 0] form turn (Settings.standard : Settings ℝ).crossTermTolerance 1) :=
  ⟨axisSwap_isSymm, geometryStep_swap,
    planar_change_iff (by norm_num) axisSwap_isSymm one_pos (by norm_num [Settings.standard])
      (by norm_num [Settings.standard]) geometryStep_swap rfl⟩

/-- The step is credited with a change of four and does not change the model. -/
theorem geometryStep_loses_credit :
    ∃ (result : Step ℝ) (s : Fin 2 → ℝ),
      (geometryStep .standard (.ofVector ![4, 0]) (.ofMatrix axisSwap) (1 : ℝ)).result =
        .ok result ∧
      result.exit = .planar ∧ result.step = .ofVector s ∧ result.change = 4 ∧
      modelValue ![4, 0] axisSwap s = 0 ∧
      ¬ |(|modelValue ![4, 0] axisSwap s| - result.change)| ≤
        (Settings.standard : Settings ℝ).crossTermTolerance * result.change := by
  have hvalue : modelValue ![4, 0] axisSwap ![0, 1] = 0 := by
    norm_num [modelValue]
  refine ⟨_, ![0, 1], geometryStep_swap, rfl, rfl, rfl, hvalue, ?_⟩
  rw [hvalue]
  norm_num [Settings.standard]

end Quadratic

end InterpolationGeometry
