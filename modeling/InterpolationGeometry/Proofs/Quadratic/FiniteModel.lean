import InterpolationGeometry.Proofs.Quadratic.Planar
import InterpolationGeometry.Proofs.Tensor.Finite

/-!
# Finite models among the extended values

The parts of the search on finite data.  Each of them comes to finite values, with two exceptions,
both a quotient of two zeros: the direction of extremal curvature from a column of zeros, and the
turn of a form that is zero.  Then no entry of what it comes to is a number.
-/

namespace InterpolationGeometry

namespace Quadratic

open Scalar Matrix Extended

variable {n : ℕ}

/-! ## Turns and combinations -/

def Rotation.finite (turn : Rotation ℝ) : Rotation Extended where
  shift := .finite turn.shift
  cosine := .finite turn.cosine
  sine := .finite turn.sine
  branch := turn.branch

def Combination.finite (best : Combination ℝ) : Combination Extended where
  first := .finite best.first
  second := .finite best.second
  change := .finite best.change
  branch := best.branch

theorem agreeing_finite (slope curvature length : ℝ) :
    agreeing (.finite slope) (.finite curvature) (.finite length) =
      Extended.finite (agreeing slope curvature length) := by
  simp only [agreeing, finite_mul, zero_eq, finite_lt_finite, neg_finite]
  split
  · rfl
  · rfl

theorem best_finite (slope slope' shift own other radius : ℝ) :
    Combination.best (.finite slope) (.finite slope') (.finite shift) (.finite own) (.finite other)
        (.finite radius) =
      (Combination.best slope slope' shift own other radius).finite := by
  have hhalf : Scalar.sqrt (Extended.finite 0.5) = .finite √0.5 := sqrt_finite (by norm_num)
  simp only [Combination.best, ofScientific_eq, hhalf, abs_finite, finite_add, finite_mul,
    sub_finite, larger_finite, finite_le_finite, agreeing_finite, larger_real, sqrt_real, abs_real]
  split
  · rfl
  · split
    · rfl
    · rfl

/-- Slopes that are no numbers leave no number for the change. -/
theorem best_change_nan (shift own other radius : Extended) :
    (Combination.best nan nan shift own other radius).change = nan := by
  simp [Combination.best, larger]

/-- Both parts of a pair of reals over its length, which is zero for two zeros only. -/
theorem normalized_finite (x y : ℝ) :
    (∃ c s : ℝ, c ^ 2 + s ^ 2 = 1 ∧
      Extended.finite x / Scalar.sqrt (.finite (x ^ 2 + y ^ 2)) = .finite c ∧
      Extended.finite y / Scalar.sqrt (.finite (x ^ 2 + y ^ 2)) = .finite s) ∨
    (Extended.finite x / Scalar.sqrt (.finite (x ^ 2 + y ^ 2)) = nan ∧
      Extended.finite y / Scalar.sqrt (.finite (x ^ 2 + y ^ 2)) = nan) := by
  have hsum : 0 ≤ x ^ 2 + y ^ 2 := add_nonneg (sq_nonneg x) (sq_nonneg y)
  rw [sqrt_finite hsum]
  rcases hsum.eq_or_lt with hzero | hpos
  · right
    obtain ⟨hx, hy⟩ := (add_eq_zero_iff_of_nonneg (sq_nonneg x) (sq_nonneg y)).1 hzero.symm
    rw [← hzero, Real.sqrt_zero, pow_eq_zero_iff two_ne_zero |>.1 hx,
      pow_eq_zero_iff two_ne_zero |>.1 hy]
    exact ⟨zero_div_zero, zero_div_zero⟩
  · left
    have hne : √(x ^ 2 + y ^ 2) ≠ 0 := (Real.sqrt_pos.2 hpos).ne'
    refine ⟨x / √(x ^ 2 + y ^ 2), y / √(x ^ 2 + y ^ 2), ?_, finite_div hne x, finite_div hne y⟩
    rw [div_pow, div_pow, ← add_div, Real.sq_sqrt hsum, div_self hpos.ne']

/-- The turn of a finite form is one of reals, or no number. -/
theorem ofCrossSquare_finite (tolerance : Extended) (first cross second : ℝ) :
    ∃ turn, Rotation.ofCrossSquare tolerance (.finite first) (.finite cross) (.finite second)
        (.ok (square (.finite cross))) = .ok turn ∧
      ((∃ real : Rotation ℝ, turn = real.finite ∧ real.cosine ^ 2 + real.sine ^ 2 = 1) ∨
        (turn.cosine = nan ∧ turn.sine = nan)) := by
  unfold Rotation.ofCrossSquare
  split
  · exact ⟨_, rfl, Or.inl ⟨⟨first - second, 1, 0, .aligned⟩, by rw [sub_finite]; rfl, by norm_num⟩⟩
  · have hroot : ∀ half : ℝ, Scalar.sqrt (Extended.finite (half ^ 2 + cross ^ 2)) =
        .finite √(half ^ 2 + cross ^ 2) := fun half =>
      sqrt_finite (add_nonneg (sq_nonneg half) (sq_nonneg cross))
    simp only [sub_finite, ofScientific_eq, finite_mul, boundedSquare_finite, square_finite,
      finite_add, hroot, bind, Except.bind, pure, Except.pure]
    generalize √((0.5 * (first - second)) ^ 2 + cross ^ 2) = root
    obtain ⟨shift, hshift⟩ : ∃ shift : ℝ,
        (if Extended.finite (0.5 * (first - second)) < 0 then
          Extended.finite (0.5 * (first - second) - root)
        else .finite (0.5 * (first - second) + root)) = .finite shift := by
      split
      · exact ⟨_, rfl⟩
      · exact ⟨_, rfl⟩
    rw [hshift]
    refine ⟨_, rfl, ?_⟩
    simp only [square_finite, finite_add]
    rcases normalized_finite shift cross with ⟨c, s, hunit, hc, hs⟩ | hnan
    · exact Or.inl ⟨⟨shift, c, s, .rotated⟩, by rw [hc, hs]; rfl, hunit⟩
    · exact Or.inr hnan

/-! ## The step in the plane -/

def HasLength (n : ℕ) (radius : ℝ) (step : Tensor Extended) : Prop :=
  ∃ d : Fin n → ℝ, step = .finiteVector d ∧ d ⬝ᵥ d = radius ^ 2

section Planar

variable {settings : Settings Extended} {g v : Fin n → ℝ} {radius : ℝ}

theorem planarStep_finite_eq (H : Matrix (Fin n) (Fin n) ℝ) (hradius : radius ≠ 0)
    (hg : 0 < g ⬝ᵥ g) (hv : 0 < v ⬝ᵥ v) {turn : Rotation ℝ}
    (hturn : Rotation.ofCrossSquare settings.crossTermTolerance (.finite (planeForm g H v).own)
      (.finite (planeForm g H v).cross) (.finite (planeForm g H v).other)
      (.ok (square (.finite (planeForm g H v).cross))) = .ok turn.finite) :
    planarStep settings (.finiteVector g) (.finiteMatrix H) (.finiteVector v) (.finite (g ⬝ᵥ g))
        (.finite (v ⬝ᵥ v)) (.finite radius) =
      .ok (.finiteVector ((planeBest g (planeForm g H v) turn radius).point turn (unit g)
        (unit v)), .finite (planeBest g (planeForm g H v) turn radius).change) := by
  have hgroot : √(g ⬝ᵥ g) ≠ 0 := (Real.sqrt_pos.2 hg).ne'
  have hvroot : √(v ⬝ᵥ v) ≠ 0 := (Real.sqrt_pos.2 hv).ne'
  have hown : (g ⬝ᵥ H *ᵥ g) / (g ⬝ᵥ g) = (planeForm g H v).own :=
    (unit_dotProduct_mulVec H hg).symm
  have hother : (v ⬝ᵥ H *ᵥ v) / (v ⬝ᵥ v) = (planeForm g H v).other :=
    (unit_dotProduct_mulVec H hv).symm
  simp only [planarStep, Tensor.matmul_finiteMatrix, Tensor.dot_finiteVector, sqrt_finite hg.le,
    sqrt_finite hv.le, finite_mul, finite_div hg.ne', finite_div (mul_ne_zero hvroot hgroot),
    divide_finite hv.ne', hown, hother, cross_planeForm, hturn, bind, Except.bind, pure,
    Except.pure]
  simp only [Rotation.finite, neg_finite, finite_mul, finite_div hgroot, finite_div hvroot,
    finite_div hradius, Tensor.scale_finiteVector, Tensor.add_finiteVector,
    Tensor.sub_finiteVector, best_finite, Combination.finite]
  show Except.ok (Tensor.finiteVector _,
    Extended.finite (planeBest g (planeForm g H v) turn radius).change) = _
  congr 3
  simp only [Combination.point, unit, smul_smul, mul_one_div]
  rfl

/-- In the plane the step has the length of the radius, or no entry that is a number. -/
theorem planarStep_finite (H : Matrix (Fin n) (Fin n) ℝ) (hradius : radius ≠ 0)
    (hg : 0 < g ⬝ᵥ g) (hv : 0 < v ⬝ᵥ v) (hgv : g ⬝ᵥ v = 0) :
    ∃ step change, planarStep settings (.finiteVector g) (.finiteMatrix H) (.finiteVector v)
        (.finite (g ⬝ᵥ g)) (.finite (v ⬝ᵥ v)) (.finite radius) = .ok (step, change) ∧
      0 ≤ finiteOrZero change ∧ (HasLength n radius step ∨ step = .nanVector n) := by
  have hvroot : √(v ⬝ᵥ v) * √(g ⬝ᵥ g) ≠ 0 :=
    mul_ne_zero (Real.sqrt_pos.2 hv).ne' (Real.sqrt_pos.2 hg).ne'
  obtain ⟨turn, hturn, ⟨real, rfl, hunit⟩ | ⟨hcosine, hsine⟩⟩ :=
    ofCrossSquare_finite settings.crossTermTolerance (planeForm g H v).own (planeForm g H v).cross
      (planeForm g H v).other
  · refine ⟨_, _, planarStep_finite_eq H hradius hg hv hturn, finite_le_finite.2 best_change_nonneg,
      Or.inl ⟨_, rfl, ?_⟩⟩
    rw [point_dotProduct_self _ (unit_dotProduct_self hg) (unit_dotProduct_self hv)
      (unit_dotProduct_unit hgv) hunit]
    exact best_sq_add_sq
  · have hown : (g ⬝ᵥ H *ᵥ g) / (g ⬝ᵥ g) = (planeForm g H v).own :=
      (unit_dotProduct_mulVec H hg).symm
    have hother : (v ⬝ᵥ H *ᵥ v) / (v ⬝ᵥ v) = (planeForm g H v).other :=
      (unit_dotProduct_mulVec H hv).symm
    simp only [planarStep, Tensor.matmul_finiteMatrix, Tensor.dot_finiteVector, sqrt_finite hg.le,
      sqrt_finite hv.le, finite_mul, finite_div hg.ne', finite_div hvroot, divide_finite hv.ne',
      hown, hother, cross_planeForm, hturn, hcosine, hsine, neg_nan, nan_div, nan_mul,
      Tensor.scale_finiteVector_nan, Tensor.add_nanVector, Tensor.sub_nanVector,
      Tensor.scale_nanVector, bind, Except.bind, pure, Except.pure]
    refine ⟨_, _, rfl, ?_, Or.inr rfl⟩
    rw [best_change_nan]
    exact finite_le_finite.2 le_rfl

end Planar

/-! ## The curvature direction -/

theorem eigenWeight_finite (first cross second : ℝ) :
    eigenWeight (Extended.finite first) (.finite cross) (.finite second) =
      (.finite (eigenWeight first cross second).1, (eigenWeight first cross second).2) := by
  have hroot : ∀ half : ℝ, Scalar.sqrt (Extended.finite (half ^ 2 + cross ^ 2)) =
      .finite √(half ^ 2 + cross ^ 2) := fun half =>
    sqrt_finite (add_nonneg (sq_nonneg half) (sq_nonneg cross))
  simp only [eigenWeight, sub_finite, ofScientific_eq, finite_mul, square_finite, finite_add, hroot,
    zero_eq, finite_lt_finite, square_real, sqrt_real]
  split
  · rfl
  · rfl

/-- The direction has entries that are all reals or all no numbers. -/
def IsDirection (n : ℕ) (direction : Tensor Extended) : Prop :=
  (∃ d : Fin n → ℝ, direction = .finiteVector d) ∨ direction = .nanVector n

theorem directionInPlane_finite (H : Matrix (Fin n) (Fin n) ℝ) (v across : Fin n → ℝ) {vv : ℝ}
    (vhv : ℝ) (hvv : 0 < vv) :
    directionInPlane (.finiteMatrix H) (.finiteVector v) (.finiteVector across) (.finite vv)
        (.finite vhv) =
      let ratio := √((across ⬝ᵥ across) / vv)
      let eigen := eigenWeight (ratio * ratio * vhv) (ratio * (across ⬝ᵥ across))
        (across ⬝ᵥ H *ᵥ across)
      .ok ⟨.finiteVector ((ratio * (across ⬝ᵥ across)) • ratio • v + eigen.1 • across),
        eigen.2⟩ := by
  have hratio : 0 ≤ across ⬝ᵥ across / vv := div_nonneg (dotProduct_self_nonneg across) hvv.le
  simp only [directionInPlane, Tensor.matmul_finiteVector, Tensor.product_finiteMatrix,
    Tensor.item_scalar, finite_div hvv.ne', sqrt_finite hratio, finite_mul, eigenWeight_finite,
    Tensor.scale_finiteVector, Tensor.map_scalar, Tensor.mul_scalar_left, Tensor.add_finiteVector,
    bind, Except.bind, pure, Except.pure]

theorem directionInPlane_nan (H : Matrix (Fin n) (Fin n) ℝ) (v : Fin n → ℝ) (vv vhv : Extended) :
    ∃ branch, directionInPlane (.finiteMatrix H) (.finiteVector v) (.nanVector n) vv vhv =
      .ok ⟨.nanVector n, branch⟩ := by
  rw [Tensor.finiteMatrix, Tensor.finiteVector, Tensor.nanVector, directionInPlane_vector]
  simp only [mul_nan, add_nan]
  exact ⟨_, rfl⟩

/-- From a column that is not zero the direction is the one of exact arithmetic. -/
theorem curvatureDirection_finite_of_pos (parallelTolerance : ℝ) (H : Matrix (Fin n) (Fin n) ℝ)
    {v : Fin n → ℝ} (hv : 0 < v ⬝ᵥ v) :
    curvatureDirection (.finite parallelTolerance) (.finiteMatrix H) (.finiteVector v) =
      .ok ⟨.finiteVector (extremalDirection parallelTolerance H v).1,
        (extremalDirection parallelTolerance H v).2⟩ := by
  simp only [curvatureDirection, extremalDirection, Tensor.matmul_finiteVector,
    Tensor.product_finiteMatrix, Tensor.item_scalar, finite_mul, finite_le_finite,
    finite_div hv.ne', Tensor.scale_finiteVector, Tensor.sub_finiteVector,
    directionInPlane_finite H v _ _ hv, bind, Except.bind, pure, Except.pure]
  split
  · rfl
  · rfl

/-- From a column of zeros there is no number in the direction: the part of the image along the
column is a quotient of zeros. -/
theorem curvatureDirection_finite_zero (parallelTolerance : ℝ) (H : Matrix (Fin n) (Fin n) ℝ) :
    ∃ branch, curvatureDirection (.finite parallelTolerance) (.finiteMatrix H)
      (.finiteVector (0 : Fin n → ℝ)) = .ok ⟨.nanVector n, branch⟩ := by
  obtain ⟨branch, hbranch⟩ := directionInPlane_nan H 0 (.finite 0) (.finite 0)
  refine ⟨branch, ?_⟩
  simp only [curvatureDirection, Tensor.matmul_finiteVector, Tensor.product_finiteMatrix,
    Tensor.item_scalar, zero_dotProduct, finite_mul, mul_zero, le_refl, finite_le_finite, if_true,
    zero_div_zero, Tensor.scale_finiteVector_nan, Tensor.sub_finiteVector_nanVector, hbranch, bind,
    Except.bind]

/-- From a column of finite second derivatives a direction is always found. -/
theorem curvatureDirection_finite (parallelTolerance : Extended) (H : Matrix (Fin n) (Fin n) ℝ)
    (v : Fin n → ℝ) :
    ∃ result, curvatureDirection parallelTolerance (.finiteMatrix H) (.finiteVector v) =
      .ok result ∧ IsDirection n result.direction := by
  simp only [curvatureDirection, Tensor.matmul_finiteVector, Tensor.product_finiteMatrix,
    Tensor.item_scalar, bind, Except.bind]
  split
  · rcases (dotProduct_self_nonneg v).eq_or_lt with hzero | hpos
    · have hv : v = 0 := dotProduct_self_eq_zero.1 hzero.symm
      rw [hv, zero_dotProduct, zero_dotProduct, zero_div_zero, Tensor.scale_finiteVector_nan,
        Tensor.sub_finiteVector_nanVector]
      obtain ⟨branch, hbranch⟩ := directionInPlane_nan H 0 (.finite 0) (.finite 0)
      exact ⟨_, hbranch, Or.inr rfl⟩
    · rw [finite_div hpos.ne', Tensor.scale_finiteVector, Tensor.sub_finiteVector]
      exact ⟨_, directionInPlane_finite H v _ _ hpos, Or.inl ⟨_, rfl⟩⟩
  · exact ⟨_, rfl, Or.inl ⟨_, rfl⟩⟩

/-! ## Lines -/

def Line.finite (line : Line ℝ) : Line Extended where
  gradientSquare := .finite line.gradientSquare
  slope := .finite line.slope
  directionSquare := .finite line.directionSquare
  curvature := .finite line.curvature

theorem lineOf_finite (g d : Fin n → ℝ) (H : Matrix (Fin n) (Fin n) ℝ) :
    Line.of (.finiteVector g) (.finiteMatrix H) (.finiteVector d) = .ok (lineOf g H d).finite := by
  simp only [Line.of, Tensor.dot_finiteVector, Tensor.matmul_finiteMatrix, bind, Except.bind, pure,
    Except.pure]
  rfl

theorem spansPlane_finite {line : Line ℝ} :
    line.finite.spansPlane = true ↔ 0 < line.gradientSquare ∧ 0 < line.directionSquare := by
  simp only [Line.spansPlane, Line.finite, zero_eq, finite_lt_finite, Bool.and_eq_true,
    decide_eq_true_eq]

theorem scaling_finite {line : Line ℝ} (radius : ℝ) (h : 0 < line.directionSquare) :
    line.finite.scaling (.finite radius) = .finite (line.scaling radius) := by
  have hroot : √line.directionSquare ≠ 0 := (Real.sqrt_pos.2 h).ne'
  simp only [Line.scaling, Line.finite, sqrt_finite h.le, neg_finite, finite_div hroot, finite_mul,
    zero_eq, finite_lt_finite, sqrt_real]
  split
  · rfl
  · rfl

theorem scaling_sq (line : Line ℝ) (radius : ℝ) :
    line.scaling radius ^ 2 = (radius / √line.directionSquare) ^ 2 := by
  unfold Line.scaling
  split
  · rw [sqrt_real, neg_div, neg_sq]
  · rfl

/-- A direction without numbers spans no plane. -/
theorem exists_lineOf_nan (hn : 1 ≤ n) (g : Fin n → ℝ) (H : Matrix (Fin n) (Fin n) ℝ) :
    ∃ line, Line.of (.finiteVector g) (.finiteMatrix H) (.nanVector n) = .ok line ∧
      line.spansPlane = false := by
  rw [Tensor.finiteVector, Tensor.finiteMatrix, Tensor.nanVector, Line.of_vector]
  refine ⟨_, rfl, ?_⟩
  have hsquare : (sum n fun _ => (nan * nan : Extended)) = nan := sum_nan hn (nan_mul nan)
  simp only [Line.spansPlane, hsquare, not_lt_nan, decide_false, Bool.and_false]

theorem change_finite (line : Line ℝ) (factor : ℝ) :
    line.finite.change (.finite factor) = .finite (line.change factor) := rfl

end Quadratic

end InterpolationGeometry
