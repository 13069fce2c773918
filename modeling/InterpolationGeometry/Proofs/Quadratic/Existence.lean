import InterpolationGeometry.Proofs.Quadratic.FiniteModel
import InterpolationGeometry.Proofs.Returns

/-!
# The search has a value

On a vector and a square matrix of one size every step of the search is defined, whatever the
entries and the radius, an infinite one or none that is a number included.  A column is there to
start from as soon as the model is finite, and the one division that may fail is by a squared length
that has passed the test of the plane.
-/

namespace InterpolationGeometry

namespace Quadratic

open Scalar hiding abs

open Extended

variable {n : ℕ} {settings : Settings Extended} {g d : ℕ → Extended} {H : ℕ → ℕ → Extended}
  {radius : Extended} {step other cauchy : Tensor Extended}

theorem clearNaN_returns (kind : StepKind) (h : step.shape = [n]) :
    (clearNaN kind step).Returns (·.shape = [n]) := by
  unfold clearNaN
  split
  · exact Outcome.returns_pure h
  · exact Outcome.Returns.report (Outcome.returns_pure h)

theorem unlessVanished_returns (kind : StepKind) (h : step.shape = [n]) (hother : other.shape = [n]) :
    (unlessVanished kind step other).Returns (·.shape = [n]) := by
  rw [Tensor.eq_vector_of_shape h]
  simp only [unlessVanished, Tensor.dot_vector, Outcome.liftM_ok_bind]
  split
  · exact Outcome.Returns.report (Outcome.returns_pure hother)
  · exact Outcome.returns_pure rfl

theorem cauchyStep_returns (g : ℕ → Extended) (H : ℕ → ℕ → Extended) (radius : Extended) :
    (cauchyStep (.vector n g) (.matrix n n H) radius).Returns (·.shape = [n]) := by
  simp only [cauchyStep, Tensor.dot_vector, Tensor.matmul_matrix_vector, Outcome.liftM_ok_bind]
  refine clearNaN_returns .cauchy ?_
  split
  · rfl
  · rfl

/-- The turn of a form is always found, as exact squares are not too large. -/
theorem exists_ofCrossSquare (tolerance first cross second crossSquare : Extended) :
    ∃ turn, Rotation.ofCrossSquare tolerance first cross second (.ok crossSquare) = .ok turn := by
  unfold Rotation.ofCrossSquare
  split
  · exact ⟨_, rfl⟩
  · simp only [boundedSquare_eq, bind, Except.bind, pure, Except.pure]
    exact ⟨_, rfl⟩

theorem exists_planarStep (n : ℕ) (settings : Settings Extended) (g d : ℕ → Extended)
    (H : ℕ → ℕ → Extended) (gg radius : Extended) {dd : Extended} (hdd : 0 < dd) :
    ∃ step change, planarStep settings (.vector n g) (.matrix n n H) (.vector n d) gg dd radius =
      .ok (step, change) ∧ step.shape = [n] := by
  choose turn hturn using exists_ofCrossSquare settings.crossTermTolerance
  rw [planarStep_vector, divide_of_pos hdd]
  simp only [hturn, Except.bind]
  exact ⟨_, _, rfl, rfl⟩

theorem pos_of_isWide {line : Line Extended} {residualSquare : Extended}
    (horthogonality : 0 ≤ settings.orthogonalityTolerance) (hspan : line.spansPlane = true)
    (hwide : line.isWide settings radius residualSquare = true) : 0 < residualSquare := by
  simp only [Line.spansPlane, Bool.and_eq_true, decide_eq_true_eq] at hspan
  simp only [Line.isWide, Bool.and_eq_true, decide_eq_true_eq] at hwide
  exact pos_of_mul_lt horthogonality hspan.2 hwide.2

theorem searchPlane_returns (horthogonality : 0 ≤ settings.orthogonalityTolerance)
    (hcauchy : cauchy.shape = [n]) :
    (searchPlane settings (.vector n g) (.matrix n n H) (.vector n d) cauchy radius).Returns
      (·.step.shape = [n]) := by
  obtain ⟨change, hchange⟩ :
      ∃ change, modelChange (.vector n g) (.matrix n n H) cauchy = .ok change := by
    rw [Tensor.eq_vector_of_shape hcauchy]
    exact ⟨_, modelChange_vector n g _ H⟩
  simp only [searchPlane, Line.of_vector, hchange, Outcome.liftM_ok_bind, Tensor.scale_vector,
    Tensor.sub_vector, Tensor.dot_vector]
  split
  · exact Outcome.Returns.report (Outcome.returns_pure hcauchy)
  · rename_i hspan
    refine (clearNaN_returns .scaled rfl).bind fun scaled hscaled => ?_
    split
    · refine Outcome.Returns.report ?_
      refine (unlessVanished_returns .scaled hscaled hcauchy).bind fun step hstep => ?_
      exact Outcome.returns_pure hstep
    · rename_i hwide
      rw [Bool.not_eq_true, Bool.not_eq_false'] at hspan hwide
      have hpos := pos_of_isWide horthogonality hspan hwide
      choose planar change hplanar hshape using fun v gg =>
        exists_planarStep n settings g v H gg radius hpos
      simp only [hplanar, Outcome.liftM_ok_bind]
      refine (clearNaN_returns .planar (hshape _ _)).bind fun cleared hcleared => ?_
      refine (unlessVanished_returns .planar hcleared hcauchy).bind fun step hstep => ?_
      exact Outcome.returns_pure hstep

theorem exists_curvatureDirection (parallelTolerance : Extended) (v : ℕ → Extended) :
    ∃ result, curvatureDirection parallelTolerance (.matrix n n H) (.vector n v) = .ok result ∧
      result.direction.shape = [n] := by
  rw [curvatureDirection_matrix]
  simp only [directionInPlane_vector]
  split
  · exact ⟨_, rfl, rfl⟩
  · exact ⟨_, rfl, rfl⟩

/-- The search always comes to a step of the size of the gradient. -/
theorem search_returns (hn : 1 ≤ n) (horthogonality : 0 ≤ settings.orthogonalityTolerance) :
    (search settings (.vector n g) (.matrix n n H) radius).Returns (·.step.shape = [n]) := by
  refine (cauchyStep_returns g H radius).bind fun cauchy hcauchy => ?_
  split
  · exact Outcome.Returns.report (Outcome.returns_pure hcauchy)
  · rename_i hfinite
    simp only [Bool.not_eq_true', Bool.not_eq_false, Bool.and_eq_true, Tensor.isFinite,
      Tensor.all_matrix_iff] at hfinite
    have hnumber : isNaN (sum n fun i => square (H i 0)) = false :=
      isNaN_sum_square_eq_false fun i hi => by
        obtain ⟨r, hr⟩ := eq_finite_of_isFinite (hfinite.2 i 0 hi hn)
        rw [hr, isNaN_finite]
    obtain ⟨k, hk, -⟩ := exists_longestColumn_matrix hn hnumber
    obtain ⟨result, hresult, hshape⟩ := exists_curvatureDirection (n := n) (H := H)
      settings.parallelTolerance fun i => H i k
    simp only [hk, Tensor.column_matrix H k.isLt, hresult, Outcome.liftM_ok_bind]
    rw [Tensor.eq_vector_of_shape hshape]
    exact searchPlane_returns horthogonality hcauchy

end Quadratic

end InterpolationGeometry
