import InterpolationGeometry.Proofs.Checking
import InterpolationGeometry.Proofs.Quadratic.Causes
import InterpolationGeometry.Proofs.Quadratic.Existence

/-!
# Checking on a quadratic model

The step for a quadratic model with its conditions and without them.  The conditions only observe,
whatever the model and the radius are.  In exact arithmetic those on the model make the search
defined, and each condition on the step is defined once those before it hold.
-/

namespace InterpolationGeometry

namespace Quadratic

open Scalar hiding abs

section Runs

variable {α : Type} [Scalar α]

theorem geometryStep_eq (settings : Settings α) (checked : Bool) (gradient hessian : Tensor α)
    (radius : α) :
    geometryStep { settings with checked } gradient hessian radius =
      guarded checked routine
        (modelChecks settings gradient.size hessian.asMatrix radius)
        (search settings gradient.flatten hessian.asMatrix radius)
        (stepChecks gradient.size radius) := rfl

theorem geometryStep_observes (settings : Settings α) (gradient hessian : Tensor α) (radius : α) :
    Observes "QGEOSTEP" ["SIZE(D) == N", "||D|| <= DELBAR", "VMAX >= 0"]
      (geometryStep { settings with checked := false } gradient hessian radius)
      (geometryStep { settings with checked := true } gradient hessian radius) := by
  rw [geometryStep_eq, geometryStep_eq]
  refine observes_guarded (uncontracted_search settings _ _ radius) ?_ ?_
  · simp [modelChecks, Check.that, uncontracted_ok]
  · simp [modelChecks, Check.that]

end Runs

/-! ## Screening -/

section Exact

variable {settings : Settings Extended}

theorem triable_modelChecks (settings : Settings Extended) (n : ℕ) (h : Tensor Extended)
    (radius : Extended) : Triable (modelChecks settings n h radius) :=
  triable_that_cons fun _ => triable_that_cons fun _ => triable_that_cons fun _ => trivial

/-- A step is measured only once it is known to be a vector of the right size. -/
theorem triable_stepChecks (n : ℕ) (radius : Extended) (result : Step Extended) :
    Triable (stepChecks n radius result) := by
  refine triable_that_cons fun hshape => ?_
  obtain ⟨square, hsquare⟩ : ∃ square, result.step.dot result.step = .ok square := by
    rw [Tensor.eq_vector_of_shape (of_decide_eq_true hshape)]
    exact ⟨_, Tensor.dot_vector n _ _⟩
  refine ⟨decide (Scalar.sqrt square ≤ radius * (1 + 1e-6) + 1e-300), ?_,
    fun _ => triable_that_cons fun _ => trivial⟩
  simp only [hsquare, bind, Except.bind, pure, Except.pure]

theorem geometryStep_screened (horthogonality : 0 ≤ settings.orthogonalityTolerance)
    (gradient hessian : Tensor Extended) (radius : Extended) :
    Screened "QGEOSTEP" (modelChecks settings gradient.size hessian.asMatrix radius)
      (stepChecks gradient.size radius)
      (geometryStep { settings with checked := false } gradient hessian radius).result
      (geometryStep { settings with checked := true } gradient hessian radius).result := by
  rw [geometryStep_eq, geometryStep_eq]
  refine screened_guarded (triable_modelChecks settings _ _ radius) fun hverify => ?_
  simp only [verify_eq_ok_iff, modelChecks, Check.that, List.forall_mem_cons, Except.ok.injEq,
    Bool.and_eq_true, decide_eq_true_eq] at hverify
  obtain ⟨hn, -, ⟨hshape, -⟩, -⟩ := hverify
  have hgradient : gradient.flatten.shape = [gradient.size] := rfl
  have hsearch : (search settings gradient.flatten hessian.asMatrix radius).Returns
      (·.step.shape = [gradient.size]) := by
    rw [Tensor.eq_vector_of_shape hgradient, Tensor.eq_matrix_of_shape hshape]
    exact search_returns hn horthogonality
  obtain ⟨result, hresult, -⟩ := hsearch
  exact ⟨result, hresult, triable_stepChecks _ radius result⟩

end Exact

end Quadratic

end InterpolationGeometry
