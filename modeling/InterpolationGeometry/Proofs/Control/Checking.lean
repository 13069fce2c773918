import InterpolationGeometry.Proofs.Quadratic.Checking
import InterpolationGeometry.Proofs.Simplex.Checking

/-!
# Checking in all routines

The conditions of the routines only observe: with checking on, a routine comes to what it comes to
without, or fails.  In exact arithmetic they screen as well: whatever arrays with an axis and
whatever scalars a routine is given, with checking on it fails of nothing but the first of its
conditions that does not hold.
-/

namespace InterpolationGeometry

namespace Control

/-- The conditions of every routine only observe, whatever the arguments. -/
theorem checking_observes {α : Type} [Scalar α] (settings : Settings α) :
    (∀ (radius minHeightFactor maxLengthFactor : α) (simplex inverse : Tensor α),
      Observes "ASSESS_GEO" []
        (Simplex.isAcceptable { settings with checked := false } radius minHeightFactor
          maxLengthFactor simplex inverse)
        (Simplex.isAcceptable { settings with checked := true } radius minHeightFactor
          maxLengthFactor simplex inverse)) ∧
    (∀ (radius minHeightFactor maxLengthFactor : α) (simplex inverse : Tensor α),
      Observes "SETDROP_GEO" ["1 <= JDROP <= N"]
        (Simplex.dropForGeometry { settings with checked := false } radius minHeightFactor
          maxLengthFactor simplex inverse)
        (Simplex.dropForGeometry { settings with checked := true } radius minHeightFactor
          maxLengthFactor simplex inverse)) ∧
    (∀ (improved : Bool) (step : Tensor α) (radius minHeightFactor farLengthFactor : α)
        (simplex inverse : Tensor α),
      Observes "SETDROP_TR" ["JDROP >= 1 unless the trust-region step failed"]
        (Simplex.dropForStep { settings with checked := false } improved step radius
          minHeightFactor farLengthFactor simplex inverse)
        (Simplex.dropForStep { settings with checked := true } improved step radius
          minHeightFactor farLengthFactor simplex inverse)) ∧
    (∀ (inverse constraints violations values : Tensor α) (number : Rat)
        (penalty radius stepFactor : α),
      Observes "GEOSTEP" ["SIZE(D) == N, D is finite", "|D| == FACTOR_GAMMA*DELTA"]
        (do
          let problem ← Simplex.FaceProblem.ofTensors inverse constraints violations values
          Simplex.faceStep { settings with checked := false } problem number penalty radius
            stepFactor)
        (do
          let problem ← Simplex.FaceProblem.ofTensors inverse constraints violations values
          Simplex.faceStep { settings with checked := true } problem number penalty radius
            stepFactor)) ∧
    ∀ (gradient hessian : Tensor α) (radius : α),
      Observes "QGEOSTEP" ["SIZE(D) == N", "||D|| <= DELBAR", "VMAX >= 0"]
        (Quadratic.geometryStep { settings with checked := false } gradient hessian radius)
        (Quadratic.geometryStep { settings with checked := true } gradient hessian radius) := by
  refine ⟨?assess, ?mend, ?room, ?face, ?quadratic⟩
  case assess =>
    intro radius minHeightFactor maxLengthFactor simplex inverse
    exact Simplex.isAcceptable_observes settings simplex inverse radius minHeightFactor
      maxLengthFactor
  case mend =>
    intro radius minHeightFactor maxLengthFactor simplex inverse
    exact Simplex.dropForGeometry_observes settings simplex inverse radius minHeightFactor
      maxLengthFactor
  case room =>
    intro improved step radius minHeightFactor farLengthFactor simplex inverse
    exact Simplex.dropForStep_observes settings improved step simplex inverse radius
      minHeightFactor farLengthFactor
  case face => exact Simplex.faceStep_observes settings
  case quadratic => exact Quadratic.geometryStep_observes settings

/-- With checking on, a routine that is given arrays with an axis comes to a value or fails with the
first of its conditions that does not hold. -/
theorem checking_screens {settings : Settings Extended}
    (horthogonality : 0 ≤ settings.orthogonalityTolerance) :
    (∀ (radius minHeightFactor maxLengthFactor : Extended) (simplex inverse : Tensor Extended),
      simplex.shape ≠ [] → ∃ n, simplex.asMatrix.axisLength 0 = .ok n ∧
        Screened "ASSESS_GEO"
          (Simplex.acceptanceChecks settings radius minHeightFactor maxLengthFactor
            simplex.asMatrix inverse.asMatrix n)
          (fun _ => [])
          (Simplex.isAcceptable { settings with checked := false } radius minHeightFactor
            maxLengthFactor simplex inverse).result
          (Simplex.isAcceptable { settings with checked := true } radius minHeightFactor
            maxLengthFactor simplex inverse).result) ∧
    (∀ (radius minHeightFactor maxLengthFactor : Extended) (simplex inverse : Tensor Extended),
      simplex.shape ≠ [] → ∃ n, simplex.asMatrix.axisLength 0 = .ok n ∧
        Screened "SETDROP_GEO"
          (Simplex.mendingChecks settings minHeightFactor maxLengthFactor simplex.asMatrix
            inverse.asMatrix n)
          (fun vertex => [Simplex.foundCheck n vertex])
          (Simplex.dropForGeometry { settings with checked := false } radius minHeightFactor
            maxLengthFactor simplex inverse).result
          (Simplex.dropForGeometry { settings with checked := true } radius minHeightFactor
            maxLengthFactor simplex inverse).result) ∧
    (∀ (improved : Bool) (step : Tensor Extended)
        (radius minHeightFactor farLengthFactor : Extended) (simplex inverse : Tensor Extended),
      simplex.shape ≠ [] → ∃ n, simplex.asMatrix.axisLength 0 = .ok n ∧
        Screened "SETDROP_TR"
          (Simplex.roomChecks settings step.flatten minHeightFactor farLengthFactor
            simplex.asMatrix inverse.asMatrix n)
          (fun vertex => [Simplex.roomCheck improved vertex])
          (Simplex.dropForStep { settings with checked := false } improved step radius
            minHeightFactor farLengthFactor simplex inverse).result
          (Simplex.dropForStep { settings with checked := true } improved step radius
            minHeightFactor farLengthFactor simplex inverse).result) ∧
    ∀ (gradient hessian : Tensor Extended) (radius : Extended),
      Screened "QGEOSTEP" (Quadratic.modelChecks settings gradient.size hessian.asMatrix radius)
        (Quadratic.stepChecks gradient.size radius)
        (Quadratic.geometryStep { settings with checked := false } gradient hessian radius).result
        (Quadratic.geometryStep { settings with checked := true } gradient hessian
          radius).result := by
  refine ⟨?assess, ?mend, ?room, ?quadratic⟩
  case assess =>
    intro radius minHeightFactor maxLengthFactor simplex inverse hsimplex
    exact Simplex.isAcceptable_screened hsimplex inverse radius minHeightFactor maxLengthFactor
  case mend =>
    intro radius minHeightFactor maxLengthFactor simplex inverse hsimplex
    exact Simplex.dropForGeometry_screened hsimplex inverse radius minHeightFactor maxLengthFactor
  case room =>
    intro improved step radius minHeightFactor farLengthFactor simplex inverse hsimplex
    exact Simplex.dropForStep_screened improved step hsimplex inverse radius minHeightFactor
      farLengthFactor
  case quadratic => exact Quadratic.geometryStep_screened horthogonality

noncomputable def boxOfNaN : Tensor Extended := .ofFn [2, 3, 1] fun _ => .nan

/-- An empty array of one axis, which is a matrix of one row without an entry. -/
def noEntries : Tensor Extended := .ofFn [0] fun _ => .infinite true

theorem checking_screens_malformed :
    0 ≤ (Settings.standard : Settings Extended).orthogonalityTolerance ∧ boxOfNaN.shape ≠ [] ∧
      noEntries.shape ≠ [] ∧
      (∀ radius minHeightFactor maxLengthFactor inverse,
        (Simplex.isAcceptable { Settings.standard with checked := true } radius minHeightFactor
            maxLengthFactor boxOfNaN inverse).result =
          .error (.contract "ASSESS_GEO" "SIZE(SIM) == [N, N+1]")) ∧
      (∀ radius minHeightFactor maxLengthFactor inverse,
        (Simplex.dropForGeometry { Settings.standard with checked := true } radius minHeightFactor
            maxLengthFactor noEntries inverse).result =
          .error (.contract "SETDROP_GEO" "SIZE(SIM) == [N, N+1]")) ∧
      (∀ improved radius minHeightFactor farLengthFactor inverse,
        (Simplex.dropForStep { Settings.standard with checked := true } improved boxOfNaN radius
            minHeightFactor farLengthFactor boxOfNaN inverse).result =
          .error (.contract "SETDROP_TR" "SIZE(D) == N, D is finite")) ∧
      (Quadratic.geometryStep { Settings.standard with checked := true } noEntries boxOfNaN
          (.infinite false)).result = .error (.contract "QGEOSTEP" "N >= 1") := by
  have horthogonality : 0 ≤ (Settings.standard : Settings Extended).orthogonalityTolerance :=
    Extended.finite_le_finite.2 (by norm_num)
  have hbox : boxOfNaN.shape ≠ [] := by simp [boxOfNaN]
  have hempty : noEntries.shape ≠ [] := by simp [noEntries]
  obtain ⟨hassess, hmend, hroom, hquadratic⟩ := checking_screens horthogonality
  refine ⟨horthogonality, hbox, hempty, ?_, ?_, ?_, ?_⟩
  · intro radius minHeightFactor maxLengthFactor inverse
    obtain ⟨n, hn, hscreened⟩ :=
      hassess radius minHeightFactor maxLengthFactor boxOfNaN inverse hbox
    obtain rfl : 2 = n := Except.ok.inj hn
    exact hscreened.eq_of_firstFailing (.later rfl (.here rfl))
  · intro radius minHeightFactor maxLengthFactor inverse
    obtain ⟨n, hn, hscreened⟩ :=
      hmend radius minHeightFactor maxLengthFactor noEntries inverse hempty
    obtain rfl : 1 = n := Except.ok.inj hn
    exact hscreened.eq_of_firstFailing (.later rfl (.here rfl))
  · intro improved radius minHeightFactor farLengthFactor inverse
    obtain ⟨n, hn, hscreened⟩ :=
      hroom improved boxOfNaN radius minHeightFactor farLengthFactor boxOfNaN inverse hbox
    obtain rfl : 2 = n := Except.ok.inj hn
    exact hscreened.eq_of_firstFailing (.here rfl)
  · exact (hquadratic noEntries boxOfNaN (.infinite false)).eq_of_firstFailing (.here rfl)

end Control

end InterpolationGeometry
