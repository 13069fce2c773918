import InterpolationGeometry.Proofs.Checking
import InterpolationGeometry.Proofs.Simplex.Causes
import InterpolationGeometry.Proofs.Simplex.StepVertex
import InterpolationGeometry.Proofs.Simplex.WorstVertex
import InterpolationGeometry.Proofs.Tensor.InverseTest

/-!
# Checking on a simplex

The routines on a simplex with their conditions and without them.  The conditions only observe,
whatever the arguments are.  On arrays with an axis those on the arguments stand in an order that
makes each of them defined once those before it hold, and all of them together make the routine
defined.
-/

namespace InterpolationGeometry

namespace Simplex

open Scalar hiding abs

variable {α : Type} [Scalar α]

/-! ## The conditions of each routine -/

def acceptanceChecks (settings : Settings α) (radius minHeightFactor maxLengthFactor : α)
    (simplex inverse : Tensor α) (n : Nat) : List Check :=
  shapeChecks settings n simplex inverse ++
    [radiusCheck radius, minHeightCheck minHeightFactor, maxLengthCheck maxLengthFactor]

def mendingChecks (settings : Settings α) (minHeightFactor maxLengthFactor : α)
    (simplex inverse : Tensor α) (n : Nat) : List Check :=
  shapeChecks settings n simplex inverse ++
    [minHeightCheck minHeightFactor, maxLengthCheck maxLengthFactor]

def roomChecks (settings : Settings α) (step : Tensor α) (minHeightFactor farLengthFactor : α)
    (simplex inverse : Tensor α) (n : Nat) : List Check :=
  .that (decide (step.size = n) && step.isFinite) "SIZE(D) == N, D is finite" ::
    shapeChecks settings n simplex inverse ++
    [minHeightCheck minHeightFactor, farLengthCheck farLengthFactor]

def roomCheck (improved : Bool) (choice : Option Nat) : Check :=
  .that (choice.isSome || !improved) "JDROP >= 1 unless the trust-region step failed"

section Runs

variable (settings : Settings α) (checked improved : Bool) (step simplex inverse : Tensor α)
  (radius minHeightFactor maxLengthFactor farLengthFactor : α)

theorem isAcceptable_eq :
    isAcceptable { settings with checked } radius minHeightFactor maxLengthFactor simplex inverse =
      (do
        let n ← simplex.asMatrix.axisLength 0
        guarded checked "ASSESS_GEO"
          (acceptanceChecks settings radius minHeightFactor maxLengthFactor simplex.asMatrix
            inverse.asMatrix n)
          (do
            let distances ← distances simplex.asMatrix inverse.asMatrix
            return distances.areAcceptable (minHeightFactor * radius) (maxLengthFactor * radius))
          fun _ => []) := rfl

theorem dropForGeometry_eq :
    dropForGeometry { settings with checked } radius minHeightFactor maxLengthFactor simplex
        inverse =
      (do
        let n ← simplex.asMatrix.axisLength 0
        guarded checked "SETDROP_GEO"
          (mendingChecks settings minHeightFactor maxLengthFactor simplex.asMatrix
            inverse.asMatrix n)
          (do
            let distances ← distances simplex.asMatrix inverse.asMatrix
            distances.worstVertex (minHeightFactor * radius) (maxLengthFactor * radius))
          fun vertex => [foundCheck n vertex]) := rfl

theorem dropForStep_eq :
    dropForStep { settings with checked } improved step radius minHeightFactor farLengthFactor
        simplex inverse =
      (do
        let n ← simplex.asMatrix.axisLength 0
        guarded checked "SETDROP_TR"
          (roomChecks settings step.flatten minHeightFactor farLengthFactor simplex.asMatrix
            inverse.asMatrix n)
          (do
            let coordinates ← inverse.asMatrix.product step.flatten
            let byThreshold ← thresholdChoice improved step.flatten radius minHeightFactor
              farLengthFactor simplex.asMatrix inverse.asMatrix coordinates
            let choice ← schemeChoice settings.dropScheme improved step.flatten simplex.asMatrix
              coordinates byThreshold
            reportMissing improved choice)
          fun choice => [roomCheck improved choice]) := rfl

/-! ## Observing -/

theorem isAcceptable_observes :
    Observes "ASSESS_GEO" []
      (isAcceptable { settings with checked := false } radius minHeightFactor maxLengthFactor
        simplex inverse)
      (isAcceptable { settings with checked := true } radius minHeightFactor maxLengthFactor
        simplex inverse) := by
  rw [isAcceptable_eq, isAcceptable_eq]
  refine Observes.liftM_bind (Tensor.uncontracted_axisLength 0 _) fun n => ?_
  refine observes_guarded ?_ ?_ (by simp)
  · exact (Outcome.uncontracted_liftM (uncontracted_distances _ _)).bind fun _ =>
      Outcome.uncontracted_pure _
  · simp only [acceptanceChecks, List.forall_mem_append]
    exact ⟨uncontracted_shapeChecks settings n _ _,
      by simp [radiusCheck, minHeightCheck, maxLengthCheck, Check.that, uncontracted_ok]⟩

theorem dropForGeometry_observes :
    Observes "SETDROP_GEO" ["1 <= JDROP <= N"]
      (dropForGeometry { settings with checked := false } radius minHeightFactor maxLengthFactor
        simplex inverse)
      (dropForGeometry { settings with checked := true } radius minHeightFactor maxLengthFactor
        simplex inverse) := by
  rw [dropForGeometry_eq, dropForGeometry_eq]
  refine Observes.liftM_bind (Tensor.uncontracted_axisLength 0 _) fun n => ?_
  refine observes_guarded ?_ ?_ ?_
  · exact (Outcome.uncontracted_liftM (uncontracted_distances _ _)).bind fun distances =>
      distances.uncontracted_worstVertex _ _
  · simp only [mendingChecks, List.forall_mem_append]
    exact ⟨uncontracted_shapeChecks settings n _ _,
      by simp [minHeightCheck, maxLengthCheck, Check.that, uncontracted_ok]⟩
  · simp [mendingChecks, map_statement_shapeChecks, minHeightCheck, maxLengthCheck, Check.that]

theorem dropForStep_observes :
    Observes "SETDROP_TR" ["JDROP >= 1 unless the trust-region step failed"]
      (dropForStep { settings with checked := false } improved step radius minHeightFactor
        farLengthFactor simplex inverse)
      (dropForStep { settings with checked := true } improved step radius minHeightFactor
        farLengthFactor simplex inverse) := by
  rw [dropForStep_eq, dropForStep_eq]
  refine Observes.liftM_bind (Tensor.uncontracted_axisLength 0 _) fun n => ?_
  refine observes_guarded ?_ ?_ ?_
  · refine (Outcome.uncontracted_liftM (Tensor.uncontracted_product _ _)).bind fun coordinates => ?_
    refine (uncontracted_thresholdChoice improved _ _ _ _ _ _ coordinates).bind
      fun byThreshold => ?_
    refine (uncontracted_schemeChoice _ improved _ _ coordinates byThreshold).bind fun choice => ?_
    exact uncontracted_reportMissing improved choice
  · simp only [roomChecks, List.forall_mem_append, List.forall_mem_cons]
    exact ⟨⟨uncontracted_ok _, uncontracted_shapeChecks settings n _ _⟩,
      by simp [minHeightCheck, farLengthCheck, Check.that, uncontracted_ok]⟩
  · simp [roomChecks, map_statement_shapeChecks, minHeightCheck, farLengthCheck, Check.that]

end Runs

theorem uncontracted_faceChecks (problem : FaceProblem α) (number : Rat)
    (penalty radius stepFactor : α) :
    ∀ check ∈ faceChecks problem number penalty radius stepFactor, Uncontracted check.holds := by
  simp [faceChecks, radiusCheck, Check.that, uncontracted_ok]

theorem faceStep_observes (settings : Settings α)
    (inverse constraints violations values : Tensor α) (number : Rat)
    (penalty radius stepFactor : α) :
    Observes "GEOSTEP" ["SIZE(D) == N, D is finite", "|D| == FACTOR_GAMMA*DELTA"]
      (do
        let problem ← FaceProblem.ofTensors inverse constraints violations values
        faceStep { settings with checked := false } problem number penalty radius stepFactor)
      (do
        let problem ← FaceProblem.ofTensors inverse constraints violations values
        faceStep { settings with checked := true } problem number penalty radius stepFactor) := by
  refine Observes.liftM_bind
    (FaceProblem.uncontracted_ofTensors inverse constraints violations values) fun problem => ?_
  refine observes_guarded ?_ (uncontracted_faceChecks problem number penalty radius stepFactor) ?_
  · refine (Outcome.uncontracted_liftM (problem.uncontracted_normalStep _ _)).bind fun step => ?_
    exact Outcome.uncontracted_liftM (problem.uncontracted_betterSense penalty step)
  · simp [faceChecks, radiusCheck, Check.that]

/-! ## Screening -/

section Exact

variable {settings : Settings Extended} {n : Nat} {step simplex inverse : Tensor Extended}

/-- The test of the inverse is tried on finite matrices with a row, where it has an answer. -/
theorem exists_isInverse_of_isFinite (tolerance : Extended) (hn : 1 ≤ n)
    (hshape : simplex.shape = [n, n + 1]) (hfinite : simplex.isFinite = true)
    (hshape' : inverse.shape = [n, n]) (hfinite' : inverse.isFinite = true) :
    ∃ answer, (do (← simplex.leadingColumns n).isInverse tolerance inverse) =
      (.ok answer : Except Failure Bool) := by
  rw [Tensor.eq_matrix_of_shape hshape] at hfinite ⊢
  rw [Tensor.eq_matrix_of_shape hshape'] at hfinite' ⊢
  rw [Tensor.isFinite, Tensor.all_matrix_iff] at hfinite hfinite'
  obtain ⟨E, hE⟩ := Tensor.exists_finiteMatrix (m := n) (n := n)
    fun i k hi hk => hfinite i k hi (by omega)
  obtain ⟨S, hS⟩ := Tensor.exists_finiteMatrix hfinite'
  simp only [Tensor.leadingColumns_matrix, Nat.min_eq_left (Nat.le_succ n), hE, hS, bind,
    Except.bind]
  exact Tensor.exists_isInverse_finiteMatrix hn tolerance E S

theorem triable_shapeChecks (settings : Settings Extended) (n : Nat)
    (simplex inverse : Tensor Extended) : Triable (shapeChecks settings n simplex inverse) := by
  refine triable_that_cons fun hn => ?_
  refine triable_that_cons fun hshape => ?_
  refine triable_that_cons fun hfinite => ?_
  refine triable_that_cons fun _ => ?_
  refine triable_that_cons fun hshape' => ?_
  refine triable_that_cons fun hfinite' => ?_
  obtain ⟨answer, hanswer⟩ := exists_isInverse_of_isFinite settings.inverseTolerance
    (of_decide_eq_true hn) (of_decide_eq_true hshape) hfinite (of_decide_eq_true hshape') hfinite'
  exact ⟨answer, hanswer, fun _ => trivial⟩

theorem exists_axisLength_asMatrix {t : Tensor Extended} (h : t.shape ≠ []) :
    ∃ n, t.asMatrix.axisLength 0 = .ok n := by
  obtain ⟨n, rest, hshape⟩ : ∃ n rest, t.asMatrix.shape = n :: rest := by
    unfold Tensor.asMatrix
    split
    · exact ⟨_, _, rfl⟩
    · exact List.exists_cons_of_ne_nil h
  refine ⟨n, ?_⟩
  rw [Tensor.axisLength, hshape]
  rfl

theorem isAcceptable_screened (hsimplex : simplex.shape ≠ []) (inverse : Tensor Extended)
    (radius minHeightFactor maxLengthFactor : Extended) :
    ∃ n, simplex.asMatrix.axisLength 0 = .ok n ∧
      Screened "ASSESS_GEO"
        (acceptanceChecks settings radius minHeightFactor maxLengthFactor simplex.asMatrix
          inverse.asMatrix n) (fun _ => [])
        (isAcceptable { settings with checked := false } radius minHeightFactor maxLengthFactor
          simplex inverse).result
        (isAcceptable { settings with checked := true } radius minHeightFactor maxLengthFactor
          simplex inverse).result := by
  obtain ⟨n, hn⟩ := exists_axisLength_asMatrix hsimplex
  refine ⟨n, hn, ?_⟩
  rw [isAcceptable_eq, isAcceptable_eq, hn, Outcome.liftM_ok_bind, Outcome.liftM_ok_bind]
  refine screened_guarded ?_ fun hverify => ?_
  · exact (triable_shapeChecks settings n _ _).append fun _ =>
      triable_that_cons fun _ => triable_that_cons fun _ => triable_that_cons fun _ => trivial
  · obtain ⟨x, s, hx, hs, -⟩ := exists_matrices hverify
    rw [hx, hs, distances_matrix, Outcome.liftM_ok_bind]
    exact ⟨_, rfl, trivial⟩

theorem exists_worstVertex (heights lengths : Nat → Extended) (minHeight maxLength : Extended) :
    ∃ vertex, (Distances.worstVertex ⟨.vector n heights, .vector n lengths⟩ minHeight
      maxLength).result = .ok vertex := by
  by_cases hlong : HasLongEdge n lengths maxLength
  · obtain ⟨j, hj, -⟩ := exists_longest heights minHeight hlong
    exact ⟨some j, by rw [hj]; rfl⟩
  · by_cases hthin : HasThinFace n heights minHeight
    · obtain ⟨j, hj, -⟩ := exists_thinnest hlong hthin
      exact ⟨some j, by rw [hj]; rfl⟩
    · exact ⟨none, worstVertex_eq_none_iff.2 ⟨hlong, hthin⟩⟩

theorem dropForGeometry_screened (hsimplex : simplex.shape ≠ []) (inverse : Tensor Extended)
    (radius minHeightFactor maxLengthFactor : Extended) :
    ∃ n, simplex.asMatrix.axisLength 0 = .ok n ∧
      Screened "SETDROP_GEO"
        (mendingChecks settings minHeightFactor maxLengthFactor simplex.asMatrix inverse.asMatrix n)
        (fun vertex => [foundCheck n vertex])
        (dropForGeometry { settings with checked := false } radius minHeightFactor maxLengthFactor
          simplex inverse).result
        (dropForGeometry { settings with checked := true } radius minHeightFactor maxLengthFactor
          simplex inverse).result := by
  obtain ⟨n, hn⟩ := exists_axisLength_asMatrix hsimplex
  refine ⟨n, hn, ?_⟩
  rw [dropForGeometry_eq, dropForGeometry_eq, hn, Outcome.liftM_ok_bind, Outcome.liftM_ok_bind]
  refine screened_guarded ?_ fun hverify => ?_
  · exact (triable_shapeChecks settings n _ _).append fun _ =>
      triable_that_cons fun _ => triable_that_cons fun _ => trivial
  · obtain ⟨x, s, hx, hs, -⟩ := exists_matrices hverify
    rw [hx, hs, distances_matrix, Outcome.liftM_ok_bind]
    obtain ⟨vertex, hvertex⟩ := exists_worstVertex (n := n) _ _ _ _
    exact ⟨vertex, hvertex, triable_that_cons fun _ => trivial⟩

theorem dropForStep_screened (improved : Bool) (step : Tensor Extended)
    (hsimplex : simplex.shape ≠ []) (inverse : Tensor Extended)
    (radius minHeightFactor farLengthFactor : Extended) :
    ∃ n, simplex.asMatrix.axisLength 0 = .ok n ∧
      Screened "SETDROP_TR"
        (roomChecks settings step.flatten minHeightFactor farLengthFactor simplex.asMatrix
          inverse.asMatrix n)
        (fun choice => [roomCheck improved choice])
        (dropForStep { settings with checked := false } improved step radius minHeightFactor
          farLengthFactor simplex inverse).result
        (dropForStep { settings with checked := true } improved step radius minHeightFactor
          farLengthFactor simplex inverse).result := by
  obtain ⟨n, hn⟩ := exists_axisLength_asMatrix hsimplex
  refine ⟨n, hn, ?_⟩
  rw [dropForStep_eq, dropForStep_eq, hn, Outcome.liftM_ok_bind, Outcome.liftM_ok_bind]
  refine screened_guarded ?_ fun hverify => ?_
  · refine triable_that_cons fun _ => ?_
    exact (triable_shapeChecks settings n _ _).append fun _ =>
      triable_that_cons fun _ => triable_that_cons fun _ => trivial
  · have hchecks := verify_eq_ok_iff.1 hverify
    simp only [roomChecks, List.cons_append, List.forall_mem_cons] at hchecks
    obtain ⟨hsize, hrest⟩ := hchecks
    have hverify' : verify "SETDROP_TR" (shapeChecks settings n simplex.asMatrix inverse.asMatrix ++
        [minHeightCheck minHeightFactor, farLengthCheck farLengthFactor]) = .ok () :=
      verify_eq_ok_iff.2 hrest
    obtain ⟨x, s, hx, hs, -⟩ := exists_matrices hverify'
    simp only [Check.that, Except.ok.injEq, Bool.and_eq_true, decide_eq_true_eq] at hsize
    have hstep : step.flatten.shape = [n] := by rw [Tensor.shape_flatten, ← hsize.1]; rfl
    obtain ⟨log, -, hchosen⟩ := chosenForStep_eq settings improved n
      (fun k => step.flatten.get [k]) x s radius minHeightFactor farLengthFactor
    rw [hx, hs, Tensor.eq_vector_of_shape hstep, Tensor.product_matrix_vector,
      Outcome.liftM_ok_bind]
    exact ⟨_, congrArg Outcome.result hchosen, triable_that_cons fun _ => trivial⟩

end Exact

end Simplex

end InterpolationGeometry
