import InterpolationGeometry.Proofs.Causes
import InterpolationGeometry.Simplex.FaceStep
import InterpolationGeometry.Simplex.Replacement

/-!
# Causes of failure on a simplex

The routines on a simplex chain operations on tensors, none of which fails with a condition of a
routine.  So without their conditions the routines fail of other causes only, whatever the shapes
and the entries.
-/

namespace InterpolationGeometry

namespace Simplex

open Scalar hiding abs

variable {α : Type} [Scalar α]

/-! ## Conditions -/

theorem uncontracted_shapeChecks (settings : Settings α) (n : Nat) (simplex inverse : Tensor α) :
    ∀ check ∈ shapeChecks settings n simplex inverse, Uncontracted check.holds := by
  have hinverse : Uncontracted (simplex.leadingColumns n >>= fun edges =>
      edges.isInverse settings.inverseTolerance inverse) :=
    (Tensor.uncontracted_leadingColumns n simplex).bind fun edges =>
      Tensor.uncontracted_isInverse settings.inverseTolerance edges inverse
  simp only [shapeChecks, Check.that, List.forall_mem_cons, uncontracted_ok, true_and]
  exact ⟨hinverse, by simp⟩

theorem map_statement_shapeChecks (settings : Settings α) (n : Nat) (simplex inverse : Tensor α) :
    (shapeChecks settings n simplex inverse).map Check.statement =
      ["N >= 1", "SIZE(SIM) == [N, N+1]", "SIM is finite", "SIM(:, 1:N) has no zero column",
        "SIZE(SIMI) == [N, N]", "SIMI is finite", "SIMI = SIM(:, 1:N)^\x7b-1\x7d"] := rfl

/-! ## Distances -/

theorem uncontracted_edges (simplex : Tensor α) : Uncontracted (edges simplex) :=
  (Tensor.uncontracted_axisLength 0 simplex).bind fun n =>
    Tensor.uncontracted_leadingColumns n simplex

theorem uncontracted_heights (inverse : Tensor α) : Uncontracted (heights inverse) :=
  (Tensor.uncontracted_rowNorms inverse).bind fun _ => uncontracted_ok _

theorem uncontracted_distances (simplex inverse : Tensor α) :
    Uncontracted (distances simplex inverse) := by
  refine (Tensor.uncontracted_axisLength 0 simplex).bind fun _ => ?_
  refine (uncontracted_heights inverse).bind fun _ => ?_
  refine (uncontracted_edges simplex).bind fun edges => ?_
  exact (Tensor.uncontracted_columnNorms edges).bind fun _ => uncontracted_ok _

theorem Distances.uncontracted_worstVertex (distances : Distances α) (minHeight maxLength : α) :
    (distances.worstVertex minHeight maxLength).Uncontracted := by
  refine Outcome.Uncontracted.ite _ ?_ (Outcome.Uncontracted.ite _ ?_ ?_)
  · exact Outcome.uncontracted_liftM (Selection.uncontracted_argmax? distances.lengths none)
  · exact Outcome.uncontracted_liftM (Selection.uncontracted_argmin? distances.heights none)
  · exact Outcome.uncontracted_report_bind_pure _ _

/-! ## The vertex that a new point replaces -/

theorem uncontracted_edgesFromBest (improved : Bool) (step simplex : Tensor α) :
    Uncontracted (edgesFromBest improved step simplex) := by
  refine (uncontracted_edges simplex).bind fun edges => ?_
  exact Uncontracted.ite _ (Tensor.uncontracted_columnsMinus edges step) (uncontracted_ok _)

theorem uncontracted_coordinateChoice (improved : Bool) (coordinates : Tensor α) :
    Uncontracted (coordinateChoice improved coordinates) :=
  Uncontracted.ite _ (Selection.uncontracted_argmax? _ none) (uncontracted_ok _)

theorem uncontracted_replaceableFar (minHeight farLength : α)
    (lengths heights coordinates : Tensor α) :
    Uncontracted (replaceableFar minHeight farLength lengths heights coordinates) := by
  refine (Tensor.uncontracted_zipWith _ _ heights).bind fun newHeights => ?_
  refine (Tensor.uncontracted_zipWith _ newHeights heights).bind fun staysHigh => ?_
  exact Tensor.uncontracted_zipWith _ _ staysHigh

theorem uncontracted_farthestAmong (lengths : Tensor α) (mask : Tensor Bool)
    (other : Option Nat) : Uncontracted (farthestAmong lengths mask other) :=
  Uncontracted.ite _ (Selection.uncontracted_argmax? lengths (some mask)) (uncontracted_ok _)

theorem uncontracted_orFarthest (improved : Bool) (lengths : Tensor α) (choice : Option Nat) :
    (orFarthest improved lengths choice).Uncontracted := by
  refine Outcome.Uncontracted.ite _ ?_ (Outcome.uncontracted_pure _)
  refine (Outcome.uncontracted_liftM (Selection.uncontracted_argmax? lengths none)).bind fun _ => ?_
  exact Outcome.uncontracted_report_bind_pure _ _

theorem uncontracted_thresholdChoice (improved : Bool) (step : Tensor α)
    (radius minHeightFactor farLengthFactor : α) (simplex inverse coordinates : Tensor α) :
    (thresholdChoice improved step radius minHeightFactor farLengthFactor simplex inverse
      coordinates).Uncontracted := by
  refine (Outcome.uncontracted_liftM (Tensor.uncontracted_axisLength 0 simplex)).bind fun _ => ?_
  refine (Outcome.uncontracted_liftM
    (uncontracted_coordinateChoice improved coordinates)).bind fun byCoordinate => ?_
  refine (Outcome.uncontracted_liftM
    (uncontracted_edgesFromBest improved step simplex)).bind fun edges => ?_
  refine (Outcome.uncontracted_liftM (Tensor.uncontracted_columnNorms edges)).bind fun lengths => ?_
  refine (Outcome.uncontracted_liftM (uncontracted_heights inverse)).bind fun heights => ?_
  refine (Outcome.uncontracted_liftM
    (uncontracted_replaceableFar _ _ lengths heights coordinates)).bind fun mask => ?_
  refine (Outcome.uncontracted_liftM
    (uncontracted_farthestAmong lengths mask byCoordinate)).bind fun choice => ?_
  exact uncontracted_orFarthest improved lengths choice

theorem uncontracted_baseDistance (improved : Bool) (step : Tensor α) :
    Uncontracted (baseDistance improved step) :=
  Uncontracted.ite _ (Tensor.uncontracted_dot step step) (uncontracted_ok _)

theorem uncontracted_bestScore (n : Nat) (scores : Tensor α) (other : Option Nat) :
    (bestScore n scores other).Uncontracted := by
  refine (Outcome.uncontracted_liftM (Selection.uncontracted_argmax? scores none)).bind fun _ => ?_
  refine Outcome.Uncontracted.ite _ ?_ (Outcome.uncontracted_pure _)
  exact Outcome.uncontracted_report_bind_pure _ _

theorem uncontracted_amongCoincident (improved : Bool) (distances : Tensor α) :
    (amongCoincident improved distances).Uncontracted := by
  refine Outcome.Uncontracted.ite _ ?_ (Outcome.uncontracted_pure _)
  refine (Outcome.uncontracted_liftM
    (Selection.uncontracted_argmax? distances none)).bind fun _ => ?_
  exact Outcome.uncontracted_report_bind_pure _ _

theorem uncontracted_scoreChoice (improved : Bool) (step simplex coordinates : Tensor α)
    (other : Option Nat) :
    (scoreChoice improved step simplex coordinates other).Uncontracted := by
  refine (Outcome.uncontracted_liftM (Tensor.uncontracted_axisLength 0 simplex)).bind fun n => ?_
  refine (Outcome.uncontracted_liftM
    (uncontracted_edgesFromBest improved step simplex)).bind fun edges => ?_
  refine (Outcome.uncontracted_liftM (Tensor.uncontracted_sumAxis 0 _)).bind fun distances => ?_
  refine (Outcome.uncontracted_liftM (uncontracted_baseDistance improved step)).bind fun base => ?_
  refine (Outcome.uncontracted_liftM (Tensor.uncontracted_zipWith _ _ _)).bind fun scores => ?_
  exact Outcome.Uncontracted.ite _ (uncontracted_bestScore n scores other)
    (uncontracted_amongCoincident improved distances)

theorem uncontracted_schemeChoice (scheme : DropScheme) (improved : Bool)
    (step simplex coordinates : Tensor α) (byThreshold : Option Nat) :
    (schemeChoice scheme improved step simplex coordinates byThreshold).Uncontracted := by
  cases scheme with
  | score => exact uncontracted_scoreChoice improved step simplex coordinates byThreshold
  | powell => exact Outcome.uncontracted_pure _
  | unlisted name => exact Outcome.uncontracted_pure _

theorem uncontracted_reportMissing {β : Type} (improved : Bool) (choice : Option Nat) :
    (reportMissing improved choice : Outcome β (Option Nat)).Uncontracted :=
  Outcome.Uncontracted.ite _
    (Outcome.uncontracted_report_bind_pure _ _)
    (Outcome.uncontracted_pure _)

/-! ## Steps across a face -/

namespace FaceProblem

theorem uncontracted_ofTensors (inverse constraints violations values : Tensor α) :
    Uncontracted (ofTensors inverse constraints violations values) := by
  refine (uncontracted_ok inverse).bind fun inverse => ?_
  refine (Tensor.uncontracted_axisLength 0 _).bind fun dimension => ?_
  refine (uncontracted_ok constraints).bind fun constraints => ?_
  refine (Tensor.uncontracted_axisLength 0 _).bind fun constraintCount => ?_
  refine (uncontracted_ok violations).bind fun violations => ?_
  exact (uncontracted_ok values).bind fun values => uncontracted_ok _

theorem uncontracted_constraintGradients (problem : FaceProblem α) :
    Uncontracted problem.constraintGradients := by
  refine (Tensor.uncontracted_leadingColumns _ _).bind fun others => ?_
  refine (Tensor.uncontracted_column _ _).bind fun base => ?_
  refine (Tensor.uncontracted_columnsMinus others base).bind fun rows => ?_
  refine (Tensor.uncontracted_product rows problem.inverse).bind fun gradients => ?_
  exact Tensor.uncontracted_spread _ gradients.transpose

theorem uncontracted_descent (problem : FaceProblem α) : Uncontracted problem.descent := by
  refine (Tensor.uncontracted_entry _ _).bind fun base => ?_
  refine (Tensor.uncontracted_product _ problem.inverse).bind fun slopes => ?_
  exact Tensor.uncontracted_spread _ slopes

theorem uncontracted_normalStep (problem : FaceProblem α) (place : Int) (length : α) :
    Uncontracted (problem.normalStep place length) := by
  refine (Tensor.uncontracted_row place problem.inverse).bind fun row => ?_
  exact (uncontracted_divide 1 row.norm).bind fun _ => uncontracted_ok _

theorem uncontracted_betterSense (problem : FaceProblem α) (penalty : α) (step : Tensor α) :
    Uncontracted (problem.betterSense penalty step) := by
  refine (uncontracted_constraintGradients problem).bind fun gradients => ?_
  refine (uncontracted_descent problem).bind fun descent => ?_
  refine (Tensor.uncontracted_product step gradients).bind fun slopes => ?_
  refine (Tensor.uncontracted_column _ problem.constraints).bind fun base => ?_
  refine (Tensor.uncontracted_zipWith _ slopes base).bind fun ahead => ?_
  refine (Tensor.uncontracted_zipWith _ slopes base).bind fun behind => ?_
  exact (Tensor.uncontracted_dot step descent).bind fun _ => uncontracted_ok _

end FaceProblem

end Simplex

end InterpolationGeometry
