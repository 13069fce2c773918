import InterpolationGeometry.Proofs.Causes
import InterpolationGeometry.Quadratic.Step

/-!
# Causes of failure on a quadratic model

The search for a step chains operations on tensors, none of which fails with a condition of a
routine, whatever the shapes and the entries.
-/

namespace InterpolationGeometry

namespace Quadratic

open Scalar hiding abs

variable {α : Type} [Scalar α]

/-! ## Directions -/

theorem uncontracted_directionInPlane (h v across : Tensor α) (vv vhv : α) :
    Uncontracted (directionInPlane h v across vv vhv) := by
  refine (Tensor.uncontracted_matmul across across).bind fun square => ?_
  refine (Tensor.uncontracted_item rfl square).bind fun dd => ?_
  refine (Tensor.uncontracted_product h across).bind fun image => ?_
  refine (Tensor.uncontracted_matmul across image).bind fun bend => ?_
  refine (Tensor.uncontracted_item rfl bend).bind fun dhd => ?_
  refine (Tensor.uncontracted_zipWith _ _ across).bind fun alongAcross => ?_
  exact (Tensor.uncontracted_zipWith _ _ alongAcross).bind fun _ => uncontracted_ok _

theorem uncontracted_curvatureDirection (parallelTolerance : α) (h v : Tensor α) :
    Uncontracted (curvatureDirection parallelTolerance h v) := by
  refine (Tensor.uncontracted_matmul v v).bind fun lengthSquare => ?_
  refine (Tensor.uncontracted_product h v).bind fun image => ?_
  refine (Tensor.uncontracted_matmul v image).bind fun overlap => ?_
  refine (Tensor.uncontracted_matmul image image).bind fun imageSquare => ?_
  refine (Tensor.uncontracted_item rfl lengthSquare).bind fun vv => ?_
  refine (Tensor.uncontracted_item rfl overlap).bind fun vhv => ?_
  refine (Tensor.uncontracted_item rfl imageSquare).bind fun ww => ?_
  refine Uncontracted.ite _ ?_ (uncontracted_ok _)
  refine (Tensor.uncontracted_zipWith _ image _).bind fun across => ?_
  exact uncontracted_directionInPlane h v across vv vhv

theorem uncontracted_longestColumn (h : Tensor α) : Uncontracted (longestColumn h) := by
  refine (Tensor.uncontracted_sumAxis 0 h.squares).bind fun lengths => ?_
  refine (Selection.uncontracted_argmax? lengths none).bind fun place => ?_
  cases place with
  | none => exact uncontracted_error rfl
  | some k => exact uncontracted_ok k

/-! ## Parts of the search -/

theorem uncontracted_clearNaN (kind : StepKind) (step : Tensor α) :
    (clearNaN kind step).Uncontracted :=
  Outcome.Uncontracted.ite _ (Outcome.uncontracted_pure _)
    (Outcome.uncontracted_report_bind_pure _ _)

theorem uncontracted_cauchyStep (g h : Tensor α) (radius : α) :
    (cauchyStep g h radius).Uncontracted := by
  refine (Outcome.uncontracted_liftM (Tensor.uncontracted_dot g g)).bind fun gg => ?_
  refine (Outcome.uncontracted_liftM (Tensor.uncontracted_matmul h g)).bind fun hg => ?_
  refine (Outcome.uncontracted_liftM (Tensor.uncontracted_dot g hg)).bind fun ghg => ?_
  exact uncontracted_clearNaN _ _

theorem uncontracted_modelChange (g h step : Tensor α) : Uncontracted (modelChange g h step) := by
  refine (Tensor.uncontracted_dot g step).bind fun slope => ?_
  refine (Tensor.uncontracted_matmul h step).bind fun image => ?_
  exact (Tensor.uncontracted_dot step image).bind fun _ => uncontracted_ok _

theorem uncontracted_unlessVanished (kind : StepKind) (step other : Tensor α) :
    (unlessVanished kind step other).Uncontracted := by
  refine (Outcome.uncontracted_liftM (Tensor.uncontracted_dot step step)).bind fun square => ?_
  exact Outcome.Uncontracted.ite _
    (Outcome.uncontracted_report_bind_pure _ _)
    (Outcome.uncontracted_pure _)

theorem uncontracted_lineOf (g h d : Tensor α) : Uncontracted (Line.of g h d) := by
  refine (Tensor.uncontracted_dot g g).bind fun gradientSquare => ?_
  refine (Tensor.uncontracted_dot g d).bind fun slope => ?_
  refine (Tensor.uncontracted_dot d d).bind fun directionSquare => ?_
  refine (Tensor.uncontracted_matmul h d).bind fun image => ?_
  exact (Tensor.uncontracted_dot d image).bind fun _ => uncontracted_ok _

theorem uncontracted_ofCrossSquare (tolerance first cross second : α)
    {crossSquare : Except Failure α} (h : Uncontracted crossSquare) :
    Uncontracted (Rotation.ofCrossSquare tolerance first cross second crossSquare) := by
  refine Uncontracted.ite _ (uncontracted_ok _) ?_
  refine (uncontracted_boundedSquare _).bind fun halfSquare => ?_
  exact h.bind fun _ => uncontracted_ok _

theorem uncontracted_planarStep (settings : Settings α) (g h v : Tensor α) (gg vv radius : α) :
    Uncontracted (planarStep settings g h v gg vv radius) := by
  refine (Tensor.uncontracted_matmul h v).bind fun hv => ?_
  refine (Tensor.uncontracted_matmul h g).bind fun hg => ?_
  refine (Tensor.uncontracted_dot g hg).bind fun ghg => ?_
  refine (Tensor.uncontracted_dot g hv).bind fun ghv => ?_
  refine (Tensor.uncontracted_dot v hv).bind fun vhv => ?_
  refine (uncontracted_divide vhv vv).bind fun vhv => ?_
  refine (uncontracted_ofCrossSquare _ _ _ _ (uncontracted_ok _)).bind fun turn => ?_
  refine (Tensor.uncontracted_zipWith _ _ _).bind fun first => ?_
  refine (Tensor.uncontracted_zipWith _ _ _).bind fun second => ?_
  exact (Tensor.uncontracted_zipWith _ _ _).bind fun _ => uncontracted_ok _

/-! ## The search -/

theorem uncontracted_searchPlane (settings : Settings α) (g h d cauchy : Tensor α) (radius : α) :
    (searchPlane settings g h d cauchy radius).Uncontracted := by
  refine (Outcome.uncontracted_liftM (uncontracted_lineOf g h d)).bind fun line => ?_
  refine Outcome.Uncontracted.ite _ ?_ ?_
  · refine (Outcome.uncontracted_liftM (uncontracted_modelChange g h cauchy)).bind fun change => ?_
    exact Outcome.uncontracted_report_bind_pure _ _
  · refine (Outcome.uncontracted_liftM (Tensor.uncontracted_zipWith _ d _)).bind fun v => ?_
    refine (Outcome.uncontracted_liftM (Tensor.uncontracted_dot v v)).bind fun vv => ?_
    refine (uncontracted_clearNaN _ _).bind fun scaled => ?_
    refine Outcome.Uncontracted.ite _ ?_ ?_
    · refine (Outcome.uncontracted_report _).bind fun _ => ?_
      exact (uncontracted_unlessVanished _ scaled cauchy).bind fun _ => Outcome.uncontracted_pure _
    · refine (Outcome.uncontracted_liftM
        (uncontracted_planarStep settings g h v _ vv radius)).bind fun planar => ?_
      refine (uncontracted_clearNaN _ planar.1).bind fun cleared => ?_
      exact (uncontracted_unlessVanished _ cleared cauchy).bind fun _ =>
        Outcome.uncontracted_pure _

theorem uncontracted_search (settings : Settings α) (g h : Tensor α) (radius : α) :
    (search settings g h radius).Uncontracted := by
  refine (uncontracted_cauchyStep g h radius).bind fun cauchy => ?_
  refine Outcome.Uncontracted.ite _ ?_ ?_
  · exact Outcome.uncontracted_report_bind_pure _ _
  · refine (Outcome.uncontracted_liftM (uncontracted_longestColumn h)).bind fun k => ?_
    refine (Outcome.uncontracted_liftM (Tensor.uncontracted_column k h)).bind fun column => ?_
    refine (Outcome.uncontracted_liftM
      (uncontracted_curvatureDirection settings.parallelTolerance h column)).bind fun found => ?_
    exact uncontracted_searchPlane settings g h found.direction cauchy radius

end Quadratic

end InterpolationGeometry
