import InterpolationGeometry.Proofs.Quadratic.Ball
import InterpolationGeometry.Proofs.Tensor.Rescaling

/-!
# Models in other units

A change of the units of length and value multiplies the gradient by one positive factor `a`, the
second derivatives by another `b`, lengths by `a / b` and values of the model by `a * (a / b)`.
Every quantity of the search has a unit that is made of these, and every comparison is one within a
unit.  So the search takes the same way in both units and comes to the same step.
-/

namespace InterpolationGeometry

namespace Quadratic

open Scalar Extended Tensor

variable {n : ℕ} {a b l q : ℝ}

/-! ## Turns and combinations -/

theorem agreeing_rescaled {p : ℝ} {slope slope' curvature curvature' length length' : Extended}
    (hslope : Rescaled p slope slope') (hcurvature : Rescaled q curvature curvature')
    (hlength : Rescaled l length length') :
    Rescaled l (agreeing slope curvature length) (agreeing slope' curvature' length') :=
  related_ite (hslope.mul hcurvature).lt_zero_iff hlength.neg hlength

/-- Two combinations whose coefficients are lengths, from slopes per radius and curvatures in the
unit of second derivatives. -/
structure RescaledCombination (l b : ℝ) (best best' : Combination Extended) : Prop where
  first : Rescaled l best.first best'.first
  second : Rescaled l best.second best'.second
  change : Rescaled (l * l * b) best.change best'.change
  branch : best'.branch = best.branch

theorem best_rescaled {slope slope' across across' shift shift' own own' other other' radius
    radius' : Extended} (hslope : Rescaled b slope slope') (hacross : Rescaled b across across')
    (hshift : Rescaled b shift shift') (hown : Rescaled b own own')
    (hother : Rescaled b other other') (hradius : Rescaled l radius radius') :
    RescaledCombination l b (Combination.best slope across shift own other radius)
      (Combination.best slope' across' shift' own' other' radius') := by
  have hfirst := hshift.add hother
  have hsecond := hown.sub hshift
  have hboth := hown.add hother
  have halong := hslope.abs.add (hfirst.abs.scale 0.5)
  have haside := hacross.abs.add (hsecond.abs.scale 0.5)
  have hbetween := ((hslope.abs.add hacross.abs).scale (Scalar.sqrt 0.5)).add
    (hboth.abs.scale 0.25)
  have hchange := (hradius.mul hradius).mul ((halong.larger haside).larger hbetween)
  have hzero := Rescaled.zero hradius.pos
  have hdiagonal := hradius.scale (Scalar.sqrt 0.5)
  refine related_ite (and_congr (haside.le_iff halong) (hbetween.le_iff halong)) ?_
    (related_ite (hbetween.le_iff haside) ?_ ?_)
  · exact ⟨agreeing_rescaled hslope hfirst hradius, hzero, hchange, rfl⟩
  · exact ⟨hzero, agreeing_rescaled hacross hsecond hradius, hchange, rfl⟩
  · exact ⟨agreeing_rescaled hslope hboth hdiagonal, agreeing_rescaled hacross hboth hdiagonal,
      hchange, rfl⟩

structure RescaledRotation (b : ℝ) (turn turn' : Rotation Extended) : Prop where
  shift : Rescaled b turn.shift turn'.shift
  cosine : Rescaled 1 turn.cosine turn'.cosine
  sine : Rescaled 1 turn.sine turn'.sine
  branch : turn'.branch = turn.branch

theorem ofCrossSquare_rescaled (tolerance : Extended) {first first' cross cross' second
    second' : Extended} (hfirst : Rescaled b first first') (hcross : Rescaled b cross cross')
    (hsecond : Rescaled b second second') :
    Alike (RescaledRotation b)
      (Rotation.ofCrossSquare tolerance first cross second (.ok (square cross)))
      (Rotation.ofCrossSquare tolerance first' cross' second' (.ok (square cross'))) := by
  have hb := hfirst.pos
  have hhalf := (hfirst.sub hsecond).scale 0.5
  have hroot := (hhalf.square.add hcross.square).sqrt hb
  have hshift := related_ite hhalf.lt_zero_iff (hhalf.sub hroot) (hhalf.add hroot)
  have hlength := (hshift.square.add hcross.square).sqrt hb
  have hone : b / b = 1 := div_self hb.ne'
  simp only [Rotation.ofCrossSquare, boundedSquare_eq, bind, Except.bind, pure, Except.pure]
  refine related_ite (hcross.abs.le_iff ((hfirst.abs.larger hsecond.abs).scale tolerance)) ?_ ?_
  · exact .ok ⟨hfirst.sub hsecond, .const 1, .const 0, rfl⟩
  · exact .ok ⟨hshift, (hshift.div hlength).cast hone, (hcross.div hlength).cast hone, rfl⟩

/-! ## The curvature direction -/

theorem eigenWeight_rescaled {first first' cross cross' second second' : Extended}
    (hfirst : Rescaled q first first') (hcross : Rescaled q cross cross')
    (hsecond : Rescaled q second second') :
    Rescaled q (eigenWeight first cross second).1 (eigenWeight first' cross' second').1 ∧
      (eigenWeight first' cross' second').2 = (eigenWeight first cross second).2 := by
  have hhalf := (hsecond.sub hfirst).scale 0.5
  have hroot := (hhalf.square.add hcross.square).sqrt hfirst.pos
  exact related_ite (R := fun x x' : Extended × CurvatureBranch => Rescaled q x.1 x'.1 ∧ x'.2 = x.2)
    (hsecond.add hfirst).lt_zero_iff ⟨hhalf.sub hroot, rfl⟩ ⟨hhalf.add hroot, rfl⟩

structure RescaledDirection (q : ℝ) (n : ℕ) (found found' : CurvatureDirection Extended) :
    Prop where
  direction : RescaledVector q n found.direction found'.direction
  branch : found'.branch = found.branch

section Direction

variable {h h' v v' : Tensor Extended} (hh : RescaledMatrix b n h h')
  (hv : RescaledVector b n v v')

include hh hv

/-- In the plane of a column and its image the direction is of degree seven in the second
derivatives. -/
theorem directionInPlane_rescaled {across across' : Tensor Extended} {vv vv' vhv vhv' : Extended}
    (hacross : RescaledVector (b * b) n across across') (hvv : Rescaled (b * b) vv vv')
    (hvhv : Rescaled (b * b * b) vhv vhv') :
    Alike (RescaledDirection (b ^ 7) n) (directionInPlane h v across vv vhv)
      (directionInPlane h' v' across' vv' vhv') := by
  have hb := hh.pos
  have hb₂ := mul_pos hb hb
  have hb₃ := mul_pos hb hb₂
  obtain ⟨H, H', rfl, rfl, hH⟩ := hh
  obtain ⟨f, f', rfl, rfl, hf⟩ := hv
  obtain ⟨w, w', rfl, rfl, hw⟩ := hacross
  rw [directionInPlane_vector, directionInPlane_vector]
  -- Across the column lengths are of degree two, so the ratio to the column is of degree one and
  -- all three entries of the form are of degree five.
  have hdd := Rescaled.sum (n := n) (mul_pos hb₂ hb₂) fun k => (hw k).mul (hw k)
  have himage := fun k => Rescaled.sum (n := n) hb₃ fun l => (hH k l).mul (hw l)
  have hdhd := Rescaled.sum (n := n) (mul_pos hb₂ hb₃) fun k => (hw k).mul (himage k)
  have hratio := ((hdd.div hvv).cast (mul_div_cancel_right₀ _ hb₂.ne')).sqrt hb
  have hcross := hratio.mul hdd
  have hfirst := ((hratio.mul hratio).mul hvhv).cast (by ring : _ = b * (b * b * (b * b)))
  obtain ⟨hweight, hbranch⟩ := eigenWeight_rescaled hfirst hcross (hdhd.cast (by ring))
  have halong : ∀ k, Rescaled (b ^ 7) _ _ := fun k =>
    (hcross.mul (hratio.mul (hf k))).cast (by ring)
  have haside : ∀ k, Rescaled (b ^ 7) _ _ := fun k => (hweight.mul (hw k)).cast (by ring)
  exact .ok ⟨rescaledVector_vector fun k => (halong k).add (haside k), hbranch⟩

/-- The direction has some degree in the second derivatives: two if it is the image of the column,
and seven otherwise. -/
theorem curvatureDirection_rescaled (parallelTolerance : Extended) :
    Alike (fun found found' => ∃ q, RescaledDirection q n found found')
      (curvatureDirection parallelTolerance h v) (curvatureDirection parallelTolerance h' v') := by
  have hb := hh.pos
  have hb₂ := mul_pos hb hb
  obtain ⟨H, H', rfl, rfl, hH⟩ := id hh
  obtain ⟨f, f', rfl, rfl, hf⟩ := id hv
  rw [curvatureDirection_matrix, curvatureDirection_matrix]
  have himage := fun k => Rescaled.sum (n := n) hb₂ fun l => (hH k l).mul (hf l)
  have hvv := Rescaled.sum (n := n) hb₂ fun k => (hf k).mul (hf k)
  have hvhv := (Rescaled.sum (n := n) (mul_pos hb hb₂) fun k => (hf k).mul (himage k)).cast
    (by ring : _ = b * b * b)
  have hww := Rescaled.sum (n := n) (mul_pos hb₂ hb₂) fun k => (himage k).mul (himage k)
  have hthreshold := ((hww.scale parallelTolerance).mul hvv).cast
    (by ring : _ = b * b * b * (b * b * b))
  refine related_ite ((hvhv.mul hvhv).le_iff hthreshold) ?_ ?_
  · have hacross : ∀ k, Rescaled (b * b) _ _ := fun k =>
      (himage k).sub (((hvhv.div hvv).mul (hf k)).cast (by field_simp))
    have hfound := directionInPlane_rescaled hh hv (rescaledVector_vector hacross) hvv hvhv
    exact hfound.mono fun found found' h => ⟨_, h⟩
  · exact .ok ⟨_, rescaledVector_vector himage, rfl⟩

end Direction

/-! ## Steps -/

theorem clearNaN_rescaled (kind : StepKind) {t t' : Tensor Extended}
    (ht : RescaledVector q n t t') :
    Outcome.Alike (RescaledVector q n) (clearNaN kind t) (clearNaN kind t') := by
  obtain ⟨f, f', rfl, rfl, hf⟩ := ht
  rw [Outcome.Alike, result_clearNaN, result_clearNaN]
  refine .ok (rescaledVector_vector fun k => ?_)
  exact related_ite (by rw [(hf k).isNaN_eq]) (.zero (hf k).pos) (hf k)

theorem unlessVanished_rescaled (kind : StepKind) {t t' u u' : Tensor Extended}
    (ht : RescaledVector q n t t') (hu : RescaledVector q n u u') :
    Outcome.Alike (RescaledVector q n) (unlessVanished kind t u) (unlessVanished kind t' u') := by
  refine Outcome.alike_liftM_bind (ht.dot ht) fun square square' hsquare => ?_
  refine related_ite (hsquare.le_iff (.zero hsquare.pos)) ?_ (Outcome.alike_pure ht)
  exact .report (Outcome.alike_pure hu)

def RescaledReal (q : ℝ) (x x' : Extended) : Prop :=
  ∃ r : ℝ, x = .finite r ∧ x' = .finite (q * r)

theorem rescaledReal_zero (q : ℝ) : RescaledReal q 0 0 :=
  ⟨0, rfl, by rw [mul_zero, zero_eq]⟩

theorem finiteOrZero_rescaled {x x' : Extended} (hx : Rescaled q x x') :
    RescaledReal q (finiteOrZero x) (finiteOrZero x') := by
  cases hx with
  | finite _ x => exact ⟨x, rfl, rfl⟩
  | infinite => exact rescaledReal_zero q
  | nan => exact rescaledReal_zero q

structure RescaledStep (l q : ℝ) (n : ℕ) (found found' : Step Extended) : Prop where
  step : RescaledVector l n found.step found'.step
  change : RescaledReal q found.change found'.change
  exit : found'.exit = found.exit

/-- Two models and two radii, the second ones in the other units. -/
structure RescaledModel (a b : ℝ) (n : ℕ) (g g' h h' : Tensor Extended)
    (radius radius' : Extended) : Prop where
  gradient : RescaledVector a n g g'
  hessian : RescaledMatrix b n h h'
  radius : Rescaled (a / b) radius radius'

section Model

variable {g g' h h' : Tensor Extended} {radius radius' : Extended}

section

variable (hmodel : RescaledModel a b n g g' h h' radius radius')

include hmodel

theorem cauchyStep_rescaled :
    Outcome.Alike (RescaledVector (a / b) n) (cauchyStep g h radius)
      (cauchyStep g' h' radius') := by
  obtain ⟨hg, hh, hradius⟩ := hmodel
  refine Outcome.alike_liftM_bind (hg.dot hg) fun gg gg' hgg => ?_
  refine Outcome.alike_liftM_bind (hh.matmul hg) fun _ _ himage => ?_
  refine Outcome.alike_liftM_bind (hg.dot himage) fun ghg ghg' hghg => ?_
  have ha := hg.pos
  have halong := (hg.scale (hradius.div (hgg.sqrt ha))).cast (div_mul_cancel₀ _ ha.ne')
  exact clearNaN_rescaled .cauchy (related_ite hghg.lt_zero_iff halong.neg halong)

theorem modelChange_rescaled {d d' : Tensor Extended} (hd : RescaledVector (a / b) n d d') :
    Alike (RescaledReal (a * (a / b))) (modelChange g h d) (modelChange g' h' d') := by
  obtain ⟨hg, hh, hradius⟩ := hmodel
  have hb := hh.pos
  refine (hg.dot hd).bind fun slope slope' hslope => ?_
  refine (hh.matmul hd).bind fun _ _ himage => ?_
  refine (hd.dot himage).bind fun curvature curvature' hcurvature => ?_
  have hhalf := (hcurvature.scale 0.5).cast (by field_simp : _ = a * (a / b))
  exact .ok (finiteOrZero_rescaled (hslope.add hhalf).abs)

theorem longestColumn_rescaled : Alike (· = ·) (longestColumn h) (longestColumn h') := by
  refine hmodel.hessian.sumSquares.bind fun lengths lengths' hlengths => ?_
  rw [hlengths.argmax?_eq]
  exact .refl (fun _ => rfl) _

theorem planarStep_rescaled (settings : Settings Extended) {v v' : Tensor Extended}
    {gg gg' vv vv' : Extended} (hv : RescaledVector q n v v') (hgg : Rescaled (a * a) gg gg')
    (hvv : Rescaled (q * q) vv vv') :
    Alike (fun found found' => RescaledVector (a / b) n found.1 found'.1 ∧
        Rescaled (a * (a / b)) found.2 found'.2)
      (planarStep settings g h v gg vv radius) (planarStep settings g' h' v' gg' vv' radius') := by
  obtain ⟨hg, hh, hradius⟩ := hmodel
  have ha := hg.pos
  have hb := hh.pos
  have hq := hv.pos
  have hgLength := hgg.sqrt ha
  have hvLength := hvv.sqrt hq
  refine (hh.matmul hv).bind fun _ _ hvImage => ?_
  refine (hh.matmul hg).bind fun _ _ hgImage => ?_
  refine (hg.dot hgImage).bind fun ghg ghg' hghg => ?_
  refine (hg.dot hvImage).bind fun vhg vhg' hvhg => ?_
  refine (hv.dot hvImage).bind fun vhv vhv' hvhv => ?_
  refine (hvhv.divide hvv).bind fun second second' hsecond => ?_
  -- Between vectors of length one the form has the unit of the second derivatives, and the slopes
  -- per radius have it too.
  have hfirst := (hghg.div hgg).cast (by field_simp : _ = b)
  have hcross := (hvhg.div (hvLength.mul hgLength)).cast (by field_simp : _ = b)
  replace hsecond := hsecond.cast (by field_simp : _ = b)
  refine (ofCrossSquare_rescaled _ hfirst hcross hsecond).bind fun turn turn' hturn => ?_
  obtain ⟨hshift, hcosine, hsine, -⟩ := hturn
  have hone : ∀ {p : ℝ}, 0 < p → 1 / p * p = 1 := fun hp => div_mul_cancel₀ 1 hp.ne'
  have hgCosine := (hg.scale (hcosine.div hgLength)).cast (hone ha)
  have hvSine := (hv.scale (hsine.div hvLength)).cast (hone hq)
  have hvCosine := (hv.scale (hcosine.div hvLength)).cast (hone hq)
  have hgSine := (hg.scale (hsine.div hgLength)).cast (hone ha)
  refine (hgCosine.add hvSine).bind fun along along' halong => ?_
  refine (hvCosine.sub hgSine).bind fun aside aside' haside => ?_
  have hslope := ((hcosine.mul hgLength).div hradius).cast (by field_simp : _ = b)
  have hslope' := ((hsine.neg.mul hgLength).div hradius).cast (by field_simp : _ = b)
  have hbest := best_rescaled hslope hslope' hshift hfirst hsecond hradius
  have hunit : a / b * 1 = a / b := mul_one _
  refine (((halong.scale hbest.first).cast hunit).add
    ((haside.scale hbest.second).cast hunit)).bind fun step step' hstep => ?_
  exact .ok ⟨hstep, hbest.change.cast (by field_simp)⟩

end

/-! ## The search -/

structure RescaledLine (a b q : ℝ) (line line' : Line Extended) : Prop where
  gradientSquare : Rescaled (a * a) line.gradientSquare line'.gradientSquare
  slope : Rescaled (a * q) line.slope line'.slope
  directionSquare : Rescaled (q * q) line.directionSquare line'.directionSquare
  curvature : Rescaled (q * (b * q)) line.curvature line'.curvature

theorem lineOf_rescaled (hg : RescaledVector a n g g') (hh : RescaledMatrix b n h h')
    {d d' : Tensor Extended} (hd : RescaledVector q n d d') :
    Alike (RescaledLine a b q) (Line.of g h d) (Line.of g' h' d') := by
  refine (hg.dot hg).bind fun gg gg' hgg => ?_
  refine (hg.dot hd).bind fun slope slope' hslope => ?_
  refine (hd.dot hd).bind fun dd dd' hdd => ?_
  refine (hh.matmul hd).bind fun _ _ himage => ?_
  refine (hd.dot himage).bind fun curvature curvature' hcurvature => ?_
  exact .ok ⟨hgg, hslope, hdd, hcurvature⟩

section Line

variable {line line' : Line Extended} (hline : RescaledLine a b q line line') (ha : 0 < a)
  (hb : 0 < b) (hq : 0 < q) (hradius : Rescaled (a / b) radius radius')

include hline

theorem RescaledLine.spansPlane_eq : line'.spansPlane = line.spansPlane := by
  rw [Line.spansPlane, Line.spansPlane, decide_eq_decide.2 hline.gradientSquare.zero_lt_iff,
    decide_eq_decide.2 hline.directionSquare.zero_lt_iff]

include hq hradius

theorem RescaledLine.scaling :
    Rescaled (a / b / q) (line.scaling radius) (line'.scaling radius') := by
  have hlength := hline.directionSquare.sqrt hq
  exact related_ite (hline.slope.mul hline.curvature).lt_zero_iff (hradius.neg.div hlength)
    (hradius.div hlength)

include ha hb

theorem RescaledLine.change :
    RescaledReal (a * (a / b)) (line.change (line.scaling radius))
      (line'.change (line'.scaling radius')) := by
  have hscaling := hline.scaling hq hradius
  have hcurvature := ((hscaling.scale 0.5).mul hline.curvature).cast (by field_simp : _ = a * q)
  have hchange := (hscaling.mul (hline.slope.add hcurvature)).cast
    (by field_simp : _ = a * (a / b))
  exact finiteOrZero_rescaled hchange.abs

theorem RescaledLine.isWide_eq (settings : Settings Extended) {vv vv' : Extended}
    (hvv : Rescaled (q * q) vv vv') :
    line'.isWide settings radius' vv' = line.isWide settings radius vv := by
  have hslope := (hline.gradientSquare.sqrt ha).mul hline.directionSquare
  have hcurvature := ((hradius.scale settings.curvatureRatioTolerance).mul
    hline.curvature.abs).cast (by field_simp : _ = a * (q * q))
  have hpart := hline.directionSquare.scale settings.orthogonalityTolerance
  rw [Line.isWide, Line.isWide, decide_eq_decide.2 (hcurvature.lt_iff hslope),
    decide_eq_decide.2 (hpart.lt_iff hvv)]

end Line

variable (hmodel : RescaledModel a b n g g' h h' radius radius')

include hmodel

theorem searchPlane_rescaled (settings : Settings Extended) {d d' cauchy cauchy' : Tensor Extended}
    (hd : RescaledVector q n d d') (hcauchy : RescaledVector (a / b) n cauchy cauchy') :
    Outcome.Alike (RescaledStep (a / b) (a * (a / b)) n)
      (searchPlane settings g h d cauchy radius)
      (searchPlane settings g' h' d' cauchy' radius') := by
  obtain ⟨hg, hh, hradius⟩ := id hmodel
  have ha := hg.pos
  have hb := hh.pos
  have hq := hd.pos
  -- The direction has a unit of its own, which goes out when it is scaled to the radius.
  refine Outcome.alike_liftM_bind (lineOf_rescaled hg hh hd) fun line line' hline => ?_
  refine related_ite (by rw [hline.spansPlane_eq]) ?_ ?_
  · refine Outcome.alike_liftM_bind (modelChange_rescaled hmodel hcauchy)
      fun change change' hchange => ?_
    exact .report (Outcome.alike_pure ⟨hcauchy, hchange, rfl⟩)
  have hslope := (hg.scale (hline.slope.div hline.gradientSquare)).cast
    (by field_simp : _ = q)
  refine Outcome.alike_liftM_bind (hd.sub hslope) fun v v' hv => ?_
  refine Outcome.alike_liftM_bind (hv.dot hv) fun vv vv' hvv => ?_
  have hscaled := (hd.scale (hline.scaling hq hradius)).cast (div_mul_cancel₀ _ hq.ne')
  refine (clearNaN_rescaled .scaled hscaled).bind fun scaled scaled' hscaled => ?_
  refine related_ite (by rw [hline.isWide_eq ha hb hq hradius settings hvv]) ?_ ?_
  · have hreplaced := unlessVanished_rescaled .scaled hscaled hcauchy
    refine .report (hreplaced.bind fun step step' hstep => ?_)
    exact Outcome.alike_pure ⟨hstep, hline.change ha hb hq hradius, rfl⟩
  have hplane := planarStep_rescaled hmodel settings hv hline.gradientSquare hvv
  refine Outcome.alike_liftM_bind hplane fun found found' hfound => ?_
  refine (clearNaN_rescaled .planar hfound.1).bind fun planar planar' hplanar => ?_
  refine (unlessVanished_rescaled .planar hplanar hcauchy).bind fun step step' hstep => ?_
  exact Outcome.alike_pure ⟨hstep, finiteOrZero_rescaled hfound.2, rfl⟩

/-- The search takes the same way in both units. -/
theorem search_rescaled (settings : Settings Extended) :
    Outcome.Alike (RescaledStep (a / b) (a * (a / b)) n) (search settings g h radius)
      (search settings g' h' radius') := by
  refine (cauchyStep_rescaled hmodel).bind fun cauchy cauchy' hcauchy => ?_
  refine related_ite ?_ ?_ ?_
  · rw [hmodel.gradient.isFinite_eq, hmodel.hessian.isFinite_eq]
  · exact .report (Outcome.alike_pure ⟨hcauchy, rescaledReal_zero _, rfl⟩)
  refine Outcome.alike_liftM_bind (longestColumn_rescaled hmodel) fun k k' hk => ?_
  subst hk
  refine Outcome.alike_liftM_bind (hmodel.hessian.column k) fun column column' hcolumn => ?_
  have hextremal := curvatureDirection_rescaled hmodel.hessian hcolumn settings.parallelTolerance
  refine Outcome.alike_liftM_bind hextremal fun found found' hfound => ?_
  obtain ⟨q, hdirection, -⟩ := hfound
  exact searchPlane_rescaled hmodel settings hdirection hcauchy

end Model

/-! ## The step -/

section Step

open Matrix

theorem rescaledModel_finite {a s : ℝ} (ha : 0 < a) (hs : 0 < s) (g : Fin n → ℝ)
    (H : Matrix (Fin n) (Fin n) ℝ) (radius : ℝ) :
    RescaledModel (a * s) (a * s ^ 2) n (.finiteVector g) (.finiteVector ((a * s) • g))
      (.finiteMatrix H) (.finiteMatrix ((a * s ^ 2) • H)) (.finite radius)
      (.finite (radius / s)) := by
  have hgradient := mul_pos ha hs
  have hhessian := mul_pos ha (pow_pos hs 2)
  have hlength : radius / s = a * s / (a * s ^ 2) * radius := by field_simp
  rw [hlength]
  exact ⟨rescaledVector_finiteVector hgradient g, rescaledMatrix_finiteMatrix hhessian H,
    .finite (div_pos hgradient hhessian) radius⟩

theorem geometryStep_unchecked {settings : Settings Extended} (hchecked : settings.checked = false)
    (g : Fin n → ℝ) (H : Matrix (Fin n) (Fin n) ℝ) (radius : Extended) :
    geometryStep settings (.finiteVector g) (.finiteMatrix H) radius =
      search settings (.finiteVector g) (.finiteMatrix H) radius := by
  rw [Tensor.finiteVector, Tensor.finiteMatrix, geometryStep_vector, hchecked, guarded_false]

/-- Without checking, a finite model has a step in all units.  When values are multiplied by `a` and
lengths divided by `s`, the step is divided by `s`, its change of the model is multiplied by `a`,
and the search ends the same way. -/
theorem geometryStep_covariant (hn : 1 ≤ n) {settings : Settings Extended}
    (hchecked : settings.checked = false) (horthogonality : 0 ≤ settings.orthogonalityTolerance)
    (g : Fin n → ℝ) (H : Matrix (Fin n) (Fin n) ℝ) {radius a s : ℝ} (hradius : 0 < radius)
    (ha : 0 < a) (hs : 0 < s) :
    ∃ (d : Fin n → ℝ) (change : ℝ) (exit : Exit),
      (geometryStep settings (.finiteVector g) (.finiteMatrix H) (.finite radius)).result =
        .ok { step := .finiteVector d, change := .finite change, exit := exit } ∧
      (geometryStep settings (.finiteVector ((a * s) • g)) (.finiteMatrix ((a * s ^ 2) • H))
          (.finite (radius / s))).result =
        .ok { step := .finiteVector (s⁻¹ • d), change := .finite (a * change), exit := exit } := by
  have halike := search_rescaled (rescaledModel_finite ha hs g H radius) settings
  obtain ⟨found, hfound, hball⟩ := search_inBall hn settings horthogonality hradius
    (fun k => .finite (continued g k)) fun i k => .finite (cell H i k)
  obtain ⟨found', hfound', hrescaled⟩ := halike.exists_of_ok hfound
  obtain ⟨d, hstep, -⟩ := hball.exists_finiteVector hradius
  obtain ⟨hstep', ⟨change, hchange, hchange'⟩, hexit⟩ := hrescaled
  have hlength : a * s / (a * s ^ 2) = s⁻¹ := by field_simp
  have hvalue : a * s * (a * s / (a * s ^ 2)) = a := by field_simp
  rw [hstep, hlength] at hstep'
  rw [hvalue] at hchange'
  refine ⟨d, change, found.exit, ?_, ?_⟩
  · rw [geometryStep_unchecked hchecked, ← hstep, ← hchange]
    exact hfound
  · rw [geometryStep_unchecked hchecked, ← hstep'.eq_finiteVector, ← hchange', ← hexit]
    exact hfound'

/-- Twice the values and a third of the lengths. -/
theorem geometryStep_covariant_thirds :
    (Settings.standard : Settings Extended).checked = false ∧
    0 ≤ (Settings.standard : Settings Extended).orthogonalityTolerance ∧
    ∃ (d : Fin 2 → ℝ) (change : ℝ) (exit : Exit),
      (geometryStep .standard (.finiteVector ![3, 4]) (.finiteMatrix !![2, 1; 1, 0])
          (.finite 5)).result =
        .ok { step := .finiteVector d, change := .finite change, exit := exit } ∧
      (geometryStep .standard (.finiteVector ![18, 24]) (.finiteMatrix !![36, 18; 18, 0])
          (.finite (5 / 3))).result =
        .ok { step := .finiteVector ((3 : ℝ)⁻¹ • d), change := .finite (2 * change),
              exit := exit } := by
  have horthogonality : 0 ≤ (Settings.standard : Settings Extended).orthogonalityTolerance :=
    finite_le_finite.2 (by norm_num)
  obtain ⟨d, change, exit, hstep, hstep'⟩ := geometryStep_covariant one_le_two
    (rfl : (Settings.standard : Settings Extended).checked = false) horthogonality ![3, 4]
    !![2, 1; 1, 0] (by norm_num : (0 : ℝ) < 5) two_pos three_pos
  have hgradient : ((2 : ℝ) * 3) • ![(3 : ℝ), 4] = ![18, 24] := by
    norm_num [smul_cons]
  have hhessian : ((2 : ℝ) * 3 ^ 2) • !![(2 : ℝ), 1; 1, 0] = !![36, 18; 18, 0] := by
    norm_num [smul_of, smul_cons]
  rw [hgradient, hhessian] at hstep'
  exact ⟨rfl, horthogonality, d, change, exit, hstep, hstep'⟩

end Step

end Quadratic

end InterpolationGeometry
