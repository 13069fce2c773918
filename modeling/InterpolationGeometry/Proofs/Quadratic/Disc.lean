import InterpolationGeometry.Proofs.Quadratic.Credit

/-!
# Three values bound a disc

Without a cross term, the values of a model along either axis and along a diagonal bound its value
at every point of the disc, up to a factor of 1.15.  On each octant of the circle the value is at
most a sum of the three bounds with weights that depend on the point alone: the weights of an
optimal dual solution of the linear program that the slopes and curvatures are the variables of.
With curvatures of opposite signs the diagonal bounds their difference only, which is where the
factor comes from; elsewhere 1.125 would do.
-/

namespace InterpolationGeometry

namespace Quadratic

/-- Slopes and half curvatures, without their signs, whose three candidate values are bounded.
Curvatures of one sign add up along the diagonal, curvatures of opposite signs do not. -/
structure Candidates (slope slope' bend bend' sense bound : ℝ) : Prop where
  slope_nonneg : 0 ≤ slope
  slope'_nonneg : 0 ≤ slope'
  bend_nonneg : 0 ≤ bend
  bend'_nonneg : 0 ≤ bend'
  along_le : slope + bend ≤ bound
  across_le : slope' + bend' ≤ bound
  between_le : √0.5 * (slope + slope') + 0.5 * (bend + sense * bend') ≤ bound

theorem sqrt_half_bounds : 0.7071 ≤ √(0.5 : ℝ) ∧ √(0.5 : ℝ) ≤ 0.7072 :=
  ⟨Real.le_sqrt_of_sq_le (by norm_num), Real.sqrt_le_iff.2 (by norm_num)⟩

namespace Candidates

variable {a b p q sense bound x y : ℝ}

theorem swap (h : Candidates a b p q 1 bound) : Candidates b a q p 1 bound where
  slope_nonneg := h.slope'_nonneg
  slope'_nonneg := h.slope_nonneg
  bend_nonneg := h.bend'_nonneg
  bend'_nonneg := h.bend_nonneg
  along_le := h.across_le
  across_le := h.along_le
  between_le := by linarith [h.between_le]

theorem weighted_le (h : Candidates a b p q sense bound) {u v l m k : ℝ} (hl : 0 ≤ l)
    (hm : 0 ≤ m) (hk : 0 ≤ k) (hx : x ≤ l + √0.5 * k) (hy : y ≤ m + √0.5 * k)
    (hu : u ≤ l + 0.5 * k) (hv : v ≤ m + 0.5 * (sense * k)) (htotal : l + m + k ≤ 1.15) :
    x * a + y * b + u * p + v * q ≤ 1.15 * bound := by
  obtain ⟨ha, hb, hp, hq, halong, hacross, hbetween⟩ := h
  calc x * a + y * b + u * p + v * q
      ≤ (l + √0.5 * k) * a + (m + √0.5 * k) * b + (l + 0.5 * k) * p +
          (m + 0.5 * (sense * k)) * q := by gcongr
    _ = l * (a + p) + m * (b + q) + k * (√0.5 * (a + b) + 0.5 * (p + sense * q)) := by ring
    _ ≤ l * bound + m * bound + k * bound := by gcongr
    _ = (l + m + k) * bound := by ring
    _ ≤ 1.15 * bound :=
        mul_le_mul_of_nonneg_right htotal ((add_nonneg ha hp).trans halong)

end Candidates

section Circle

variable {x y : ℝ} (hx : 0 ≤ x) (hy : 0 ≤ y) (hcircle : x ^ 2 + y ^ 2 = 1)

include hcircle

private theorem add_mul_le : x + (2 * √0.5 - 1) * y ≤ 1.15 := by
  obtain ⟨hlow, hhigh⟩ := sqrt_half_bounds
  have hslope : (2 * √(0.5 : ℝ) - 1) ^ 2 ≤ 0.3 := by nlinarith
  nlinarith [sq_nonneg (x - 1), sq_nonneg (y - (2 * √0.5 - 1))]

include hy

private theorem le_sqrt_half (hyx : y ≤ x) : y ≤ √0.5 := by
  apply Real.le_sqrt_of_sq_le
  nlinarith

include hx

private theorem sqrt_half_le (hyx : y ≤ x) : √0.5 ≤ x := by
  apply Real.sqrt_le_iff.2
  constructor
  · exact hx
  · nlinarith

/-- The sum of the coordinates is greatest on the diagonal, which bounds their product. -/
private theorem mul_le_mul_one_add : x * y ≤ (3 - 4 * √0.5) * ((1 + x) * (1 + y)) := by
  have hhalf := sqrt_half_sq
  obtain ⟨hlow, hhigh⟩ := sqrt_half_bounds
  have hsum : x + y ≤ 2 * √0.5 := by
    have hsq : (x + y) ^ 2 ≤ (2 * √0.5) ^ 2 := by nlinarith [sq_nonneg (x - y)]
    exact le_of_sq_le_sq hsq (mul_nonneg zero_le_two (Real.sqrt_nonneg _))
  have hgap : 0 ≤ (4 - 4 * √0.5) - (4 * √0.5 - 2) * (x + y) := by
    nlinarith [mul_le_mul_of_nonneg_left hsum (by linarith : 0 ≤ 4 * √(0.5 : ℝ) - 2)]
  nlinarith [mul_nonneg (add_nonneg (add_nonneg hx hy) zero_le_one) hgap]

end Circle

namespace Candidates

variable {a b p q bound x y : ℝ}

/-- Curvatures of one sign, in the octant of the first axis. -/
theorem agreeing_le_of_le (h : Candidates a b p q 1 bound) (hy : 0 ≤ y)
    (hcircle : x ^ 2 + y ^ 2 = 1) (hyx : y ≤ x) :
    x * a + y * b + x ^ 2 * p + y ^ 2 * q ≤ 1.15 * bound := by
  have hyr := le_sqrt_half hy hcircle hyx
  have hroot := Real.sqrt_nonneg (0.5 : ℝ)
  have hdiagonal : √0.5 * (2 * √0.5 * y) = y := by linear_combination 2 * y * sqrt_half_sq
  have hsq : y ^ 2 ≤ √0.5 * y := by nlinarith
  have hk : 0 ≤ 2 * √0.5 * y := by positivity
  -- The diagonal has the weight that the second slope asks for, the first axis what is left over.
  rcases le_total (x - y) (x ^ 2 - √0.5 * y) with hle | hle
  · have hl : 0 ≤ x ^ 2 - √0.5 * y := (sub_nonneg.2 hyx).trans hle
    have htotal : x ^ 2 - √0.5 * y + 0 + 2 * √0.5 * y ≤ 1.15 := by
      nlinarith [sq_nonneg (y - √0.5 / 2), sqrt_half_sq]
    refine h.weighted_le hl le_rfl hk ?_ ?_ ?_ ?_ htotal <;> linarith
  · have htotal : x - y + 0 + 2 * √0.5 * y ≤ 1.15 := by
      linarith [add_mul_le hcircle]
    refine h.weighted_le (sub_nonneg.2 hyx) le_rfl hk ?_ ?_ ?_ ?_ htotal <;> linarith

/-- Curvatures of opposite signs, in the octant of the axis whose curvature prevails. -/
theorem opposing_le_of_le (h : Candidates a b p q (-1) bound) (hx : 0 ≤ x) (hy : 0 ≤ y)
    (hcircle : x ^ 2 + y ^ 2 = 1) (hyx : y ≤ x) :
    x * a + y * b + x ^ 2 * p + -y ^ 2 * q ≤ 1.15 * bound := by
  have hhalf := sqrt_half_sq
  have hyr := le_sqrt_half hy hcircle hyx
  obtain ⟨hlow, hhigh⟩ := sqrt_half_bounds
  -- Three weights, chosen such that the second slope and both curvatures are met exactly.
  have hm : 0 ≤ (2 * √0.5 - 1) * (y + y ^ 2) - y ^ 2 := by
    have hgap : 0 ≤ (2 * √0.5 - 1) - (2 - 2 * √0.5) * y := by nlinarith
    calc 0 ≤ y * ((2 * √0.5 - 1) - (2 - 2 * √0.5) * y) := mul_nonneg hy hgap
      _ = (2 * √0.5 - 1) * (y + y ^ 2) - y ^ 2 := by ring
  have hl : 0 ≤ x ^ 2 - (2 * √0.5 - 1) * (y + y ^ 2) := by
    have hsq : y ^ 2 ≤ 0.5 := by nlinarith
    have hle : y + y ^ 2 ≤ √0.5 + 0.5 := add_le_add hyr hsq
    have hweight := mul_le_mul_of_nonneg_left hle (by linarith : 0 ≤ 2 * √(0.5 : ℝ) - 1)
    nlinarith
  have hk : 0 ≤ 2 * (2 * √0.5 - 1) * (y + y ^ 2) :=
    mul_nonneg (by linarith) (add_nonneg hy (sq_nonneg y))
  have hslope : x ≤ x ^ 2 - (2 * √0.5 - 1) * (y + y ^ 2) +
      √0.5 * (2 * (2 * √0.5 - 1) * (y + y ^ 2)) := by
    have hproduct := mul_nonneg hy (sub_nonneg.2 (mul_le_mul_one_add hx hy hcircle))
    refine le_of_mul_le_mul_left ?_ (by linarith : 0 < 1 + x)
    calc (1 + x) * x
        ≤ (1 + x) * x + y * ((3 - 4 * √0.5) * ((1 + x) * (1 + y)) - x * y) :=
          le_add_of_nonneg_right hproduct
      _ = (1 + x) * (x ^ 2 - (2 * √0.5 - 1) * (y + y ^ 2) +
            √0.5 * (2 * (2 * √0.5 - 1) * (y + y ^ 2))) := by
          linear_combination -4 * (1 + x) * (y + y ^ 2) * hhalf - x * hcircle
  have hslope' : y ≤ (2 * √0.5 - 1) * (y + y ^ 2) - y ^ 2 +
      √0.5 * (2 * (2 * √0.5 - 1) * (y + y ^ 2)) := by
    refine le_of_eq ?_
    linear_combination -4 * (y + y ^ 2) * hhalf
  have htotal : x ^ 2 - (2 * √0.5 - 1) * (y + y ^ 2) + ((2 * √0.5 - 1) * (y + y ^ 2) - y ^ 2) +
      2 * (2 * √0.5 - 1) * (y + y ^ 2) ≤ 1.15 := by
    nlinarith [sq_nonneg (y - 0.354)]
  refine h.weighted_le hl hm hk hslope hslope' ?_ ?_ htotal
  · linarith
  · linarith

/-- Curvatures of opposite signs, in the octant of the other axis. -/
theorem opposing_le_of_ge (h : Candidates a b p q (-1) bound) (hx : 0 ≤ x) (hy : 0 ≤ y)
    (hcircle : x ^ 2 + y ^ 2 = 1) (hxy : x ≤ y) :
    x * a + y * b + x ^ 2 * p + -y ^ 2 * q ≤ 1.15 * bound := by
  have hcircle' : y ^ 2 + x ^ 2 = 1 := by linarith
  have hxr := le_sqrt_half hx hcircle' hxy
  have hry := sqrt_half_le hy hx hcircle' hxy
  have hroot := Real.sqrt_nonneg (0.5 : ℝ)
  have hdiagonal : √0.5 * (2 * √0.5 * x) = x := by linear_combination 2 * x * sqrt_half_sq
  have hsq : x ^ 2 ≤ √0.5 * x := by nlinarith
  have hsq' : √0.5 * x ≤ y ^ 2 := by nlinarith
  have hk : 0 ≤ 2 * √0.5 * x := by positivity
  have htotal : 0 + (y - x) + 2 * √0.5 * x ≤ 1.15 := by
    linarith [add_mul_le hcircle']
  refine h.weighted_le le_rfl (sub_nonneg.2 hxy) hk ?_ ?_ ?_ ?_ htotal <;> linarith

/-- The value increases with the first coordinate, so that a bound on the circle is one on the
disc. -/
theorem le_of_circle (h : Candidates a b p q sense bound) {w t : ℝ} (hx : 0 ≤ x)
    (hdisc : x ^ 2 + y ^ 2 ≤ 1)
    (hcircle : ∀ x', 0 ≤ x' → x' ^ 2 + y ^ 2 = 1 → x' * a + y * b + x' ^ 2 * p + w ≤ t) :
    x * a + y * b + x ^ 2 * p + w ≤ t := by
  have hsq : √(1 - y ^ 2) ^ 2 = 1 - y ^ 2 := Real.sq_sqrt (by linarith [sq_nonneg x])
  have hle : x ≤ √(1 - y ^ 2) := Real.le_sqrt_of_sq_le (by linarith)
  calc x * a + y * b + x ^ 2 * p + w
      ≤ √(1 - y ^ 2) * a + y * b + √(1 - y ^ 2) ^ 2 * p + w := by
        have ha := h.slope_nonneg
        have hp := h.bend_nonneg
        gcongr
    _ ≤ t := hcircle _ (Real.sqrt_nonneg _) (by linarith)

theorem agreeing_le (h : Candidates a b p q 1 bound) (hx : 0 ≤ x) (hy : 0 ≤ y)
    (hdisc : x ^ 2 + y ^ 2 ≤ 1) : x * a + y * b + x ^ 2 * p + y ^ 2 * q ≤ 1.15 * bound := by
  refine h.le_of_circle hx hdisc fun x' hx' hcircle => ?_
  rcases le_total y x' with hle | hle
  · exact h.agreeing_le_of_le hy hcircle hle
  · linarith [h.swap.agreeing_le_of_le hx' (by linarith) hle]

theorem opposing_le (h : Candidates a b p q (-1) bound) (hx : 0 ≤ x) (hy : 0 ≤ y)
    (hdisc : x ^ 2 + y ^ 2 ≤ 1) : x * a + y * b + x ^ 2 * p + -y ^ 2 * q ≤ 1.15 * bound := by
  refine h.le_of_circle hx hdisc fun x' hx' hcircle => ?_
  rcases le_total y x' with hle | hle
  · exact h.opposing_le_of_le hx' hy hcircle hle
  · exact h.opposing_le_of_ge hx' hy hcircle hle

end Candidates

section Disc

variable {slope slope' curvature curvature' bound : ℝ}

theorem candidates_of_mul_nonneg (hsign : 0 ≤ curvature * curvature')
    (halong : |slope| + 0.5 * |curvature| ≤ bound) (hacross : |slope'| + 0.5 * |curvature'| ≤ bound)
    (hbetween : √0.5 * (|slope| + |slope'|) + 0.25 * |curvature + curvature'| ≤ bound) :
    Candidates |slope| |slope'| (0.5 * |curvature|) (0.5 * |curvature'|) 1 bound where
  slope_nonneg := abs_nonneg _
  slope'_nonneg := abs_nonneg _
  bend_nonneg := by positivity
  bend'_nonneg := by positivity
  along_le := halong
  across_le := hacross
  between_le := by
    rw [abs_add_of_mul_nonneg hsign] at hbetween
    linarith

/-- Curvatures of any signs differ by at most the size of their sum. -/
theorem candidates_opposing (halong : |slope| + 0.5 * |curvature| ≤ bound)
    (hacross : |slope'| + 0.5 * |curvature'| ≤ bound)
    (hbetween : √0.5 * (|slope| + |slope'|) + 0.25 * |curvature + curvature'| ≤ bound) :
    Candidates |slope| |slope'| (0.5 * |curvature|) (0.5 * |curvature'|) (-1) bound where
  slope_nonneg := abs_nonneg _
  slope'_nonneg := abs_nonneg _
  bend_nonneg := by positivity
  bend'_nonneg := by positivity
  along_le := halong
  across_le := hacross
  between_le := by
    have hdiff : |curvature| - |curvature'| ≤ |curvature + curvature'| := by
      simpa using abs_sub_abs_le_abs_sub curvature (-curvature')
    linarith

/-- The value of a model anywhere in the disc, against its values along the axes and a diagonal. -/
theorem abs_disc_value_le {x y : ℝ} (hdisc : x ^ 2 + y ^ 2 ≤ 1)
    (halong : |slope| + 0.5 * |curvature| ≤ bound) (hacross : |slope'| + 0.5 * |curvature'| ≤ bound)
    (hbetween : √0.5 * (|slope| + |slope'|) + 0.25 * |curvature + curvature'| ≤ bound) :
    |x * slope + y * slope' + 0.5 * (x ^ 2 * curvature + y ^ 2 * curvature')| ≤ 1.15 * bound := by
  have hdisc' : |x| ^ 2 + |y| ^ 2 ≤ 1 := by rwa [sq_abs, sq_abs]
  have htriangle : |x * slope + y * slope' + 0.5 * (x ^ 2 * curvature + y ^ 2 * curvature')| ≤
      |x| * |slope| + |y| * |slope'| + 0.5 * |x ^ 2 * curvature + y ^ 2 * curvature'| := by
    calc |x * slope + y * slope' + 0.5 * (x ^ 2 * curvature + y ^ 2 * curvature')|
        ≤ |x * slope| + |y * slope'| + |0.5 * (x ^ 2 * curvature + y ^ 2 * curvature')| :=
          abs_add_three _ _ _
      _ = _ := by
          rw [abs_mul x, abs_mul y, abs_mul 0.5, abs_of_nonneg (by norm_num : (0 : ℝ) ≤ 0.5)]
  refine htriangle.trans ?_
  by_cases hsign : 0 ≤ curvature * curvature'
  · have hbend : |x ^ 2 * curvature + y ^ 2 * curvature'| ≤
        x ^ 2 * |curvature| + y ^ 2 * |curvature'| := by
      refine (abs_add_le _ _).trans_eq ?_
      rw [abs_mul, abs_mul, abs_of_nonneg (sq_nonneg x), abs_of_nonneg (sq_nonneg y)]
    have hle := (candidates_of_mul_nonneg hsign halong hacross hbetween).agreeing_le
      (abs_nonneg x) (abs_nonneg y) hdisc'
    rw [sq_abs, sq_abs] at hle
    linarith
  · have hbend : |x ^ 2 * curvature + y ^ 2 * curvature'| =
        |(x ^ 2 * |curvature| - y ^ 2 * |curvature'|)| := by
      rcases mul_neg_iff.1 (not_le.1 hsign) with ⟨hpos, hneg⟩ | ⟨hneg, hpos⟩
      · rw [abs_of_pos hpos, abs_of_neg hneg]
        congr 1
        ring
      · rw [abs_of_neg hneg, abs_of_pos hpos, ← abs_neg]
        congr 1
        ring
    rw [hbend]
    -- Whichever curvature prevails is taken as the first.
    rcases le_total 0 (x ^ 2 * |curvature| - y ^ 2 * |curvature'|) with hsense | hsense
    · have hle := (candidates_opposing halong hacross hbetween).opposing_le (abs_nonneg x)
        (abs_nonneg y) hdisc'
      rw [sq_abs, sq_abs] at hle
      rw [abs_of_nonneg hsense]
      linarith
    · have hbetween' : √0.5 * (|slope'| + |slope|) + 0.25 * |curvature' + curvature| ≤ bound := by
        rwa [add_comm |slope'|, add_comm curvature']
      have hle := (candidates_opposing hacross halong hbetween').opposing_le (abs_nonneg y)
        (abs_nonneg x) (by linarith)
      rw [sq_abs, sq_abs] at hle
      rw [abs_of_nonpos hsense]
      linarith

end Disc

end Quadratic

end InterpolationGeometry
