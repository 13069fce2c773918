import InterpolationGeometry.Proofs.Returns
import InterpolationGeometry.Proofs.Simplex.Degeneration
import InterpolationGeometry.Proofs.Simplex.Faces

/-!
# What the thresholds keep

In exact arithmetic the vertex that the thresholds choose for a new point has a coordinate, so that
the edges stay independent.  A far vertex is chosen only if the new point is at least as high over
its face as the threshold or as the vertex itself.  The largest coordinate is chosen for a point
that is no better only if it exceeds one, which raises the vertex.  So only for a better point can
the simplex become flatter than the lower of the two heights, and then it is the largest coordinate
that decides.  There is no choice exactly when the point is no better, no coordinate exceeds one and
no far vertex keeps such a height.
-/

namespace InterpolationGeometry

namespace Simplex

open Scalar Matrix

/-! ## The choice -/

section Choice

variable {improved : Bool} {n j : ℕ} {minHeight farLength : ℝ} {lengths heights c : ℕ → ℝ}

/-- A vertex is replaceable when it is far and not brought below the lower of the threshold and its
height. -/
theorem isReplaceable_iff :
    isReplaceable minHeight farLength lengths heights c j = true ↔
      farLength < lengths j ∧ min minHeight (heights j) ≤ |c j| * heights j := by
  simp only [isReplaceable, abs_real, Bool.and_eq_true, Bool.or_eq_true, decide_eq_true_eq,
    min_le_iff]

/-- The largest coordinate is chosen for a better point, otherwise only if it exceeds one. -/
theorem largest_of_coordinateVertex (h : coordinateVertex improved n c = some j) :
    (∀ k, k < n → |c k| ≤ |c j|) ∧ (improved = false → 1 < |c j|) := by
  unfold coordinateVertex at h
  split at h
  · rename_i hcause
    have hle : ∀ k, k < n → |c k| ≤ |c j| := fun k hk =>
      Selection.le_of_greatest h hk (isNaN_real _) rfl
    refine ⟨hle, fun himproved => ?_⟩
    rcases hcause with ⟨k, hk, hlarge⟩ | ⟨hbetter, -⟩
    · exact lt_of_lt_of_le hlarge (hle k hk)
    · rw [himproved] at hbetter
      contradiction
  · contradiction

theorem coordinateVertex_eq_none_iff_of_pos (hn : 0 < n) :
    coordinateVertex improved n c = none ↔ improved = false ∧ ∀ k, k < n → |c k| ≤ 1 := by
  constructor
  · intro h
    cases improved with
    | true =>
        have hnan := coordinateVertex_eq_none_iff.1 h 0 hn
        simp at hnan
    | false =>
        refine ⟨rfl, fun k hk => not_lt.1 fun hlarge => ?_⟩
        rw [coordinateVertex, if_pos (Or.inl ⟨k, hk, hlarge⟩), Selection.greatest_eq_none_iff] at h
        have hnan := h k hk rfl
        simp at hnan
  · rintro ⟨rfl, hsmall⟩
    rw [coordinateVertex, if_neg]
    rintro (⟨k, hk, hlarge⟩ | ⟨hbetter, -⟩)
    · exact not_lt.2 (hsmall k hk) hlarge
    · contradiction

/-- A far vertex that is replaceable goes first, then the largest coordinate. -/
theorem replaceable_or_largest_of_farVertex
    (h : farVertex improved n minHeight farLength lengths heights c = some j) :
    isReplaceable minHeight farLength lengths heights c j = true ∨
      coordinateVertex improved n c = some j := by
  unfold farVertex at h
  split at h
  · exact Or.inl (Selection.mem_of_greatest h).2.2
  · exact Or.inr h

theorem farVertex_eq_none_iff :
    farVertex improved n minHeight farLength lengths heights c = none ↔
      (∀ k, k < n → ¬ isReplaceable minHeight farLength lengths heights c k = true) ∧
        coordinateVertex improved n c = none := by
  unfold farVertex
  split
  · rename_i hfar
    obtain ⟨k, hk, hmask⟩ := hfar
    constructor
    · intro h
      have hnan := Selection.greatest_eq_none_iff.1 h k hk hmask
      simp at hnan
    · rintro ⟨hnone, -⟩
      exact absurd hmask (hnone k hk)
  · rename_i hnone
    constructor
    · exact fun h => ⟨fun k hk hmask => hnone ⟨k, hk, hmask⟩, h⟩
    · exact fun h => h.2

/-- On reals the farthest vertex is never needed for want of another. -/
theorem thresholdVertex_eq_farVertex (hn : 0 < n) :
    thresholdVertex improved n minHeight farLength lengths heights c =
      farVertex improved n minHeight farLength lengths heights c := by
  unfold thresholdVertex
  split
  · rename_i k hk
    exact hk.symm
  · rename_i hnone
    cases improved with
    | false => exact hnone.symm
    | true => exact absurd hnone (farVertex_ne_none hn)

/-- The new height of the chosen vertex: only the largest coordinate of a better point may bring it
below the lower of the threshold and the old height. -/
theorem height_of_thresholdVertex (hheights : ∀ k, k < n → 0 < heights k)
    (h : thresholdVertex improved n minHeight farLength lengths heights c = some j) :
    min minHeight (heights j) ≤ |c j| * heights j ∨
      improved = true ∧ ∀ k, k < n → |c k| ≤ |c j| := by
  have hj : j < n := lt_of_thresholdVertex h
  rw [thresholdVertex_eq_farVertex (by omega)] at h
  rcases replaceable_or_largest_of_farVertex h with hreplaceable | hcoordinate
  · exact Or.inl (isReplaceable_iff.1 hreplaceable).2
  · obtain ⟨hlargest, hlarge⟩ := largest_of_coordinateVertex hcoordinate
    cases improved with
    | true => exact Or.inr ⟨rfl, hlargest⟩
    | false =>
        -- A coordinate above one raises the vertex.
        refine Or.inl ((min_le_right _ _).trans ?_)
        exact le_mul_of_one_le_left (hheights j hj).le (hlarge rfl).le

theorem thresholdVertex_eq_none_iff_of_pos (hn : 0 < n) :
    thresholdVertex improved n minHeight farLength lengths heights c = none ↔
      improved = false ∧ (∀ k, k < n → |c k| ≤ 1) ∧
        ∀ k, k < n → farLength < lengths k → |c k| * heights k < min minHeight (heights k) := by
  rw [thresholdVertex_eq_farVertex hn, farVertex_eq_none_iff,
    coordinateVertex_eq_none_iff_of_pos hn]
  simp only [isReplaceable_iff, not_and, not_le]
  constructor
  · rintro ⟨hfar, himproved, hsmall⟩
    exact ⟨himproved, hsmall, hfar⟩
  · rintro ⟨himproved, hsmall, hfar⟩
    exact ⟨hfar, himproved, hsmall⟩

end Choice

/-! ## The routine -/

section Routine

variable {n : ℕ} {E : Matrix (Fin n) (Fin n) ℝ} {d : Fin n → ℝ}

theorem holds_of_mem_stepChecks {settings : Settings ℝ} {minHeightFactor farLengthFactor : ℝ}
    (hn : 1 ≤ n) (htolerance : 0 ≤ settings.inverseTolerance) (hE : IsUnit E) (b d : Fin n → ℝ)
    (hpos : 0 < minHeightFactor) (hlt : minHeightFactor < 1) (hfar : 1 < farLengthFactor)
    {check : Check}
    (h : check ∈ Check.that (decide ((Tensor.ofVector d).size = n) && (Tensor.ofVector d).isFinite)
          "SIZE(D) == N, D is finite" ::
        shapeChecks settings n (ofEdges E b) (.ofMatrix E⁻¹) ++
        [minHeightCheck minHeightFactor, farLengthCheck farLengthFactor]) :
    check.holds = .ok true := by
  simp only [List.cons_append, List.mem_cons, List.mem_append, List.not_mem_nil, or_false] at h
  rcases h with rfl | hshape | rfl | rfl
  · simp [Check.that, Tensor.isFinite_real]
  · exact holds_of_mem_shapeChecks hn htolerance hE b hshape
  · simp only [minHeightCheck, Check.that, hpos, hlt, decide_true, Bool.and_true]
  · exact congrArg Except.ok (decide_eq_true hfar)

theorem result_dropForStep_ofEdges (settings : Settings ℝ) (improved : Bool)
    (radius minHeightFactor farLengthFactor : ℝ) (hn : 1 ≤ n) (hE : IsUnit E) (b d : Fin n → ℝ)
    (hchecked : settings.checked = true → 0 ≤ settings.inverseTolerance ∧ 0 < minHeightFactor ∧
      minHeightFactor < 1 ∧ 1 < farLengthFactor) :
    (dropForStep settings improved (.ofVector d) radius minHeightFactor farLengthFactor
      (ofEdges E b) (.ofMatrix E⁻¹)).result =
      .ok (stepVertex settings.dropScheme improved n (minHeightFactor * radius)
        (farLengthFactor * radius) (continued d) (vertexEntry E b) (cell E⁻¹)) := by
  have hreturns : (dropForStep settings improved (.ofVector d) radius minHeightFactor
      farLengthFactor (ofEdges E b) (.ofMatrix E⁻¹)).Returns fun vertex =>
        vertex = stepVertex settings.dropScheme improved n (minHeightFactor * radius)
          (farLengthFactor * radius) (continued d) (vertexEntry E b) (cell E⁻¹) := by
    obtain ⟨log, -, hchosen⟩ := chosenForStep_eq settings improved n (continued d)
      (vertexEntry E b) (cell E⁻¹) radius minHeightFactor farLengthFactor
    rw [Tensor.ofVector, ofEdges, Tensor.ofMatrix, dropForStep_matrix]
    refine guarded_returns ⟨_, by rw [hchosen], rfl⟩ ?_ fun h => ?_
    · rintro vertex rfl
      refine verify_eq_ok_iff.2 fun check hmem => ?_
      rw [List.mem_singleton.1 hmem]
      cases improved with
      | false => simp [Check.that]
      | true =>
          have hsome : stepVertex settings.dropScheme true n (minHeightFactor * radius)
              (farLengthFactor * radius) (continued d) (vertexEntry E b) (cell E⁻¹) ≠ none :=
            stepVertex_ne_none hn (isNaN_real _)
          simp [Check.that, Option.isSome_iff_ne_none.2 hsome]
    · obtain ⟨htolerance, hpos, hlt, hfar⟩ := hchecked h
      exact verify_eq_ok_iff.2 fun check hmem =>
        holds_of_mem_stepChecks hn htolerance hE b d hpos hlt hfar hmem
  obtain ⟨vertex, hvertex, rfl⟩ := hreturns
  exact hvertex

theorem gapLength_of_unimproved (E : Matrix (Fin n) (Fin n) ℝ) (b d : Fin n → ℝ) (k : Fin n) :
    gapLength false n (continued d) (vertexEntry E b) k = edgeLength E k := by
  rw [gapLength, gapSquare_val, sqrt_real]
  rfl

/-- A vertex that the thresholds choose, as the coordinates and heights of the simplex have it. -/
theorem exists_of_thresholdVertex {improved : Bool} (hE : IsUnit E) (hd : d ≠ 0)
    {minHeight farLength : ℝ} (hmin : 0 < minHeight) {lengths : ℕ → ℝ} {place : ℕ}
    (h : thresholdVertex improved n minHeight farLength lengths (rowHeight n (cell E⁻¹))
      (coordinate n (cell E⁻¹) (continued d)) = some place) :
    ∃ j : Fin n, place = j ∧ (E⁻¹ *ᵥ d) j ≠ 0 ∧
      (min minHeight (faceHeight E⁻¹ j) ≤ |(E⁻¹ *ᵥ d) j| * faceHeight E⁻¹ j ∨
        improved = true ∧ ∀ k, |(E⁻¹ *ᵥ d) k| ≤ |(E⁻¹ *ᵥ d) j|) := by
  have hplace : place < n := lt_of_thresholdVertex h
  have hcoordinate := coordinate_val E⁻¹ d ⟨place, hplace⟩
  have hheight := rowHeight_val E⁻¹ ⟨place, hplace⟩
  have hpositive : ∀ k, k < n → 0 < rowHeight n (cell E⁻¹) k := fun k hk =>
    (faceHeight_pos hE ⟨k, hk⟩).trans_eq (rowHeight_val E⁻¹ ⟨k, hk⟩).symm
  refine ⟨⟨place, hplace⟩, rfl, ?_, ?_⟩
  · rw [← hcoordinate]
    exact ne_zero_of_threshold hE hd hmin h
  · rw [← hcoordinate, ← hheight]
    refine (height_of_thresholdVertex hpositive h).imp_right ?_
    rintro ⟨himproved, hlargest⟩
    refine ⟨himproved, fun k => ?_⟩
    rw [← coordinate_val E⁻¹ d k]
    exact hlargest k k.isLt

end Routine

/-- The vertex that the thresholds choose for a step, checked or not.  Its replacement keeps the
edges independent and multiplies its height by the absolute value of its coordinate.  For a point
that is no better the new height, the distance from the opposite face, is at least the lower of the
threshold and the old height; for a better point it is, or the coordinate is the largest of all.
There is no vertex exactly when the point is no better, no coordinate exceeds one, and no vertex far
away would keep such a height. -/
theorem thresholds_keep_heights {n : ℕ} {E : Matrix (Fin n) (Fin n) ℝ} (hE : IsUnit E)
    (b : Fin n → ℝ) {d : Fin n → ℝ} (hd : d ≠ 0) {settings : Settings ℝ}
    (hscheme : settings.dropScheme = .powell) (improved : Bool)
    {radius minHeightFactor farLengthFactor : ℝ} (hradius : 0 < radius)
    (hpos : 0 < minHeightFactor) (hlt : minHeightFactor < 1) (hfar : 1 < farLengthFactor)
    (hchecked : settings.checked = true → 0 ≤ settings.inverseTolerance) :
    ∃ vertex,
      (dropForStep settings improved (.ofVector d) radius minHeightFactor farLengthFactor
        (ofEdges E b) (.ofMatrix E⁻¹)).result = .ok vertex ∧
      (∀ place, vertex = some place → ∃ j : Fin n, place = j ∧ (E⁻¹ *ᵥ d) j ≠ 0 ∧
        IsUnit (E.updateCol j d) ∧
        faceHeight (E.updateCol j d)⁻¹ j = |(E⁻¹ *ᵥ d) j| * faceHeight E⁻¹ j ∧
        (improved = false →
          min (minHeightFactor * radius) (faceHeight E⁻¹ j) ≤
            |(E⁻¹ *ᵥ d) j| * faceHeight E⁻¹ j ∧
          ∀ p ∈ face E j,
            min (minHeightFactor * radius) (faceHeight E⁻¹ j) ≤ √((d - p) ⬝ᵥ (d - p))) ∧
        (improved = true →
          min (minHeightFactor * radius) (faceHeight E⁻¹ j) ≤
            |(E⁻¹ *ᵥ d) j| * faceHeight E⁻¹ j ∨
          ∀ k, |(E⁻¹ *ᵥ d) k| ≤ |(E⁻¹ *ᵥ d) j|)) ∧
      (vertex = none ↔ improved = false ∧ (∀ k, |(E⁻¹ *ᵥ d) k| ≤ 1) ∧
        ∀ k, farLengthFactor * radius < edgeLength E k →
          |(E⁻¹ *ᵥ d) k| * faceHeight E⁻¹ k <
            min (minHeightFactor * radius) (faceHeight E⁻¹ k)) := by
  obtain ⟨k, -⟩ := Function.ne_iff.1 hd
  have hn : 1 ≤ n := k.pos
  have hresult := result_dropForStep_ofEdges settings improved radius minHeightFactor
    farLengthFactor hn hE b d fun h => ⟨hchecked h, hpos, hlt, hfar⟩
  rw [hscheme] at hresult
  refine ⟨_, hresult, fun place hplace => ?_, ?_⟩
  · obtain ⟨j, hj, hcoordinate, hheight⟩ :=
      exists_of_thresholdVertex hE hd (mul_pos hpos hradius) hplace
    refine ⟨j, hj, hcoordinate, (isUnit_updateCol_iff hE).2 hcoordinate,
      faceHeight_updateCol hE hcoordinate, fun himproved => ?_, fun _ => ?_⟩
    · have hkept := hheight.resolve_right fun h => by simp [himproved] at h
      exact ⟨hkept, (forall_le_distance_iff hE d j).2 hkept⟩
    · exact hheight.imp_right fun h => h.2
  · show thresholdVertex _ _ _ _ _ _ _ = none ↔ _
    rw [thresholdVertex_eq_none_iff_of_pos hn]
    refine and_congr_right fun himproved => ?_
    subst himproved
    rw [Fin.forall_iff, Fin.forall_iff]
    refine and_congr (forall₂_congr fun k hk => ?_) (forall₂_congr fun k hk => ?_)
    · rw [← coordinate_val]
    · rw [← coordinate_val, ← rowHeight_val, ← gapLength_of_unimproved E b d]

noncomputable def thresholdSettings : Settings ℝ :=
  { (Settings.standard : Settings ℝ) with dropScheme := .powell }

/-- Of two vertices at distance one on the axes, a step of length two along the first axis replaces
the first, and one of length one half replaces none. -/
theorem thresholds_keep_unit_heights :
    (dropForStep thresholdSettings false (.ofVector ![2, 0]) 1 0.25 1.1
      (ofEdges (1 : Matrix (Fin 2) (Fin 2) ℝ) 0)
      (.ofMatrix (1 : Matrix (Fin 2) (Fin 2) ℝ)⁻¹)).result = .ok (some 0) ∧
    (dropForStep thresholdSettings false (.ofVector ![0.5, 0]) 1 0.25 1.1
      (ofEdges (1 : Matrix (Fin 2) (Fin 2) ℝ) 0)
      (.ofMatrix (1 : Matrix (Fin 2) (Fin 2) ℝ)⁻¹)).result = .ok none := by
  have hunit : IsUnit (1 : Matrix (Fin 2) (Fin 2) ℝ) := isUnit_one
  have hscheme : thresholdSettings.dropScheme = .powell := rfl
  have hchecked : thresholdSettings.checked = true → 0 ≤ thresholdSettings.inverseTolerance := by
    simp [thresholdSettings, Settings.standard]
  have hpos : (0 : ℝ) < 0.25 := by norm_num
  have hlt : (0.25 : ℝ) < 1 := by norm_num
  have hfar : (1 : ℝ) < 1.1 := by norm_num
  constructor
  · have hstep : (![2, 0] : Fin 2 → ℝ) ≠ 0 := by simp
    obtain ⟨vertex, hvertex, hchosen, hnone⟩ := thresholds_keep_heights hunit 0 hstep hscheme
      false one_pos hpos hlt hfar hchecked
    rw [hvertex]
    cases hplace : vertex with
    | none =>
        obtain ⟨-, hsmall, -⟩ := hnone.1 hplace
        have hlarge := hsmall 0
        norm_num at hlarge
    | some place =>
        obtain ⟨j, rfl, hcoordinate, -⟩ := hchosen place hplace
        fin_cases j
        · rfl
        · simp at hcoordinate
  · have hstep : (![0.5, 0] : Fin 2 → ℝ) ≠ 0 := by norm_num
    obtain ⟨vertex, hvertex, -, hnone⟩ := thresholds_keep_heights hunit 0 hstep hscheme
      false one_pos hpos hlt hfar hchecked
    rw [hvertex, hnone.2]
    refine ⟨rfl, ?_, fun k hk => ?_⟩
    · rw [Fin.forall_fin_two]
      norm_num [abs_of_pos]
    · have hlength : edgeLength (1 : Matrix (Fin 2) (Fin 2) ℝ) k = 1 := by
        fin_cases k <;> simp [edgeLength, dotProduct, Fin.sum_univ_two]
      rw [hlength] at hk
      norm_num at hk

end Simplex

end InterpolationGeometry
