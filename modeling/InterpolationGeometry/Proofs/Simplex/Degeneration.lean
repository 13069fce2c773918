import InterpolationGeometry.Proofs.Simplex.Exchange
import InterpolationGeometry.Proofs.Simplex.StepVertex

/-!
# Steps that make a simplex degenerate

In exact arithmetic the vertex chosen by scores has a coordinate other than zero, so that its
replacement keeps the edges independent, with one exception: a better point that coincides with a
vertex other than the first.  Then every score is zero, the one of the base vertex included, and the
tie goes to the first vertex, whose coordinate is zero.
-/

namespace InterpolationGeometry

namespace Simplex

open Scalar Matrix

/-! ## The thresholds -/

section Thresholds

variable {improved : Bool} {n j : ℕ} {minHeight farLength : ℝ} {lengths heights c : ℕ → ℝ}

/-- A replaceable vertex has a coordinate: without one its new height would be zero. -/
theorem ne_zero_of_isReplaceable (hmin : 0 < minHeight) (hheight : 0 < heights j)
    (h : isReplaceable minHeight farLength lengths heights c j = true) : c j ≠ 0 := by
  intro hzero
  simp only [isReplaceable, hzero, abs_real, abs_zero, zero_mul, Bool.and_eq_true, Bool.or_eq_true,
    decide_eq_true_eq] at h
  rcases h.2 with hle | hle
  · linarith
  · linarith

theorem ne_zero_of_coordinateVertex (hc : ∃ k, k < n ∧ c k ≠ 0)
    (h : coordinateVertex improved n c = some j) : c j ≠ 0 := by
  obtain ⟨k, hk, hne⟩ := hc
  unfold coordinateVertex at h
  split at h
  · have hle : |c k| ≤ |c j| := Selection.le_of_greatest h hk (isNaN_real _) rfl
    have hpos : 0 < |c k| := abs_pos.2 hne
    exact abs_pos.1 (hpos.trans_le hle)
  · contradiction

theorem ne_zero_of_farVertex (hmin : 0 < minHeight) (hheights : ∀ k, k < n → 0 < heights k)
    (hc : ∃ k, k < n ∧ c k ≠ 0)
    (h : farVertex improved n minHeight farLength lengths heights c = some j) : c j ≠ 0 := by
  unfold farVertex at h
  split at h
  · obtain ⟨hj, -, hmask⟩ := Selection.mem_of_greatest h
    exact ne_zero_of_isReplaceable hmin (hheights j hj) hmask
  · exact ne_zero_of_coordinateVertex hc h

/-- Reals are numbers, so that for a better point the largest coordinate is always a choice. -/
theorem farVertex_ne_none (hn : 0 < n) :
    farVertex true n minHeight farLength lengths heights c ≠ none := by
  intro h
  unfold farVertex at h
  split at h
  · rename_i hfar
    obtain ⟨k, hk, hmask⟩ := hfar
    have hnan := Selection.greatest_eq_none_iff.1 h k hk hmask
    simp at hnan
  · have hnan := coordinateVertex_eq_none_iff.1 h 0 hn
    simp at hnan

theorem ne_zero_of_thresholdVertex (hmin : 0 < minHeight) (hheights : ∀ k, k < n → 0 < heights k)
    (hc : ∃ k, k < n ∧ c k ≠ 0)
    (h : thresholdVertex improved n minHeight farLength lengths heights c = some j) : c j ≠ 0 := by
  unfold thresholdVertex at h
  split at h
  · rename_i k hk
    have hjk : k = j := Option.some.inj h
    rw [← hjk]
    exact ne_zero_of_farVertex hmin hheights hc hk
  · rename_i hnone
    split at h
    · rename_i himproved
      obtain ⟨k, hk, -⟩ := hc
      rw [himproved] at hnone
      exact absurd hnone (farVertex_ne_none (by omega))
    · contradiction

end Thresholds

/-! ## The scores -/

section Scores

variable {improved : Bool} {n j : ℕ} {base : ℝ} {squares c : ℕ → ℝ} {other : Option ℕ}

/-- If the vertex of the best score has no coordinate, it is the first and every score is zero. -/
theorem scores_of_coordinate_eq_zero (hsquares : ∀ k, k < n → 0 ≤ squares k) (hbase : 0 ≤ base)
    (hother : ∀ k, other = some k → c k ≠ 0) (hfar : ∃ k, k < n ∧ 0 < squares k)
    (h : scoreVertex improved n squares base c other = some j) (hj : c j = 0) :
    j = 0 ∧ (∀ k, k < n → squares k * |c k| = 0) ∧ base * |1 - sum n c| = 0 := by
  have hbest : Selection.greatest (n + 1) (score n squares base c) (fun _ => true) = some j ∧
      j < n := by
    rw [scoreVertex, if_pos hfar] at h
    split at h
    · exact absurd hj (hother j h)
    · rename_i k hk
      have hle := (Selection.mem_of_greatest hk).1
      split at h
      · exact absurd hj (hother j h)
      · have hjk : k = j := Option.some.inj h
        subst hjk
        exact ⟨hk, by omega⟩
  obtain ⟨hgreatest, hjn⟩ := hbest
  have hnonneg : ∀ k, 0 ≤ score n squares base c k := by
    intro k
    unfold score
    split
    · rename_i hk
      exact mul_nonneg (hsquares k hk) (abs_nonneg _)
    · exact mul_nonneg hbase (abs_nonneg _)
  have hscore : score n squares base c j = 0 := by
    simp [score, hjn, hj]
  have hzero : ∀ k, k < n + 1 → score n squares base c k = 0 := by
    intro k hk
    have hle : score n squares base c k ≤ score n squares base c j :=
      Selection.le_of_greatest hgreatest hk (isNaN_real _) rfl
    exact le_antisymm (hle.trans_eq hscore) (hnonneg k)
  refine ⟨?_, fun k hk => ?_, ?_⟩
  · -- A later place would have to exceed the first one, which ties with it.
    by_contra hpos
    have hlt : score n squares base c 0 < score n squares base c j :=
      Selection.lt_of_greatest hgreatest (Nat.pos_of_ne_zero hpos) (isNaN_real _) rfl
    rw [hscore, hzero 0 (by omega)] at hlt
    exact hlt.false
  · simpa [score, hk] using hzero k (by omega)
  · simpa [score] using hzero n (by omega)

theorem scoreVertex_of_scores_eq_zero (hfar : ∃ k, k < n ∧ 0 < squares k)
    (hzero : ∀ k, k < n → squares k * |c k| = 0) (hbase : base * |1 - sum n c| = 0) :
    scoreVertex improved n squares base c other = some 0 := by
  have hn : 0 < n := by
    obtain ⟨k, hk, -⟩ := hfar
    omega
  have hscores : ∀ k, score n squares base c k = 0 := by
    intro k
    unfold score
    split
    · rename_i hk
      exact hzero k hk
    · exact hbase
  rw [scoreVertex, if_pos hfar]
  cases hgreatest : Selection.greatest (n + 1) (score n squares base c) fun _ => true with
  | none =>
      have hnan := Selection.greatest_eq_none_iff.1 hgreatest 0 (by omega) rfl
      simp at hnan
  | some j =>
      have hj : j = 0 := by
        by_contra hpos
        have hlt : score n squares base c 0 < score n squares base c j :=
          Selection.lt_of_greatest hgreatest (Nat.pos_of_ne_zero hpos) (isNaN_real _) rfl
        rw [hscores, hscores] at hlt
        exact hlt.false
      subst hj
      simp [hn.ne]

end Scores

/-! ## Edges and their inverse -/

section Edges

variable {improved : Bool} {n : ℕ} {E : Matrix (Fin n) (Fin n) ℝ} {b d : Fin n → ℝ}

theorem coordinate_val (S : Matrix (Fin n) (Fin n) ℝ) (d : Fin n → ℝ) (k : Fin n) :
    coordinate n (cell S) (continued d) k = (S *ᵥ d) k := by
  simp [coordinate, sum_real, mulVec, dotProduct]

theorem rowHeight_val (S : Matrix (Fin n) (Fin n) ℝ) (k : Fin n) :
    rowHeight n (cell S) k = faceHeight S k := by
  rw [rowHeight, sum_square_row, faceHeight, sqrt_real]

theorem gapSquare_val (improved : Bool) (E : Matrix (Fin n) (Fin n) ℝ) (b d : Fin n → ℝ)
    (k : Fin n) :
    gapSquare improved n (continued d) (vertexEntry E b) k =
      if improved then (E.col k - d) ⬝ᵥ (E.col k - d) else E.col k ⬝ᵥ E.col k := by
  cases improved <;> simp [gapSquare, gap, sum_real, dotProduct, pow_two]

theorem baseSquare_val (improved : Bool) (d : Fin n → ℝ) :
    baseSquare improved n (continued d) = if improved then d ⬝ᵥ d else 0 := by
  cases improved <;> simp [baseSquare, sum_real, dotProduct]

theorem sum_coordinate (S : Matrix (Fin n) (Fin n) ℝ) (d : Fin n → ℝ) :
    sum n (coordinate n (cell S) (continued d)) = ∑ k, (S *ᵥ d) k := by
  rw [sum_real]
  exact Finset.sum_congr rfl fun k _ => coordinate_val S d k

theorem gapSquare_nonneg (E : Matrix (Fin n) (Fin n) ℝ) (b d : Fin n → ℝ) (k : Fin n) :
    0 ≤ gapSquare improved n (continued d) (vertexEntry E b) k := by
  rw [gapSquare_val]
  split
  · exact dotProduct_self_nonneg _
  · exact dotProduct_self_nonneg _

/-- An edge from the vertex that will be the best one vanishes only if the new point is that one and
lies at the other end. -/
theorem gapSquare_pos_iff (hE : IsUnit E) (k : Fin n) :
    0 < gapSquare improved n (continued d) (vertexEntry E b) k ↔
      improved = false ∨ d ≠ E.col k := by
  rw [gapSquare_val]
  cases improved with
  | false => simpa using dotProduct_self_pos (col_ne_zero hE k)
  | true =>
      simp only [if_true, Bool.true_eq_false, false_or]
      constructor
      · rintro hpos rfl
        simp at hpos
      · intro hne
        exact dotProduct_self_pos (sub_ne_zero.2 (Ne.symm hne))

theorem ne_zero_of_threshold (hE : IsUnit E) (hd : d ≠ 0) {minHeight farLength : ℝ}
    (hmin : 0 < minHeight) {lengths : ℕ → ℝ} {j : ℕ}
    (h : thresholdVertex improved n minHeight farLength lengths (rowHeight n (cell E⁻¹))
      (coordinate n (cell E⁻¹) (continued d)) = some j) :
    coordinate n (cell E⁻¹) (continued d) j ≠ 0 := by
  obtain ⟨k, hk⟩ := exists_coordinate_ne_zero hE hd
  refine ne_zero_of_thresholdVertex hmin (fun i hi => ?_) ⟨k, k.isLt, ?_⟩ h
  · have hheight := rowHeight_val E⁻¹ ⟨i, hi⟩
    rw [hheight]
    exact faceHeight_pos hE ⟨i, hi⟩
  · rw [coordinate_val]
    exact hk

/-- For a better point at a vertex other than the first the scores tie at zero. -/
theorem stepVertex_of_edge (hE : IsUnit E) {k : Fin n} (hk : 0 < (k : ℕ))
    {minHeight farLength : ℝ} :
    stepVertex .score true n minHeight farLength (continued (E.col k)) (vertexEntry E b)
      (cell E⁻¹) = some 0 := by
  have hn : 0 < n := k.pos
  have hcoordinates := inv_mulVec_col hE k
  have hfirst : E.col k ≠ E.col ⟨0, hn⟩ := by
    intro hsame
    have hbasis := inv_mulVec_col hE ⟨0, hn⟩
    rw [← hsame, hcoordinates] at hbasis
    have hentry := congrFun hbasis k
    have hne : k ≠ ⟨0, hn⟩ := fun heq => by simp [heq] at hk
    simp [hne] at hentry
  apply scoreVertex_of_scores_eq_zero
  · exact ⟨0, hn, (gapSquare_pos_iff hE ⟨0, hn⟩).2 (Or.inr hfirst)⟩
  · intro l hl
    have hcoordinate := coordinate_val E⁻¹ (E.col k) ⟨l, hl⟩
    have hgap := gapSquare_val true E b (E.col k) ⟨l, hl⟩
    simp only at hcoordinate hgap
    rw [hcoordinate, hcoordinates, hgap]
    by_cases hlk : (⟨l, hl⟩ : Fin n) = k
    · simp [hlk]
    · simp [hlk]
  · rw [sum_coordinate, hcoordinates, Finset.sum_pi_single']
    simp

/-- A vertex chosen by scores that has no coordinate is the first, and the new point is better and
lies at another vertex. -/
theorem exists_edge_of_stepVertex (hE : IsUnit E) (hd : d ≠ 0) {minHeight farLength : ℝ}
    (hmin : 0 < minHeight) {j : ℕ}
    (h : stepVertex .score improved n minHeight farLength (continued d) (vertexEntry E b)
      (cell E⁻¹) = some j)
    (hj : coordinate n (cell E⁻¹) (continued d) j = 0) :
    improved = true ∧ ∃ k : Fin n, 0 < (k : ℕ) ∧ d = E.col k := by
  have hjn : j < n := lt_of_stepVertex h
  have hcj : (E⁻¹ *ᵥ d) ⟨j, hjn⟩ = 0 := by
    rw [← coordinate_val]
    exact hj
  have hfar : ∃ k, k < n ∧ 0 < gapSquare improved n (continued d) (vertexEntry E b) k := by
    by_contra hnone
    have hsame : d = E.col ⟨j, hjn⟩ := by
      by_contra hne
      exact hnone ⟨j, hjn, (gapSquare_pos_iff hE ⟨j, hjn⟩).2 (Or.inr hne)⟩
    rw [hsame, inv_mulVec_col hE] at hcj
    simp at hcj
  obtain ⟨rfl, hscores, hbase⟩ := scores_of_coordinate_eq_zero
    (fun k hk => gapSquare_nonneg E b d ⟨k, hk⟩)
    (by
      rw [baseSquare_val]
      split
      · exact dotProduct_self_nonneg d
      · exact le_rfl)
    (fun k hk => ne_zero_of_threshold hE hd hmin hk) hfar h hj
  -- Some coordinate does not vanish, and the score of its vertex is zero: the gap must be.
  obtain ⟨k, hk⟩ := exists_coordinate_ne_zero hE hd
  have hgap : ¬ 0 < gapSquare improved n (continued d) (vertexEntry E b) k := by
    have hscore := hscores k k.isLt
    rw [coordinate_val, mul_eq_zero, abs_eq_zero, or_iff_left hk] at hscore
    rw [hscore]
    exact le_rfl.not_gt
  rw [gapSquare_pos_iff hE, not_or, not_not] at hgap
  refine ⟨by simpa using hgap.1, k, Nat.pos_of_ne_zero fun hzero => ?_, hgap.2⟩
  have hfirst : k = ⟨0, hjn⟩ := Fin.ext hzero
  rw [hfirst] at hk
  exact hk hcj

theorem result_dropForStep_ofEdges_unchecked (E S : Matrix (Fin n) (Fin n) ℝ) (b d : Fin n → ℝ)
    {settings : Settings ℝ} (hchecked : settings.checked = false) (improved : Bool)
    (radius minHeightFactor farLengthFactor : ℝ) :
    (dropForStep settings improved (.ofVector d) radius minHeightFactor farLengthFactor
      (ofEdges E b) (.ofMatrix S)).result =
      .ok (stepVertex settings.dropScheme improved n (minHeightFactor * radius)
        (farLengthFactor * radius) (continued d) (vertexEntry E b) (cell S)) :=
  result_dropForStep_unchecked settings improved n (continued d) (vertexEntry E b) (cell S) radius
    minHeightFactor farLengthFactor hchecked

theorem dropForStep_of_edge (hE : IsUnit E) (b : Fin n → ℝ) {k : Fin n} (hk : 0 < (k : ℕ))
    {settings : Settings ℝ} (hchecked : settings.checked = false)
    (hscheme : settings.dropScheme = .score) (radius minHeightFactor farLengthFactor : ℝ) :
    (dropForStep settings true (.ofVector (E.col k)) radius minHeightFactor farLengthFactor
      (ofEdges E b) (.ofMatrix E⁻¹)).result = .ok (some 0) := by
  rw [result_dropForStep_ofEdges_unchecked E E⁻¹ b _ hchecked, hscheme, stepVertex_of_edge hE hk]

end Edges

/-- The vertex chosen by scores for a step, checked or not.  Its replacement keeps the edges
independent exactly when it has a coordinate, and it has none exactly when the point is better and
coincides with a vertex other than the first. -/
theorem dropForStep_degenerates_iff {n : ℕ} {E : Matrix (Fin n) (Fin n) ℝ} (hE : IsUnit E)
    (b : Fin n → ℝ) {d : Fin n → ℝ} (hd : d ≠ 0) {settings : Settings ℝ}
    (hscheme : settings.dropScheme = .score) {improved : Bool}
    {radius minHeightFactor farLengthFactor : ℝ} (hradius : 0 < radius)
    (hmin : 0 < minHeightFactor) {place : ℕ}
    (h : (dropForStep settings improved (.ofVector d) radius minHeightFactor farLengthFactor
      (ofEdges E b) (.ofMatrix E⁻¹)).result = .ok (some place)) :
    ∃ j : Fin n, place = j ∧
      (IsUnit (E.updateCol j d) ↔ (E⁻¹ *ᵥ d) j ≠ 0) ∧
      ((E⁻¹ *ᵥ d) j = 0 ↔ improved = true ∧ ∃ k : Fin n, 0 < (k : ℕ) ∧ d = E.col k) := by
  have hvertex := (eq_stepVertex_of_dropForStep _ _ _ _ _ _ _ _ _ h).symm
  rw [hscheme] at hvertex
  have hplace : place < n := lt_of_stepVertex hvertex
  refine ⟨⟨place, hplace⟩, rfl, isUnit_updateCol_iff hE, fun hzero => ?_, ?_⟩
  · apply exists_edge_of_stepVertex hE hd (mul_pos hmin hradius) hvertex
    rw [← hzero]
    exact coordinate_val E⁻¹ d ⟨place, hplace⟩
  · rintro ⟨rfl, k, hk, rfl⟩
    have hfirst : some 0 = some place := (stepVertex_of_edge hE hk).symm.trans hvertex
    have hplace' : 0 = place := Option.some.inj hfirst
    subst hplace'
    rw [inv_mulVec_col hE]
    have hne : (⟨0, hplace⟩ : Fin n) ≠ k := fun heq => by simp [← heq] at hk
    simp [hne]

private theorem col_one_one : (1 : Matrix (Fin 2) (Fin 2) ℝ).col 1 = ![0, 1] := by
  ext i
  fin_cases i <;> simp

theorem dropForStep_degenerates_iff_unit_edges :
    ∃ j : Fin 2, 0 = (j : ℕ) ∧
      (IsUnit ((1 : Matrix (Fin 2) (Fin 2) ℝ).updateCol j ![0, 1]) ↔
        ((1 : Matrix (Fin 2) (Fin 2) ℝ)⁻¹ *ᵥ ![0, 1]) j ≠ 0) ∧
      (((1 : Matrix (Fin 2) (Fin 2) ℝ)⁻¹ *ᵥ ![0, 1]) j = 0 ↔ true = true ∧
        ∃ k : Fin 2, 0 < (k : ℕ) ∧ ![0, 1] = (1 : Matrix (Fin 2) (Fin 2) ℝ).col k) := by
  have hresult : (dropForStep Settings.standard true (.ofVector ![0, 1]) 1 0.25 1.1
      (ofEdges (1 : Matrix (Fin 2) (Fin 2) ℝ) 0)
      (.ofMatrix (1 : Matrix (Fin 2) (Fin 2) ℝ)⁻¹)).result = .ok (some 0) := by
    rw [← col_one_one]
    exact dropForStep_of_edge isUnit_one 0 one_pos rfl rfl 1 0.25 1.1
  exact dropForStep_degenerates_iff isUnit_one 0 (by simp) rfl one_pos (by norm_num) hresult

/-- Of the vertices at distance one on two axes, the new point comes to lie on the second, and the
first is dropped. -/
theorem dropForStep_degenerates :
    IsUnit (1 : Matrix (Fin 2) (Fin 2) ℝ) ∧ (![0, 1] : Fin 2 → ℝ) ≠ 0 ∧
      (dropForStep (Settings.standard : Settings ℝ) true (.ofVector ![0, 1]) 1 0.25 1.1
        (ofEdges (1 : Matrix (Fin 2) (Fin 2) ℝ) 0)
        (.ofMatrix (1 : Matrix (Fin 2) (Fin 2) ℝ)⁻¹)).result = .ok (some 0) ∧
      ((1 : Matrix (Fin 2) (Fin 2) ℝ)⁻¹ *ᵥ ![0, 1]) 0 = 0 ∧
      ¬ IsUnit ((1 : Matrix (Fin 2) (Fin 2) ℝ).updateCol 0 ![0, 1]) := by
  have hcoordinate : ((1 : Matrix (Fin 2) (Fin 2) ℝ)⁻¹ *ᵥ ![0, 1]) 0 = 0 := by simp
  refine ⟨isUnit_one, by simp, ?_, hcoordinate, ?_⟩
  · rw [← col_one_one]
    exact dropForStep_of_edge isUnit_one 0 one_pos rfl rfl 1 0.25 1.1
  · rw [isUnit_updateCol_iff isUnit_one, hcoordinate]
    exact not_not.2 rfl

end Simplex

end InterpolationGeometry
