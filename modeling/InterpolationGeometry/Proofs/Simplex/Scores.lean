import InterpolationGeometry.Proofs.Simplex.Degeneration
import InterpolationGeometry.Proofs.Tensor.Finite

/-!
# What the scores decide

The default choice of a vertex has a pass over the thresholds and one over the scores.  For a point
that is no better the score of the base vertex is zero, so that some vertex ties with it at a lower
place: unless all edges vanish the scores decide alone.  For a better point that does not coincide
with all vertices the choice of the thresholds stands exactly when the score of the base vertex
exceeds all others.  So the radius and the factors, which only the thresholds read, matter in no
other case.  The entries are finite; the heights, which the scores do not read, need not be.
-/

namespace InterpolationGeometry

namespace Simplex

open Scalar Matrix

/-! ## The place of the base vertex -/

section Places

variable {α : Type} [Scalar α] {improved : Bool} {n : ℕ} {base : α} {squares c : ℕ → α}
  {other : Option ℕ}

/-- Where all vertices coincide with the best one, the other choice does not matter. -/
theorem scoreVertex_of_coincident (h : ¬ ∃ k, k < n ∧ 0 < squares k) (other other' : Option ℕ) :
    scoreVertex improved n squares base c other = scoreVertex improved n squares base c other' := by
  rw [scoreVertex, if_neg h, scoreVertex, if_neg h]

variable [Ordered α]

/-- A score of the base vertex above all others stands for the other choice. -/
theorem scoreVertex_of_base (hfar : ∃ k, k < n ∧ 0 < squares k)
    (h : ∀ k, k < n → squares k * Scalar.abs (c k) < base * Scalar.abs (1 - sum n c)) :
    scoreVertex improved n squares base c other = other := by
  have hlast : score n squares base c n = base * Scalar.abs (1 - sum n c) := if_neg (lt_irrefl n)
  rw [scoreVertex, if_pos hfar]
  split
  · rfl
  · rename_i j hj
    by_cases hjn : j = n
    · rw [if_pos hjn]
    · have hlt : j < n := by
        have hle := (Selection.mem_of_greatest hj).1
        omega
      have hscore : score n squares base c j = squares j * Scalar.abs (c j) := if_pos hlt
      have hbelow : score n squares base c j < score n squares base c n := by
        rw [hscore, hlast]
        exact h j hlt
      have hle := Selection.le_of_greatest hj (Nat.lt_succ_self n)
        (isNaN_eq_false_of_lt_right hbelow) rfl
      exact absurd hle (Scalar.not_le_of_lt hbelow)

/-- A vertex whose score is at least that of the base vertex comes before it, so that the other
choice does not matter. -/
theorem exists_scoreVertex (improved : Bool) {k : ℕ} (hfar : ∃ k, k < n ∧ 0 < squares k)
    (hk : k < n) (h : base * Scalar.abs (1 - sum n c) ≤ squares k * Scalar.abs (c k)) :
    ∃ j, Selection.IsFirstGreatest n (fun k => squares k * Scalar.abs (c k)) j ∧
      ∀ other, scoreVertex improved n squares base c other = some j := by
  have hscore : ∀ i, i < n → score n squares base c i = squares i * Scalar.abs (c i) :=
    fun i hi => if_pos hi
  have hlast : score n squares base c n = base * Scalar.abs (1 - sum n c) :=
    if_neg (lt_irrefl n)
  have hle : score n squares base c n ≤ score n squares base c k := by
    rw [hscore k hk, hlast]
    exact h
  have hnumber := isNaN_eq_false_of_le_right hle
  obtain ⟨j, hj, hfirst⟩ :=
    Selection.exists_isFirstGreatest (hk.trans (Nat.lt_succ_self n)) hnumber
  have hjn : j ≠ n := by
    rintro rfl
    exact Scalar.not_le_of_lt (hfirst.lt_of_lt k hk hnumber) hle
  have hlt : j < n := by
    have hsize := hfirst.lt_size
    omega
  refine ⟨j, ⟨hlt, ?_, fun i hi hinumber => ?_, fun i hi hinumber => ?_⟩, fun other => ?_⟩
  · rw [← hscore j hlt]
    exact hfirst.number
  · rw [← hscore i hi] at hinumber ⊢
    rw [← hscore j hlt]
    exact hfirst.le i (by omega) hinumber
  · have hin : i < n := hi.trans hlt
    rw [← hscore i hin] at hinumber ⊢
    rw [← hscore j hlt]
    exact hfirst.lt_of_lt i hi hinumber
  · simp only [scoreVertex, if_pos hfar, hj, if_neg hjn]

end Places

/-! ## Finite entries -/

section Finite

variable {n : ℕ}

/-- The simplex of the given edges and base vertex, entries read as extended values. -/
noncomputable def finiteSimplex (E : Matrix (Fin n) (Fin n) ℝ) (b : Fin n → ℝ) :
    Tensor Extended :=
  .matrix n (n + 1) fun i k => .finite (vertexEntry E b i k)

/-- The lowest vertex of the greatest weight. -/
structure IsFirstHeaviest (weight : Fin n → ℝ) (j : Fin n) : Prop where
  le : ∀ k, weight k ≤ weight j
  lt_of_lt : ∀ k, k < j → weight k < weight j

theorem exists_isFirstHeaviest {w : ℕ → Extended} {weight : Fin n → ℝ}
    (hw : ∀ k : Fin n, w k = .finite (weight k)) {place : ℕ}
    (h : Selection.IsFirstGreatest n w place) :
    ∃ j : Fin n, place = j ∧ IsFirstHeaviest weight j := by
  have hnumber : ∀ k : Fin n, isNaN (w k) = false := fun k => by
    rw [hw k]
    exact Extended.isNaN_finite _
  have hplace := hw ⟨place, h.lt_size⟩
  refine ⟨⟨place, h.lt_size⟩, rfl, fun k => ?_, fun k hk => ?_⟩
  · have hle := h.le k k.isLt (hnumber k)
    rwa [hplace, hw k, Extended.finite_le_finite] at hle
  · have hlt := h.lt_of_lt k hk (hnumber k)
    rwa [hplace, hw k, Extended.finite_lt_finite] at hlt

theorem coordinate_finite (S : Matrix (Fin n) (Fin n) ℝ) (d : Fin n → ℝ) (k : Fin n) :
    coordinate n (fun i l => Extended.finite (cell S i l)) (fun l => .finite (continued d l)) k =
      .finite ((S *ᵥ d) k) := by
  rw [← coordinate_val S d k]
  simp only [coordinate, Extended.finite_mul, Extended.sum_finite]

theorem sum_coordinate_finite (S : Matrix (Fin n) (Fin n) ℝ) (d : Fin n → ℝ) :
    sum n (coordinate n (fun i l => Extended.finite (cell S i l))
      fun l => .finite (continued d l)) = .finite (∑ k, (S *ᵥ d) k) := by
  rw [← sum_coordinate S d, ← Extended.sum_finite]
  refine sum_congr fun k _ => ?_
  simp only [coordinate, Extended.finite_mul, Extended.sum_finite]

/-- An edge as seen from the vertex that will be the best one. -/
def edgeFromBest (improved : Bool) (E : Matrix (Fin n) (Fin n) ℝ) (d : Fin n → ℝ) (k : Fin n) :
    Fin n → ℝ :=
  if improved then E.col k - d else E.col k

noncomputable def weight (improved : Bool) (E S : Matrix (Fin n) (Fin n) ℝ) (d : Fin n → ℝ)
    (k : Fin n) : ℝ :=
  (edgeFromBest improved E d k ⬝ᵥ edgeFromBest improved E d k) * |(S *ᵥ d) k|

noncomputable def baseWeight (improved : Bool) (S : Matrix (Fin n) (Fin n) ℝ) (d : Fin n → ℝ) : ℝ :=
  (if improved then d ⬝ᵥ d else 0) * |1 - ∑ k, (S *ᵥ d) k|

theorem gapSquare_edgeFromBest (improved : Bool) (E : Matrix (Fin n) (Fin n) ℝ) (b d : Fin n → ℝ)
    (k : Fin n) :
    gapSquare improved n (continued d) (vertexEntry E b) k =
      edgeFromBest improved E d k ⬝ᵥ edgeFromBest improved E d k := by
  rw [gapSquare_val, edgeFromBest]
  split <;> rfl

theorem gapSquare_finite (improved : Bool) (E : Matrix (Fin n) (Fin n) ℝ) (b d : Fin n → ℝ)
    (k : Fin n) :
    gapSquare improved n (fun i => Extended.finite (continued d i))
        (fun i l => .finite (vertexEntry E b i l)) k =
      .finite (edgeFromBest improved E d k ⬝ᵥ edgeFromBest improved E d k) := by
  rw [← gapSquare_edgeFromBest improved E b d k]
  cases improved with
  | false => simp [gapSquare, gap, Extended.sum_finite]
  | true => simp [gapSquare, gap, Extended.sub_finite, Extended.sum_finite]

theorem baseSquare_finite (improved : Bool) (d : Fin n → ℝ) :
    baseSquare improved n (fun i => Extended.finite (continued d i)) =
      .finite (if improved then d ⬝ᵥ d else 0) := by
  rw [← baseSquare_val improved d]
  cases improved with
  | false => rfl
  | true => simp [baseSquare, Extended.sum_finite]

end Finite

/-! ## The routine -/

section Routine

variable {n : ℕ} (settings : Settings Extended) (improved : Bool)
  (E S : Matrix (Fin n) (Fin n) ℝ) (b d : Fin n → ℝ)

noncomputable def finiteChoice (radius minHeightFactor farLengthFactor : Extended) :
    Except Failure (Option ℕ) :=
  (dropForStep settings improved (.finiteVector d) radius minHeightFactor farLengthFactor
    (finiteSimplex E b) (.finiteMatrix S)).result

noncomputable def finiteThresholdVertex (radius minHeightFactor farLengthFactor : Extended) :
    Option ℕ :=
  stepVertex .powell improved n (minHeightFactor * radius) (farLengthFactor * radius)
    (fun l => .finite (continued d l)) (fun i l => .finite (vertexEntry E b i l))
    fun i l => .finite (cell S i l)

noncomputable def finiteScoreVertex (other : Option ℕ) : Option ℕ :=
  scoreVertex improved n
    (gapSquare improved n (fun i => Extended.finite (continued d i))
      fun i l => .finite (vertexEntry E b i l))
    (baseSquare improved n fun i => .finite (continued d i))
    (coordinate n (fun i l => .finite (cell S i l)) fun l => .finite (continued d l)) other

theorem finite_score (k : Fin n) :
    gapSquare improved n (fun i => Extended.finite (continued d i))
        (fun i l => .finite (vertexEntry E b i l)) k *
      Scalar.abs (coordinate n (fun i l => Extended.finite (cell S i l))
        (fun l => .finite (continued d l)) k) = .finite (weight improved E S d k) := by
  rw [gapSquare_finite, coordinate_finite, Extended.abs_finite, Extended.finite_mul, weight]

theorem finite_baseScore :
    baseSquare improved n (fun i => Extended.finite (continued d i)) *
      Scalar.abs (1 - sum n (coordinate n (fun i l => Extended.finite (cell S i l))
        fun l => .finite (continued d l))) = .finite (baseWeight improved S d) := by
  rw [baseSquare_finite, sum_coordinate_finite, Extended.one_eq, Extended.sub_finite,
    Extended.abs_finite, Extended.finite_mul, baseWeight]

theorem exists_gap_iff :
    (∃ k, k < n ∧ 0 < gapSquare improved n (fun i => Extended.finite (continued d i))
      (fun i l => .finite (vertexEntry E b i l)) k) ↔ ∃ k, edgeFromBest improved E d k ≠ 0 := by
  have hpos : ∀ k : Fin n, 0 < gapSquare improved n (fun i => Extended.finite (continued d i))
      (fun i l => .finite (vertexEntry E b i l)) k ↔ edgeFromBest improved E d k ≠ 0 := by
    intro k
    rw [gapSquare_finite, Extended.zero_eq, Extended.finite_lt_finite]
    constructor
    · rintro hlt hzero
      rw [hzero, dotProduct_zero] at hlt
      exact hlt.false
    · exact dotProduct_self_pos
  constructor
  · rintro ⟨k, hk, hlt⟩
    exact ⟨⟨k, hk⟩, (hpos ⟨k, hk⟩).1 hlt⟩
  · rintro ⟨k, hne⟩
    exact ⟨k, k.isLt, (hpos k).2 hne⟩

theorem finiteScoreVertex_of_base (hgap : ∃ k, edgeFromBest improved E d k ≠ 0)
    (h : ∀ k, weight improved E S d k < baseWeight improved S d) (other : Option ℕ) :
    finiteScoreVertex improved E S b d other = other := by
  apply scoreVertex_of_base ((exists_gap_iff improved E b d).2 hgap)
  intro k hk
  have hscore := finite_score improved E S b d ⟨k, hk⟩
  rw [finite_baseScore]
  exact (congrArg (· < _) hscore).mpr (Extended.finite_lt_finite.2 (h ⟨k, hk⟩))

theorem exists_finiteScoreVertex (hgap : ∃ k, edgeFromBest improved E d k ≠ 0)
    {k : Fin n} (h : baseWeight improved S d ≤ weight improved E S d k) :
    ∃ j : Fin n, IsFirstHeaviest (weight improved E S d) j ∧
      ∀ other, finiteScoreVertex improved E S b d other = some (j : ℕ) := by
  have hle := Extended.finite_le_finite.2 h
  rw [← finite_score improved E S b d k, ← finite_baseScore] at hle
  obtain ⟨place, hfirst, hplace⟩ :=
    exists_scoreVertex improved ((exists_gap_iff improved E b d).2 hgap) k.isLt hle
  obtain ⟨j, rfl, hj⟩ := exists_isFirstHeaviest (finite_score improved E S b d) hfirst
  exact ⟨j, hj, hplace⟩

section Unchecked

variable (radius minHeightFactor farLengthFactor : Extended)

theorem finiteChoice_powell (hchecked : settings.checked = false)
    (hscheme : settings.dropScheme = .powell) :
    finiteChoice settings improved E S b d radius minHeightFactor farLengthFactor =
      .ok (finiteThresholdVertex improved E S b d radius minHeightFactor farLengthFactor) := by
  have hresult := result_dropForStep_unchecked settings improved n
    (fun l => Extended.finite (continued d l)) (fun i l => .finite (vertexEntry E b i l))
    (fun i l => .finite (cell S i l)) radius minHeightFactor farLengthFactor hchecked
  rw [hscheme] at hresult
  exact hresult

theorem finiteChoice_score (hchecked : settings.checked = false)
    (hscheme : settings.dropScheme = .score) :
    finiteChoice settings improved E S b d radius minHeightFactor farLengthFactor =
      .ok (finiteScoreVertex improved E S b d
        (finiteThresholdVertex improved E S b d radius minHeightFactor farLengthFactor)) := by
  have hresult := result_dropForStep_unchecked settings improved n
    (fun l => Extended.finite (continued d l)) (fun i l => .finite (vertexEntry E b i l))
    (fun i l => .finite (cell S i l)) radius minHeightFactor farLengthFactor hchecked
  rw [hscheme] at hresult
  exact hresult

end Unchecked

theorem weight_nonneg (k : Fin n) : 0 ≤ weight improved E S d k :=
  mul_nonneg (dotProduct_self_nonneg _) (abs_nonneg _)

theorem baseWeight_of_unimproved : baseWeight false S d = 0 := by
  simp [baseWeight]

/-- Only for a better point can the score of the base vertex exceed another. -/
theorem improved_of_lt_baseWeight {k : Fin n}
    (h : weight improved E S d k < baseWeight improved S d) : improved = true := by
  cases improved with
  | true => rfl
  | false =>
      rw [baseWeight_of_unimproved] at h
      exact absurd h (not_lt.2 (weight_nonneg false E S d k))

/-- A vertex whose score is at least that of the base vertex makes the scores decide alone. -/
theorem exists_finiteChoice (hchecked : settings.checked = false)
    (hscheme : settings.dropScheme = .score) (hgap : ∃ k, edgeFromBest improved E d k ≠ 0)
    {k : Fin n} (h : baseWeight improved S d ≤ weight improved E S d k) :
    ∃ j : Fin n, IsFirstHeaviest (weight improved E S d) j ∧
      ∀ radius minHeightFactor farLengthFactor,
        finiteChoice settings improved E S b d radius minHeightFactor farLengthFactor =
          .ok (some (j : ℕ)) := by
  obtain ⟨j, hj, hvertex⟩ := exists_finiteScoreVertex improved E S b d hgap h
  refine ⟨j, hj, fun radius minHeightFactor farLengthFactor => ?_⟩
  rw [finiteChoice_score settings improved E S b d radius minHeightFactor farLengthFactor hchecked
    hscheme, hvertex]

end Routine

/-- Without checking, by scores.  For a point that is no better, unless all edges vanish, the lowest
vertex of the greatest score is chosen whatever the radius and the factors.  For a better point that
is not at all vertices, the choice is that of the thresholds if the score of the base vertex exceeds
all others, otherwise again the lowest vertex of the greatest score.  So the radius and the factors
matter for a better point only, and only if the score of the base vertex exceeds all others. -/
theorem scores_decide {n : ℕ} (hn : 1 ≤ n) {settings : Settings Extended}
    (hchecked : settings.checked = false) (hscheme : settings.dropScheme = .score)
    (E S : Matrix (Fin n) (Fin n) ℝ) (b d : Fin n → ℝ) :
    ((∃ k, E.col k ≠ 0) →
      ∃ j : Fin n, IsFirstHeaviest (weight false E S d) j ∧
        ∀ radius minHeightFactor farLengthFactor,
          finiteChoice settings false E S b d radius minHeightFactor farLengthFactor =
            .ok (some (j : ℕ))) ∧
    ((∃ k, E.col k ≠ d) →
      ((∀ k, weight true E S d k < baseWeight true S d) →
        ∀ radius minHeightFactor farLengthFactor,
          finiteChoice settings true E S b d radius minHeightFactor farLengthFactor =
            finiteChoice { settings with dropScheme := .powell } true E S b d radius
              minHeightFactor farLengthFactor) ∧
      ((∃ k, baseWeight true S d ≤ weight true E S d k) →
        ∃ j : Fin n, IsFirstHeaviest (weight true E S d) j ∧
          ∀ radius minHeightFactor farLengthFactor,
            finiteChoice settings true E S b d radius minHeightFactor farLengthFactor =
              .ok (some (j : ℕ)))) ∧
    ∀ improved radius radius' minHeightFactor minHeightFactor' farLengthFactor farLengthFactor',
      finiteChoice settings improved E S b d radius minHeightFactor farLengthFactor ≠
          finiteChoice settings improved E S b d radius' minHeightFactor' farLengthFactor' →
        improved = true ∧ ∀ k, weight true E S d k < baseWeight true S d := by
  refine ⟨fun hedge => ?_, fun hedge => ⟨fun hbase => ?_, ?_⟩, ?_⟩
  · apply exists_finiteChoice settings false E S b d hchecked hscheme hedge
    rw [baseWeight_of_unimproved]
    exact weight_nonneg false E S d ⟨0, hn⟩
  · intro radius minHeightFactor farLengthFactor
    have hgap : ∃ k, edgeFromBest true E d k ≠ 0 := hedge.imp fun k => sub_ne_zero.2
    rw [finiteChoice_score settings true E S b d _ _ _ hchecked hscheme,
      finiteScoreVertex_of_base true E S b d hgap hbase]
    exact (finiteChoice_powell { settings with dropScheme := .powell } true E S b d _ _ _ hchecked
      rfl).symm
  · rintro ⟨k, hk⟩
    have hgap : ∃ k, edgeFromBest true E d k ≠ 0 := hedge.imp fun k => sub_ne_zero.2
    exact exists_finiteChoice settings true E S b d hchecked hscheme hgap hk
  · intro improved radius radius' minHeightFactor minHeightFactor' farLengthFactor farLengthFactor'
      hdiffer
    -- Where the scores decide alone, or all vertices coincide, the two runs agree.
    have hgap : ∃ k, edgeFromBest improved E d k ≠ 0 := by
      by_contra hnone
      apply hdiffer
      rw [finiteChoice_score settings improved E S b d _ _ _ hchecked hscheme,
        finiteChoice_score settings improved E S b d _ _ _ hchecked hscheme]
      exact congrArg Except.ok
        (scoreVertex_of_coincident (mt (exists_gap_iff improved E b d).1 hnone) _ _)
    have hbase : ∀ k, weight improved E S d k < baseWeight improved S d := by
      by_contra hnot
      obtain ⟨k, hk⟩ := not_forall.1 hnot
      obtain ⟨j, -, hj⟩ :=
        exists_finiteChoice settings improved E S b d hchecked hscheme hgap (not_lt.1 hk)
      exact hdiffer ((hj _ _ _).trans (hj _ _ _).symm)
    obtain rfl := improved_of_lt_baseWeight improved E S d (hbase ⟨0, hn⟩)
    exact ⟨rfl, hbase⟩

/-- Of two vertices at distance one on the axes, a step of length three along the first axis that is
no better replaces the first.  For a better point opposite to both the thresholds decide. -/
theorem scores_decide_unit_edges :
    (∀ radius minHeightFactor farLengthFactor,
      finiteChoice Settings.standard false (1 : Matrix (Fin 2) (Fin 2) ℝ) 1 0 ![3, 0] radius
        minHeightFactor farLengthFactor = .ok (some 0)) ∧
    ∀ radius minHeightFactor farLengthFactor,
      finiteChoice Settings.standard true (1 : Matrix (Fin 2) (Fin 2) ℝ) 1 0 ![-1, -1] radius
          minHeightFactor farLengthFactor =
        finiteChoice { Settings.standard with dropScheme := .powell } true
          (1 : Matrix (Fin 2) (Fin 2) ℝ) 1 0 ![-1, -1] radius minHeightFactor
          farLengthFactor := by
  have hchecked : (Settings.standard : Settings Extended).checked = false := rfl
  have hscheme : (Settings.standard : Settings Extended).dropScheme = .score := rfl
  constructor
  · obtain ⟨j, hj, hchoice⟩ := (scores_decide one_le_two hchecked hscheme
      (1 : Matrix (Fin 2) (Fin 2) ℝ) 1 0 ![3, 0]).1 ⟨0, col_ne_zero isUnit_one 0⟩
    have hfirst : j = 0 := by
      have hle := hj.le 0
      fin_cases j
      · rfl
      · norm_num [weight, edgeFromBest, dotProduct, Fin.sum_univ_two] at hle
    subst hfirst
    exact hchoice
  · have hapart : (1 : Matrix (Fin 2) (Fin 2) ℝ).col 0 ≠ ![-1, -1] := by
      intro hsame
      have hentry := congrFun hsame 0
      norm_num at hentry
    refine ((scores_decide one_le_two hchecked hscheme (1 : Matrix (Fin 2) (Fin 2) ℝ) 1 0
      ![-1, -1]).2.1 ⟨0, hapart⟩).1 fun k => ?_
    fin_cases k <;>
      norm_num [weight, baseWeight, edgeFromBest, dotProduct, Fin.sum_univ_two, vecHead, vecTail]

end Simplex

end InterpolationGeometry
