import InterpolationGeometry.Proofs.Simplex.Reordering
import InterpolationGeometry.Proofs.Simplex.Scores
import InterpolationGeometry.Proofs.Simplex.Similarity

/-!
# Other numbers for the vertices

A renumbering permutes the vertices other than the base vertex: the columns of the edges, the rows
of their inverse, and the values of the objective and of the constraints at these vertices.  In
exact arithmetic every quantity of a vertex goes with it, and what belongs to the whole simplex, or
to the base vertex, stays.  So the assessment stays, the step across the face of a vertex goes with
the vertex, and each choice of a vertex, where no two vertices tie in what it compares, falls on the
same vertex under its new number.
-/

namespace InterpolationGeometry

namespace Simplex

open Scalar Matrix

variable {n : ℕ} {p : Equiv.Perm (Fin n)}

/-! ## Quantities -/

theorem isReordered_of_val {f f' : ℕ → ℝ} {g : Fin n → ℝ} (hf : ∀ k : Fin n, f k = g k)
    (hf' : ∀ k : Fin n, f' k = g (p k)) : IsReordered p n f f' := by
  intro k hk
  have hformer := formerPlace_val p ⟨k, hk⟩
  simp only at hformer
  rw [hformer, hf]
  exact hf' ⟨k, hk⟩

theorem untied_of_injective {f : ℕ → ℝ} {g : Fin n → ℝ} (hf : ∀ k : Fin n, f k = g k)
    (hg : Function.Injective g) : Untied n f := by
  intro i hi k hk heq
  have hval : g ⟨i, hi⟩ = g ⟨k, hk⟩ := (hf ⟨i, hi⟩).symm.trans (heq.trans (hf ⟨k, hk⟩))
  exact congrArg Fin.val (hg hval)

theorem exists_vertex (p : Equiv.Perm (Fin n)) {choice : Option ℕ}
    (h : ∀ j, choice = some j → j < n) :
    ∃ vertex : Option (Fin n), choice = vertex.map Fin.val ∧
      choice.map (formerPlace p) = vertex.map fun k => (p k).val := by
  cases choice with
  | none => exact ⟨none, rfl, rfl⟩
  | some j => exact ⟨some ⟨j, h j rfl⟩, rfl, congrArg some (formerPlace_val p ⟨j, h j rfl⟩)⟩

section Quantities

variable (p) (E S : Matrix (Fin n) (Fin n) ℝ) (b d : Fin n → ℝ) (improved : Bool)

theorem isReordered_columnLength :
    IsReordered p n (columnLength n (vertexEntry E b))
      (columnLength n (vertexEntry (E.submatrix id p) b)) :=
  isReordered_of_val (columnLength_val E b) (columnLength_val (E.submatrix id p) b)

theorem isReordered_rowHeight :
    IsReordered p n (rowHeight n (cell S)) (rowHeight n (cell (S.submatrix p id))) :=
  isReordered_of_val (rowHeight_val S) (rowHeight_val (S.submatrix p id))

theorem edgeFromBest_submatrix (k : Fin n) :
    edgeFromBest improved (E.submatrix id p) d k = edgeFromBest improved E d (p k) := by
  cases improved <;> rfl

theorem isReordered_gapSquare :
    IsReordered p n (gapSquare improved n (continued d) (vertexEntry E b))
      (gapSquare improved n (continued d) (vertexEntry (E.submatrix id p) b)) :=
  isReordered_of_val (gapSquare_edgeFromBest improved E b d) fun k => by
    rw [gapSquare_edgeFromBest, edgeFromBest_submatrix]

theorem isReordered_gapLength :
    IsReordered p n (gapLength improved n (continued d) (vertexEntry E b))
      (gapLength improved n (continued d) (vertexEntry (E.submatrix id p) b)) :=
  (isReordered_gapSquare p E b d improved).map Scalar.sqrt

theorem isReordered_coordinate :
    IsReordered p n (coordinate n (cell S) (continued d))
      (coordinate n (cell (S.submatrix p id)) (continued d)) :=
  isReordered_of_val (coordinate_val S d) (coordinate_val (S.submatrix p id) d)

theorem sum_coordinate_submatrix :
    sum n (coordinate n (cell (S.submatrix p id)) (continued d)) =
      sum n (coordinate n (cell S) (continued d)) := by
  rw [sum_coordinate, sum_coordinate]
  exact Equiv.sum_comp p (S *ᵥ d)

end Quantities

section Scores

variable (improved : Bool) (E S : Matrix (Fin n) (Fin n) ℝ) (b d : Fin n → ℝ)

theorem score_val (k : Fin n) :
    score n (gapSquare improved n (continued d) (vertexEntry E b))
        (baseSquare improved n (continued d)) (coordinate n (cell S) (continued d)) k =
      weight improved E S d k := by
  rw [score, if_pos k.isLt, gapSquare_edgeFromBest, coordinate_val]
  rfl

theorem score_last :
    score n (gapSquare improved n (continued d) (vertexEntry E b))
        (baseSquare improved n (continued d)) (coordinate n (cell S) (continued d)) n =
      baseWeight improved S d := by
  rw [score, if_neg (lt_irrefl n), baseSquare_val, sum_coordinate]
  rfl

/-- The scores of the vertices and of the base vertex do not tie. -/
theorem untied_score (hweights : Function.Injective (weight improved E S d))
    (hbase : ∀ k, weight improved E S d k ≠ baseWeight improved S d) :
    Untied (n + 1) (score n (gapSquare improved n (continued d) (vertexEntry E b))
      (baseSquare improved n (continued d)) (coordinate n (cell S) (continued d))) := by
  have hval := score_val improved E S b d
  have hlast := score_last improved E S b d
  have hvertices := untied_of_injective hval hweights
  have hapart : ∀ i, i < n → score n (gapSquare improved n (continued d) (vertexEntry E b))
      (baseSquare improved n (continued d)) (coordinate n (cell S) (continued d)) i ≠
      baseWeight improved S d := fun i hi => (hval ⟨i, hi⟩).trans_ne (hbase ⟨i, hi⟩)
  intro i hi k hk heq
  rcases Nat.lt_succ_iff_lt_or_eq.1 hi with hi | rfl
  · rcases Nat.lt_succ_iff_lt_or_eq.1 hk with hk | rfl
    · exact hvertices hi hk heq
    · exact absurd (heq.trans hlast) (hapart i hi)
  · rcases Nat.lt_succ_iff_lt_or_eq.1 hk with hk | rfl
    · exact absurd (heq.symm.trans hlast) (hapart k hk)
    · rfl

end Scores

/-! ## The choice for a step -/

/-- No two vertices tie in what the choice for a step compares.  The scores, among which that of the
base vertex counts, are compared only by the scheme of that name. -/
structure IsUntied (scheme : DropScheme) (improved : Bool) (E S : Matrix (Fin n) (Fin n) ℝ)
    (d : Fin n → ℝ) : Prop where
  squares : Function.Injective fun k => edgeFromBest improved E d k ⬝ᵥ edgeFromBest improved E d k
  coordinates : Function.Injective fun k => |(S *ᵥ d) k|
  weights : scheme = .score → Function.Injective (weight improved E S d)
  base : scheme = .score → ∀ k, weight improved E S d k ≠ baseWeight improved S d

section StepVertex

variable {scheme : DropScheme} {improved : Bool} {E S : Matrix (Fin n) (Fin n) ℝ} {d : Fin n → ℝ}
  (b : Fin n → ℝ)

namespace IsUntied

variable (h : IsUntied scheme improved E S d)

include h

theorem gapSquare : Untied n (gapSquare improved n (continued d) (vertexEntry E b)) :=
  untied_of_injective (gapSquare_edgeFromBest improved E b d) h.squares

theorem gapLength : Untied n (gapLength improved n (continued d) (vertexEntry E b)) := by
  intro i hi k hk heq
  refine h.gapSquare b hi hk ?_
  exact (Real.sqrt_inj (gapSquare_nonneg E b d ⟨i, hi⟩) (gapSquare_nonneg E b d ⟨k, hk⟩)).1 heq

theorem coordinate : Untied n fun k => |coordinate n (cell S) (continued d) k| :=
  untied_of_injective (fun k => congrArg (|·|) (coordinate_val S d k)) h.coordinates

end IsUntied

/-- The choice of a scheme goes with its vertex. -/
theorem stepVertex_renumbered (p : Equiv.Perm (Fin n)) (h : IsUntied scheme improved E S d)
    (minHeight farLength : ℝ) :
    stepVertex scheme improved n minHeight farLength (continued d) (vertexEntry E b) (cell S) =
      (stepVertex scheme improved n minHeight farLength (continued d)
        (vertexEntry (E.submatrix id p) b) (cell (S.submatrix p id))).map (formerPlace p) := by
  have hsquares := isReordered_gapSquare p E b d improved
  have hcoordinates := isReordered_coordinate p S d
  have hthreshold := thresholdVertex_reordered (isReordered_rowHeight p S)
    (isReordered_gapLength p E b d improved) hcoordinates (h.gapLength b) h.coordinate improved
    minHeight farLength
  cases scheme with
  | score =>
      have hbase := sum_coordinate_submatrix p S d
      have hscores := untied_score improved E S b d (h.weights rfl) (h.base rfl)
      have hchoice := scoreVertex_reordered hsquares hcoordinates hbase (h.gapSquare b) hscores
        improved
      simp only [stepVertex, hthreshold, hchoice]
  | powell => exact hthreshold
  | unlisted name => exact hthreshold

end StepVertex

/-! ## The routines -/

section Routines

variable (p : Equiv.Perm (Fin n)) (E S : Matrix (Fin n) (Fin n) ℝ) (b d : Fin n → ℝ)
  {settings : Settings ℝ} (hchecked : settings.checked = false) (radius : ℝ)

include hchecked

theorem isAcceptable_renumbered (minHeightFactor maxLengthFactor : ℝ) :
    isAcceptable settings radius minHeightFactor maxLengthFactor (ofEdges (E.submatrix id p) b)
        (.ofMatrix (S.submatrix p id)) =
      isAcceptable settings radius minHeightFactor maxLengthFactor (ofEdges E b) (.ofMatrix S) := by
  have hacceptable := areAcceptable_reordered (isReordered_rowHeight p S)
    (isReordered_columnLength p E b) (minHeightFactor * radius) (maxLengthFactor * radius)
  rw [isAcceptable_of_asMatrix (asMatrix_ofEdges _ _) (Tensor.asMatrix_ofMatrix _),
    isAcceptable_of_asMatrix (asMatrix_ofEdges _ _) (Tensor.asMatrix_ofMatrix _), hchecked,
    guarded_false, guarded_false, hacceptable]

theorem dropForGeometry_renumbered (hlengths : Function.Injective (edgeLength E))
    (hheights : Function.Injective (faceHeight S)) (minHeightFactor maxLengthFactor : ℝ) :
    ∃ vertex : Option (Fin n),
      (dropForGeometry settings radius minHeightFactor maxLengthFactor
        (ofEdges (E.submatrix id p) b) (.ofMatrix (S.submatrix p id))).result =
          .ok (vertex.map Fin.val) ∧
      (dropForGeometry settings radius minHeightFactor maxLengthFactor (ofEdges E b)
        (.ofMatrix S)).result = .ok (vertex.map fun k => (p k).val) := by
  obtain ⟨choice, hlt, hnew, hold⟩ := worstVertex_reordered (isReordered_rowHeight p S)
    (isReordered_columnLength p E b) (untied_of_injective (rowHeight_val S) hheights)
    (untied_of_injective (columnLength_val E b) hlengths) (minHeightFactor * radius)
    (maxLengthFactor * radius)
  obtain ⟨vertex, hvertex, hformer⟩ := exists_vertex p hlt
  rw [hvertex] at hnew
  rw [hformer] at hold
  rw [dropForGeometry_of_asMatrix (asMatrix_ofEdges _ _) (Tensor.asMatrix_ofMatrix _),
    dropForGeometry_of_asMatrix (asMatrix_ofEdges _ _) (Tensor.asMatrix_ofMatrix _), hchecked,
    guarded_false, guarded_false]
  exact ⟨vertex, hnew, hold⟩

theorem dropForStep_renumbered {improved : Bool}
    (h : IsUntied settings.dropScheme improved E S d) (minHeightFactor farLengthFactor : ℝ) :
    ∃ vertex : Option (Fin n),
      (dropForStep settings improved (.ofVector d) radius minHeightFactor farLengthFactor
        (ofEdges (E.submatrix id p) b) (.ofMatrix (S.submatrix p id))).result =
          .ok (vertex.map Fin.val) ∧
      (dropForStep settings improved (.ofVector d) radius minHeightFactor farLengthFactor
        (ofEdges E b) (.ofMatrix S)).result =
          .ok (vertex.map fun k => (p k).val) := by
  rw [result_dropForStep_ofEdges_unchecked _ _ b d hchecked,
    result_dropForStep_ofEdges_unchecked E S b d hchecked, stepVertex_renumbered b p h]
  refine (exists_vertex p fun j hj => ?_).imp fun vertex hvertex =>
    ⟨congrArg Except.ok hvertex.1, congrArg Except.ok hvertex.2⟩
  exact lt_of_stepVertex hj

end Routines

/-! ## The step across a face -/

section FaceStep

def withBase (p : Equiv.Perm (Fin n)) : Fin (n + 1) → Fin (n + 1) :=
  Fin.lastCases (Fin.last n) fun k => (p k).castSucc

theorem withBase_last (p : Equiv.Perm (Fin n)) : withBase p (Fin.last n) = Fin.last n :=
  Fin.lastCases_last

theorem withBase_castSucc (p : Equiv.Perm (Fin n)) (k : Fin n) :
    withBase p k.castSucc = (p k).castSucc :=
  Fin.lastCases_castSucc k

/-- The merit with the values of the renumbered vertices.  The violations, which the step does not
read, are given anew. -/
def Merit.renumbered (merit : Merit n) (p : Equiv.Perm (Fin n)) (violations : Fin (n + 1) → ℝ) :
    Merit n :=
  { merit with
    constraints := merit.constraints.submatrix id (withBase p)
    violations := violations
    values := merit.values ∘ withBase p }

theorem modelGradient_renumbered (p : Equiv.Perm (Fin n)) (S : Matrix (Fin n) (Fin n) ℝ)
    (values : Fin (n + 1) → ℝ) :
    modelGradient (S.submatrix p id) (values ∘ withBase p) = modelGradient S values := by
  ext i
  simp only [modelGradient, vecMul, dotProduct, Function.comp_apply, withBase_last,
    withBase_castSucc, submatrix_apply, id_eq]
  exact Equiv.sum_comp p fun l => (values l.castSucc - values (Fin.last n)) * S l i

theorem linearModel_renumbered (p : Equiv.Perm (Fin n)) (merit : Merit n)
    (violations : Fin (n + 1) → ℝ) (S : Matrix (Fin n) (Fin n) ℝ) (s : Fin n → ℝ) :
    (merit.renumbered p violations).linearModel (S.submatrix p id) s = merit.linearModel S s := by
  have hviolation : (merit.renumbered p violations).violation (S.submatrix p id) s =
      merit.violation S s := by
    refine Finset.fold_congr fun i _ => ?_
    show -(merit.constraints i (withBase p (Fin.last n)) +
      modelGradient (S.submatrix p id) (merit.constraints i ∘ withBase p) ⬝ᵥ s) = _
    rw [withBase_last, modelGradient_renumbered]
  rw [Merit.linearModel, Merit.linearModel, hviolation]
  show modelGradient (S.submatrix p id) (merit.values ∘ withBase p) ⬝ᵥ s + _ = _
  rw [modelGradient_renumbered]
  rfl

theorem step_renumbered {settings : Settings ℝ} (hchecked : settings.checked = false)
    (p : Equiv.Perm (Fin n)) (merit : Merit n) (violations : Fin (n + 1) → ℝ)
    {S : Matrix (Fin n) (Fin n) ℝ} {j : Fin n} (hS : S (p j) ≠ 0) (radius stepFactor : ℝ) :
    ∃ v : Fin n → ℝ,
      (merit.renumbered p violations).step settings (S.submatrix p id) ((j + 1 : ℕ) : Rat) radius
        stepFactor = pure (.ofVector v) ∧
      merit.step settings S ((p j + 1 : ℕ) : Rat) radius stepFactor = pure (.ofVector v) := by
  have hS' : S.submatrix p id j ≠ 0 := hS
  have hnormal : ∀ r, faceNormal (S.submatrix p id) j r = faceNormal S (p j) r := fun _ => rfl
  refine ⟨_, ?_, merit.step_eq_better_unchecked hS hchecked⟩
  rw [(merit.renumbered p violations).step_eq_better_unchecked hS' hchecked]
  simp only [hnormal, linearModel_renumbered]

end FaceStep

/-- In exact arithmetic and without checking, a renumbering of the vertices, base vertex apart,
changes neither the assessment nor the step across the face of any vertex, whatever the merit.
Where no two vertices tie in the lengths and in the heights, the worst vertex is the same under its
new number, and where none tie in what the choice for a step compares, so is the vertex to replace.
If there is no vertex before, there is none afterwards. -/
theorem routines_renumbered {n : ℕ} (p : Equiv.Perm (Fin n)) (E : Matrix (Fin n) (Fin n) ℝ)
    {S : Matrix (Fin n) (Fin n) ℝ} (hS : ∀ k, S k ≠ 0) (b d : Fin n → ℝ)
    {settings : Settings ℝ} (hchecked : settings.checked = false) {radius : ℝ} :
    (∀ minHeightFactor maxLengthFactor,
      isAcceptable settings radius minHeightFactor maxLengthFactor (ofEdges (E.submatrix id p) b)
          (.ofMatrix (S.submatrix p id)) =
        isAcceptable settings radius minHeightFactor maxLengthFactor (ofEdges E b)
          (.ofMatrix S)) ∧
    (∀ (merit : Merit n) (violations : Fin (n + 1) → ℝ) (j : Fin n) (stepFactor : ℝ),
      ∃ v : Fin n → ℝ,
        (merit.renumbered p violations).step settings (S.submatrix p id) ((j + 1 : ℕ) : Rat) radius
          stepFactor = pure (.ofVector v) ∧
        merit.step settings S ((p j + 1 : ℕ) : Rat) radius stepFactor = pure (.ofVector v)) ∧
    (Function.Injective (edgeLength E) → Function.Injective (faceHeight S) →
      ∀ minHeightFactor maxLengthFactor, ∃ vertex : Option (Fin n),
        (dropForGeometry settings radius minHeightFactor maxLengthFactor
          (ofEdges (E.submatrix id p) b) (.ofMatrix (S.submatrix p id))).result =
            .ok (vertex.map Fin.val) ∧
        (dropForGeometry settings radius minHeightFactor maxLengthFactor (ofEdges E b)
          (.ofMatrix S)).result = .ok (vertex.map fun k => (p k).val)) ∧
    ∀ improved, IsUntied settings.dropScheme improved E S d →
      ∀ minHeightFactor farLengthFactor, ∃ vertex : Option (Fin n),
        (dropForStep settings improved (.ofVector d) radius minHeightFactor farLengthFactor
          (ofEdges (E.submatrix id p) b) (.ofMatrix (S.submatrix p id))).result =
            .ok (vertex.map Fin.val) ∧
        (dropForStep settings improved (.ofVector d) radius minHeightFactor farLengthFactor
          (ofEdges E b) (.ofMatrix S)).result = .ok (vertex.map fun k => (p k).val) :=
  ⟨isAcceptable_renumbered p E S b hchecked radius,
    fun merit violations j stepFactor =>
      step_renumbered hchecked p merit violations (hS (p j)) radius stepFactor,
    dropForGeometry_renumbered p E S b hchecked radius,
    fun _ h => dropForStep_renumbered p E S b d hchecked radius h⟩

/-- Two vertices on the axes that trade their numbers, and a better point beyond the second. -/
theorem routines_renumbered_swap :
    (∀ k, (!![1, 0; 0, 1 / 2] : Matrix (Fin 2) (Fin 2) ℝ) k ≠ 0) ∧
    (Settings.standard : Settings ℝ).checked = false ∧
    IsUntied .score true !![1, 0; 0, 2] !![1, 0; 0, 1 / 2] ![1 / 2, 3] ∧
    ∃ vertex : Option (Fin 2),
      (dropForStep Settings.standard true (.ofVector ![1 / 2, 3]) 1 0.5 2
        (ofEdges !![0, 1; 2, 0] 0) (.ofMatrix !![0, 1 / 2; 1, 0])).result =
          .ok (vertex.map Fin.val) ∧
      (dropForStep Settings.standard true (.ofVector ![1 / 2, 3]) 1 0.5 2
        (ofEdges !![1, 0; 0, 2] 0) (.ofMatrix !![1, 0; 0, 1 / 2])).result =
          .ok (vertex.map fun k => (Equiv.swap 0 1 k).val) := by
  have hrows : ∀ k, (!![1, 0; 0, 1 / 2] : Matrix (Fin 2) (Fin 2) ℝ) k ≠ 0 := fun k hk => by
    have hentry := congrFun hk k
    fin_cases k <;> norm_num at hentry
  have hinjective : ∀ f : Fin 2 → ℝ, f 0 ≠ f 1 → Function.Injective f := fun f hne i k heq => by
    fin_cases i <;> fin_cases k
    · rfl
    · exact absurd heq hne
    · exact absurd heq.symm hne
    · rfl
  have hfirst : (!![1, 0; 0, 2] : Matrix (Fin 2) (Fin 2) ℝ).col 0 = ![1, 0] := by
    ext i
    fin_cases i <;> rfl
  have hsecond : (!![1, 0; 0, 2] : Matrix (Fin 2) (Fin 2) ℝ).col 1 = ![0, 2] := by
    ext i
    fin_cases i <;> rfl
  have hcoordinates : (!![1, 0; 0, 1 / 2] : Matrix (Fin 2) (Fin 2) ℝ) *ᵥ ![1 / 2, 3] =
      ![1 / 2, 3 / 2] := by
    ext i
    fin_cases i <;> norm_num [mulVec, dotProduct, Fin.sum_univ_two]
  have huntied : IsUntied .score true !![1, 0; 0, 2] !![1, 0; 0, 1 / 2] ![1 / 2, 3] :=
    { squares := hinjective _ (by norm_num [edgeFromBest, hfirst, hsecond])
      coordinates := hinjective _ (by norm_num [hcoordinates])
      weights := fun _ =>
        hinjective _ (by norm_num [weight, edgeFromBest, hfirst, hsecond, hcoordinates])
      base := fun _ k => by
        fin_cases k <;> norm_num [weight, baseWeight, edgeFromBest, hfirst, hsecond, hcoordinates] }
  obtain ⟨-, -, -, hstep⟩ := routines_renumbered (Equiv.swap 0 1) !![1, 0; 0, 2] hrows 0
    ![1 / 2, 3] (rfl : (Settings.standard : Settings ℝ).checked = false)
  have hedges : (!![1, 0; 0, 2] : Matrix (Fin 2) (Fin 2) ℝ).submatrix id (Equiv.swap 0 1) =
      !![0, 1; 2, 0] := by
    ext i k
    fin_cases i <;> fin_cases k <;> rfl
  have hinverse : (!![1, 0; 0, 1 / 2] : Matrix (Fin 2) (Fin 2) ℝ).submatrix (Equiv.swap 0 1) id =
      !![0, 1 / 2; 1, 0] := by
    ext i k
    fin_cases i <;> fin_cases k <;> rfl
  specialize hstep true huntied 0.5 2
  rw [hedges, hinverse] at hstep
  exact ⟨hrows, rfl, huntied, hstep⟩

end Simplex

end InterpolationGeometry
