import InterpolationGeometry.Proofs.Arithmetic.Embedding
import InterpolationGeometry.Proofs.Simplex.Choices
import InterpolationGeometry.Proofs.Simplex.Validity
import InterpolationGeometry.Simplex.Assessment

/-!
# The worst vertex and the assessment

Whether a simplex is acceptable and which vertex is dropped to mend it are two tests of the same
thresholds, and entries that are not numbers pass or fail each of them on their own.  The vertex
dropped is the first of the longest edges when some edge is too long, otherwise the first of the
thinnest faces when some height is too small, and there is none otherwise, which is reported.  So an
acceptable simplex has no vertex to drop, and one without a vertex to drop that is not acceptable
has a distance or a threshold that is not a number.  With checking on there is no such simplex: the
routine finds a vertex exactly when the assessment is negative, and fails its own condition when it
is positive.
-/

namespace InterpolationGeometry

namespace Simplex

open Scalar hiding abs

variable {α : Type} [Scalar α]

def columnLength (n : Nat) (x : Nat → Nat → α) (k : Nat) : α :=
  sqrt (sum n fun i => square (x i k))

def HasLongEdge (n : Nat) (lengths : Nat → α) (maxLength : α) : Prop :=
  ∃ k, k < n ∧ maxLength < lengths k

def HasThinFace (n : Nat) (heights : Nat → α) (minHeight : α) : Prop :=
  ∃ k, k < n ∧ heights k < minHeight

/-- A distance or a threshold is not a number. -/
def HasNaN (n : Nat) (heights lengths : Nat → α) (minHeight maxLength : α) : Prop :=
  isNaN minHeight = true ∨ isNaN maxLength = true ∨
    ∃ k, k < n ∧ (isNaN (heights k) = true ∨ isNaN (lengths k) = true)

/-! ## The vertex that is found -/

section Found

variable [Ordered α] {n : Nat} {heights lengths : Nat → α} {minHeight maxLength : α}

/-- An edge that is too long makes the first of the longest edges the one to drop. -/
theorem exists_longest (heights : Nat → α) (minHeight : α)
    (h : HasLongEdge n lengths maxLength) :
    ∃ j, Distances.worstVertex ⟨.vector n heights, .vector n lengths⟩ minHeight maxLength =
        pure (some j) ∧
      Selection.IsFirstGreatest n lengths j ∧ maxLength < lengths j := by
  obtain ⟨k, hk, hlong⟩ := h
  have hnumber := isNaN_eq_false_of_lt_right hlong
  obtain ⟨j, hj, hfirst⟩ := Selection.exists_isFirstGreatest hk hnumber
  refine ⟨j, ?_, hfirst, Scalar.lt_of_lt_of_le hlong (hfirst.le k hk hnumber)⟩
  rw [Distances.worstVertex_of_long ⟨k, hk, hlong⟩, ← Selection.offered_true, ← Selection.greatest,
    hj]

theorem exists_thinnest (hlong : ¬ HasLongEdge n lengths maxLength)
    (h : HasThinFace n heights minHeight) :
    ∃ j, Distances.worstVertex ⟨.vector n heights, .vector n lengths⟩ minHeight maxLength =
        pure (some j) ∧
      Selection.IsFirstLeast n heights j ∧ heights j < minHeight := by
  have hworst := Distances.worstVertex_of_thin hlong h
  obtain ⟨k, hk, hthin⟩ := h
  have hnumber := isNaN_eq_false_of_lt_left hthin
  obtain ⟨j, hj, hfirst⟩ := Selection.exists_isFirstLeast hk hnumber
  refine ⟨j, ?_, hfirst, Scalar.lt_of_le_of_lt (hfirst.le k hk hnumber) hthin⟩
  rw [hworst, ← Selection.offered_true, ← Selection.least, hj]

theorem worstVertex_eq_none_iff :
    (Distances.worstVertex ⟨.vector n heights, .vector n lengths⟩ minHeight maxLength).result =
        .ok none ↔
      ¬ HasLongEdge n lengths maxLength ∧ ¬ HasThinFace n heights minHeight := by
  constructor
  · intro hnone
    by_cases hlong : HasLongEdge n lengths maxLength
    · obtain ⟨j, hj, -⟩ := exists_longest heights minHeight hlong
      simp [hj] at hnone
    · refine ⟨hlong, fun hthin => ?_⟩
      obtain ⟨j, hj, -⟩ := exists_thinnest hlong hthin
      simp [hj] at hnone
  · rintro ⟨hlong, hthin⟩
    rw [Distances.worstVertex_of_neither hlong hthin]

theorem no_violation_of_areAcceptable
    (h : Distances.areAcceptable ⟨.vector n heights, .vector n lengths⟩ minHeight maxLength =
      true) :
    ¬ HasLongEdge n lengths maxLength ∧ ¬ HasThinFace n heights minHeight := by
  rw [Distances.areAcceptable_vector_iff] at h
  constructor
  · rintro ⟨k, hk, hlong⟩
    exact Scalar.not_le_of_lt hlong (h k hk).2
  · rintro ⟨k, hk, hthin⟩
    exact Scalar.not_le_of_lt hthin (h k hk).1

theorem areAcceptable_of_no_violation (hlong : ¬ HasLongEdge n lengths maxLength)
    (hthin : ¬ HasThinFace n heights minHeight)
    (hnumbers : ¬ HasNaN n heights lengths minHeight maxLength) :
    Distances.areAcceptable ⟨.vector n heights, .vector n lengths⟩ minHeight maxLength =
      true := by
  rw [Distances.areAcceptable_vector_iff]
  simp only [HasNaN, not_or, Bool.not_eq_true, not_exists, not_and] at hnumbers
  obtain ⟨hmin, hmax, hdistances⟩ := hnumbers
  intro k hk
  obtain ⟨hheight, hlength⟩ := hdistances k hk
  constructor
  · exact Scalar.le_of_not_lt hheight hmin fun h => hthin ⟨k, hk, h⟩
  · exact Scalar.le_of_not_lt hmax hlength fun h => hlong ⟨k, hk, h⟩

/-- What is acceptable has been compared, so that it is made of numbers. -/
theorem not_hasNaN_of_areAcceptable (hn : 1 ≤ n)
    (h : Distances.areAcceptable ⟨.vector n heights, .vector n lengths⟩ minHeight maxLength =
      true) :
    ¬ HasNaN n heights lengths minHeight maxLength := by
  rw [Distances.areAcceptable_vector_iff] at h
  obtain ⟨hfirst, hfirst'⟩ := h 0 hn
  simp only [HasNaN, not_or, Bool.not_eq_true, not_exists, not_and]
  refine ⟨isNaN_eq_false_of_le_left hfirst, isNaN_eq_false_of_le_right hfirst', fun k hk => ?_⟩
  exact ⟨isNaN_eq_false_of_le_right (h k hk).1, isNaN_eq_false_of_le_left (h k hk).2⟩

theorem exists_worst_of_not_areAcceptable
    (hnumbers : ¬ HasNaN n heights lengths minHeight maxLength)
    (h : Distances.areAcceptable ⟨.vector n heights, .vector n lengths⟩ minHeight maxLength =
      false) :
    ∃ j, j < n ∧
      Distances.worstVertex ⟨.vector n heights, .vector n lengths⟩ minHeight maxLength =
        pure (some j) := by
  by_cases hlong : HasLongEdge n lengths maxLength
  · obtain ⟨j, hj, hfirst, -⟩ := exists_longest heights minHeight hlong
    exact ⟨j, hfirst.lt_size, hj⟩
  · by_cases hthin : HasThinFace n heights minHeight
    · obtain ⟨j, hj, hfirst, -⟩ := exists_thinnest hlong hthin
      exact ⟨j, hfirst.lt_size, hj⟩
    · rw [areAcceptable_of_no_violation hlong hthin hnumbers] at h
      contradiction

end Found

/-! ## The two routines -/

section Routines

variable {settings : Settings α} {radius minHeightFactor maxLengthFactor : α} {n : Nat}
  {x s : Nat → Nat → α} {simplex inverse : Tensor α}

theorem isAcceptable_of_asMatrix (hsimplex : simplex.asMatrix = .matrix n (n + 1) x)
    (hinverse : inverse.asMatrix = .matrix n n s) :
    isAcceptable settings radius minHeightFactor maxLengthFactor simplex inverse =
      guarded settings.checked "ASSESS_GEO"
        (shapeChecks settings n (.matrix n (n + 1) x) (.matrix n n s) ++
          [radiusCheck radius, minHeightCheck minHeightFactor, maxLengthCheck maxLengthFactor])
        (pure (Distances.areAcceptable ⟨.vector n (rowHeight n s), .vector n (columnLength n x)⟩
          (minHeightFactor * radius) (maxLengthFactor * radius)))
        fun _ => [] := by
  have hdistances : distances (.matrix n (n + 1) x) (.matrix n n s) =
      .ok ⟨.vector n (rowHeight n s), .vector n (columnLength n x)⟩ := distances_matrix n x s
  simp only [isAcceptable, hsimplex, hinverse, Tensor.axisLength_matrix_zero, hdistances,
    Outcome.liftM_ok_bind]

def foundCheck (n : Nat) (vertex : Option Nat) : Check :=
  .that (decide (1 ≤ vertexNumber vertex) && decide (vertexNumber vertex ≤ n)) "1 <= JDROP <= N"

theorem dropForGeometry_of_asMatrix (hsimplex : simplex.asMatrix = .matrix n (n + 1) x)
    (hinverse : inverse.asMatrix = .matrix n n s) :
    dropForGeometry settings radius minHeightFactor maxLengthFactor simplex inverse =
      guarded settings.checked "SETDROP_GEO"
        (shapeChecks settings n (.matrix n (n + 1) x) (.matrix n n s) ++
          [minHeightCheck minHeightFactor, maxLengthCheck maxLengthFactor])
        (Distances.worstVertex ⟨.vector n (rowHeight n s), .vector n (columnLength n x)⟩
          (minHeightFactor * radius) (maxLengthFactor * radius))
        fun vertex => [foundCheck n vertex] := by
  have hdistances : distances (.matrix n (n + 1) x) (.matrix n n s) =
      .ok ⟨.vector n (rowHeight n s), .vector n (columnLength n x)⟩ := distances_matrix n x s
  simp only [dropForGeometry, hsimplex, hinverse, Tensor.axisLength_matrix_zero, hdistances,
    Outcome.liftM_ok_bind]
  rfl

end Routines

/-! ## With checking -/

section Checked

variable {settings : Settings α} {radius minHeightFactor maxLengthFactor : α}
  {simplex inverse : Tensor α} {n : Nat}

theorem isFinite_of_verify {routine : String} {rest : List Check}
    (h : verify routine (shapeChecks settings n simplex inverse ++ rest) = .ok ()) :
    simplex.shape = [n, n + 1] ∧ simplex.isFinite = true ∧
      inverse.shape = [n, n] ∧ inverse.isFinite = true := by
  rw [verify_eq_ok_iff] at h
  simp only [shapeChecks, Check.that, List.cons_append, List.nil_append, List.forall_mem_cons,
    Except.ok.injEq, decide_eq_true_eq] at h
  obtain ⟨-, hshape, hfinite, -, hshape', hfinite', -⟩ := h
  exact ⟨hshape, hfinite, hshape', hfinite'⟩

theorem exists_matrices {routine : String} {rest : List Check}
    (h : verify routine (shapeChecks settings n simplex inverse ++ rest) = .ok ()) :
    ∃ x s, simplex = .matrix n (n + 1) x ∧ inverse = .matrix n n s ∧
      (∀ i k, i < n → k < n + 1 → Scalar.isFinite (x i k) = true) ∧
      ∀ i k, i < n → k < n → Scalar.isFinite (s i k) = true := by
  obtain ⟨hshape, hfinite, hshape', hfinite'⟩ := isFinite_of_verify h
  have hsimplex := Tensor.eq_matrix_of_shape hshape
  have hinverse := Tensor.eq_matrix_of_shape hshape'
  rw [hsimplex, Tensor.isFinite, Tensor.all_matrix_iff] at hfinite
  rw [hinverse, Tensor.isFinite, Tensor.all_matrix_iff] at hfinite'
  exact ⟨_, _, hsimplex, hinverse, hfinite, hfinite'⟩

theorem not_hasNaN_of_finite [Measured α] {x s : Nat → Nat → α}
    (hx : ∀ i k, i < n → k < n + 1 → Scalar.isFinite (x i k) = true)
    (hs : ∀ i k, i < n → k < n → Scalar.isFinite (s i k) = true) (hradius : 0 < radius)
    (hmin : 0 < minHeightFactor) (hmax : 0 < maxLengthFactor) :
    ¬ HasNaN n (rowHeight n s) (columnLength n x) (minHeightFactor * radius)
      (maxLengthFactor * radius) := by
  simp only [HasNaN, not_or, Bool.not_eq_true, not_exists, not_and]
  refine ⟨Measured.isNaN_mul hmin hradius, Measured.isNaN_mul hmax hradius, fun k hk => ⟨?_, ?_⟩⟩
  · exact Measured.isNaN_one_div_length fun l hl => hs k l hk hl
  · exact Measured.isNaN_length fun i hi => hx i k hi (by omega)

/-- A checked assessment is one of a simplex in which everything compared is a number, and that
passes the conditions on the arguments of the other routine as well. -/
theorem exists_of_isAcceptable [Measured α] (hchecked : settings.checked = true) {accepted : Bool}
    (h : (isAcceptable settings radius minHeightFactor maxLengthFactor simplex inverse).result =
      .ok accepted) :
    ∃ n x s, simplex.asMatrix = .matrix n (n + 1) x ∧ inverse.asMatrix = .matrix n n s ∧
      accepted = Distances.areAcceptable
        ⟨.vector n (rowHeight n s), .vector n (columnLength n x)⟩ (minHeightFactor * radius)
        (maxLengthFactor * radius) ∧
      ¬ HasNaN n (rowHeight n s) (columnLength n x) (minHeightFactor * radius)
        (maxLengthFactor * radius) ∧
      verify "SETDROP_GEO" (shapeChecks settings n (.matrix n (n + 1) x) (.matrix n n s) ++
        [minHeightCheck minHeightFactor, maxLengthCheck maxLengthFactor]) = .ok () := by
  cases hn : simplex.asMatrix.axisLength 0 with
  | error cause => simp [isAcceptable, hn, Outcome.fail] at h
  | ok n =>
      have hguarded := h
      simp only [isAcceptable, hn, hchecked, Outcome.liftM_ok_bind] at hguarded
      obtain ⟨hverify, -⟩ := verify_of_guarded_ok hguarded
      obtain ⟨x, s, hsimplex, hinverse, hx, hs⟩ := exists_matrices hverify
      rw [isAcceptable_of_asMatrix hsimplex hinverse, hchecked] at h
      rw [guarded_true_of_ok h] at h
      rw [hsimplex, hinverse, verify_eq_ok_iff] at hverify
      have hrest : ∀ check ∈ [radiusCheck radius, minHeightCheck minHeightFactor,
          maxLengthCheck maxLengthFactor], check.holds = .ok true :=
        fun check hmem => hverify check (List.mem_append_right _ hmem)
      simp only [radiusCheck, minHeightCheck, maxLengthCheck, Check.that, List.forall_mem_cons,
        Except.ok.injEq, Bool.and_eq_true, decide_eq_true_eq] at hrest
      obtain ⟨hradius, ⟨hmin, hlow⟩, hmax, -⟩ := hrest
      -- The least factor is below one and the greatest above, so that the latter is positive.
      have hpos : 0 < maxLengthFactor :=
        Scalar.lt_of_lt_of_le (Scalar.lt_of_lt_of_le hmin (Scalar.le_of_lt hlow))
          (Scalar.le_of_lt hmax)
      refine ⟨n, x, s, hsimplex, hinverse, (Except.ok.inj h).symm,
        not_hasNaN_of_finite hx hs hradius hmin hpos, verify_eq_ok_iff.2 fun check hmem => ?_⟩
      apply hverify
      rcases List.mem_append.1 hmem with hshape | hfactor
      · exact List.mem_append_left _ hshape
      · exact List.mem_append_right _ (List.mem_cons_of_mem _ hfactor)

end Checked

/-- The routine that drops a vertex agrees with the assessment, whatever the entries. -/
theorem dropForGeometry_agrees [Measured α] (settings : Settings α)
    (radius minHeightFactor maxLengthFactor : α) :
    (settings.checked = false → ∀ (n : Nat) (x s : Nat → Nat → α),
      let run := dropForGeometry settings radius minHeightFactor maxLengthFactor
        (.matrix n (n + 1) x) (.matrix n n s)
      let length := fun k => sqrt (sum n fun i => square (x i k))
      let height := fun k => 1 / sqrt (sum n fun l => square (s k l))
      let long := ∃ k, k < n ∧ maxLengthFactor * radius < length k
      let thin := ∃ k, k < n ∧ height k < minHeightFactor * radius
      (long → ∃ j, run = pure (some j) ∧ Selection.IsFirstGreatest n length j ∧
        maxLengthFactor * radius < length j) ∧
      (¬ long → thin → ∃ j, run = pure (some j) ∧ Selection.IsFirstLeast n height j ∧
        height j < minHeightFactor * radius) ∧
      (¬ long → ¬ thin → run = { log := [.noVertexForGeometry], result := .ok none }) ∧
      ∃ accepted,
        isAcceptable settings radius minHeightFactor maxLengthFactor (.matrix n (n + 1) x)
          (.matrix n n s) = pure accepted ∧
        (accepted = true → run.result = .ok none) ∧
        (accepted = false → run.result = .ok none →
          isNaN (minHeightFactor * radius) = true ∨ isNaN (maxLengthFactor * radius) = true ∨
            ∃ k, k < n ∧ (isNaN (height k) = true ∨ isNaN (length k) = true))) ∧
    (settings.checked = true → ∀ simplex inverse : Tensor α,
      let run := dropForGeometry settings radius minHeightFactor maxLengthFactor simplex inverse
      let assessment :=
        isAcceptable settings radius minHeightFactor maxLengthFactor simplex inverse
      (assessment.result = .ok true →
        run = { log := [.noVertexForGeometry],
                result := .error (.contract "SETDROP_GEO" "1 <= JDROP <= N") }) ∧
      (assessment.result = .ok false →
        ∃ n j, simplex.asMatrix.axisLength 0 = .ok n ∧ j < n ∧ run = pure (some j))) := by
  constructor
  · intro hchecked n x s run length height long thin
    have hrun : run = Distances.worstVertex ⟨.vector n height, .vector n length⟩
        (minHeightFactor * radius) (maxLengthFactor * radius) := by
      show dropForGeometry settings radius minHeightFactor maxLengthFactor _ _ = _
      rw [dropForGeometry_of_asMatrix rfl rfl, hchecked, guarded_false]
      rfl
    have hassessment : isAcceptable settings radius minHeightFactor maxLengthFactor
        (.matrix n (n + 1) x) (.matrix n n s) =
        pure (Distances.areAcceptable ⟨.vector n height, .vector n length⟩
          (minHeightFactor * radius) (maxLengthFactor * radius)) := by
      rw [isAcceptable_of_asMatrix rfl rfl, hchecked, guarded_false]
      rfl
    rw [hrun]
    refine ⟨exists_longest height _, exists_thinnest, Distances.worstVertex_of_neither, _, hassessment,
      fun haccepted => ?_, fun hrejected hnone => ?_⟩
    · exact worstVertex_eq_none_iff.2 (no_violation_of_areAcceptable haccepted)
    · obtain ⟨hlong, hthin⟩ := worstVertex_eq_none_iff.1 hnone
      by_contra hnumbers
      rw [areAcceptable_of_no_violation hlong hthin hnumbers] at hrejected
      contradiction
  · intro hchecked simplex inverse run assessment
    constructor
    · intro haccepted
      obtain ⟨n, x, s, hsimplex, hinverse, hvalue, -, hverify⟩ :=
        exists_of_isAcceptable hchecked haccepted
      obtain ⟨hlong, hthin⟩ := no_violation_of_areAcceptable hvalue.symm
      show dropForGeometry settings radius minHeightFactor maxLengthFactor simplex inverse = _
      rw [dropForGeometry_of_asMatrix hsimplex hinverse, hchecked, guarded_true_of_verify hverify,
        Distances.worstVertex_of_neither hlong hthin]
      rfl
    · intro hrejected
      obtain ⟨n, x, s, hsimplex, hinverse, hvalue, hnumbers, hverify⟩ :=
        exists_of_isAcceptable hchecked hrejected
      obtain ⟨j, hj, hworst⟩ := exists_worst_of_not_areAcceptable hnumbers hvalue.symm
      refine ⟨n, j, by rw [hsimplex, Tensor.axisLength_matrix_zero], hj, ?_⟩
      show dropForGeometry settings radius minHeightFactor maxLengthFactor simplex inverse = _
      rw [dropForGeometry_of_asMatrix hsimplex hinverse, hchecked]
      refine guarded_eq_pure hworst (fun _ => hverify) fun _ => ?_
      simp [verify, foundCheck, Check.that, Nat.succ_le_of_lt hj, bind, Except.bind]

noncomputable def unitEdges : Matrix (Fin 2) (Fin 2) ℝ := 1

open Matrix in
theorem isAcceptable_unit_edges :
    (isAcceptable { (Settings.standard : Settings ℝ) with checked := true } 1 0.25 2.1
      (ofEdges unitEdges 0) (.ofMatrix unitEdges⁻¹)).result = .ok true := by
  have hunit : IsUnit unitEdges := isUnit_one
  have hacceptable : Distances.areAcceptable ⟨.ofVector (faceHeight unitEdges⁻¹),
      .ofVector (edgeLength unitEdges)⟩ (0.25 * 1) (2.1 * 1) = true := by
    rw [Tensor.ofVector, Tensor.ofVector, Distances.areAcceptable_vector_iff]
    intro k hk
    rw [continued_of_lt _ hk, continued_of_lt _ hk]
    simp only [faceHeight, edgeLength, unitEdges, inv_one, dotProduct, one_apply, col_apply]
    norm_num
  simp only [isAcceptable, asMatrix_ofEdges, Tensor.asMatrix_ofMatrix, axisLength_ofEdges,
    Outcome.liftM_ok_bind]
  refine congrArg Outcome.result (guarded_eq_pure (?_ : _ = pure true) (fun _ => ?_) fun _ => rfl)
  · rw [distances_ofEdges, Outcome.liftM_ok_bind, hacceptable]
  · refine verify_eq_ok_iff.2 fun check hmem => ?_
    rcases List.mem_append.1 hmem with hshape | hrest
    · exact holds_of_mem_shapeChecks one_le_two (by norm_num [Settings.standard]) hunit 0 hshape
    · simp only [radiusCheck, minHeightCheck, maxLengthCheck, Check.that, List.mem_cons,
        List.not_mem_nil, or_false] at hrest
      rcases hrest with rfl | rfl | rfl <;> norm_num

theorem lt_columnLength_of_threes {x : Nat → Nat → Extended} {k : Nat}
    (h : ∀ i, x i k = .finite 3) : (2.1 * 1 : Extended) < columnLength 2 x k := by
  have hroot : (2.1 * 1 : ℝ) < √(0 + 3 ^ 2 + 3 ^ 2) := Real.lt_sqrt_of_sq_lt (by norm_num)
  show (.finite (2.1 * 1) : Extended) < _
  simp only [columnLength, h, sum_succ, sum_zero, Extended.zero_eq, Extended.square_finite,
    Extended.finite_add]
  rw [Extended.sqrt_finite (by norm_num), Extended.finite_lt_finite]
  exact hroot

/-- An edge that is too long is found beside a vertex that is not known at all, and a checked
simplex that is acceptable has no vertex to drop. -/
theorem dropForGeometry_agrees_of_nan :
    (∃ j, dropForGeometry (Settings.standard : Settings Extended) 1 0.25 2.1
        (.matrix 2 3 fun _ k => if k = 0 then .nan else .finite 3) (.matrix 2 2 fun _ _ => 1) =
          pure (some j) ∧
      (2.1 * 1 : Extended) < sqrt (sum 2 fun _ => square (if j = 0 then .nan else .finite 3))) ∧
    dropForGeometry { (Settings.standard : Settings ℝ) with checked := true } 1 0.25 2.1
        (ofEdges unitEdges 0) (.ofMatrix unitEdges⁻¹) =
      { log := [.noVertexForGeometry],
        result := .error (.contract "SETDROP_GEO" "1 <= JDROP <= N") } := by
  constructor
  · have hlong : (2.1 * 1 : Extended) < sqrt (sum 2 fun _ => square (.finite 3)) :=
      lt_columnLength_of_threes (x := fun _ _ => .finite 3) (k := 1) fun _ => rfl
    obtain ⟨j, hj, -, hlt⟩ := ((dropForGeometry_agrees (Settings.standard : Settings Extended) 1
      0.25 2.1).1 rfl 2 (fun _ k => if k = 0 then .nan else .finite 3) fun _ _ => 1).1
        ⟨1, one_lt_two, hlong⟩
    exact ⟨j, hj, hlt⟩
  · exact ((dropForGeometry_agrees { (Settings.standard : Settings ℝ) with checked := true } 1
      0.25 2.1).2 rfl _ _).1 isAcceptable_unit_edges

end Simplex

end InterpolationGeometry
