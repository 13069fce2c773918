import InterpolationGeometry.Proofs.Control.DropReport
import InterpolationGeometry.Proofs.Simplex.FiniteFaceStep
import InterpolationGeometry.Proofs.Simplex.Scores

/-!
# The step after an accepted drop

With checking on, a vertex is only dropped from finite edges beside a finite matrix that passes as
their inverse.  The step for that vertex then has the length it was meant to have, unless the row of
the vertex in the matrix is zero: then the routine divides by zero.  The test of the inverse excludes
a zero row only while all row sums are below ten, because its bound grows with them.
-/

namespace InterpolationGeometry

namespace Control

open Scalar hiding abs
open Simplex hiding isAcceptable dropForGeometry faceStep
open Extended Matrix

noncomputable def checkedSettings : Settings Extended := { Settings.standard with checked := true }

noncomputable def stepFor {n : ℕ} (settings : Settings Extended) (inverse : Tensor Extended)
    (merit : Merit n) (number : Rat) (radius : Extended) : Outcome Extended (FaceReport Extended) := do
  let problem ← FaceProblem.ofTensors inverse (.finiteMatrix merit.constraints)
    (.finiteVector merit.violations) (.finiteVector merit.values)
  faceStep settings problem number (.finite merit.penalty) radius

/-! ## What a checked drop says -/

section Drop

variable {settings : Settings Extended} {radius : Extended} {simplex inverse : Tensor Extended}
  {drop : GeometryDrop Extended}

theorem dropForGeometry_of_matrices {n : ℕ} {x s : ℕ → ℕ → Extended}
    (hsimplex : simplex.asMatrix = .matrix n (n + 1) x)
    (hinverse : inverse.asMatrix = .matrix n n s) :
    dropForGeometry settings radius simplex inverse =
      dropForGeometry settings radius (.matrix n (n + 1) x) (.matrix n n s) := by
  simp only [dropForGeometry, distanceReport, dropForGeometry_of_asMatrix hsimplex hinverse,
    dropForGeometry_of_asMatrix (Tensor.asMatrix_matrix n (n + 1) x) (Tensor.asMatrix_matrix n n s),
    hsimplex, hinverse, Tensor.asMatrix_matrix]

/-- A checked drop is from finite edges beside a finite matrix that passes as their inverse. -/
theorem exists_accepted (hchecked : settings.checked = true)
    (h : (dropForGeometry settings radius simplex inverse).result = .ok drop) :
    ∃ (n : ℕ) (x : ℕ → ℕ → Extended) (E S : Matrix (Fin n) (Fin n) ℝ),
      simplex.asMatrix = .matrix n (n + 1) x ∧ inverse.asMatrix = .finiteMatrix S ∧
      1 ≤ n ∧ edges simplex.asMatrix = .ok (.finiteMatrix E) ∧
      (Tensor.finiteMatrix E).isInverse settings.inverseTolerance (.finiteMatrix S) = .ok true := by
  obtain ⟨vertex, hvertex, -⟩ := Outcome.exists_of_bind_ok h
  cases hn : simplex.asMatrix.axisLength 0 with
  | error cause => simp [Simplex.dropForGeometry, hn, Outcome.fail] at hvertex
  | ok n =>
      simp only [Simplex.dropForGeometry, hn, hchecked, Outcome.liftM_ok_bind] at hvertex
      obtain ⟨hverify, -⟩ := verify_of_guarded_ok hvertex
      obtain ⟨x, s, hsimplex, hinverse, hx, hs⟩ := exists_matrices hverify
      obtain ⟨E, hE⟩ := Tensor.exists_finiteMatrix fun i k (hi : i < n) (hk : k < n) =>
        hx i k hi (Nat.lt_succ_of_lt hk)
      obtain ⟨S, hS⟩ := Tensor.exists_finiteMatrix hs
      have hedges : simplex.asMatrix.leadingColumns n = .ok (.finiteMatrix E) := by
        rw [hsimplex, Tensor.leadingColumns_matrix, Nat.min_eq_left (Nat.le_succ n), hE]
      rw [verify_eq_ok_iff] at hverify
      simp only [shapeChecks, Check.that, List.cons_append, List.nil_append,
        List.forall_mem_cons, Except.ok.injEq, decide_eq_true_eq, hedges, hinverse, hS, bind,
        Except.bind] at hverify
      obtain ⟨hpos, -, -, -, -, -, htest, -⟩ := hverify
      refine ⟨n, x, E, S, hsimplex, hinverse.trans hS, hpos, ?_, htest⟩
      rw [edges, hn]
      exact hedges

/-- A vertex whose height is infinite is only dropped for its edge. -/
theorem reason_of_infinite_height {n j : ℕ} {x s : ℕ → ℕ → Extended} (hn : 1 ≤ n)
    (hchecked : settings.checked = true)
    (h : (dropForGeometry settings radius (.matrix n (n + 1) x) (.matrix n n s)).result = .ok drop)
    (hvertex : drop.vertex = some j) (hheight : rowHeight n s j = infinite false) :
    drop.reason = .longEdge := by
  have hcoherent := coherent_of_not_misreports hn h (not_misreports_of_checked hchecked h)
  refine hcoherent.longEdge_iff.2 (not_not.1 fun hlong => ?_)
  have hthin : HasThinFace n (rowHeight n s) (settings.minHeightFactor * radius) := by
    by_contra hthin
    rw [(vertex_eq_none_iff h).2 ⟨hlong, hthin⟩] at hvertex
    contradiction
  obtain ⟨j', hj', hfirst⟩ := exists_vertex_of_thin h hlong hthin
  obtain rfl : j' = j := Option.some.inj (hj'.symm.trans hvertex)
  obtain ⟨k, hk, hlt⟩ := hthin
  have hle := hfirst.le k hk (isNaN_eq_false_of_lt_left hlt)
  rw [hheight] at hle
  exact not_infinite_lt _ (Scalar.lt_of_le_of_lt hle hlt)

theorem rowHeight_of_zero {n : ℕ} {S : Matrix (Fin n) (Fin n) ℝ} {j : Fin n} (hS : S j = 0) :
    rowHeight n (fun i k => Extended.finite (cell S i k)) j = infinite false := by
  have hsquare : (sum n fun l => square (Extended.finite (cell S j l))) = .finite 0 := by
    simp only [square_finite, sum_finite]
    rw [← dotProduct_zero (S j), ← hS, ← sum_square_row]
    simp only [square_real]
  rw [rowHeight, hsquare, sqrt_finite le_rfl, Real.sqrt_zero, one_eq, one_div_zero]

end Drop

/-! ## The step -/

section Step

variable {n : ℕ} {S : Matrix (Fin n) (Fin n) ℝ} {j : Fin n} {inverse : Tensor Extended} {δ : ℝ}

theorem stepFor_eq (merit : Merit n) (h : inverse.asMatrix = .finiteMatrix S) (number : Rat)
    (radius : Extended) :
    stepFor checkedSettings inverse merit number radius =
      faceStep checkedSettings (merit.finiteProblem S) number (.finite merit.penalty) radius := by
  rw [stepFor, merit.ofTensors_finite h, Outcome.liftM_ok_bind]

variable (h : inverse.asMatrix = .finiteMatrix S) (hδ : 0 < δ) {merit : Merit n}
  (hmerit : merit.IsAdmissible)

include h hδ hmerit

theorem exists_stepFor_of_ne_zero (hS : S j ≠ 0) :
    ∃ d : Fin n → ℝ, √(d ⬝ᵥ d) = 0.5 * δ ∧
      (stepFor checkedSettings inverse merit ((j + 1 : ℕ) : Rat) (.finite δ)).result =
        .ok { step := .finiteVector d, number := j + 1, length := .finite (0.5 * δ),
              targetLength := .finite (0.5 * δ) } := by
  have hhalf : (0 : ℝ) < 0.5 := by norm_num
  obtain ⟨d, hlength, hstep⟩ := merit.exists_faceStep_of_ne_zero checkedSettings
    hmerit hδ hhalf (by norm_num) hS
  have hroot : √(d ⬝ᵥ d) = 0.5 * δ := by
    rw [hlength, Real.sqrt_sq (mul_pos hhalf hδ).le]
  refine ⟨d, hroot, ?_⟩
  have hfactor : checkedSettings.stepFactor = .finite 0.5 := rfl
  rw [stepFor_eq merit h, faceStep, hfactor, hstep, pure_bind, placeOfNumber_ofNat,
    Tensor.norm_finiteVector, hroot, finite_mul]
  rfl

theorem result_stepFor_of_zero (hS : S j = 0) :
    (stepFor checkedSettings inverse merit ((j + 1 : ℕ) : Rat) (.finite δ)).result =
      .error .divisionByZero := by
  have hstep := merit.result_faceStep_of_zero checkedSettings hmerit hδ
    (by norm_num : (0 : ℝ) < 0.5) (by norm_num) hS
  have hfactor : checkedSettings.stepFactor = .finite 0.5 := rfl
  rw [stepFor_eq merit h, faceStep, hfactor, Outcome.bind_of_error hstep]

end Step

/-- With checking and otherwise the standard settings, the step for a dropped vertex has half the
length of the radius exactly when the row of the vertex is not zero, and is a division by zero when
it is.  A vertex with a zero row is only dropped for its edge, from edges or beside a matrix with a
row sum of at least ten. -/
theorem stepFor_dropped {δ : ℝ} (hδ : 0 < δ) {simplex inverse : Tensor Extended}
    {drop : GeometryDrop Extended}
    (h : (dropForGeometry checkedSettings (.finite δ) simplex inverse).result = .ok drop) :
    ∃ (n : ℕ) (E S : Matrix (Fin n) (Fin n) ℝ) (j : Fin n),
      edges simplex.asMatrix = .ok (.finiteMatrix E) ∧ inverse.asMatrix = .finiteMatrix S ∧
      drop.vertex = some (j : ℕ) ∧
      (∀ merit : Merit n, merit.IsAdmissible →
        let run := stepFor checkedSettings inverse merit (vertexNumber drop.vertex : ℕ) (.finite δ)
        (S j ≠ 0 → ∃ d : Fin n → ℝ, √(d ⬝ᵥ d) = 0.5 * δ ∧
          run.result = .ok { step := .finiteVector d, number := j + 1,
                             length := .finite (0.5 * δ), targetLength := .finite (0.5 * δ) }) ∧
        (S j = 0 → run.result = .error .divisionByZero)) ∧
      (S j = 0 → drop.reason = .longEdge ∧
        ∃ i, 10 ≤ Tensor.rowSum E i ∨ 10 ≤ Tensor.rowSum S i) := by
  obtain ⟨n, x, E, S, hsimplex, hinverse, hn, hedges, htest⟩ := exists_accepted rfl h
  rw [dropForGeometry_of_matrices hsimplex hinverse] at h
  obtain ⟨j, hj⟩ := Option.ne_none_iff_exists'.1 (vertex_ne_none_of_checked rfl h)
  have hlt : j < n := vertex_lt_of_checked rfl h hj
  refine ⟨n, E, S, ⟨j, hlt⟩, hedges, hinverse, hj, fun merit hmerit => ?_, fun hS => ?_⟩
  · rw [hj, vertexNumber_some]
    exact ⟨exists_stepFor_of_ne_zero hinverse hδ hmerit, result_stepFor_of_zero hinverse hδ hmerit⟩
  · refine ⟨reason_of_infinite_height hn rfl h hj (rowHeight_of_zero hS), ?_⟩
    have htolerance : checkedSettings.inverseTolerance = .finite 0.1 := rfl
    rw [htolerance, Tensor.isInverse_finiteMatrix] at htest
    obtain ⟨i, hi⟩ := Tensor.exists_rowSum_of_isInverse (by norm_num) htest hS
    refine ⟨i, hi.imp (fun hle => ?_) fun hle => ?_⟩
    · norm_num at hle
      linarith
    · norm_num at hle
      linarith

/-! ## A long edge -/

section LongEdge

variable {n : ℕ} {E S : Matrix (Fin n) (Fin n) ℝ} {b : Fin n → ℝ}

theorem leadingColumns_finiteSimplex :
    (finiteSimplex E b).leadingColumns n = .ok (.finiteMatrix E) := by
  rw [finiteSimplex, Tensor.leadingColumns_matrix, Nat.min_eq_left (Nat.le_succ n)]
  congr 1
  refine Tensor.matrix_congr fun i k hi hk => ?_
  rw [cell_of_lt E hi hk]
  exact congrArg Extended.finite (vertexEntry_val E b ⟨i, hi⟩ ⟨k, hk⟩)

theorem hasNoZeroEdge_finiteSimplex (h : ∀ k, E.col k ≠ 0) :
    hasNoZeroEdge n (finiteSimplex E b) = true := by
  rw [finiteSimplex, hasNoZeroEdge_matrix_iff]
  intro k hk
  obtain ⟨i, hi, hne⟩ := exists_vertexEntry_ne_zero hk (h ⟨k, hk⟩) b
  refine ⟨i, hi, ?_⟩
  rw [abs_finite, zero_eq, finite_lt_finite]
  exact abs_pos.2 hne

theorem columnLength_finiteSimplex (k : Fin n) :
    columnLength n (fun i l => .finite (vertexEntry E b i l)) k =
      Extended.finite (edgeLength E k) := by
  have hsquare : (sum n fun i => vertexEntry E b i k ^ 2) = E.col k ⬝ᵥ E.col k := by
    simp [sum_real, dotProduct, pow_two]
  simp only [columnLength, square_finite, sum_finite]
  rw [hsquare, sqrt_finite (dotProduct_self_nonneg _)]
  rfl

variable (hn : 1 ≤ n) (hcols : ∀ k, E.col k ≠ 0)
  (htest : Tensor.isInverse (0.1 : ℝ) (.ofMatrix E) (.ofMatrix S) = .ok true)

include hn hcols htest

theorem verify_of_isInverse :
    verify "SETDROP_GEO" (shapeChecks checkedSettings n (finiteSimplex E b) (.finiteMatrix S) ++
      [minHeightCheck checkedSettings.minHeightFactor,
        maxLengthCheck checkedSettings.maxLengthFactor]) = .ok () := by
  have hfinite : (finiteSimplex E b).isFinite = true :=
    Tensor.all_matrix_iff.2 fun _ _ _ _ => rfl
  have htolerance : checkedSettings.inverseTolerance = .finite 0.1 := rfl
  have hinverse : (Tensor.finiteMatrix E).isInverse checkedSettings.inverseTolerance
      (.finiteMatrix S) = .ok true := by
    rw [htolerance, Tensor.isInverse_finiteMatrix, htest]
  have hmin : decide (0 < checkedSettings.minHeightFactor) = true ∧
      decide (checkedSettings.minHeightFactor < 1) = true := by
    have hfactor : checkedSettings.minHeightFactor = .finite 0.25 := rfl
    rw [hfactor, zero_eq, one_eq, decide_eq_true_eq, decide_eq_true_eq, finite_lt_finite,
      finite_lt_finite]
    norm_num
  have hmax : decide (1 < checkedSettings.maxLengthFactor) = true := by
    have hfactor : checkedSettings.maxLengthFactor = .finite 2.1 := rfl
    rw [hfactor, one_eq, decide_eq_true_eq, finite_lt_finite]
    norm_num
  have hshape : (finiteSimplex E b).shape = [n, n + 1] := rfl
  have hshape' : (Tensor.finiteMatrix S).shape = [n, n] := rfl
  rw [verify_eq_ok_iff]
  simp only [shapeChecks, minHeightCheck, maxLengthCheck, Check.that, List.cons_append,
    List.nil_append, List.forall_mem_cons, leadingColumns_finiteSimplex, hfinite,
    hasNoZeroEdge_finiteSimplex hcols, hinverse, hmin, hmax, hshape, hshape',
    Tensor.isFinite_finiteMatrix, bind, Except.bind]
  simp [hn]

/-- If an edge is too long, a longest one is dropped beside what passes as the inverse. -/
theorem exists_drop_of_long {δ : ℝ} (hlong : ∃ k, 2.1 * δ < edgeLength E k) :
    ∃ (drop : GeometryDrop Extended) (j : Fin n),
      (dropForGeometry checkedSettings (.finite δ) (finiteSimplex E b)
        (.finiteMatrix S)).result = .ok drop ∧ drop.vertex = some (j : ℕ) ∧
      ∀ k, edgeLength E k ≤ edgeLength E j := by
  set x : ℕ → ℕ → Extended := fun i k => .finite (vertexEntry E b i k) with hx
  have htooLong : HasLongEdge n (columnLength n x)
      (checkedSettings.maxLengthFactor * .finite δ) := by
    have hfactor : checkedSettings.maxLengthFactor = .finite 2.1 := rfl
    obtain ⟨k, hk⟩ := hlong
    refine ⟨k, k.isLt, ?_⟩
    rw [hfactor, finite_mul, hx, columnLength_finiteSimplex, finite_lt_finite]
    exact hk
  obtain ⟨j, hj, hfirst, -⟩ := exists_longest
    (rowHeight n fun i k => Extended.finite (cell S i k))
    (checkedSettings.minHeightFactor * .finite δ) htooLong
  have hrun : Simplex.dropForGeometry checkedSettings (.finite δ) checkedSettings.minHeightFactor
      checkedSettings.maxLengthFactor (.matrix n (n + 1) x)
      (.matrix n n fun i k => .finite (cell S i k)) = pure (some j) := by
    rw [dropForGeometry_of_asMatrix (Tensor.asMatrix_matrix _ _ _) (Tensor.asMatrix_matrix _ _ _)]
    refine guarded_eq_pure hj (fun _ => verify_of_isInverse hn hcols htest) fun _ => ?_
    simp [verify, foundCheck, Check.that, hfirst.lt_size, bind, Except.bind]
  have hdrop := dropForGeometry_matrix checkedSettings (.finite δ) n x
    fun i k => .finite (cell S i k)
  rw [hrun, pure_bind] at hdrop
  refine ⟨_, ⟨j, hfirst.lt_size⟩, congrArg Outcome.result hdrop, rfl, fun k => ?_⟩
  have hnumber : isNaN (columnLength n x k) = false := by
    rw [hx, columnLength_finiteSimplex, isNaN_finite]
  have hle := hfirst.le k k.isLt hnumber
  have hlength := columnLength_finiteSimplex (E := E) (b := b) ⟨j, hfirst.lt_size⟩
  rwa [hx, columnLength_finiteSimplex, hlength, finite_le_finite] at hle

end LongEdge

/-- Two edges at a right angle, of lengths twenty and one. -/
noncomputable def twentyByOne : Matrix (Fin 2) (Fin 2) ℝ := diagonal ![20, 1]

/-- What passes as their inverse is twice the inverse in the first row. -/
noncomputable def tenthByOne : Matrix (Fin 2) (Fin 2) ℝ := diagonal ![1 / 10, 1]

theorem edgeLength_twentyByOne : edgeLength twentyByOne = ![20, 1] := by
  funext k
  rw [twentyByOne, edgeLength_diagonal]
  fin_cases k <;> norm_num

theorem tenthByOne_row_ne_zero (j : Fin 2) : tenthByOne j ≠ 0 := by
  intro hzero
  have hentry := congrFun hzero j
  fin_cases j <;> simp [tenthByOne] at hentry

/-- The step for the edge of length twenty has half the length of the radius, although what passes
as the inverse is not one. -/
theorem stepFor_dropped_of_twenty_by_one :
    ∃ drop, (dropForGeometry checkedSettings (.finite 1) (finiteSimplex twentyByOne 0)
        (.finiteMatrix tenthByOne)).result = .ok drop ∧ drop.vertex = some 0 ∧
      (Merit.flat 2).IsAdmissible ∧
      ∃ report, (stepFor checkedSettings (.finiteMatrix tenthByOne) (Merit.flat 2)
          (vertexNumber drop.vertex : ℕ) (.finite 1)).result = .ok report ∧
        report.length = .finite 0.5 := by
  have hmerit := Merit.flat_isAdmissible 2
  have hcols : ∀ k, twentyByOne.col k ≠ 0 := by
    intro k
    rw [twentyByOne, col_diagonal, Pi.single_ne_zero_iff]
    fin_cases k <;> norm_num
  have htest : Tensor.isInverse (0.1 : ℝ) (.ofMatrix twentyByOne) (.ofMatrix tenthByOne) =
      .ok true := by
    refine Tensor.isInverse_diagonal (by norm_num) 0 fun k => ?_
    fin_cases k <;> norm_num
  have hlong : ∃ k, 2.1 * 1 < edgeLength twentyByOne k := by
    refine ⟨0, ?_⟩
    rw [edgeLength_twentyByOne]
    norm_num
  obtain ⟨drop, k, hdrop, hvertex, hlongest⟩ :=
    exists_drop_of_long (b := 0) one_le_two hcols htest hlong
  have hk : k = 0 := by
    have hle := hlongest 0
    rw [edgeLength_twentyByOne] at hle
    fin_cases k
    · rfl
    · norm_num at hle
  obtain ⟨n, E, S, j, -, hinverse, -, hstep, -⟩ := stepFor_dropped one_pos hdrop
  rw [Tensor.asMatrix_finiteMatrix] at hinverse
  obtain rfl : 2 = n := by
    have hshape := congrArg Tensor.shape hinverse
    simpa [Tensor.finiteMatrix] using hshape
  obtain rfl : tenthByOne = S := Tensor.finiteMatrix_injective hinverse
  obtain ⟨d, -, hrun⟩ := (hstep (Merit.flat 2) hmerit).1 (tenthByOne_row_ne_zero j)
  rw [mul_one] at hrun
  rw [hk] at hvertex
  exact ⟨drop, hdrop, hvertex, hmerit, _, hrun, rfl⟩

noncomputable def twenty (_ k : ℕ) : Extended := .finite (if k = 0 then 20 else 0)

theorem finiteSimplex_twenty : finiteSimplex (diagonal ![20]) 0 = .matrix 1 2 twenty := by
  refine Tensor.matrix_congr fun i k hi hk => ?_
  obtain rfl : i = 0 := by omega
  obtain rfl | rfl : k = 0 ∨ k = 1 := by omega
  · simp [vertexEntry, twenty, cell]
  · simp [vertexEntry, twenty, continued]

/-- Zero passes as the inverse of an edge of length twenty, which is dropped; the step for it is a
division by zero. -/
theorem stepFor_divides_by_zero :
    ∃ drop, (dropForGeometry checkedSettings (.finite 1) (.matrix 1 2 twenty)
        (.finiteMatrix !![0])).result = .ok drop ∧ drop.vertex = some 0 ∧
      (Merit.flat 1).IsAdmissible ∧
      (stepFor checkedSettings (.finiteMatrix !![0]) (Merit.flat 1)
        (vertexNumber drop.vertex : ℕ) (.finite 1)).result = .error .divisionByZero := by
  have hmerit := Merit.flat_isAdmissible 1
  have hrow : (!![0] : Matrix (Fin 1) (Fin 1) ℝ) 0 = 0 := by
    ext k
    simp
  have hzero : (!![0] : Matrix (Fin 1) (Fin 1) ℝ) = diagonal ![0] := by
    ext i k
    fin_cases i
    fin_cases k
    rfl
  have htest : Tensor.isInverse (0.1 : ℝ) (.ofMatrix (diagonal ![20])) (.ofMatrix !![0]) =
      .ok true := by
    rw [hzero]
    refine Tensor.isInverse_diagonal (by norm_num) 0 fun k => ?_
    fin_cases k
    norm_num
  have hcols : ∀ k, (diagonal ![(20 : ℝ)]).col k ≠ 0 := by
    intro k
    rw [col_diagonal, Pi.single_ne_zero_iff]
    fin_cases k
    norm_num
  have hlong : ∃ k, 2.1 * 1 < edgeLength (diagonal ![(20 : ℝ)]) k := by
    refine ⟨0, ?_⟩
    rw [edgeLength_diagonal]
    norm_num
  obtain ⟨drop, j, hdrop, hj, -⟩ := exists_drop_of_long (b := 0) le_rfl hcols htest hlong
  have hvertex : drop.vertex = some 0 := by
    rw [hj, Fin.val_eq_zero]
  have hstep := result_stepFor_of_zero (Tensor.asMatrix_finiteMatrix _) one_pos hmerit hrow
  refine ⟨drop, finiteSimplex_twenty ▸ hdrop, hvertex, hmerit, ?_⟩
  rwa [hvertex, vertexNumber_some]

end Control

end InterpolationGeometry
