import InterpolationGeometry.Proofs.Tensor.Bounds
import InterpolationGeometry.Proofs.Tensor.Finite
import InterpolationGeometry.Tensor.Inverse

/-!
# What the test of an inverse accepts

Two matrices pass the test when every row sum of both residuals is within a bound that grows with
the largest row sum of the matrices themselves.  Inverse matrices pass under every tolerance.  A
matrix with a zero row has a residual of a row sum of at least one, and passes beside matrices with
row sums that are large enough.  On finite arrays of extended values the test is the one on reals.
-/

namespace InterpolationGeometry

namespace Tensor

open Scalar Matrix

variable {m n : ℕ}

/-! ## The largest row sum -/

section RowSum

variable {A : Matrix (Fin m) (Fin n) ℝ} {r t : ℝ}

def rowSum (A : Matrix (Fin m) (Fin n) ℝ) (i : Fin m) : ℝ := ∑ k, |A i k|

theorem rowSumNorm_ofMatrix (A : Matrix (Fin m) (Fin n) ℝ) :
    (ofMatrix A).rowSumNorm =
      match (vector m (continued (rowSum A))).greatest? with
      | some x => .ok x
      | none => .error .emptyReduction := by
  have hsums : (vector m fun i => Scalar.sum n fun k => Scalar.abs (cell A i k)) =
      vector m (continued (rowSum A)) := by
    refine vector_congr fun i hi => ?_
    rw [continued_of_lt _ hi, sum_real, rowSum]
    refine Finset.sum_congr rfl fun k _ => ?_
    rw [abs_real, cell_of_lt A hi k.isLt]
  rw [ofMatrix, rowSumNorm, if_pos (isFinite_real _), map_matrix, sumAxis_one_matrix, hsums]
  cases hbound : (vector m (continued (rowSum A))).greatest? with
  | none => simp [hbound, bind, Except.bind]
  | some x => simp [hbound, bind, Except.bind, pure, Except.pure]

theorem le_rowSumNorm_iff (h : (ofMatrix A).rowSumNorm = .ok r) : t ≤ r ↔ ∃ i, t ≤ rowSum A i := by
  have hgreatest : (vector m (continued (rowSum A))).greatest? = some r := by
    rw [rowSumNorm_ofMatrix] at h
    cases hbound : (vector m (continued (rowSum A))).greatest? with
    | none => simp [hbound] at h
    | some x =>
        rw [hbound] at h
        rw [Except.ok.inj h]
  rw [le_greatest_iff hgreatest]
  constructor
  · rintro ⟨-, i, hi, hle⟩
    exact ⟨⟨i, hi⟩, by rwa [continued_of_lt _ hi] at hle⟩
  · rintro ⟨i, hle⟩
    exact ⟨fun _ _ => isNaN_real _, i, i.isLt, by rwa [continued_val]⟩

theorem rowSumNorm_le_iff (h : (ofMatrix A).rowSumNorm = .ok r) : r ≤ t ↔ ∀ i, rowSum A i ≤ t := by
  constructor
  · intro hle i
    exact ((le_rowSumNorm_iff h).2 ⟨i, le_rfl⟩).trans hle
  · intro hle
    obtain ⟨i, hi⟩ := (le_rowSumNorm_iff h).1 le_rfl
    exact hi.trans (hle i)

theorem exists_rowSumNorm (hm : 1 ≤ m) (A : Matrix (Fin m) (Fin n) ℝ) :
    ∃ r, (ofMatrix A).rowSumNorm = .ok r := by
  obtain ⟨k, rfl⟩ := Nat.exists_eq_add_of_le' hm
  rw [rowSumNorm_ofMatrix, greatest?, toList_vector, List.range_succ_eq_map]
  exact ⟨_, rfl⟩

theorem rowSum_nonneg (A : Matrix (Fin m) (Fin n) ℝ) (i : Fin m) : 0 ≤ rowSum A i :=
  Finset.sum_nonneg fun k _ => abs_nonneg (A i k)

end RowSum

/-! ## The test -/

section Test

variable {A B : Matrix (Fin n) (Fin n) ℝ} {tolerance bound : ℝ}

theorem matmul_ofMatrix_ofMatrix (A B : Matrix (Fin n) (Fin n) ℝ) :
    (ofMatrix A).matmul (ofMatrix B) = .ok (ofMatrix (A * B)) := by
  rw [ofMatrix, ofMatrix, matmul_matrix_matrix]
  congr 1
  refine matrix_congr fun i k hi hk => ?_
  rw [cell_of_lt _ hi hk, mul_apply, sum_real]
  refine Finset.sum_congr rfl fun l _ => ?_
  rw [cell_of_lt A hi l.isLt, cell_of_lt B l.isLt hk]

theorem sub_identity_ofMatrix (A : Matrix (Fin n) (Fin n) ℝ) :
    (ofMatrix A).sub (identity n) = .ok (ofMatrix (A - 1)) := by
  rw [ofMatrix, identity, sub, zipWith_matrix]
  congr 1
  refine matrix_congr fun i k hi hk => ?_
  rw [cell_of_lt _ hi hk, cell_of_lt _ hi hk, Matrix.sub_apply, one_apply]
  simp only [Fin.mk.injEq]

theorem nearIdentity_ofMatrix_iff (hn : 1 ≤ n) :
    nearIdentity bound n (ofMatrix A) (ofMatrix B) = .ok true ↔
      ∀ i, rowSum (A * B - 1) i ≤ bound := by
  obtain ⟨r, hr⟩ := exists_rowSumNorm hn (A * B - 1)
  rw [← rowSumNorm_le_iff hr]
  simp [nearIdentity, matmul_ofMatrix_ofMatrix, sub_identity_ofMatrix, hr, bind, Except.bind, pure,
    Except.pure]

/-- Two matrices pass the test when both residuals are within a bound that grows with the largest
row sum. -/
theorem isInverse_ofMatrix_iff (hn : 1 ≤ n) :
    isInverse tolerance (ofMatrix A) (ofMatrix B) = .ok true ↔
      ∃ r, (∀ t, t ≤ r ↔ ∃ i, t ≤ rowSum A i ∨ t ≤ rowSum B i) ∧
        (∀ i, rowSum (A * B - 1) i ≤ max tolerance (tolerance * r)) ∧
        ∀ i, rowSum (B * A - 1) i ≤ max tolerance (tolerance * r) := by
  obtain ⟨r, hr⟩ := exists_rowSumNorm hn A
  obtain ⟨r', hr'⟩ := exists_rowSumNorm hn B
  have hlargest : ∀ t, t ≤ max r r' ↔ ∃ i, t ≤ rowSum A i ∨ t ≤ rowSum B i := by
    intro t
    rw [le_max_iff, le_rowSumNorm_iff hr, le_rowSumNorm_iff hr', exists_or]
  have hlength : (ofMatrix A).axisLength 0 = .ok n := axisLength_matrix_zero n n (cell A)
  have hshapes : (ofMatrix A).shape = [n, n] ∧ (ofMatrix B).shape = [n, n] ∧
      (ofMatrix A).isFinite = true ∧ (ofMatrix B).isFinite = true :=
    ⟨rfl, rfl, isFinite_real _, isFinite_real _⟩
  have htest : isInverse tolerance (ofMatrix A) (ofMatrix B) = .ok true ↔
      nearIdentity (max tolerance (tolerance * max r r')) n (ofMatrix A) (ofMatrix B) = .ok true ∧
        nearIdentity (max tolerance (tolerance * max r r')) n (ofMatrix B) (ofMatrix A) =
          .ok true := by
    simp only [isInverse, hlength, if_pos hshapes, hr, hr', larger_real, bind, Except.bind]
    cases nearIdentity (max tolerance (tolerance * max r r')) n (ofMatrix A) (ofMatrix B) with
    | error cause => simp
    | ok near => cases near <;> simp [pure, Except.pure]
  rw [htest, nearIdentity_ofMatrix_iff hn, nearIdentity_ofMatrix_iff hn]
  constructor
  · intro h
    exact ⟨max r r', hlargest, h⟩
  · rintro ⟨q, hq, h⟩
    have heq : q = max r r' :=
      le_antisymm ((hlargest q).2 ((hq q).1 le_rfl)) ((hq _).2 ((hlargest _).1 le_rfl))
    rwa [heq] at h

theorem exists_largest_rowSum (hn : 1 ≤ n) (A B : Matrix (Fin n) (Fin n) ℝ) :
    ∃ r, ∀ t, t ≤ r ↔ ∃ i, t ≤ rowSum A i ∨ t ≤ rowSum B i := by
  obtain ⟨r, hr⟩ := exists_rowSumNorm hn A
  obtain ⟨r', hr'⟩ := exists_rowSumNorm hn B
  refine ⟨max r r', fun t => ?_⟩
  rw [le_max_iff, le_rowSumNorm_iff hr, le_rowSumNorm_iff hr', exists_or]

/-- Inverse matrices pass, whatever the tolerance. -/
theorem isInverse_of_mul_eq_one (hn : 1 ≤ n) (htolerance : 0 ≤ tolerance) (hAB : A * B = 1)
    (hBA : B * A = 1) : isInverse tolerance (ofMatrix A) (ofMatrix B) = .ok true := by
  have hzero : ∀ i, rowSum (1 - 1 : Matrix (Fin n) (Fin n) ℝ) i = 0 := fun i => by
    simp [rowSum]
  obtain ⟨r, hr⟩ := exists_largest_rowSum hn A B
  rw [isInverse_ofMatrix_iff hn]
  refine ⟨r, hr, fun i => ?_, fun i => ?_⟩
  · rw [hAB, hzero]
    exact le_max_of_le_left htolerance
  · rw [hBA, hzero]
    exact le_max_of_le_left htolerance

theorem rowSum_diagonal (d : Fin n → ℝ) (i : Fin n) : rowSum (diagonal d) i = |d i| := by
  rw [rowSum, Finset.sum_eq_single i]
  · rw [diagonal_apply_eq]
  · intro k _ hk
    rw [diagonal_apply_ne' d hk, abs_zero]
  · intro hi
    exact absurd (Finset.mem_univ i) hi

/-- Diagonal matrices pass when every entry of the residual is within the tolerance times some
entry. -/
theorem isInverse_diagonal {d e : Fin n → ℝ} (htolerance : 0 ≤ tolerance) (j : Fin n)
    (h : ∀ k, |d k * e k - 1| ≤ tolerance * |d j|) :
    isInverse tolerance (ofMatrix (diagonal d)) (ofMatrix (diagonal e)) = .ok true := by
  obtain ⟨r, hr⟩ := exists_largest_rowSum j.pos (diagonal d) (diagonal e)
  have hentry : |d j| ≤ r := (hr _).2 ⟨j, Or.inl (rowSum_diagonal d j).ge⟩
  have hresidual : ∀ i, |d i * e i - 1| ≤ max tolerance (tolerance * r) := fun i =>
    (h i).trans (le_max_of_le_right (mul_le_mul_of_nonneg_left hentry htolerance))
  rw [isInverse_ofMatrix_iff j.pos]
  refine ⟨r, hr, fun i => ?_, fun i => ?_⟩
  · rw [diagonal_mul_diagonal, ← diagonal_one, diagonal_sub, rowSum_diagonal]
    exact hresidual i
  · rw [diagonal_mul_diagonal, ← diagonal_one, diagonal_sub, rowSum_diagonal, mul_comm]
    exact hresidual i

/-- A matrix with a zero row passes as an inverse only if the tolerance times some row sum is at
least one. -/
theorem exists_rowSum_of_isInverse (hlt : tolerance < 1) {j : Fin n}
    (h : isInverse tolerance (ofMatrix A) (ofMatrix B) = .ok true) (hB : B j = 0) :
    ∃ i, 1 ≤ tolerance * rowSum A i ∨ 1 ≤ tolerance * rowSum B i := by
  obtain ⟨r, hr, -, hnear⟩ := (isInverse_ofMatrix_iff j.pos).1 h
  have hone : 1 ≤ rowSum (B * A - 1) j := by
    have hentry : (B * A - 1) j j = -1 := by
      rw [Matrix.sub_apply, mul_apply, one_apply_eq]
      simp [hB]
    calc (1 : ℝ) = |(B * A - 1) j j| := by rw [hentry, abs_neg, abs_one]
      _ ≤ rowSum (B * A - 1) j :=
        Finset.single_le_sum (f := fun k => |(B * A - 1) j k|) (fun k _ => abs_nonneg _)
          (Finset.mem_univ j)
  have hreached : 1 ≤ tolerance * r := by
    rcases le_max_iff.1 (hone.trans (hnear j)) with htolerance | hscaled
    · exact absurd htolerance (not_le.2 hlt)
    · exact hscaled
  obtain ⟨i, hi⟩ := (hr r).1 le_rfl
  have hpos : 0 ≤ tolerance := by
    by_contra hneg
    have hr0 : 0 ≤ r := (hr 0).2 ⟨i, Or.inl (rowSum_nonneg A i)⟩
    linarith [mul_nonpos_of_nonpos_of_nonneg (not_le.1 hneg).le hr0]
  refine ⟨i, hi.imp (fun hle => ?_) fun hle => ?_⟩
  · exact hreached.trans (mul_le_mul_of_nonneg_left hle hpos)
  · exact hreached.trans (mul_le_mul_of_nonneg_left hle hpos)

end Test

/-! ## Finite extended values -/

section Finite

open Extended

theorem greatest?_finite (m : ℕ) (f : ℕ → ℝ) :
    (vector m fun i => Extended.finite (f i)).greatest? =
      (vector m f).greatest?.map Extended.finite := by
  have hupper : ∀ x y : ℝ, upper (Extended.finite x) (.finite y) = .finite (upper x y) := by
    intro x y
    simp [upper, larger_real]
  have hfold : ∀ (l : List ℝ) (x : ℝ), (l.map Extended.finite).foldl upper (.finite x) =
      .finite (l.foldl upper x) := by
    intro l
    induction l with
    | nil => exact fun _ => rfl
    | cons y l ih =>
        intro x
        rw [List.map_cons, List.foldl_cons, List.foldl_cons, hupper, ih]
  have hlist : (vector m fun i => Extended.finite (f i)).toList =
      (vector m f).toList.map Extended.finite := by
    rw [toList_vector, toList_vector, List.map_map]
    rfl
  rw [greatest?, greatest?, hlist]
  cases (vector m f).toList with
  | nil => rfl
  | cons x l => simp [hfold]

theorem rowSumNorm_finiteMatrix (A : Matrix (Fin m) (Fin n) ℝ) :
    (finiteMatrix A).rowSumNorm = (ofMatrix A).rowSumNorm.map Extended.finite := by
  have hsums : ((finiteMatrix A).map Scalar.abs).sumAxis 1 =
      .ok (vector m fun i => .finite (continued (rowSum A) i)) := by
    rw [finiteMatrix, map_matrix, sumAxis_one_matrix]
    congr 1
    refine vector_congr fun i hi => ?_
    simp only [abs_finite, sum_finite, sum_real]
    rw [continued_of_lt _ hi, rowSum]
    congr 1
    refine Finset.sum_congr rfl fun k _ => ?_
    rw [cell_of_lt A hi k.isLt]
  rw [rowSumNorm_ofMatrix, rowSumNorm, if_pos (isFinite_finiteMatrix A), hsums]
  simp only [greatest?_finite, bind, Except.bind, pure, Except.pure]
  cases (vector m (continued (rowSum A))).greatest? <;> rfl

theorem matmul_finiteMatrix_finiteMatrix (A B : Matrix (Fin n) (Fin n) ℝ) :
    (finiteMatrix A).matmul (finiteMatrix B) = .ok (finiteMatrix (A * B)) := by
  rw [finiteMatrix, finiteMatrix, matmul_matrix_matrix]
  congr 1
  refine matrix_congr fun i k hi hk => ?_
  simp only [finite_mul, sum_finite]
  rw [cell_of_lt _ hi hk, mul_apply, sum_real]
  congr 1
  refine Finset.sum_congr rfl fun l _ => ?_
  rw [cell_of_lt A hi l.isLt, cell_of_lt B l.isLt hk]

theorem sub_identity_finiteMatrix (A : Matrix (Fin n) (Fin n) ℝ) :
    (finiteMatrix A).sub (identity n) = .ok (finiteMatrix (A - 1)) := by
  rw [finiteMatrix, identity, sub, zipWith_matrix]
  congr 1
  refine matrix_congr fun i k hi hk => ?_
  have hone : (if i = k then 1 else 0 : Extended) = .finite (if i = k then 1 else 0) := by
    split <;> rfl
  rw [hone, sub_finite, cell_of_lt _ hi hk, cell_of_lt _ hi hk, Matrix.sub_apply, one_apply]
  simp only [Fin.mk.injEq]

theorem nearIdentity_finiteMatrix (bound : ℝ) (A B : Matrix (Fin n) (Fin n) ℝ) :
    nearIdentity (.finite bound) n (finiteMatrix A) (finiteMatrix B) =
      nearIdentity bound n (ofMatrix A) (ofMatrix B) := by
  simp only [nearIdentity, matmul_finiteMatrix_finiteMatrix, sub_identity_finiteMatrix,
    rowSumNorm_finiteMatrix, matmul_ofMatrix_ofMatrix, sub_identity_ofMatrix, bind, Except.bind,
    pure, Except.pure]
  cases (ofMatrix (A * B - 1)).rowSumNorm with
  | error cause => rfl
  | ok r => simp [Except.map]

/-- On finite arrays the test is that on the reals. -/
theorem isInverse_finiteMatrix (tolerance : ℝ) (A B : Matrix (Fin n) (Fin n) ℝ) :
    isInverse (.finite tolerance) (finiteMatrix A) (finiteMatrix B) =
      isInverse tolerance (ofMatrix A) (ofMatrix B) := by
  have hlength : (finiteMatrix A).axisLength 0 = .ok n :=
    axisLength_matrix_zero n n fun i k => Extended.finite (cell A i k)
  have hlength' : (ofMatrix A).axisLength 0 = .ok n := axisLength_matrix_zero n n (cell A)
  have hshapes : (finiteMatrix A).shape = [n, n] ∧ (finiteMatrix B).shape = [n, n] ∧
      (finiteMatrix A).isFinite = true ∧ (finiteMatrix B).isFinite = true :=
    ⟨rfl, rfl, isFinite_finiteMatrix A, isFinite_finiteMatrix B⟩
  have hshapes' : (ofMatrix A).shape = [n, n] ∧ (ofMatrix B).shape = [n, n] ∧
      (ofMatrix A).isFinite = true ∧ (ofMatrix B).isFinite = true :=
    ⟨rfl, rfl, isFinite_real _, isFinite_real _⟩
  simp only [isInverse, hlength, hlength', if_pos hshapes, if_pos hshapes',
    rowSumNorm_finiteMatrix, bind, Except.bind]
  cases (ofMatrix A).rowSumNorm with
  | error cause => rfl
  | ok r =>
      cases (ofMatrix B).rowSumNorm with
      | error cause => rfl
      | ok r' => simp [Except.map, larger_real, nearIdentity_finiteMatrix]

theorem exists_rowSumNorm_finiteMatrix (hm : 1 ≤ m) (A : Matrix (Fin m) (Fin n) ℝ) :
    ∃ r, (finiteMatrix A).rowSumNorm = .ok (.finite r) := by
  obtain ⟨r, hr⟩ := exists_rowSumNorm hm A
  exact ⟨r, by rw [rowSumNorm_finiteMatrix, hr]; rfl⟩

theorem exists_nearIdentity_finiteMatrix (hn : 1 ≤ n) (bound : Extended)
    (A B : Matrix (Fin n) (Fin n) ℝ) :
    ∃ near, nearIdentity bound n (finiteMatrix A) (finiteMatrix B) = .ok near := by
  obtain ⟨r, hr⟩ := exists_rowSumNorm_finiteMatrix hn (A * B - 1)
  simp only [nearIdentity, matmul_finiteMatrix_finiteMatrix, sub_identity_finiteMatrix, hr, bind,
    Except.bind, pure, Except.pure]
  exact ⟨_, rfl⟩

theorem exists_isInverse_finiteMatrix (hn : 1 ≤ n) (tolerance : Extended)
    (A B : Matrix (Fin n) (Fin n) ℝ) :
    ∃ answer, isInverse tolerance (finiteMatrix A) (finiteMatrix B) = .ok answer := by
  obtain ⟨r, hr⟩ := exists_rowSumNorm_finiteMatrix hn A
  obtain ⟨r', hr'⟩ := exists_rowSumNorm_finiteMatrix hn B
  have hlength : (finiteMatrix A).axisLength 0 = .ok n :=
    axisLength_matrix_zero n n fun i k => Extended.finite (cell A i k)
  have hshapes : (finiteMatrix A).shape = [n, n] ∧ (finiteMatrix B).shape = [n, n] ∧
      (finiteMatrix A).isFinite = true ∧ (finiteMatrix B).isFinite = true :=
    ⟨rfl, rfl, isFinite_finiteMatrix A, isFinite_finiteMatrix B⟩
  simp only [isInverse, hlength, if_pos hshapes, hr, hr', bind, Except.bind]
  obtain ⟨near, hnear⟩ := exists_nearIdentity_finiteMatrix hn
    (larger tolerance (tolerance * larger (.finite r) (.finite r'))) A B
  obtain ⟨near', hnear'⟩ := exists_nearIdentity_finiteMatrix hn
    (larger tolerance (tolerance * larger (.finite r) (.finite r'))) B A
  rw [hnear, hnear']
  cases near with
  | true => exact ⟨near', rfl⟩
  | false => exact ⟨false, rfl⟩

end Finite

end Tensor

end InterpolationGeometry
