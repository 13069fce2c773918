import InterpolationGeometry.Proofs.Simplex.FaceNormal
import Mathlib.Data.Finset.Fold

/-!
# The linear model of the merit

The gradients of the objective and of the constraints are the differences from the base vertex
times the inverse of the edges, and the linear model of the merit adds a penalty times the largest
violation that the linear constraints predict.  The routine returns the sense of the normal with the
smaller model, and the first sense if the models agree.
-/

namespace InterpolationGeometry

open Scalar Matrix

namespace Tensor

/-- The least upper bound of the entries and zero is a fold over the places. -/
theorem greatestWithZero_vector_real (m : ℕ) (f : ℕ → ℝ) :
    (vector m f).greatestWithZero = Finset.univ.fold max 0 fun i : Fin m => f i := by
  have hupper : ∀ x y : ℝ, upper x y = max x y := by
    intro x y
    simp [upper, larger_real]
  rw [greatestWithZero, toList_vector]
  induction m with
  | zero => rfl
  | succ m ih =>
      rw [List.range_succ, List.map_append, List.foldl_append, ih, Fin.univ_castSuccEmb,
        Finset.fold_cons, Finset.fold_map, List.map_singleton, List.foldl_cons, List.foldl_nil,
        hupper, max_comm]
      rfl

end Tensor

namespace Simplex

variable {n : ℕ} {E S : Matrix (Fin n) (Fin n) ℝ} {j : Fin n}

/-- The gradient of the linear function that interpolates the values at the vertices. -/
def modelGradient (S : Matrix (Fin n) (Fin n) ℝ) (values : Fin (n + 1) → ℝ) : Fin n → ℝ :=
  (fun l => values l.castSucc - values (Fin.last n)) ᵥ* S

/-- Along an edge the linear function changes as the values do. -/
theorem modelGradient_dotProduct_col (h : S * E = 1) (values : Fin (n + 1) → ℝ) (k : Fin n) :
    modelGradient S values ⬝ᵥ E.col k = values k.castSucc - values (Fin.last n) := by
  have hedges : modelGradient S values ᵥ* E =
      fun l => values l.castSucc - values (Fin.last n) := by
    rw [modelGradient, vecMul_vecMul, h, vecMul_one]
  exact congrFun hedges k

/-- The normal of a face is orthogonal to the edges in it. -/
theorem faceNormal_dotProduct_col (h : S * E = 1) {k : Fin n} (hk : k ≠ j) (r : ℝ) :
    faceNormal S j r ⬝ᵥ E.col k = 0 := by
  have hentry : S j ⬝ᵥ E.col k = (1 : Matrix (Fin n) (Fin n) ℝ) j k := by
    rw [← h]
    rfl
  rw [faceNormal, smul_dotProduct, hentry, one_apply_ne hk.symm, smul_zero]

theorem sum_slope_eq (S : Matrix (Fin n) (Fin n) ℝ) (v : Fin n → ℝ) (values : Fin (n + 1) → ℝ) :
    (sum n fun k => continued v k * sum n fun l =>
        (continued values l - continued values n) * cell S l k) =
      modelGradient S values ⬝ᵥ v := by
  have hbase := continued_val values (Fin.last n)
  rw [sum_real]
  refine Finset.sum_congr rfl fun k _ => ?_
  rw [continued_val, sum_real, mul_comm]
  congr 1
  refine Finset.sum_congr rfl fun l _ => ?_
  have hother := continued_val values l.castSucc
  rw [Fin.val_last] at hbase
  rw [Fin.val_castSucc] at hother
  rw [hbase, hother, cell_val]

namespace Merit

noncomputable def violation (merit : Merit n) (S : Matrix (Fin n) (Fin n) ℝ) (s : Fin n → ℝ) : ℝ :=
  Finset.univ.fold max 0 fun i =>
    -(merit.constraints i (Fin.last n) + modelGradient S (merit.constraints i) ⬝ᵥ s)

/-- The change of the linear objective and the penalty for the largest predicted violation. -/
noncomputable def linearModel (merit : Merit n) (S : Matrix (Fin n) (Fin n) ℝ) (s : Fin n → ℝ) :
    ℝ :=
  modelGradient S merit.values ⬝ᵥ s + merit.penalty * merit.violation S s

variable (merit : Merit n)

theorem violation_eq (S : Matrix (Fin n) (Fin n) ℝ) (s : Fin n → ℝ) (slopes : ℕ → ℝ)
    (hslopes : ∀ i : Fin merit.constraintCount,
      slopes i = modelGradient S (merit.constraints i) ⬝ᵥ s) :
    (Tensor.vector merit.constraintCount fun i =>
      -slopes i - cell merit.constraints i n).greatestWithZero = merit.violation S s := by
  rw [Tensor.greatestWithZero_vector_real, violation]
  congr 1
  funext i
  have hbase := cell_val merit.constraints i (Fin.last n)
  rw [Fin.val_last] at hbase
  rw [hslopes, hbase]
  ring

/-- The opposite step is compared by the slope of the objective and both violations. -/
theorem linearModel_neg_lt_iff (S : Matrix (Fin n) (Fin n) ℝ) (v : Fin n → ℝ) :
    merit.linearModel S (-v) < merit.linearModel S v ↔
      2.0 * -(modelGradient S merit.values ⬝ᵥ v) <
        merit.penalty * (merit.violation S v - merit.violation S (-v)) := by
  rw [linearModel, linearModel, dotProduct_neg]
  constructor
  · intro h
    norm_num
    linarith
  · intro h
    norm_num at h
    linarith

/-- The routine takes the opposite step exactly when its linear model is smaller. -/
theorem betterSense_eq (S : Matrix (Fin n) (Fin n) ℝ) (v : Fin n → ℝ) :
    (merit.problem S).betterSense merit.penalty (.ofVector v) =
      .ok (.ofVector
        (if merit.linearModel S (-v) < merit.linearModel S v then -v else v)) := by
  set slopes : ℕ → ℝ := fun i => sum n fun k => continued v k * sum n fun l =>
    (cell merit.constraints i l - cell merit.constraints i n) * cell S l k with hslopes
  have hslope : ∀ i : Fin merit.constraintCount,
      slopes i = modelGradient S (merit.constraints i) ⬝ᵥ v := by
    intro i
    rw [← sum_slope_eq]
    simp only [hslopes, continued_row]
  have hgain : (sum n fun k => continued v k * sum n fun l =>
      (continued merit.values n - continued merit.values l) * cell S l k) =
      -(modelGradient S merit.values ⬝ᵥ v) := by
    have hneg : ∀ l k : ℕ, (continued merit.values n - continued merit.values l) * cell S l k =
        -((continued merit.values l - continued merit.values n) * cell S l k) := fun l k => by
      ring
    rw [← sum_slope_eq]
    simp only [hneg, sum_real, Finset.sum_neg_distrib, mul_neg]
  have hahead := merit.violation_eq S v slopes hslope
  -- the slopes along the opposite step are the opposite slopes
  have hopposite : ∀ i : Fin merit.constraintCount,
      -slopes i = modelGradient S (merit.constraints i) ⬝ᵥ (-v) := fun i => by
    rw [hslope, dotProduct_neg]
  have hbehind := merit.violation_eq S (-v) (fun i => -slopes i) hopposite
  simp only [neg_neg] at hbehind
  have hsense : (merit.problem S).betterSense merit.penalty (.ofVector v) = _ :=
    FaceProblem.betterSense_vector (n := n) (m := merit.constraintCount) (s := cell S)
      (c := cell merit.constraints) (f := continued merit.values) rfl rfl rfl rfl rfl
      merit.penalty (continued v) slopes fun _ => rfl
  rw [hsense, hgain, hahead, hbehind]
  simp only [← linearModel_neg_lt_iff, apply_ite Tensor.ofVector, ← Tensor.neg_ofVector]
  rw [Tensor.ofVector, Tensor.neg_vector]

variable {settings : Settings ℝ} {radius stepFactor : ℝ}

theorem step_eq_better (hS : S j ≠ 0)
    (hchecked : settings.checked = true →
      merit.IsAdmissible ∧ 0 < radius ∧ 0 < stepFactor ∧ stepFactor < 1) :
    let u := faceNormal S j (stepFactor * radius)
    merit.step settings S ((j + 1 : ℕ) : Rat) radius stepFactor =
      pure (.ofVector (if merit.linearModel S (-u) < merit.linearModel S u then -u else u)) := by
  intro u
  refine merit.step_of_betterSense hS hchecked ?_ (merit.betterSense_eq S u)
  have hlength : u ⬝ᵥ u = (stepFactor * radius) ^ 2 := faceNormal_dotProduct_self hS
  split
  · rw [neg_dotProduct_neg, hlength]
  · exact hlength

theorem step_eq_better_unchecked (hS : S j ≠ 0) (hchecked : settings.checked = false) :
    let u := faceNormal S j (stepFactor * radius)
    merit.step settings S ((j + 1 : ℕ) : Rat) radius stepFactor =
      pure (.ofVector (if merit.linearModel S (-u) < merit.linearModel S u then -u else u)) :=
  merit.step_eq_better hS fun h => by
    rw [hchecked] at h
    contradiction

/-- The routine comes to the normal of the face at the length of the step, in one of its senses. -/
theorem exists_step_eq_faceNormal (hE : IsUnit E) (j : Fin n) (hradius : 0 < radius)
    (hpos : 0 < stepFactor) (hlt : stepFactor < 1)
    (hmerit : settings.checked = true → merit.IsAdmissible) :
    ∃ r, |r| = stepFactor * radius ∧
      merit.step settings E⁻¹ ((j + 1 : ℕ) : Rat) radius stepFactor =
        pure (.ofVector (faceNormal E⁻¹ j r)) := by
  have hlength : |stepFactor * radius| = stepFactor * radius := abs_of_pos (mul_pos hpos hradius)
  have hstep := merit.step_eq_better (inv_row_ne_zero hE j) fun h =>
    ⟨hmerit h, hradius, hpos, hlt⟩
  simp only [neg_faceNormal] at hstep
  split at hstep
  · exact ⟨-(stepFactor * radius), by rw [abs_neg, hlength], hstep⟩
  · exact ⟨stepFactor * radius, hlength, hstep⟩

/-- The step is the normal of the face, of the given length, in the sense with the smaller linear
model of the merit; if both senses agree, it is the one along the row of the inverse.  Beside the
inverse of the edges the linear models interpolate what is known at the vertices, and the step is
orthogonal to the edges in the face. -/
theorem step_takes_better_normal (hS : S j ≠ 0) (hradius : 0 < radius) (hpos : 0 < stepFactor)
    (hchecked : settings.checked = true → merit.IsAdmissible ∧ stepFactor < 1) :
    ∃ d : Fin n → ℝ,
      merit.step settings S ((j + 1 : ℕ) : Rat) radius stepFactor = pure (.ofVector d) ∧
      (d = faceNormal S j (stepFactor * radius) ∨ d = -faceNormal S j (stepFactor * radius)) ∧
      √(d ⬝ᵥ d) = stepFactor * radius ∧
      merit.linearModel S d ≤ merit.linearModel S (-d) ∧
      (merit.linearModel S d = merit.linearModel S (-d) →
        d = faceNormal S j (stepFactor * radius)) ∧
      ∀ E : Matrix (Fin n) (Fin n) ℝ, S * E = 1 → ∀ k,
        modelGradient S merit.values ⬝ᵥ E.col k =
            merit.values k.castSucc - merit.values (Fin.last n) ∧
          (∀ i, modelGradient S (merit.constraints i) ⬝ᵥ E.col k =
            merit.constraints i k.castSucc - merit.constraints i (Fin.last n)) ∧
          (k ≠ j → d ⬝ᵥ E.col k = 0) := by
  have hstep := merit.step_eq_better hS fun h =>
    ⟨(hchecked h).1, hradius, hpos, (hchecked h).2⟩
  have hlength : √(faceNormal S j (stepFactor * radius) ⬝ᵥ
      faceNormal S j (stepFactor * radius)) = stepFactor * radius := by
    rw [faceNormal_dotProduct_self hS, Real.sqrt_sq (mul_pos hpos hradius).le]
  have hmodels : ∀ E : Matrix (Fin n) (Fin n) ℝ, S * E = 1 → ∀ k,
      modelGradient S merit.values ⬝ᵥ E.col k =
          merit.values k.castSucc - merit.values (Fin.last n) ∧
        ∀ i, modelGradient S (merit.constraints i) ⬝ᵥ E.col k =
          merit.constraints i k.castSucc - merit.constraints i (Fin.last n) :=
    fun E hE k => ⟨modelGradient_dotProduct_col hE _ k,
      fun i => modelGradient_dotProduct_col hE (merit.constraints i) k⟩
  dsimp only at hstep
  split at hstep
  case isTrue hlt =>
    refine ⟨_, hstep, Or.inr rfl, ?_, ?_, fun heq => ?_, fun E hE k => ?_⟩
    · rw [neg_dotProduct_neg, hlength]
    · rw [neg_neg]
      exact hlt.le
    · rw [neg_neg] at heq
      exact absurd heq hlt.ne
    · refine ⟨(hmodels E hE k).1, (hmodels E hE k).2, fun hk => ?_⟩
      rw [neg_dotProduct, faceNormal_dotProduct_col hE hk, neg_zero]
  case isFalse hnot =>
    refine ⟨_, hstep, Or.inl rfl, hlength, not_lt.1 hnot, fun _ => rfl, fun E hE k => ?_⟩
    exact ⟨(hmodels E hE k).1, (hmodels E hE k).2, fun hk => faceNormal_dotProduct_col hE hk _⟩

/-- The objective falls along the first axis, but the constraint is violated there by more. -/
def overshooting : Merit 2 where
  penalty := 1
  constraintCount := 1
  constraints := !![-3, 0, 0]
  violations := 0
  values := ![-1, 0, 0]

theorem linearModel_overshooting (s : Fin 2 → ℝ) :
    overshooting.linearModel 1 s = -s 0 + max (3 * s 0) 0 := by
  simp [linearModel, violation, modelGradient, overshooting, vecMul_one, dotProduct,
    Fin.sum_univ_two, Fin.last]
  show Finset.fold max 0 (fun _ : Fin 1 => 3 * s 0) Finset.univ = max (3 * s 0) 0
  rw [Finset.univ_unique, Finset.fold_singleton]

theorem step_takes_better_normal_overshooting :
    overshooting.IsAdmissible ∧ (1 : Matrix (Fin 2) (Fin 2) ℝ) 0 ≠ 0 ∧
      overshooting.step { Settings.standard with checked := true } 1 ((0 + 1 : ℕ) : Rat) 2 (1 / 2) =
        pure (.ofVector ![-1, 0]) := by
  have hadmissible : overshooting.IsAdmissible := ⟨zero_le_one, fun _ => le_rfl⟩
  have hrow : (1 : Matrix (Fin 2) (Fin 2) ℝ) 0 ≠ 0 := by
    intro hzero
    have hentry := congrFun hzero 0
    simp at hentry
  have hnormal : faceNormal (1 : Matrix (Fin 2) (Fin 2) ℝ) 0 (1 / 2 * 2) = ![1, 0] := by
    ext k
    fin_cases k <;> simp [faceNormal, faceHeight, one_apply, dotProduct]
  have hchecked : ({ Settings.standard with checked := true } : Settings ℝ).checked = true →
      overshooting.IsAdmissible ∧ (1 / 2 : ℝ) < 1 := fun _ => ⟨hadmissible, by norm_num⟩
  obtain ⟨d, hstep, hd, -, hle, -⟩ :=
    overshooting.step_takes_better_normal hrow two_pos one_half_pos hchecked
  rw [hnormal] at hd
  refine ⟨hadmissible, hrow, ?_⟩
  rcases hd with rfl | rfl
  · norm_num [linearModel_overshooting] at hle
  · rw [Fin.val_zero] at hstep
    rw [hstep]
    congr 2
    ext k
    fin_cases k <;> simp

end Merit

end Simplex

end InterpolationGeometry
