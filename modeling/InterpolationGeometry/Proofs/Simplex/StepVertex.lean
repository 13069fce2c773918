import InterpolationGeometry.Proofs.Arithmetic.Extended
import InterpolationGeometry.Proofs.Simplex.Causes
import InterpolationGeometry.Proofs.Simplex.Choices

/-!
# When a better point finds no vertex to replace

The vertex that makes room for a new point, with entries of any kind.  For a better point the scores
find none exactly when no distance from the new point is a number, and the thresholds exactly when
no coordinate of the step is a number either.  The warning is reported exactly when there is none
for a better point, which does not happen on finite vertices and a finite step.
-/

namespace InterpolationGeometry

namespace Simplex

open Scalar hiding abs

variable {α : Type} [Scalar α]

def stepVertex (scheme : DropScheme) (improved : Bool) (n : Nat) (minHeight farLength : α)
    (d : Nat → α) (x s : Nat → Nat → α) : Option Nat :=
  let c := coordinate n s d
  let byThreshold := thresholdVertex improved n minHeight farLength (gapLength improved n d x)
    (rowHeight n s) c
  match scheme with
  | .score => scoreVertex improved n (gapSquare improved n d x) (baseSquare improved n d) c
      byThreshold
  | _ => byThreshold

/-! ## Bounds -/

section Bounds

variable {improved : Bool} {n j : Nat} {minHeight farLength base : α} {lengths heights : Nat → α}
  {squares c : Nat → α} {other : Option Nat}

theorem lt_of_coordinateVertex (h : coordinateVertex improved n c = some j) : j < n := by
  unfold coordinateVertex at h
  split at h
  · exact (Selection.mem_of_greatest h).1
  · contradiction

theorem lt_of_farVertex
    (h : farVertex improved n minHeight farLength lengths heights c = some j) : j < n := by
  unfold farVertex at h
  split at h
  · exact (Selection.mem_of_greatest h).1
  · exact lt_of_coordinateVertex h

theorem lt_of_thresholdVertex
    (h : thresholdVertex improved n minHeight farLength lengths heights c = some j) : j < n := by
  unfold thresholdVertex at h
  split at h
  · rename_i k hk
    have hjk : k = j := Option.some.inj h
    rw [← hjk]
    exact lt_of_farVertex hk
  · split at h
    · exact (Selection.mem_of_greatest h).1
    · contradiction

/-- The place of the base vertex is not chosen: it stands for the other choice. -/
theorem lt_of_scoreVertex (hother : ∀ k, other = some k → k < n)
    (h : scoreVertex improved n squares base c other = some j) : j < n := by
  unfold scoreVertex at h
  split at h
  · split at h
    · exact hother j h
    · rename_i k hk
      have hle := (Selection.mem_of_greatest hk).1
      split at h
      · exact hother j h
      · have hjk : k = j := Option.some.inj h
        omega
  · split at h
    · exact (Selection.mem_of_greatest h).1
    · contradiction

theorem lt_of_stepVertex {scheme : DropScheme} {d : Nat → α} {x s : Nat → Nat → α}
    (h : stepVertex scheme improved n minHeight farLength d x s = some j) : j < n := by
  unfold stepVertex at h
  split at h
  · exact lt_of_scoreVertex (fun k hk => lt_of_thresholdVertex hk) h
  · exact lt_of_thresholdVertex h

end Bounds

/-! ## No choice for a better point -/

section Missing

variable [Numeric α] {n : Nat} {minHeight farLength base : α} {lengths heights squares c : Nat → α}
  {other : Option Nat}

theorem coordinateVertex_eq_none_iff :
    coordinateVertex true n c = none ↔ ∀ k, k < n → isNaN (c k) = true := by
  constructor
  · intro h k hk
    cases hnan : isNaN (c k) with
    | true => rfl
    | false =>
        rw [coordinateVertex, if_pos (Or.inr ⟨rfl, k, hk, hnan⟩),
          Selection.greatest_eq_none_iff] at h
        have habs := h k hk rfl
        rw [Numeric.isNaN_abs, hnan] at habs
        contradiction
  · intro h
    rw [coordinateVertex, if_neg]
    rintro (⟨k, hk, hlarge⟩ | ⟨_, k, hk, hnan⟩)
    · have hnumber := isNaN_eq_false_of_lt_right hlarge
      rw [Numeric.isNaN_abs, h k hk] at hnumber
      contradiction
    · rw [h k hk] at hnan
      contradiction

theorem isNaN_of_isReplaceable {k : Nat}
    (h : isReplaceable minHeight farLength lengths heights c k = true) :
    isNaN (lengths k) = false := by
  simp only [isReplaceable, Bool.and_eq_true, decide_eq_true_eq] at h
  exact isNaN_eq_false_of_lt_right h.1

theorem farVertex_of_isNaN (h : ∀ k, k < n → isNaN (lengths k) = true) :
    farVertex true n minHeight farLength lengths heights c = coordinateVertex true n c := by
  rw [farVertex, if_neg]
  rintro ⟨k, hk, hmask⟩
  have hnumber := isNaN_of_isReplaceable hmask
  rw [h k hk] at hnumber
  contradiction

theorem thresholdVertex_eq_none_iff :
    thresholdVertex true n minHeight farLength lengths heights c = none ↔
      (∀ k, k < n → isNaN (lengths k) = true) ∧ ∀ k, k < n → isNaN (c k) = true := by
  constructor
  · intro h
    have hfar : farVertex true n minHeight farLength lengths heights c = none := by
      unfold thresholdVertex at h
      split at h
      · contradiction
      · assumption
    have hlengths : ∀ k, k < n → isNaN (lengths k) = true := by
      simp only [thresholdVertex, hfar, if_true, Selection.greatest_eq_none_iff] at h
      exact fun k hk => h k hk trivial
    rw [farVertex_of_isNaN hlengths] at hfar
    exact ⟨hlengths, coordinateVertex_eq_none_iff.1 hfar⟩
  · rintro ⟨hlengths, hc⟩
    have hfar : farVertex true n minHeight farLength lengths heights c = none := by
      rw [farVertex_of_isNaN hlengths]
      exact coordinateVertex_eq_none_iff.2 hc
    simp only [thresholdVertex, hfar, if_true]
    exact Selection.greatest_eq_none_iff.2 fun k hk _ => hlengths k hk

/-- As long as the other choice is there whenever some square is a number, the scores find no vertex
exactly when no square is a number. -/
theorem scoreVertex_eq_none_iff
    (hother : other = none → ∀ k, k < n → isNaN (squares k) = true) :
    scoreVertex true n squares base c other = none ↔ ∀ k, k < n → isNaN (squares k) = true := by
  unfold scoreVertex
  by_cases hpositive : ∃ k, k < n ∧ 0 < squares k
  · rw [if_pos hpositive]
    obtain ⟨k, hk, hlt⟩ := hpositive
    have hnumber := isNaN_eq_false_of_lt_right hlt
    constructor
    · intro h
      have hnone : other = none := by
        split at h
        · exact h
        · split at h
          · exact h
          · contradiction
      exact hother hnone
    · intro h
      rw [h k hk] at hnumber
      contradiction
  · rw [if_neg hpositive, if_pos rfl, Selection.greatest_eq_none_iff]
    exact ⟨fun h k hk => h k hk rfl, fun h k hk _ => h k hk⟩

end Missing

section Presence

variable [Numeric α] {n : Nat} {minHeight farLength : α} {d : Nat → α} {x s : Nat → Nat → α}
  {scheme : DropScheme}

theorem isNaN_gapLength (improved : Bool) (n : Nat) (d : Nat → α) (x : Nat → Nat → α) (k : Nat) :
    isNaN (gapLength improved n d x k) = isNaN (gapSquare improved n d x k) :=
  isNaN_sqrt_sum_square n fun i => gap improved d x i k

theorem stepVertex_score_eq_none_iff :
    stepVertex .score true n minHeight farLength d x s = none ↔
      ∀ k, k < n → isNaN (gapLength true n d x k) = true := by
  simp only [isNaN_gapLength]
  refine scoreVertex_eq_none_iff fun hnone k hk => ?_
  rw [← isNaN_gapLength]
  exact (thresholdVertex_eq_none_iff.1 hnone).1 k hk

theorem stepVertex_powell_eq_none_iff :
    stepVertex .powell true n minHeight farLength d x s = none ↔
      (∀ k, k < n → isNaN (gapLength true n d x k) = true) ∧
        ∀ k, k < n → isNaN (coordinate n s d k) = true :=
  thresholdVertex_eq_none_iff

/-- Whatever the scheme, a distance that is a number is enough for a better point. -/
theorem stepVertex_ne_none {k : Nat} (hk : k < n)
    (hnumber : isNaN (gapLength true n d x k) = false) :
    stepVertex scheme true n minHeight farLength d x s ≠ none := by
  have hsome : ¬ ∀ k, k < n → isNaN (gapLength true n d x k) = true := by
    intro h
    rw [h k hk] at hnumber
    contradiction
  cases scheme with
  | score => exact mt stepVertex_score_eq_none_iff.1 hsome
  | powell => exact fun h => hsome (stepVertex_powell_eq_none_iff.1 h).1
  | unlisted name => exact fun h => hsome (thresholdVertex_eq_none_iff.1 h).1

theorem isNaN_gapLength_of_finite {k : Nat} (hd : ∀ i, i < n → Scalar.isFinite (d i) = true)
    (hx : ∀ i, i < n → Scalar.isFinite (x i k) = true) :
    isNaN (gapLength true n d x k) = false := by
  rw [isNaN_gapLength]
  exact isNaN_sum_square_eq_false fun i hi => Numeric.isNaN_sub (hx i hi) (hd i hi)

end Presence

/-! ## The routine -/

section Routine

variable (settings : Settings α) (improved : Bool) (n : Nat) (d : Nat → α) (x s : Nat → Nat → α)
  (radius minHeightFactor farLengthFactor : α)

/-- The routine without its conditions. -/
def chosenForStep : Outcome α (Option Nat) := do
  let byThreshold ← thresholdChoice improved (.vector n d) radius minHeightFactor farLengthFactor
    (.matrix n (n + 1) x) (.matrix n n s) (.vector n (coordinate n s d))
  let choice ← schemeChoice settings.dropScheme improved (.vector n d) (.matrix n (n + 1) x)
    (.vector n (coordinate n s d)) byThreshold
  reportMissing improved choice

theorem dropForStep_matrix :
    dropForStep settings improved (.vector n d) radius minHeightFactor farLengthFactor
        (.matrix n (n + 1) x) (.matrix n n s) =
      guarded settings.checked "SETDROP_TR"
        (.that (decide ((Tensor.vector n d).size = n) && (Tensor.vector n d).isFinite)
            "SIZE(D) == N, D is finite" ::
          shapeChecks settings n (.matrix n (n + 1) x) (.matrix n n s) ++
          [minHeightCheck minHeightFactor, farLengthCheck farLengthFactor])
        (chosenForStep settings improved n d x s radius minHeightFactor farLengthFactor)
        fun choice =>
          [.that (choice.isSome || !improved)
            "JDROP >= 1 unless the trust-region step failed"] := by
  unfold dropForStep
  simp only [Tensor.flatten_vector, Tensor.asMatrix_matrix, Tensor.axisLength_matrix_zero,
    Tensor.product_matrix_vector, Outcome.liftM_ok_bind]
  rfl

/-- The routine always has a value, and warns of a choice that is missing for a better point and of
nothing else. -/
theorem chosenForStep_eq :
    ∃ log, (∀ event ∈ log, event.level = .debug) ∧
      chosenForStep settings improved n d x s radius minHeightFactor farLengthFactor =
        let vertex := stepVertex settings.dropScheme improved n (minHeightFactor * radius)
          (farLengthFactor * radius) d x s
        { log := log ++ if improved ∧ vertex = none then [.noVertexForStep] else []
          result := .ok vertex } := by
  let choice : Outcome α (Option Nat) := do
    let byThreshold ← thresholdChoice improved (.vector n d) radius minHeightFactor
      farLengthFactor (.matrix n (n + 1) x) (.matrix n n s) (.vector n (coordinate n s d))
    schemeChoice settings.dropScheme improved (.vector n d) (.matrix n (n + 1) x)
      (.vector n (coordinate n s d)) byThreshold
  have hchoice : choice.Yields (stepVertex settings.dropScheme improved n
      (minHeightFactor * radius) (farLengthFactor * radius) d x s) := by
    apply (thresholdChoice_yields improved n d x s _ radius minHeightFactor farLengthFactor).bind
    cases settings.dropScheme with
    | score => exact scoreChoice_yields improved n d x _ _
    | powell => exact Outcome.yields_pure _
    | unlisted name => exact Outcome.yields_pure _
  have hchosen : chosenForStep settings improved n d x s radius minHeightFactor farLengthFactor =
      choice >>= reportMissing improved := by
    rw [chosenForStep, bind_assoc]
  refine ⟨choice.log, hchoice.2, ?_⟩
  rw [hchosen, Outcome.bind_of_ok hchoice.1]
  cases improved <;> cases stepVertex settings.dropScheme _ n _ _ d x s <;> rfl

theorem result_dropForStep_unchecked (h : settings.checked = false) :
    (dropForStep settings improved (.vector n d) radius minHeightFactor farLengthFactor
      (.matrix n (n + 1) x) (.matrix n n s)).result =
      .ok (stepVertex settings.dropScheme improved n (minHeightFactor * radius)
        (farLengthFactor * radius) d x s) := by
  obtain ⟨log, -, hchosen⟩ :=
    chosenForStep_eq settings improved n d x s radius minHeightFactor farLengthFactor
  rw [dropForStep_matrix, h, guarded_false, hchosen]

/-- A vertex that the routine comes to, checked or not, is the choice of its scheme. -/
theorem eq_stepVertex_of_dropForStep {vertex : Option Nat}
    (h : (dropForStep settings improved (.vector n d) radius minHeightFactor farLengthFactor
      (.matrix n (n + 1) x) (.matrix n n s)).result = .ok vertex) :
    vertex = stepVertex settings.dropScheme improved n (minHeightFactor * radius)
      (farLengthFactor * radius) d x s := by
  obtain ⟨log, -, hchosen⟩ :=
    chosenForStep_eq settings improved n d x s radius minHeightFactor farLengthFactor
  cases hchecked : settings.checked with
  | false =>
      rw [result_dropForStep_unchecked (h := hchecked)] at h
      exact (Except.ok.inj h).symm
  | true =>
      rw [dropForStep_matrix, hchecked] at h
      rw [guarded_true_of_ok h, hchosen] at h
      exact (Except.ok.inj h).symm

private def promise : String := "JDROP >= 1 unless the trust-region step failed"

theorem verify_stepChecks_ne_promise (simplex inverse step : Tensor α) :
    verify "SETDROP_TR"
        (.that (decide (step.size = n) && step.isFinite) "SIZE(D) == N, D is finite" ::
          shapeChecks settings n simplex inverse ++
          [minHeightCheck minHeightFactor, farLengthCheck farLengthFactor]) ≠
      .error (.contract "SETDROP_TR" promise) := by
  refine verify_ne_contract ?_ ?_
  · simp only [List.forall_mem_append, List.forall_mem_cons]
    exact ⟨⟨uncontracted_ok _, uncontracted_shapeChecks settings n simplex inverse⟩,
      by simp [minHeightCheck, farLengthCheck, Check.that, uncontracted_ok]⟩
  · simp [map_statement_shapeChecks, minHeightCheck, farLengthCheck, Check.that, promise]

variable [Numeric α]

/-- Checked or not, the condition on the result never fails: where the conditions on the arguments
hold, vertices and step are finite. -/
theorem result_dropForStep_ne_promise :
    (dropForStep settings improved (.vector n d) radius minHeightFactor farLengthFactor
        (.matrix n (n + 1) x) (.matrix n n s)).result ≠
      .error (.contract "SETDROP_TR" promise) := by
  obtain ⟨log, -, hchosen⟩ :=
    chosenForStep_eq settings improved n d x s radius minHeightFactor farLengthFactor
  rw [dropForStep_matrix]
  cases hchecked : settings.checked with
  | false => simp [hchosen]
  | true =>
      intro h
      cases hverify : verify "SETDROP_TR"
          (.that (decide ((Tensor.vector n d).size = n) && (Tensor.vector n d).isFinite)
              "SIZE(D) == N, D is finite" ::
            shapeChecks settings n (.matrix n (n + 1) x) (.matrix n n s) ++
            [minHeightCheck minHeightFactor, farLengthCheck farLengthFactor]) with
      | error cause =>
          rw [guarded_true_of_error hverify] at h
          have hcause : cause = .contract "SETDROP_TR" promise := by simpa using h
          rw [hcause] at hverify
          exact verify_stepChecks_ne_promise settings n minHeightFactor farLengthFactor _ _ _
            hverify
      | ok =>
          -- Of the conditions that hold, those on finite entries make a distance a number.
          have hchecks := verify_eq_ok_iff.1 hverify
          simp only [shapeChecks, Check.that, List.cons_append, List.nil_append,
            List.forall_mem_cons, Except.ok.injEq, Bool.and_eq_true, decide_eq_true_eq,
            Tensor.isFinite, Tensor.all_vector_iff, Tensor.all_matrix_iff] at hchecks
          obtain ⟨⟨-, hd⟩, hn, -, hx, -⟩ := hchecks
          have hnumber : isNaN (gapLength true n d x 0) = false :=
            isNaN_gapLength_of_finite hd fun i hi => hx i 0 hi (by omega)
          rw [guarded_true_of_verify hverify, hchosen] at h
          cases improved with
          | false => simp [verify, Check.that, bind, Except.bind, pure, Except.pure] at h
          | true =>
              have hsome : stepVertex settings.dropScheme true n (minHeightFactor * radius)
                  (farLengthFactor * radius) d x s ≠ none :=
                stepVertex_ne_none hn hnumber
              obtain ⟨j, hj⟩ := Option.ne_none_iff_exists'.1 hsome
              simp [verify, Check.that, hj, bind, Except.bind, pure, Except.pure] at h

end Routine

/-- The vertex to drop for a step, whatever the entries.  Without checking there is always a vertex
number up to `n`; for a better point it is zero exactly when no distance from the new point is a
number and, if the thresholds alone decide, no coordinate of the step is one either; the one warning
is that it is zero for a better point; and it is not zero on finite vertices and a finite step.
With checking the condition on the result never fails. -/
theorem dropForStep_missing [Numeric α] (settings : Settings α) (improved : Bool) {n : Nat}
    (hn : 1 ≤ n) (d : Nat → α) (x s : Nat → Nat → α)
    (radius minHeightFactor farLengthFactor : α) :
    let run := dropForStep settings improved (.vector n d) radius minHeightFactor farLengthFactor
      (.matrix n (n + 1) x) (.matrix n n s)
    let noDistance := ∀ k, k < n → isNaN (sqrt (sum n fun i => square (x i k - d i))) = true
    let noCoordinate := ∀ k, k < n → isNaN (sum n fun l => s k l * d l) = true
    (settings.checked = false →
      ∃ vertex, run.result = .ok vertex ∧ vertexNumber vertex ≤ n ∧
        (improved = true → settings.dropScheme = .score →
          (vertexNumber vertex = 0 ↔ noDistance)) ∧
        (improved = true → settings.dropScheme = .powell →
          (vertexNumber vertex = 0 ↔ noDistance ∧ noCoordinate)) ∧
        (run.log.filter fun event => event.level = .warning) =
          (if improved = true ∧ vertexNumber vertex = 0 then [.noVertexForStep] else []) ∧
        (improved = true → (∀ i, i < n → Scalar.isFinite (d i) = true) →
          (∀ i k, i < n → k < n → Scalar.isFinite (x i k) = true) →
          1 ≤ vertexNumber vertex)) ∧
    run.result ≠ .error
      (.contract "SETDROP_TR" "JDROP >= 1 unless the trust-region step failed") := by
  intro run noDistance noCoordinate
  refine ⟨fun hchecked => ?_, result_dropForStep_ne_promise settings improved n d x s radius
    minHeightFactor farLengthFactor⟩
  obtain ⟨log, hdebug, hchosen⟩ :=
    chosenForStep_eq settings improved n d x s radius minHeightFactor farLengthFactor
  have hrun : run = chosenForStep settings improved n d x s radius minHeightFactor
      farLengthFactor := by
    show dropForStep settings improved _ _ _ _ _ _ = _
    rw [dropForStep_matrix, hchecked, guarded_false]
  rw [hrun, hchosen]
  refine ⟨_, rfl, ?_, ?_, ?_, ?_, ?_⟩
  · cases hvertex : stepVertex settings.dropScheme improved n (minHeightFactor * radius)
        (farLengthFactor * radius) d x s with
    | none => simp
    | some j => exact lt_of_stepVertex hvertex
  · intro himproved hscheme
    rw [vertexNumber_eq_zero_iff, himproved, hscheme]
    exact stepVertex_score_eq_none_iff
  · intro himproved hscheme
    rw [vertexNumber_eq_zero_iff, himproved, hscheme]
    exact stepVertex_powell_eq_none_iff
  · have hquiet : (log.filter fun event => event.level = .warning) = [] := by
      apply List.filter_eq_nil_iff.2
      intro event hmem
      simp [hdebug event hmem]
    rw [List.filter_append, hquiet, List.nil_append]
    simp only [vertexNumber_eq_zero_iff]
    split <;> rfl
  · intro himproved hd hx
    have hnumber : isNaN (gapLength true n d x 0) = false :=
      isNaN_gapLength_of_finite hd fun i hi => hx i 0 hi hn
    have hvertex : stepVertex settings.dropScheme true n (minHeightFactor * radius)
        (farLengthFactor * radius) d x s ≠ none :=
      stepVertex_ne_none hn hnumber
    rw [himproved]
    exact Nat.one_le_iff_ne_zero.2 fun hzero => hvertex (vertexNumber_eq_zero_iff.1 hzero)

/-- Vertices that are not known at all leave nothing to drop, one known vertex is enough. -/
theorem dropForStep_missing_of_nan :
    (∃ vertex,
      (dropForStep (Settings.standard : Settings Extended) true (.vector 1 fun _ => .finite 1) 1
        0.25 1.1 (.matrix 1 2 fun _ _ => .nan) (.matrix 1 1 fun _ _ => 1)).result = .ok vertex ∧
      vertexNumber vertex = 0) ∧
    ∃ vertex,
      (dropForStep (Settings.standard : Settings Extended) true (.vector 2 fun _ => .finite 1) 1
        0.25 1.1 (.matrix 2 3 fun _ k => if k = 0 then .nan else .finite 0)
        (.matrix 2 2 fun _ _ => .nan)).result = .ok vertex ∧
      vertexNumber vertex ≠ 0 := by
  constructor
  · obtain ⟨vertex, hvertex, -, hscore, -⟩ := (dropForStep_missing
      (Settings.standard : Settings Extended) true (le_refl 1) (fun _ => .finite 1)
      (fun _ _ => .nan) (fun _ _ => 1) 1 0.25 1.1).1 rfl
    refine ⟨vertex, hvertex, (hscore rfl rfl).2 fun k _ => ?_⟩
    rw [isNaN_sqrt_sum_square]
    exact isNaN_sum_square Nat.zero_lt_one Extended.isNaN_nan
  · obtain ⟨vertex, hvertex, -, hscore, -⟩ := (dropForStep_missing
      (Settings.standard : Settings Extended) true one_le_two (fun _ => .finite 1)
      (fun _ k => if k = 0 then .nan else .finite 0) (fun _ _ => .nan) 1 0.25 1.1).1 rfl
    refine ⟨vertex, hvertex, fun hzero => ?_⟩
    have hnan := (hscore rfl rfl).1 hzero 1 one_lt_two
    rw [isNaN_sqrt_sum_square, isNaN_sum_square_eq_false] at hnan
    · contradiction
    · intro i _
      exact Extended.isNaN_finite (0 - 1)

end Simplex

end InterpolationGeometry
