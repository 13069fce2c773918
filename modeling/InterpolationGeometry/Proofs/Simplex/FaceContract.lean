import InterpolationGeometry.Simplex.FaceStep

/-!
# The contract of a step across a face

Arrays of the right shapes whose entries are finite numbers satisfy every condition on the arguments,
in any arithmetic.  What is left of the routine is then the normal of the face, the choice of its
sense, and the length of the result.
-/

namespace InterpolationGeometry

namespace Simplex

open Scalar hiding abs

variable {α : Type} [Scalar α]

def IsProper (x : α) : Prop := Scalar.isFinite x = true ∧ isNaN x = false

namespace FaceProblem

/-- The problem of `n` vertices beside the base vertex and of `m` constraints, from its entries. -/
def ofEntries (n m : Nat) (s c : Nat → Nat → α) (z f : Nat → α) : FaceProblem α where
  inverse := .matrix n n s
  dimension := n
  constraints := .matrix m (n + 1) c
  constraintCount := m
  violations := .vector (n + 1) z
  values := .vector (n + 1) f

theorem ofTensors_of_asMatrix {n m : Nat} {s c : Nat → Nat → α} {inverse : Tensor α}
    (hinverse : inverse.asMatrix = .matrix n n s) (z f : Nat → α) :
    ofTensors inverse (.matrix m (n + 1) c) (.vector (n + 1) z) (.vector (n + 1) f) =
      .ok (ofEntries n m s c z f) := by
  have hmatrix := ofTensors_matrix n m s c z f
  rw [ofTensors, ofParts] at hmatrix ⊢
  simp only [bind, Except.bind, Tensor.asMatrix_matrix] at hmatrix ⊢
  rw [hinverse]
  exact hmatrix

/-- Finite numbers, and no violation below zero. -/
structure HasProperEntries (n m : Nat) (s c : Nat → Nat → α) (z f : Nat → α) : Prop where
  inverse : ∀ i k, i < n → k < n → Scalar.isFinite (s i k) = true
  constraints : ∀ i k, i < m → k < n + 1 → IsProper (c i k)
  violations : ∀ k, k < n + 1 → IsProper (z k) ∧ ¬ z k < 0
  values : ∀ k, k < n + 1 → IsProper (f k)

end FaceProblem

open FaceProblem

variable {n m j : Nat} {s c : Nat → Nat → α} {z f : Nat → α} {penalty radius stepFactor : α}

theorem verify_faceChecks (hentries : HasProperEntries n m s c z f) (hj : j < n)
    (hpenalty : 0 ≤ penalty) (hradius : 0 < radius) (hpos : 0 < stepFactor)
    (hlt : stepFactor < 1) :
    verify "GEOSTEP" (faceChecks (ofEntries n m s c z f) ((j + 1 : Nat) : Rat) penalty radius
      stepFactor) = .ok () := by
  have hnumber : (1 : Rat) ≤ ((j + 1 : Nat) : Rat) ∧ ((j + 1 : Nat) : Rat) ≤ (n : Rat) :=
    ⟨by exact_mod_cast Nat.le_add_left 1 j, by exact_mod_cast hj⟩
  have hinverse : (Tensor.matrix n n s).isFinite = true :=
    Tensor.all_matrix_iff.2 hentries.inverse
  have hvalues : ((Tensor.vector (n + 1) f).any fun x => isNaN x || isPosInf x) = false := by
    rw [Tensor.any_eq_false_iff, Tensor.all_vector_iff]
    intro k hk
    obtain ⟨hfinite, hnumber⟩ := hentries.values k hk
    simp [isPosInf, isInfinite, hfinite, hnumber]
  have hconstraints : ((Tensor.matrix m (n + 1) c).any fun x => isNaN x || isNegInf x) = false := by
    rw [Tensor.any_eq_false_iff, Tensor.all_matrix_iff]
    intro i k hi hk
    obtain ⟨hfinite, hnumber⟩ := hentries.constraints i k hi hk
    simp [isNegInf, isInfinite, hfinite, hnumber]
  have hviolations : ((Tensor.vector (n + 1) z).any fun x =>
      decide (x < 0) || isNaN x || isPosInf x) = false := by
    rw [Tensor.any_eq_false_iff, Tensor.all_vector_iff]
    intro k hk
    obtain ⟨⟨hfinite, hnumber⟩, hnonneg⟩ := hentries.violations k hk
    simp [isPosInf, isInfinite, hfinite, hnumber, hnonneg]
  rw [verify_eq_ok_iff]
  simp only [faceChecks, radiusCheck, Check.that, ofEntries, List.forall_mem_cons, hinverse,
    hvalues, hconstraints, hviolations, hnumber.1, hnumber.2, hpenalty, hradius, hpos, hlt,
    Tensor.shape_matrix, Tensor.size_vector, Nat.succ_le_of_lt (Nat.zero_lt_of_lt hj),
    decide_true, Bool.not_false, Bool.and_true, List.not_mem_nil, false_imp_iff, implies_true,
    and_true]

theorem verify_faceStepChecks {v : Nat → α} (hfinite : ∀ k, k < n → Scalar.isFinite (v k) = true)
    (hlower : 0.9 * stepFactor * radius < (Tensor.vector n v).norm)
    (hupper : (Tensor.vector n v).norm ≤ 1.1 * stepFactor * radius) :
    verify "GEOSTEP" (faceStepChecks n radius stepFactor (.vector n v)) = .ok () := by
  have hstep : (Tensor.vector n v).isFinite = true := Tensor.all_vector_iff.2 hfinite
  rw [verify_eq_ok_iff]
  simp only [faceStepChecks, Check.that, List.forall_mem_cons, hstep, hlower, hupper,
    Tensor.size_vector, decide_true, Bool.and_true, List.not_mem_nil, false_imp_iff, implies_true,
    and_true]

section Routine

variable {settings : Settings α} {problem : FaceProblem α}
  (hbefore : settings.checked = true →
    verify "GEOSTEP" (faceChecks problem ((j + 1 : Nat) : Rat) penalty radius stepFactor) = .ok ())

include hbefore

theorem faceStep_of_betterSense {u v : Tensor α}
    (hnormal : problem.normalStep j (stepFactor * radius) = .ok u)
    (hsense : problem.betterSense penalty u = .ok v)
    (hafter : settings.checked = true →
      verify "GEOSTEP" (faceStepChecks problem.dimension radius stepFactor v) = .ok ()) :
    faceStep settings problem ((j + 1 : Nat) : Rat) penalty radius stepFactor = pure v := by
  rw [faceStep]
  refine guarded_eq_pure ?_ hbefore hafter
  rw [placeOfNumber_ofNat, hnormal, Outcome.liftM_ok_bind, hsense]
  rfl

/-- Without a normal the routine fails as the normal does, whatever is checked. -/
theorem faceStep_of_normalStep_error {cause : Failure}
    (hnormal : problem.normalStep j (stepFactor * radius) = .error cause) :
    (faceStep settings problem ((j + 1 : Nat) : Rat) penalty radius stepFactor).result =
      .error cause := by
  have hbody : ((do
      let step ← problem.normalStep (placeOfNumber ((j + 1 : Nat) : Rat)) (stepFactor * radius)
      problem.betterSense penalty step : Outcome α (Tensor α))).result = .error cause := by
    rw [placeOfNumber_ofNat, hnormal, Outcome.liftM_error_bind]
    rfl
  cases hchecked : settings.checked with
  | false => rw [faceStep, hchecked, guarded_false, hbody]
  | true =>
      rw [faceStep, hchecked, guarded_true_of_verify (hbefore hchecked), hbody]
      rfl

end Routine

end Simplex

end InterpolationGeometry
