import InterpolationGeometry.Proofs.Simplex.Multiples
import InterpolationGeometry.Proofs.Tensor.Selectors
import Mathlib.Algebra.Group.End
import Mathlib.Logic.Equiv.Fin.Basic

/-!
# Choices in another order

A choice reads its quantities place by place and tells places apart by the values there, and by
their order only among equal values.  So in exact arithmetic, when the places of all quantities are
permuted and no two values tie, the choice moves with its value.  The base vertex has the place
after all others, which stays, and stands for the other choice as before.
-/

namespace InterpolationGeometry

namespace Simplex

open Scalar

variable {n m : ℕ} {p : Equiv.Perm (Fin n)}

/-- The place from which a permutation of the vertices takes what it puts at a place; all further
places stay. -/
def formerPlace (p : Equiv.Perm (Fin n)) : Equiv.Perm ℕ := p.extendDomain Fin.equivSubtype

theorem formerPlace_val (p : Equiv.Perm (Fin n)) (k : Fin n) : formerPlace p k = p k :=
  p.extendDomain_apply_image Fin.equivSubtype k

theorem formerPlace_of_le (p : Equiv.Perm (Fin n)) {k : ℕ} (h : n ≤ k) : formerPlace p k = k :=
  p.extendDomain_apply_not_subtype Fin.equivSubtype h.not_gt

theorem formerPlace_lt_iff (hm : n ≤ m) (k : ℕ) : formerPlace p k < m ↔ k < m := by
  by_cases hk : k < n
  · have hval := formerPlace_val p ⟨k, hk⟩
    have hlt := (p ⟨k, hk⟩).isLt
    simp only at hval
    omega
  · rw [formerPlace_of_le p (not_lt.1 hk)]

theorem formerPlace_eq_last_iff {k : ℕ} : formerPlace p k = n ↔ k = n := by
  have hlast := formerPlace_of_le p le_rfl
  exact ⟨fun h => (formerPlace p).injective (h.trans hlast.symm), fun h => h ▸ hlast⟩

/-- The first entries of the second sequence are those of the first one at the former places. -/
def IsReordered (p : Equiv.Perm (Fin n)) (m : ℕ) {β : Type} (f f' : ℕ → β) : Prop :=
  ∀ k, k < m → f' k = f (formerPlace p k)

section Maps

variable {β γ δ : Type} {f f' : ℕ → β} {g g' : ℕ → γ}

theorem isReordered_const (p : Equiv.Perm (Fin n)) (m : ℕ) (c : β) :
    IsReordered p m (fun _ => c) fun _ => c := fun _ _ => rfl

theorem IsReordered.map (h : IsReordered p m f f') (op : β → γ) :
    IsReordered p m (fun k => op (f k)) fun k => op (f' k) := fun k hk => congrArg op (h k hk)

theorem IsReordered.map₂ (h : IsReordered p m f f') (h' : IsReordered p m g g')
    (op : β → γ → δ) : IsReordered p m (fun k => op (f k) (g k)) fun k => op (f' k) (g' k) :=
  fun k hk => congrArg₂ op (h k hk) (h' k hk)

end Maps

def Untied (m : ℕ) (f : ℕ → ℝ) : Prop := Set.InjOn f {k | k < m}

section Quantifiers

variable {P P' : ℕ → Prop} (hm : n ≤ m) (h : IsReordered p m P P')

include hm h

theorem IsReordered.exists_iff : (∃ k, k < m ∧ P' k) ↔ ∃ k, k < m ∧ P k := by
  constructor
  · rintro ⟨k, hk, hP⟩
    exact ⟨formerPlace p k, (formerPlace_lt_iff hm k).2 hk, by rwa [← h k hk]⟩
  · rintro ⟨k, hk, hP⟩
    obtain ⟨l, rfl⟩ := (formerPlace p).surjective k
    have hl := (formerPlace_lt_iff hm l).1 hk
    exact ⟨l, hl, by rwa [h l hl]⟩

theorem IsReordered.forall_iff : (∀ k, k < m → P' k) ↔ ∀ k, k < m → P k := by
  constructor
  · intro hall k hk
    obtain ⟨l, rfl⟩ := (formerPlace p).surjective k
    have hl := (formerPlace_lt_iff hm l).1 hk
    rw [← h l hl]
    exact hall l hl
  · intro hall k hk
    rw [h k hk]
    exact hall _ ((formerPlace_lt_iff hm k).2 hk)

end Quantifiers

/-! ## Extreme entries -/

section Extreme

variable {f f' : ℕ → ℝ} {mask mask' : ℕ → Bool} (hm : n ≤ m) (h : IsReordered p m f f')
  (hmask : IsReordered p m mask mask') (huntied : Untied m f)

include hm h hmask huntied

/-- The greatest of entries that do not tie is chosen where it is now. -/
theorem IsReordered.greatest :
    Selection.greatest m f mask = (Selection.greatest m f' mask').map (formerPlace p) := by
  cases hnew : Selection.greatest m f' mask' with
  | none =>
      have hoffered := hmask.map₂ h fun allowed x => allowed = true → isNaN x = true
      rw [Option.map_none, Selection.greatest_eq_none_iff]
      exact (hoffered.forall_iff hm).1 (Selection.greatest_eq_none_iff.1 hnew)
  | some j =>
      obtain ⟨⟨hj, -, hjmask⟩, hmax, -⟩ := Selection.greatest_eq_some_iff.1 hnew
      rw [h j hj] at hmax
      have hbelow := hmask.map₂ h fun allowed x => allowed = true → x ≤ f (formerPlace p j)
      have hle := (hbelow.forall_iff hm).1 fun k hk hkmask => hmax k ⟨hk, isNaN_real _, hkmask⟩
      have hformer := (formerPlace_lt_iff (p := p) hm j).2 hj
      rw [Option.map_some, Selection.greatest_eq_some_iff]
      refine ⟨⟨hformer, isNaN_real _, by rwa [← hmask j hj]⟩, fun k hk => hle k hk.1 hk.2.2,
        fun k hlt hk => ?_⟩
      exact lt_of_le_of_ne (hle k hk.1 hk.2.2) fun heq => hlt.ne (huntied hk.1 hformer heq)

theorem IsReordered.least :
    Selection.least m f mask = (Selection.least m f' mask').map (formerPlace p) := by
  rw [Selection.least_eq_greatest_neg, Selection.least_eq_greatest_neg]
  refine (h.map (- ·)).greatest hm hmask fun i hi k hk heq => ?_
  exact huntied hi hk (neg_injective heq)

end Extreme

/-! ## Thresholds -/

section Thresholds

variable {heights heights' lengths lengths' c c' : ℕ → ℝ}
  (hheights : IsReordered p n heights heights') (hlengths : IsReordered p n lengths lengths')

include hheights hlengths

theorem areAcceptable_reordered (minHeight maxLength : ℝ) :
    Distances.areAcceptable ⟨.vector n heights', .vector n lengths'⟩ minHeight maxLength =
      Distances.areAcceptable ⟨.vector n heights, .vector n lengths⟩ minHeight maxLength := by
  have hwithin := hheights.map₂ hlengths fun height length =>
    minHeight ≤ height ∧ length ≤ maxLength
  rw [Bool.eq_iff_iff, Distances.areAcceptable_vector_iff, Distances.areAcceptable_vector_iff]
  exact hwithin.forall_iff le_rfl

theorem worstVertex_reordered (huntiedHeights : Untied n heights)
    (huntiedLengths : Untied n lengths) (minHeight maxLength : ℝ) :
    ∃ choice, (∀ j, choice = some j → j < n) ∧
      (Distances.worstVertex ⟨.vector n heights', .vector n lengths'⟩ minHeight maxLength).result =
        .ok choice ∧
      (Distances.worstVertex ⟨.vector n heights, .vector n lengths⟩ minHeight maxLength).result =
        .ok (choice.map (formerPlace p)) := by
  have hlong := (hlengths.map (maxLength < ·)).exists_iff le_rfl
  have hthin := (hheights.map (· < minHeight)).exists_iff le_rfl
  have hall := isReordered_const p n true
  by_cases hlongest : ∃ k, k < n ∧ maxLength < lengths k
  · refine ⟨Selection.greatest n lengths' fun _ => true,
      fun j hj => (Selection.mem_of_greatest hj).1, ?_, ?_⟩
    · rw [Distances.worstVertex_of_long (hlong.2 hlongest), ← Selection.offered_true]
      rfl
    · rw [Distances.worstVertex_of_long hlongest, ← Selection.offered_true,
        ← hlengths.greatest le_rfl hall huntiedLengths]
      rfl
  · by_cases hthinnest : ∃ k, k < n ∧ heights k < minHeight
    · refine ⟨Selection.least n heights' fun _ => true,
        fun j hj => (Selection.mem_of_least hj).1, ?_, ?_⟩
      · rw [Distances.worstVertex_of_thin (mt hlong.1 hlongest) (hthin.2 hthinnest),
          ← Selection.offered_true]
        rfl
      · rw [Distances.worstVertex_of_thin hlongest hthinnest, ← Selection.offered_true,
          ← hheights.least le_rfl hall huntiedHeights]
        rfl
    · rw [Distances.worstVertex_of_neither (mt hlong.1 hlongest) (mt hthin.1 hthinnest),
        Distances.worstVertex_of_neither hlongest hthinnest]
      exact ⟨none, fun j hj => by contradiction, rfl, rfl⟩

variable (hc : IsReordered p n c c')

include hc

theorem isReplaceable_reordered (minHeight farLength : ℝ) :
    IsReordered p n (isReplaceable minHeight farLength lengths heights c)
      (isReplaceable minHeight farLength lengths' heights' c') := fun k hk => by
  simp only [isReplaceable, hlengths k hk, hheights k hk, hc k hk]

omit hheights hlengths in
theorem coordinateVertex_reordered (improved : Bool) (huntied : Untied n fun k => |c k|) :
    coordinateVertex improved n c =
      (coordinateVertex improved n c').map (formerPlace p) := by
  have hlarge := (hc.map (1 < |·|)).exists_iff le_rfl
  have hknown := (hc.map (isNaN · = false)).exists_iff le_rfl
  simp only [coordinateVertex, abs_real, hlarge, hknown]
  split
  · exact (hc.map (|·|)).greatest le_rfl (isReordered_const p n true) huntied
  · rfl

variable (huntiedLengths : Untied n lengths) (huntied : Untied n fun k => |c k|)

include huntiedLengths huntied

theorem farVertex_reordered (improved : Bool) (minHeight farLength : ℝ) :
    farVertex improved n minHeight farLength lengths heights c =
      (farVertex improved n minHeight farLength lengths' heights' c').map (formerPlace p) := by
  have hmask := isReplaceable_reordered hheights hlengths hc minHeight farLength
  have hany := (hmask.map (· = true)).exists_iff le_rfl
  simp only [farVertex, hany]
  split
  · exact hlengths.greatest le_rfl hmask huntiedLengths
  · exact coordinateVertex_reordered hc improved huntied

theorem thresholdVertex_reordered (improved : Bool) (minHeight farLength : ℝ) :
    thresholdVertex improved n minHeight farLength lengths heights c =
      (thresholdVertex improved n minHeight farLength lengths' heights' c').map
        (formerPlace p) := by
  have hfar := farVertex_reordered hheights hlengths hc huntiedLengths huntied improved minHeight
    farLength
  rw [thresholdVertex, thresholdVertex, hfar]
  cases farVertex improved n minHeight farLength lengths' heights' c' with
  | some j => rfl
  | none =>
      cases improved with
      | false => rfl
      | true => exact hlengths.greatest le_rfl (isReordered_const p n true) huntiedLengths

end Thresholds

/-! ## Scores -/

section Scores

variable {squares squares' c c' : ℕ → ℝ} {base : ℝ} (hsquares : IsReordered p n squares squares')
  (hc : IsReordered p n c c')

include hsquares hc

/-- The scores are reordered, that of the base vertex stays. -/
theorem score_reordered (hsum : sum n c' = sum n c) :
    IsReordered p (n + 1) (score n squares base c) (score n squares' base c') := by
  intro k _
  by_cases hk : k < n
  · have hformer : formerPlace p k < n := (formerPlace_lt_iff le_rfl k).2 hk
    rw [score, score, if_pos hk, if_pos hformer, hsquares k hk, hc k hk]
  · rw [formerPlace_of_le p (not_lt.1 hk), score, score, if_neg hk, if_neg hk, hsum]

/-- The choice by scores is made where it is now, if the other choice is. -/
theorem scoreVertex_reordered (hsum : sum n c' = sum n c) (huntiedSquares : Untied n squares)
    (huntied : Untied (n + 1) (score n squares base c)) (improved : Bool) (other : Option ℕ) :
    scoreVertex improved n squares base c (other.map (formerPlace p)) =
      (scoreVertex improved n squares' base c' other).map (formerPlace p) := by
  have hfar := (hsquares.map (0 < ·)).exists_iff le_rfl
  have hbest := (score_reordered hsquares hc hsum).greatest n.le_succ
    (isReordered_const p (n + 1) true) huntied
  simp only [scoreVertex, hfar, hbest]
  split
  · cases Selection.greatest (n + 1) (score n squares' base c') fun _ => true with
    | none => rfl
    | some j =>
        by_cases hj : j = n
        · simp [hj, formerPlace_of_le]
        · simp [hj, formerPlace_eq_last_iff]
  · split
    · exact hsquares.greatest le_rfl (isReordered_const p n true) huntiedSquares
    · rfl

end Scores

end Simplex

end InterpolationGeometry
