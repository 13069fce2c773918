import InterpolationGeometry.Proofs.Arithmetic.Ordered
import Mathlib.Logic.Basic

/-!
# Greatest and least entries

The bounds of a vector are numbers only if all its entries are, so that a bound beyond a threshold
says two things: some entry is beyond it, and every entry is a number.
-/

namespace InterpolationGeometry

namespace Tensor

open Scalar

variable {α : Type} [Scalar α]

omit [Scalar α] in
/-- What a fold says of its value is what holds of some term, among terms that are all good. -/
theorem foldl_and_iff {op : α → α → α} (good hits : α → Prop)
    (hgood : ∀ x y, good (op x y) ↔ good x ∧ good y)
    (hhits : ∀ x y, good x → good y → (hits (op x y) ↔ hits x ∨ hits y)) (l : List α) (x : α) :
    good (l.foldl op x) ∧ hits (l.foldl op x) ↔ (∀ y ∈ x :: l, good y) ∧ ∃ y ∈ x :: l, hits y := by
  induction l generalizing x with
  | nil => simp
  | cons y l ih =>
      rw [List.foldl_cons, ih]
      simp only [List.mem_cons, forall_eq_or_imp, exists_eq_or_imp, hgood]
      constructor
      · rintro ⟨⟨⟨hx, hy⟩, hl⟩, hhit⟩
        rw [hhits x y hx hy, or_assoc] at hhit
        exact ⟨⟨hx, hy, hl⟩, hhit⟩
      · rintro ⟨⟨hx, hy, hl⟩, hhit⟩
        rw [hhits x y hx hy, or_assoc]
        exact ⟨⟨⟨hx, hy⟩, hl⟩, hhit⟩

section Bounds

variable {x y t : α}

theorem isNaN_upper_eq_false_iff :
    isNaN (upper x y) = false ↔ isNaN x = false ∧ isNaN y = false := by
  unfold upper
  split
  · simp_all
  · split
    · simp_all
    · unfold larger
      split <;> simp_all

theorem isNaN_lower_eq_false_iff :
    isNaN (lower x y) = false ↔ isNaN x = false ∧ isNaN y = false := by
  unfold lower
  split
  · simp_all
  · split
    · simp_all
    · split <;> simp_all

variable [Ordered α]

theorem lt_upper_iff (hx : isNaN x = false) (hy : isNaN y = false) :
    t < upper x y ↔ t < x ∨ t < y := by
  simp only [upper, hx, hy, Bool.false_eq_true, if_false, larger]
  split
  · rename_i hlt
    exact ⟨Or.inr, fun h => h.elim (fun h => Scalar.lt_of_lt_of_le h (Scalar.le_of_lt hlt)) id⟩
  · rename_i hnot
    have hle := Scalar.le_of_not_lt hx hy hnot
    exact ⟨Or.inl, fun h => h.elim id fun h => Scalar.lt_of_lt_of_le h hle⟩

theorem le_upper_iff (hx : isNaN x = false) (hy : isNaN y = false) :
    t ≤ upper x y ↔ t ≤ x ∨ t ≤ y := by
  simp only [upper, hx, hy, Bool.false_eq_true, if_false, larger]
  split
  · rename_i hlt
    exact ⟨Or.inr, fun h => h.elim (fun h => Ordered.le_trans h (Scalar.le_of_lt hlt)) id⟩
  · rename_i hnot
    have hle := Scalar.le_of_not_lt hx hy hnot
    exact ⟨Or.inl, fun h => h.elim id fun h => Ordered.le_trans h hle⟩

theorem lower_lt_iff (hx : isNaN x = false) (hy : isNaN y = false) :
    lower x y < t ↔ x < t ∨ y < t := by
  simp only [lower, hx, hy, Bool.false_eq_true, if_false]
  split
  · rename_i hlt
    exact ⟨Or.inr, fun h => h.elim (fun h => Scalar.lt_of_le_of_lt (Scalar.le_of_lt hlt) h) id⟩
  · rename_i hnot
    have hle := Scalar.le_of_not_lt hy hx hnot
    exact ⟨Or.inl, fun h => h.elim id fun h => Scalar.lt_of_le_of_lt hle h⟩

variable {n : Nat} {f : Nat → α}

omit [Scalar α] [Ordered α] in
private theorem toList_vector_succ (n : Nat) (f : Nat → α) :
    (vector (n + 1) f).toList = f 0 :: (List.range n).map fun k => f (k + 1) := by
  rw [toList_vector, List.range_succ_eq_map, List.map_cons, List.map_map]
  rfl

/-- The greatest entry exceeds a threshold when some entry does and all are numbers. -/
theorem greatest?_exceeds_iff (hn : 1 ≤ n) :
    (vector n f).greatest?.any (fun m => decide (t < m)) = true ↔
      (∀ k, k < n → isNaN (f k) = false) ∧ ∃ k, k < n ∧ t < f k := by
  obtain ⟨n, rfl⟩ := Nat.exists_eq_add_of_le' hn
  have hbound := foldl_and_iff (fun y => isNaN y = false) (fun y => t < y)
    (fun _ _ => isNaN_upper_eq_false_iff) (fun _ _ => lt_upper_iff)
    ((List.range n).map fun k => f (k + 1)) (f 0)
  rw [← toList_vector_succ, toList_vector] at hbound
  simp only [greatest?, toList_vector_succ, Option.any_some, decide_eq_true_eq]
  rw [← and_iff_right_of_imp fun h => isNaN_eq_false_of_lt_right h, hbound]
  simp

theorem le_greatest_iff {m : α} (h : (vector n f).greatest? = some m) :
    t ≤ m ↔ (∀ k, k < n → isNaN (f k) = false) ∧ ∃ k, k < n ∧ t ≤ f k := by
  cases n with
  | zero => simp [greatest?, toList_vector] at h
  | succ n =>
      have hbound := foldl_and_iff (fun y => isNaN y = false) (fun y => t ≤ y)
        (fun _ _ => isNaN_upper_eq_false_iff) (fun _ _ => le_upper_iff)
        ((List.range n).map fun k => f (k + 1)) (f 0)
      simp only [greatest?, toList_vector_succ, Option.some.injEq] at h
      rw [← toList_vector_succ, toList_vector, h] at hbound
      rw [← and_iff_right_of_imp fun h => isNaN_eq_false_of_le_right h, hbound]
      simp

theorem least?_below_iff (hn : 1 ≤ n) :
    (vector n f).least?.any (fun m => decide (m < t)) = true ↔
      (∀ k, k < n → isNaN (f k) = false) ∧ ∃ k, k < n ∧ f k < t := by
  obtain ⟨n, rfl⟩ := Nat.exists_eq_add_of_le' hn
  have hbound := foldl_and_iff (fun y => isNaN y = false) (fun y => y < t)
    (fun _ _ => isNaN_lower_eq_false_iff) (fun _ _ => lower_lt_iff)
    ((List.range n).map fun k => f (k + 1)) (f 0)
  rw [← toList_vector_succ, toList_vector] at hbound
  simp only [least?, toList_vector_succ, Option.any_some, decide_eq_true_eq]
  rw [← and_iff_right_of_imp fun h => isNaN_eq_false_of_lt_left h, hbound]
  simp

end Bounds

end Tensor

end InterpolationGeometry
