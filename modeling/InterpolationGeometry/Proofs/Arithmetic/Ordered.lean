import InterpolationGeometry.Selection

/-!
# Numbers in order

All that a selection needs to know of the arithmetic: comparisons with a value that is not a number
are false, and the numbers are totally ordered, up to values that compare as equal.  Under these
laws the selected place is characterised by order alone: there is one exactly when some number is
offered, nothing offered exceeds it, and it exceeds everything before it.
-/

namespace InterpolationGeometry

namespace Scalar

/-- A value that is not a number compares with nothing; numbers are totally ordered. -/
class Ordered (α : Type) [Scalar α] : Prop where
  le_trans {x y z : α} : x ≤ y → y ≤ z → x ≤ z
  self_of_le {x y : α} : x ≤ y → x ≤ x ∧ y ≤ y
  le_total {x y : α} : x ≤ x → y ≤ y → x ≤ y ∨ y ≤ x
  lt_iff {x y : α} : x < y ↔ x ≤ y ∧ ¬ y ≤ x

variable {α : Type} [Scalar α]

theorem isNaN_eq_false_iff {x : α} : isNaN x = false ↔ x ≤ x := by
  simp [isNaN]

theorem isNaN_eq_true_iff {x : α} : isNaN x = true ↔ ¬ x ≤ x := by
  simp [isNaN]

variable [Ordered α] {x y z : α}

protected theorem le_of_lt (h : x < y) : x ≤ y := (Ordered.lt_iff.1 h).1

protected theorem not_le_of_lt (h : x < y) : ¬ y ≤ x := (Ordered.lt_iff.1 h).2

protected theorem lt_irrefl (x : α) : ¬ x < x := fun h => Scalar.not_le_of_lt h (Scalar.le_of_lt h)

protected theorem not_lt_of_lt (h : x < y) : ¬ y < x := fun h' =>
  Scalar.not_le_of_lt h (Scalar.le_of_lt h')

theorem isNaN_eq_false_of_lt_left (h : x < y) : isNaN x = false :=
  isNaN_eq_false_iff.2 (Ordered.self_of_le (Scalar.le_of_lt h)).1

theorem isNaN_eq_false_of_lt_right (h : x < y) : isNaN y = false :=
  isNaN_eq_false_iff.2 (Ordered.self_of_le (Scalar.le_of_lt h)).2

theorem isNaN_eq_false_of_le_left (h : x ≤ y) : isNaN x = false :=
  isNaN_eq_false_iff.2 (Ordered.self_of_le h).1

theorem isNaN_eq_false_of_le_right (h : x ≤ y) : isNaN y = false :=
  isNaN_eq_false_iff.2 (Ordered.self_of_le h).2

protected theorem le_of_not_lt (hx : isNaN x = false) (hy : isNaN y = false) (h : ¬ x < y) :
    y ≤ x := by
  have hself := isNaN_eq_false_iff.1 hx
  have hself' := isNaN_eq_false_iff.1 hy
  rcases Ordered.le_total hself hself' with hle | hle
  · exact Decidable.byContradiction fun hnot => h (Ordered.lt_iff.2 ⟨hle, hnot⟩)
  · exact hle

protected theorem lt_of_lt_of_le (h : x < y) (h' : y ≤ z) : x < z :=
  Ordered.lt_iff.2 ⟨Ordered.le_trans (Scalar.le_of_lt h) h', fun hzx =>
    Scalar.not_le_of_lt h (Ordered.le_trans h' hzx)⟩

protected theorem lt_of_le_of_lt (h : x ≤ y) (h' : y < z) : x < z :=
  Ordered.lt_iff.2 ⟨Ordered.le_trans h (Scalar.le_of_lt h'), fun hzx =>
    Scalar.not_le_of_lt h' (Ordered.le_trans hzx h)⟩

/-- A number between two others that are in strict order is in strict order with one of them. -/
theorem lt_or_lt_of_lt (hy : isNaN y = false) (h : x < z) : x < y ∨ y < z := by
  by_cases hxy : x < y
  · exact Or.inl hxy
  · have hle := Scalar.le_of_not_lt (isNaN_eq_false_of_lt_left h) hy hxy
    refine Or.inr (Ordered.lt_iff.2 ⟨Ordered.le_trans hle (Scalar.le_of_lt h), fun hzy => ?_⟩)
    exact Scalar.not_le_of_lt h (Ordered.le_trans hzy hle)

end Scalar

namespace Selection

open Scalar

variable {α : Type} [Scalar α]

def offered (n : Nat) (f : Nat → α) (mask : Nat → Bool) : List Nat :=
  (List.range n).filter fun k => !isNaN (f k) && mask k

/-- The lowest place of the largest number under a mask. -/
def greatest (n : Nat) (f : Nat → α) (mask : Nat → Bool) : Option Nat :=
  best? (fun y x => decide (x < y)) f (offered n f mask)

/-- The lowest place of the smallest number under a mask. -/
def least (n : Nat) (f : Nat → α) (mask : Nat → Bool) : Option Nat :=
  best? (fun y x => decide (y < x)) f (offered n f mask)

theorem mem_offered_iff {n k : Nat} {f : Nat → α} {mask : Nat → Bool} :
    k ∈ offered n f mask ↔ k < n ∧ isNaN (f k) = false ∧ mask k = true := by
  simp [offered]

theorem pairwise_offered (n : Nat) (f : Nat → α) (mask : Nat → Bool) :
    (offered n f mask).Pairwise (· < ·) :=
  List.pairwise_lt_range.filter _

theorem offered_true (n : Nat) (f : Nat → α) :
    (offered n f fun _ => true) = (List.range n).filter fun k => !isNaN (f k) := by
  simp [offered]

private theorem number_of_offered {n k : Nat} {f : Nat → α} {mask : Nat → Bool}
    (hk : k ∈ offered n f mask) : isNaN (f k) = false :=
  (mem_offered_iff.1 hk).2.1

/-! ## Selected entries of a vector -/

theorem argmax?_eq_greatest (n : Nat) (f : Nat → α) :
    argmax? (.vector n f) none = .ok (greatest n f fun _ => true) := by
  rw [argmax?_vector, greatest, offered_true]

theorem argmax?_eq_greatest_masked (n : Nat) (f : Nat → α) (mask : Nat → Bool) :
    argmax? (.vector n f) (some (.vector n mask)) = .ok (greatest n f mask) := by
  have hmask : maskOver n (Tensor.vector n mask).toList = .ok ((List.range n).map mask) := by
    rw [Tensor.toList_vector]
    exact maskOver_of_length (by simp)
  have hplaces : validPlaces (.vector n f) (some (.vector n mask)) = .ok (offered n f mask) := by
    simp only [validPlaces, Tensor.size_vector, hmask, bind, Except.bind, pure, Except.pure,
      offered, List.filter_filter]
    congr 1
    refine List.filter_congr fun k hk => ?_
    have hlt := List.mem_range.1 hk
    simp [Tensor.entries_getD_vector f hlt, hlt, Bool.and_comm]
  simp only [argmax?, hplaces, bind, Except.bind, pure, Except.pure, greatest]
  congr 1
  refine best?_congr fun k hk => ?_
  exact Tensor.entries_getD_vector f (mem_offered_iff.1 hk).1

/-! ## What is selected -/

section Laws

variable {f : Nat → α} {n j : Nat} {mask : Nat → Bool}

private theorem offered_eq_nil_iff :
    offered n f mask = [] ↔ ∀ k, k < n → mask k = true → isNaN (f k) = true := by
  rw [List.eq_nil_iff_forall_not_mem]
  constructor
  · intro h k hk hmask
    cases hnan : isNaN (f k) with
    | true => rfl
    | false => exact absurd (mem_offered_iff.2 ⟨hk, hnan, hmask⟩) (h k)
  · intro h k hmem
    obtain ⟨hk, hnan, hmask⟩ := mem_offered_iff.1 hmem
    rw [h k hk hmask] at hnan
    contradiction

/-- Nothing is selected exactly when no number is offered. -/
theorem greatest_eq_none_iff :
    greatest n f mask = none ↔ ∀ k, k < n → mask k = true → isNaN (f k) = true := by
  rw [greatest, best?_eq_none_iff, offered_eq_nil_iff]

theorem least_eq_none_iff :
    least n f mask = none ↔ ∀ k, k < n → mask k = true → isNaN (f k) = true := by
  rw [least, best?_eq_none_iff, offered_eq_nil_iff]

theorem mem_of_greatest (h : greatest n f mask = some j) :
    j < n ∧ isNaN (f j) = false ∧ mask j = true :=
  mem_offered_iff.1 (mem_of_best? h)

theorem mem_of_least (h : least n f mask = some j) :
    j < n ∧ isNaN (f j) = false ∧ mask j = true :=
  mem_offered_iff.1 (mem_of_best? h)

variable [Ordered α]

/-- No number offered exceeds the one selected. -/
theorem le_of_greatest (h : greatest n f mask = some j) {k : Nat} (hk : k < n)
    (hnumber : isNaN (f k) = false) (hmask : mask k = true) : f k ≤ f j := by
  have hoffered := mem_offered_iff.2 ⟨hk, hnumber, hmask⟩
  have hnot : decide (f j < f k) = false := by
    refine not_beats_of_best? ?_ ?_ ?_ h k hoffered
    · intro i _
      simp [Scalar.lt_irrefl]
    · intro i _ l _ hlt
      simpa using Scalar.not_lt_of_lt (of_decide_eq_true hlt)
    · intro i _ l hl m _ hlt
      have := lt_or_lt_of_lt (number_of_offered hl) (of_decide_eq_true hlt)
      simpa [or_comm] using this
  exact Scalar.le_of_not_lt (mem_of_greatest h).2.1 hnumber (of_decide_eq_false hnot)

/-- The one selected exceeds every number offered before it. -/
theorem lt_of_greatest (h : greatest n f mask = some j) {k : Nat} (hkj : k < j)
    (hnumber : isNaN (f k) = false) (hmask : mask k = true) : f k < f j := by
  have hk : k < n := Nat.lt_trans hkj (mem_of_greatest h).1
  have hoffered := mem_offered_iff.2 ⟨hk, hnumber, hmask⟩
  have hbeats : decide (f k < f j) = true := by
    refine beats_of_best?_of_lt (pairwise_offered n f mask) ?_ h k hoffered hkj
    intro i _ l _ hlt
    simpa using Scalar.not_lt_of_lt (of_decide_eq_true hlt)
  exact of_decide_eq_true hbeats

theorem le_of_least (h : least n f mask = some j) {k : Nat} (hk : k < n)
    (hnumber : isNaN (f k) = false) (hmask : mask k = true) : f j ≤ f k := by
  have hoffered := mem_offered_iff.2 ⟨hk, hnumber, hmask⟩
  have hnot : decide (f k < f j) = false := by
    refine not_beats_of_best? ?_ ?_ ?_ h k hoffered
    · intro i _
      simp [Scalar.lt_irrefl]
    · intro i _ l _ hlt
      simpa using Scalar.not_lt_of_lt (of_decide_eq_true hlt)
    · intro i _ l hl m _ hlt
      have := lt_or_lt_of_lt (number_of_offered hl) (of_decide_eq_true hlt)
      simpa using this
  exact Scalar.le_of_not_lt hnumber (mem_of_least h).2.1 (of_decide_eq_false hnot)

theorem lt_of_least (h : least n f mask = some j) {k : Nat} (hkj : k < j)
    (hnumber : isNaN (f k) = false) (hmask : mask k = true) : f j < f k := by
  have hk : k < n := Nat.lt_trans hkj (mem_of_least h).1
  have hoffered := mem_offered_iff.2 ⟨hk, hnumber, hmask⟩
  have hbeats : decide (f j < f k) = true := by
    refine beats_of_best?_of_lt (pairwise_offered n f mask) ?_ h k hoffered hkj
    intro i _ l _ hlt
    simpa using Scalar.not_lt_of_lt (of_decide_eq_true hlt)
  exact of_decide_eq_true hbeats

end Laws

/-! ## The lowest place of an extreme number -/

/-- The first place of the largest number of a vector. -/
structure IsFirstGreatest (n : Nat) (f : Nat → α) (j : Nat) : Prop where
  lt_size : j < n
  number : isNaN (f j) = false
  le : ∀ k, k < n → isNaN (f k) = false → f k ≤ f j
  lt_of_lt : ∀ k, k < j → isNaN (f k) = false → f k < f j

/-- The first place of the smallest number of a vector. -/
structure IsFirstLeast (n : Nat) (f : Nat → α) (j : Nat) : Prop where
  lt_size : j < n
  number : isNaN (f j) = false
  le : ∀ k, k < n → isNaN (f k) = false → f j ≤ f k
  lt_of_lt : ∀ k, k < j → isNaN (f k) = false → f j < f k

section Extreme

variable [Ordered α] {f : Nat → α} {n k : Nat}

/-- A vector with a number has a largest one, which is selected. -/
theorem exists_isFirstGreatest (hk : k < n) (hnumber : isNaN (f k) = false) :
    ∃ j, greatest n f (fun _ => true) = some j ∧ IsFirstGreatest n f j := by
  cases hgreatest : greatest n f fun _ => true with
  | none =>
      rw [greatest_eq_none_iff.1 hgreatest k hk rfl] at hnumber
      contradiction
  | some j =>
      obtain ⟨hj, hself, -⟩ := mem_of_greatest hgreatest
      exact ⟨j, rfl, hj, hself, fun i hi hnum => le_of_greatest hgreatest hi hnum rfl,
        fun i hi hnum => lt_of_greatest hgreatest hi hnum rfl⟩

theorem exists_isFirstLeast (hk : k < n) (hnumber : isNaN (f k) = false) :
    ∃ j, least n f (fun _ => true) = some j ∧ IsFirstLeast n f j := by
  cases hleast : least n f fun _ => true with
  | none =>
      rw [least_eq_none_iff.1 hleast k hk rfl] at hnumber
      contradiction
  | some j =>
      obtain ⟨hj, hself, -⟩ := mem_of_least hleast
      exact ⟨j, rfl, hj, hself, fun i hi hnum => le_of_least hleast hi hnum rfl,
        fun i hi hnum => lt_of_least hleast hi hnum rfl⟩

end Extreme

end Selection

end InterpolationGeometry
