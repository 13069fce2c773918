import InterpolationGeometry.Proofs.Arithmetic.Embedding

/-!
# Selecting from a tensor

The place that is selected from a tensor of any shape is a place of its row-major order.  It is
valid: its entry is a number and the mask, if there is one, is true there.  No valid entry exceeds
the selected one, and it exceeds every valid entry before it, so that no other place has these two
properties; there is no selected place exactly when no place is valid.  All that is asked of the
arithmetic is the order of its numbers, in which different values may compare as equal, as two zeros
do.  Where negation reverses that order, the smallest entry is the largest of the opposite ones.
-/

namespace InterpolationGeometry

namespace Scalar

/-- Negation reverses the order of the numbers, and of nothing else. -/
class Reversing (α : Type) [Scalar α] : Prop extends Ordered α where
  neg_le_neg {x y : α} : -x ≤ -y ↔ y ≤ x

instance : Reversing ℝ where
  neg_le_neg := neg_le_neg_iff

section Reversing

variable {α : Type} [Scalar α] [Reversing α]

theorem neg_lt_neg {x y : α} : -x < -y ↔ y < x := by
  rw [Ordered.lt_iff, Ordered.lt_iff, Reversing.neg_le_neg, Reversing.neg_le_neg]

theorem isNaN_neg (x : α) : isNaN (-x) = isNaN x := by
  simp only [isNaN, Reversing.neg_le_neg]

end Reversing

end Scalar

namespace Extended

theorem rank_neg (x : Extended) : (-x).rank = -x.rank := by
  cases x with
  | finite x => exact EReal.coe_neg x
  | infinite negative =>
      cases negative with
      | false => exact EReal.neg_top.symm
      | true => exact EReal.neg_bot.symm
  | nan => exact neg_zero.symm

theorem neg_eq_nan_iff {x : Extended} : -x = nan ↔ x = nan := by
  cases x with
  | finite x => exact iff_of_false Extended.noConfusion Extended.noConfusion
  | infinite negative => exact iff_of_false Extended.noConfusion Extended.noConfusion
  | nan => exact Iff.rfl

instance : Scalar.Reversing Extended where
  neg_le_neg {x y} := by
    rw [le_iff, le_iff, rank_neg, rank_neg, EReal.neg_le_neg_iff, ne_eq, ne_eq, neg_eq_nan_iff,
      neg_eq_nan_iff]
    exact and_left_comm

end Extended

namespace Tensor

variable {α : Type} [Inhabited α]

theorem flatten_get (t : Tensor α) (k : Nat) : t.flatten.get [k] = t.entries.getD k default := by
  simp [get, flatten, Shape.offset]

theorem toList_eq_map_flatten_get (t : Tensor α) :
    t.toList = (List.range t.size).map fun k => t.flatten.get [k] :=
  (congrArg toList (eq_vector_of_shape t.shape_flatten)).trans (toList_vector _ _)

/-- The places of the flattened tensor are the positions in row-major order. -/
theorem flatten_get_of_indices (t : Tensor α) {k : Nat} {position : Position}
    (h : t.shape.indices[k]? = some position) : t.flatten.get [k] = t.get position := by
  have hentry : t.toList[k]? = some (t.get position) := by
    rw [toList_eq_map_get, List.getElem?_map, h]
    rfl
  rw [toList, Array.getElem?_toList] at hentry
  rw [flatten_get, Array.getD_eq_getD_getElem?, hentry]
  rfl

theorem flatten_get_map {β : Type} [Inhabited β] (f : α → β) (t : Tensor α) {k : Nat}
    (hk : k < t.size) : (t.map f).flatten.get [k] = f (t.flatten.get [k]) := by
  have hk' : k < t.entries.size := hk
  simp [flatten_get, map, Array.getD_eq_getD_getElem?, hk']

end Tensor

namespace Selection

open Scalar

/-! ## The first of the best -/

/-- The place is valid, its value is at least as good as all valid ones, and better than those at
lower places. -/
structure IsFirstBest {α : Type} (atLeast better : α → α → Prop) (value : Nat → α)
    (valid : Nat → Prop) (i : Nat) : Prop where
  mem : valid i
  atLeast : ∀ k, valid k → atLeast (value i) (value k)
  better : ∀ k, k < i → valid k → better (value i) (value k)

theorem IsFirstBest.unique {α : Type} {atLeast better : α → α → Prop} {value : Nat → α}
    {valid : Nat → Prop} (hstrict : ∀ {x y}, better x y → ¬ atLeast y x) {i j : Nat}
    (hi : IsFirstBest atLeast better value valid i)
    (hj : IsFirstBest atLeast better value valid j) : i = j := by
  rcases Nat.lt_trichotomy i j with hlt | heq | hlt
  · exact absurd (hi.atLeast j hj.mem) (hstrict (hj.better i hlt hi.mem))
  · exact heq
  · exact absurd (hj.atLeast i hi.mem) (hstrict (hi.better j hlt hj.mem))

/-- A choice that is missing only where no place is valid, and otherwise is a first best place, is
characterised by that. -/
theorem eq_some_iff_isFirstBest {α : Type} {atLeast better : α → α → Prop} {value : Nat → α}
    {valid : Nat → Prop} (hstrict : ∀ {x y}, better x y → ¬ atLeast y x) {choice : Option Nat}
    (hnone : choice = none → ∀ k, ¬ valid k)
    (hsome : ∀ {j}, choice = some j → IsFirstBest atLeast better value valid j) {i : Nat} :
    choice = some i ↔ IsFirstBest atLeast better value valid i := by
  refine ⟨hsome, fun hi => ?_⟩
  cases hchoice : choice with
  | none => exact absurd hi.mem (hnone hchoice i)
  | some j => rw [(hsome hchoice).unique hstrict hi]

section Vector

variable {α : Type} [Scalar α] [Ordered α] {n i : Nat} {f : Nat → α} {mask : Nat → Bool}

/-- Among numbers the place selected is the first of the largest, the only one of this kind. -/
theorem greatest_eq_some_iff :
    greatest n f mask = some i ↔ IsFirstBest (· ≥ ·) (· > ·) f
      (fun k => k < n ∧ isNaN (f k) = false ∧ mask k = true) i := by
  refine eq_some_iff_isFirstBest Scalar.not_le_of_lt (fun hnone k hk => ?_) fun hj => ?_
  · have hnan := greatest_eq_none_iff.1 hnone k hk.1 hk.2.2
    rw [hk.2.1] at hnan
    contradiction
  · exact
      { mem := mem_of_greatest hj
        atLeast := fun k hk => le_of_greatest hj hk.1 hk.2.1 hk.2.2
        better := fun k hkj hk => lt_of_greatest hj hkj hk.2.1 hk.2.2 }

theorem least_eq_some_iff :
    least n f mask = some i ↔ IsFirstBest (· ≤ ·) (· < ·) f
      (fun k => k < n ∧ isNaN (f k) = false ∧ mask k = true) i := by
  refine eq_some_iff_isFirstBest Scalar.not_le_of_lt (fun hnone k hk => ?_) fun hj => ?_
  · have hnan := least_eq_none_iff.1 hnone k hk.1 hk.2.2
    rw [hk.2.1] at hnan
    contradiction
  · exact
      { mem := mem_of_least hj
        atLeast := fun k hk => le_of_least hj hk.1 hk.2.1 hk.2.2
        better := fun k hkj hk => lt_of_least hj hkj hk.2.1 hk.2.2 }

end Vector

theorem greatest_congr {α : Type} [Scalar α] {n : Nat} {f g : Nat → α} {mask : Nat → Bool}
    (h : ∀ k, k < n → f k = g k) : greatest n f mask = greatest n g mask := by
  have hoffered : offered n f mask = offered n g mask :=
    List.filter_congr fun k hk => by rw [h k (List.mem_range.1 hk)]
  rw [greatest, greatest, hoffered]
  exact best?_congr fun k hk => h k (mem_offered_iff.1 hk).1

theorem least_eq_greatest_neg {α : Type} [Scalar α] [Reversing α] (n : Nat) (f : Nat → α)
    (mask : Nat → Bool) : least n f mask = greatest n (fun k => -f k) mask := by
  simp only [least, greatest, offered, isNaN_neg]
  exact best?_congr_beats fun i _ k _ => decide_eq_decide.2 neg_lt_neg.symm

/-! ## The places of a tensor -/

variable {α : Type} [Scalar α]

/-- The place is one of the tensor, its entry is a number, and the mask, if there is one, is true
there. -/
def IsValid (t : Tensor α) (mask : Option (Tensor Bool)) (k : Nat) : Prop :=
  k < t.size ∧ isNaN (t.flatten.get [k]) = false ∧
    ∀ allowed, mask = some allowed → allowed.flatten.get [k] = true

def admits (mask : Option (Tensor Bool)) (k : Nat) : Bool :=
  match mask with
  | none => true
  | some allowed => allowed.flatten.get [k]

theorem admits_eq_true_iff {mask : Option (Tensor Bool)} {k : Nat} :
    admits mask k = true ↔ ∀ allowed, mask = some allowed → allowed.flatten.get [k] = true := by
  cases mask with
  | none => simp [admits]
  | some allowed => simp [admits]

section Places

variable (t : Tensor α) {mask : Option (Tensor Bool)}
  (hmask : ∀ allowed, mask = some allowed → allowed.size = t.size)

include hmask

theorem validPlaces_eq_offered :
    validPlaces t mask = .ok (offered t.size (fun k => t.flatten.get [k]) (admits mask)) := by
  cases mask with
  | none => simp [validPlaces, offered, admits, Tensor.flatten_get, pure, Except.pure]
  | some allowed =>
      have hlength : maskOver t.size allowed.toList = .ok allowed.toList :=
        maskOver_of_length (by rw [Tensor.length_toList, hmask allowed rfl])
      simp only [validPlaces, hlength, bind, Except.bind, pure, Except.pure, List.filter_filter,
        offered, admits, Tensor.flatten_get]
      congr 1
      refine List.filter_congr fun k _ => ?_
      rw [Bool.and_comm, List.getD_eq_getElem?_getD, Tensor.toList, Array.getElem?_toList]
      simp only [Array.getD_eq_getD_getElem?]
      rfl

theorem argmax?_eq_greatest_flatten :
    argmax? t mask = .ok (greatest t.size (fun k => t.flatten.get [k]) (admits mask)) := by
  simp only [argmax?, validPlaces_eq_offered t hmask, bind, Except.bind, pure, Except.pure,
    greatest, Tensor.flatten_get]

theorem argmin?_eq_least_flatten :
    argmin? t mask = .ok (least t.size (fun k => t.flatten.get [k]) (admits mask)) := by
  simp only [argmin?, validPlaces_eq_offered t hmask, bind, Except.bind, pure, Except.pure, least,
    Tensor.flatten_get]

/-- The smallest entry of a tensor is where the opposite tensor has its largest. -/
theorem argmin?_eq_argmax?_neg [Reversing α] : argmin? t mask = argmax? t.neg mask := by
  have hsize : t.neg.size = t.size := by simp [Tensor.size_eq_shape_size, Tensor.neg]
  have hmask' : ∀ allowed, mask = some allowed → allowed.size = t.neg.size := by
    rwa [hsize]
  rw [argmin?_eq_least_flatten t hmask, argmax?_eq_greatest_flatten t.neg hmask',
    least_eq_greatest_neg, hsize]
  congr 1
  refine greatest_congr fun k hk => ?_
  exact (Tensor.flatten_get_map (- ·) t hk).symm

end Places

/-- The selection from a tensor, with a mask of its size or without one, never fails.  It comes to
no place exactly when no place is valid, and to the first of the best valid places otherwise, which
is the only place of this kind; the smallest entry is where the opposite tensor has its largest.
Places are counted in row-major order, in the tensor and in the mask. -/
theorem selects_first_best [Reversing α] (t : Tensor α) {mask : Option (Tensor Bool)}
    (hmask : ∀ allowed, mask = some allowed → allowed.size = t.size) :
    ((∃ place, argmax? t mask = .ok place) ∧
      (argmax? t mask = .ok none ↔ ∀ k, ¬ IsValid t mask k) ∧
      ∀ i, argmax? t mask = .ok (some i) ↔
        IsFirstBest (· ≥ ·) (· > ·) (fun k => t.flatten.get [k]) (IsValid t mask) i) ∧
    ((∃ place, argmin? t mask = .ok place) ∧
      (argmin? t mask = .ok none ↔ ∀ k, ¬ IsValid t mask k) ∧
      ∀ i, argmin? t mask = .ok (some i) ↔
        IsFirstBest (· ≤ ·) (· < ·) (fun k => t.flatten.get [k]) (IsValid t mask) i) ∧
    argmin? t mask = argmax? t.neg mask ∧
    (∀ k position, t.shape.indices[k]? = some position → t.flatten.get [k] = t.get position) ∧
    ∀ allowed, mask = some allowed → ∀ k position, allowed.shape.indices[k]? = some position →
      allowed.flatten.get [k] = allowed.get position := by
  have hvalid : ∀ k, IsValid t mask k ↔
      k < t.size ∧ isNaN (t.flatten.get [k]) = false ∧ admits mask k = true := fun k => by
    rw [IsValid, admits_eq_true_iff]
  have hnone : (∀ k, ¬ IsValid t mask k) ↔
      ∀ k, k < t.size → admits mask k = true → isNaN (t.flatten.get [k]) = true := by
    refine forall_congr' fun k => ?_
    rw [hvalid, not_and, not_and', Bool.not_eq_false]
  have hset : IsValid t mask =
      fun k => k < t.size ∧ isNaN (t.flatten.get [k]) = false ∧ admits mask k = true :=
    funext fun k => propext (hvalid k)
  refine ⟨⟨⟨_, argmax?_eq_greatest_flatten t hmask⟩, ?_, fun i => ?_⟩,
    ⟨⟨_, argmin?_eq_least_flatten t hmask⟩, ?_, fun i => ?_⟩, argmin?_eq_argmax?_neg t hmask,
    fun _ _ => t.flatten_get_of_indices, fun allowed _ _ _ => allowed.flatten_get_of_indices⟩
  · rw [argmax?_eq_greatest_flatten t hmask, Except.ok.injEq, greatest_eq_none_iff, hnone]
  · rw [argmax?_eq_greatest_flatten t hmask, Except.ok.injEq, greatest_eq_some_iff, hset]
  · rw [argmin?_eq_least_flatten t hmask, Except.ok.injEq, least_eq_none_iff, hnone]
  · rw [argmin?_eq_least_flatten t hmask, Except.ok.injEq, least_eq_some_iff, hset]

/-- Behind an entry that is no number the first of two equal ones is selected from a square array,
past which a larger one is masked out. -/
theorem selects_first_best_square :
    let t : Tensor Extended := .matrix 2 2 fun i j =>
      if i = 0 ∧ j = 0 then .nan else if i = 1 ∧ j = 1 then .infinite false else .finite 3
    let mask : Tensor Bool := .matrix 2 2 fun i j => i = 0 || j = 0
    (∀ allowed, some mask = some allowed → allowed.size = t.size) ∧
      argmax? t (some mask) = .ok (some 1) := by
  intro t mask
  have hsize : ∀ allowed, some mask = some allowed → allowed.size = t.size := by
    intro allowed hallowed
    obtain rfl := Option.some.inj hallowed
    simp [t, mask]
  obtain ⟨⟨-, -, hmax⟩, -, -, hentry, hallowed⟩ := selects_first_best t hsize
  have hfirst : t.flatten.get [0] = .nan := hentry 0 [0, 0] rfl
  have hthree : t.flatten.get [1] = .finite 3 ∧ t.flatten.get [2] = .finite 3 :=
    ⟨hentry 1 [0, 1] rfl, hentry 2 [1, 0] rfl⟩
  have hmasked : mask.flatten.get [1] = true ∧ mask.flatten.get [3] = false :=
    ⟨hallowed mask rfl 1 [0, 1] rfl, hallowed mask rfl 3 [1, 1] rfl⟩
  have hvalid : ∀ k, IsValid t (some mask) k → k = 1 ∨ k = 2 := by
    rintro k ⟨hk, hnumber, hadmitted⟩
    have hlt : k < 4 := by simpa [t] using hk
    have hzero : k ≠ 0 := by
      rintro rfl
      rw [hfirst, Extended.isNaN_nan] at hnumber
      contradiction
    have hlast : k ≠ 3 := by
      rintro rfl
      have hlast := hadmitted mask rfl
      rw [hmasked.2] at hlast
      contradiction
    omega
  refine ⟨hsize, (hmax 1).2 ⟨⟨?_, ?_, ?_⟩, fun k hk => ?_, fun k hlt hk => ?_⟩⟩
  · simp [t]
  · rw [hthree.1, Extended.isNaN_finite]
  · intro allowed heq
    obtain rfl := Option.some.inj heq
    exact hmasked.1
  · apply ge_iff_le.2
    rcases hvalid k hk with rfl | rfl
    · rw [hthree.1, Extended.finite_le_finite]
    · rw [hthree.1, hthree.2, Extended.finite_le_finite]
  · rcases hvalid k hk with rfl | rfl
    · omega
    · omega

end Selection

end InterpolationGeometry
