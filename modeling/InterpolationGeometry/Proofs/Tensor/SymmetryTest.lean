import InterpolationGeometry.Proofs.Tensor.InverseTest
import InterpolationGeometry.Proofs.Tensor.Selectors
import InterpolationGeometry.Tensor.Symmetry
import Mathlib.Order.Bounds.Basic

/-!
# What the test of symmetry accepts

A matrix of reals, infinities and values that are no numbers passes the test when it is square and
every entry matches the one opposite: what is no number faces its like, an infinity faces the same
infinity, and two reals differ by at most the tolerance times the size of the matrix plus the
tolerance times the size of the second.  The three comparisons of the test let nothing else pass.
As the bound is asked for in both orders, the transpose gets the same answer, and as it grows with
the tolerance, what passes goes on passing.
-/

namespace InterpolationGeometry

namespace Extended

/-- A real as it is, and zero for all other values. -/
def finitePart : Extended → ℝ
  | finite x => x
  | _ => 0

theorem ite_isFinite (x : Extended) :
    (if Scalar.isFinite x then x else 0) = finite x.finitePart := by
  cases x <;> rfl

theorem same_infinite_iff {s t : Bool} :
    Scalar.same (infinite s) (infinite t) = true ↔ s = t := by
  cases s <;> cases t <;> simp [Scalar.same, le_iff, rank]

end Extended

namespace Tensor

open Scalar hiding abs

variable {m n : ℕ} {tolerance tolerance' scale : ℝ} {x y : Extended} {t : Tensor Extended}

/-! ## Two opposite entries -/

inductive EntriesMatch (tolerance scale : ℝ) : Extended → Extended → Prop
  | nan : EntriesMatch tolerance scale .nan .nan
  | infinite (negative : Bool) :
      EntriesMatch tolerance scale (.infinite negative) (.infinite negative)
  | finite {x y : ℝ} (h : |x - y| ≤ tolerance * scale + tolerance * |y|) :
      EntriesMatch tolerance scale (.finite x) (.finite y)

theorem EntriesMatch.mono (htolerance : tolerance ≤ tolerance') (hscale : 0 ≤ scale)
    (h : EntriesMatch tolerance scale x y) : EntriesMatch tolerance' scale x y := by
  cases h with
  | nan => exact .nan
  | infinite negative => exact .infinite negative
  | finite h =>
      refine .finite (h.trans (add_le_add ?_ ?_))
      · exact mul_le_mul_of_nonneg_right htolerance hscale
      · exact mul_le_mul_of_nonneg_right htolerance (abs_nonneg _)

def Passes (tolerance scale : ℝ) (x y : Extended) : Prop :=
  Scalar.isFinite x = Scalar.isFinite y ∧ (isInfinite x = true → same x y = true) ∧
    isClose (Extended.finite (tolerance * scale)) (.finite tolerance)
      (if Scalar.isFinite x then x else 0) (if Scalar.isFinite y then y else 0) = true

/-- Under bounds that are not negative equal reals are close in any case. -/
theorem isClose_finite_iff {absolute relative x y : ℝ} (habsolute : 0 ≤ absolute)
    (hrelative : 0 ≤ relative) :
    isClose (Extended.finite absolute) (.finite relative) (.finite x) (.finite y) = true ↔
      |x - y| ≤ absolute + relative * |y| := by
  simp only [isClose, same, Extended.sub_finite, Extended.abs_finite, Extended.finite_mul,
    Extended.finite_add, Extended.finite_le_finite, Bool.or_eq_true, Bool.and_eq_true,
    decide_eq_true_eq, or_iff_right_iff_imp]
  rintro ⟨hle, hge⟩
  rw [le_antisymm hle hge, sub_self, abs_zero]
  exact add_nonneg habsolute (mul_nonneg hrelative (abs_nonneg y))

/-- Matching entries pass: zeros stand for them in the last comparison if they are not finite. -/
theorem EntriesMatch.passes (htolerance : 0 ≤ tolerance) (hscale : 0 ≤ scale)
    (h : EntriesMatch tolerance scale x y) : Passes tolerance scale x y := by
  have hbound := mul_nonneg htolerance hscale
  have hzeros : |(0 : ℝ) - 0| ≤ tolerance * scale + tolerance * |0| := by simpa using hbound
  rw [Passes, Extended.ite_isFinite, Extended.ite_isFinite, isClose_finite_iff hbound htolerance]
  cases h with
  | nan => exact ⟨rfl, fun hinfinite => by simp [isInfinite] at hinfinite, hzeros⟩
  | infinite s => exact ⟨rfl, fun _ => Extended.same_infinite_iff.2 rfl, hzeros⟩
  | finite h => exact ⟨rfl, fun hinfinite => by simp [isInfinite] at hinfinite, h⟩

/-- Entries that pass in both orders match.  In one order alone, what is no number would pass
before an infinity. -/
theorem Passes.entriesMatch (htolerance : 0 ≤ tolerance) (hscale : 0 ≤ scale)
    (h : Passes tolerance scale x y) (hback : Passes tolerance scale y x) :
    EntriesMatch tolerance scale x y := by
  obtain ⟨hfinite, hinfinite, hclose⟩ := h
  rw [Extended.ite_isFinite, Extended.ite_isFinite,
    isClose_finite_iff (mul_nonneg htolerance hscale) htolerance] at hclose
  cases x with
  | finite x =>
      obtain ⟨y, rfl⟩ := Extended.eq_finite_of_isFinite hfinite.symm
      exact .finite hclose
  | infinite s =>
      have hsame := hinfinite (by simp [isInfinite])
      cases y with
      | finite y => simp at hfinite
      | infinite t =>
          obtain rfl := Extended.same_infinite_iff.1 hsame
          exact .infinite s
      | nan => simp [same] at hsame
  | nan =>
      cases y with
      | finite y => simp at hfinite
      | infinite t =>
          have hsame := hback.2.1 (by simp [isInfinite])
          simp [same] at hsame
      | nan => exact .nan

/-! ## The size of a matrix -/

def entrySizes (t : Tensor Extended) : Set ℝ :=
  insert 1 {r | ∃ x, .finite x ∈ t.toList ∧ r = |x|}

theorem exists_le_magnitude_iff (t : Tensor Extended) :
    ∃ scale : ℝ, t.magnitude = .finite scale ∧
      ∀ b, b ≤ scale ↔ b ≤ 1 ∨ ∃ x ∈ t.toList, b ≤ |x.finitePart| := by
  have hgreatest : (t.zeroNonFinite.map Scalar.abs).greatest? =
      (vector t.size fun k => |(t.flatten.get [k]).finitePart|).greatest?.map .finite := by
    have hlist : (t.zeroNonFinite.map Scalar.abs).toList =
        (vector t.size fun k => Extended.finite |(t.flatten.get [k]).finitePart|).toList := by
      simp only [zeroNonFinite, toList_map, toList_eq_map_flatten_get t, toList_vector,
        List.map_map, Function.comp_def, Extended.ite_isFinite, Extended.abs_finite]
    rw [← greatest?_finite, greatest?, greatest?, hlist]
  cases hsizes : (vector t.size fun k => |(t.flatten.get [k]).finitePart|).greatest? with
  | none =>
      have hempty : t.toList = [] := by
        rw [greatest?, toList_vector] at hsizes
        cases hsize : t.size with
        | zero => rw [toList_eq_map_flatten_get, hsize]; rfl
        | succ k => simp [hsize, List.range_succ_eq_map] at hsizes
      refine ⟨1, ?_, fun b => by simp [hempty]⟩
      rw [magnitude, hgreatest, hsizes]
      simp [larger, Extended.one_eq]
  | some r =>
      refine ⟨max 1 r, ?_, fun b => ?_⟩
      · rw [magnitude, hgreatest, hsizes, Extended.one_eq]
        simp
      · rw [le_max_iff, le_greatest_iff hsizes, toList_eq_map_flatten_get]
        simp

/-- The magnitude is a real, and the largest of one and the sizes of all finite entries. -/
theorem exists_magnitude (t : Tensor Extended) :
    ∃ scale : ℝ, t.magnitude = .finite scale ∧ IsGreatest t.entrySizes scale := by
  obtain ⟨scale, hscale, hle⟩ := exists_le_magnitude_iff t
  have hone : 1 ≤ scale := (hle 1).2 (Or.inl le_rfl)
  refine ⟨scale, hscale, ?_, ?_⟩
  · rcases (hle scale).1 le_rfl with hsmall | ⟨x, hx, hsize⟩
    · exact Or.inl (le_antisymm hsmall hone)
    · have heq := le_antisymm hsize ((hle _).2 (Or.inr ⟨x, hx, le_rfl⟩))
      cases x with
      | finite x => exact Or.inr ⟨x, hx, heq⟩
      | infinite s => exact absurd (hone.trans hsize) (by simp [Extended.finitePart])
      | nan => exact absurd (hone.trans hsize) (by simp [Extended.finitePart])
  · rintro b (rfl | ⟨x, hx, rfl⟩)
    · exact hone
    · exact (hle |x|).2 (Or.inr ⟨_, hx, le_rfl⟩)

/-- The test accepts the square matrices in which opposite entries match. -/
theorem isSymmetric_iff (htolerance : 0 ≤ tolerance) (hshape : t.shape = [m, n])
    (hscale : IsGreatest t.entrySizes scale) :
    t.isSymmetric (.finite tolerance) = true ↔
      m = n ∧ ∀ i j, i < n → j < n →
        EntriesMatch tolerance scale (t.get [i, j]) (t.get [j, i]) := by
  obtain ⟨magnitude, hmagnitude, hgreatest⟩ := exists_magnitude t
  obtain rfl := hgreatest.unique hscale
  have hpos : 0 ≤ magnitude := zero_le_one.trans (hscale.2 (Set.mem_insert _ _))
  by_cases hmn : m = n
  · subst hmn
    have hpasses : t.isSymmetric (.finite tolerance) = true ↔
        ∀ i j, i < m → j < m → Passes tolerance magnitude (t.get [i, j]) (t.get [j, i]) := by
      rw [eq_matrix_of_shape hshape] at hmagnitude
      conv_lhs => rw [eq_matrix_of_shape hshape]
      rw [isSymmetric_matrix_iff, hmagnitude]
      rfl
    rw [hpasses, and_iff_right rfl]
    constructor
    · intro h i j hi hj
      exact (h i j hi hj).entriesMatch htolerance hpos (h j i hj hi)
    · intro h i j hi hj
      exact (h i j hi hj).passes htolerance hpos
  · have hreject : t.isSymmetric (.finite tolerance) = false := by
      refine isSymmetric_eq_false_of_shape fun k hk => hmn ?_
      obtain ⟨rfl, rfl⟩ : m = k ∧ n = k := by simpa using hshape.symm.trans hk
      rfl
    rw [hreject]
    exact iff_of_false Bool.false_ne_true fun h => hmn h.1

/-! ## The transpose -/

theorem shape_transpose {α : Type} [Inhabited α] {t : Tensor α} (hshape : t.shape = [m, n]) :
    t.transpose.shape = [n, m] := by
  rw [transpose, shape_ofFn, hshape]
  rfl

theorem get_transpose {α : Type} [Inhabited α] {t : Tensor α} (hshape : t.shape = [m, n])
    {i j : ℕ} (hi : i < n) (hj : j < m) : t.transpose.get [i, j] = t.get [j, i] := by
  refine get_ofFn _ ?_
  rw [hshape]
  exact ⟨hi, hj, trivial⟩

theorem mem_toList_iff {α : Type} [Inhabited α] {t : Tensor α} (hshape : t.shape = [m, n]) {x : α} :
    x ∈ t.toList ↔ ∃ i j, i < m ∧ j < n ∧ t.get [i, j] = x := by
  rw [toList_eq_map_get, List.mem_map, hshape]
  constructor
  · rintro ⟨place, hplace, rfl⟩
    obtain ⟨i, j, hi, hj, rfl⟩ := holds_matrix_iff.1 (Shape.mem_indices_iff.1 hplace)
    exact ⟨i, j, hi, hj, rfl⟩
  · rintro ⟨i, j, hi, hj, rfl⟩
    exact ⟨[i, j], Shape.mem_indices_iff.2 ⟨hi, hj, trivial⟩, rfl⟩

theorem entrySizes_transpose (hshape : t.shape = [m, n]) :
    t.transpose.entrySizes = t.entrySizes := by
  have hmem : ∀ x, x ∈ t.transpose.toList ↔ x ∈ t.toList := by
    intro x
    rw [mem_toList_iff hshape, mem_toList_iff (shape_transpose hshape)]
    constructor
    · rintro ⟨i, j, hi, hj, rfl⟩
      exact ⟨j, i, hj, hi, (get_transpose hshape hi hj).symm⟩
    · rintro ⟨i, j, hi, hj, rfl⟩
      exact ⟨j, i, hj, hi, get_transpose hshape hj hi⟩
  simp only [entrySizes, hmem]

theorem isSymmetric_transpose (htolerance : 0 ≤ tolerance) (hshape : t.shape = [m, n]) :
    t.transpose.isSymmetric (.finite tolerance) = t.isSymmetric (.finite tolerance) := by
  obtain ⟨scale, -, hscale⟩ := exists_magnitude t
  have hscale' : IsGreatest t.transpose.entrySizes scale := by rwa [entrySizes_transpose hshape]
  rw [Bool.eq_iff_iff, isSymmetric_iff htolerance hshape hscale,
    isSymmetric_iff htolerance (shape_transpose hshape) hscale']
  constructor
  · rintro ⟨rfl, h⟩
    refine ⟨rfl, fun i j hi hj => ?_⟩
    rw [← get_transpose hshape hj hi, ← get_transpose hshape hi hj]
    exact h j i hj hi
  · rintro ⟨rfl, h⟩
    refine ⟨rfl, fun i j hi hj => ?_⟩
    rw [get_transpose hshape hi hj, get_transpose hshape hj hi]
    exact h j i hj hi

/-! ## The test -/

/-- The test of symmetry accepts exactly the square matrices in which every two opposite entries
are no numbers, or the same infinity, or reals within the bound.  The scale of the bound is the
largest of one and the sizes of the finite entries.  The transpose gets the same answer, and what
is accepted under one tolerance is accepted under every larger one. -/
theorem isSymmetric_accepts_mirrored (hshape : t.shape = [m, n]) :
    ∃ scale, IsGreatest t.entrySizes scale ∧ ∀ tolerance : ℝ, 0 ≤ tolerance →
      (t.isSymmetric (.finite tolerance) = true ↔
        m = n ∧ ∀ i j, i < n → j < n →
          EntriesMatch tolerance scale (t.get [i, j]) (t.get [j, i])) ∧
      t.transpose.isSymmetric (.finite tolerance) = t.isSymmetric (.finite tolerance) ∧
      ∀ tolerance', tolerance ≤ tolerance' →
        t.isSymmetric (.finite tolerance) = true → t.isSymmetric (.finite tolerance') = true := by
  obtain ⟨scale, -, hscale⟩ := exists_magnitude t
  have hpos : 0 ≤ scale := zero_le_one.trans (hscale.2 (Set.mem_insert _ _))
  refine ⟨scale, hscale, fun tolerance htolerance => ⟨isSymmetric_iff htolerance hshape hscale,
    isSymmetric_transpose htolerance hshape, fun tolerance' hle h => ?_⟩⟩
  obtain ⟨hsquare, hmatch⟩ := (isSymmetric_iff htolerance hshape hscale).1 h
  rw [isSymmetric_iff (htolerance.trans hle) hshape hscale]
  exact ⟨hsquare, fun i j hi hj => (hmatch i j hi hj).mono hle hpos⟩

/-- A value that is no number and an infinity on the diagonal, and a gap of a half between the two
other entries: the matrix passes under a tolerance of a fifth. -/
theorem isSymmetric_accepts_mirrored_half :
    let t : Tensor Extended := .matrix 2 2 fun i j =>
      if i = j then if i = 0 then .nan else .infinite true else .finite (if i = 0 then 2 else 5 / 2)
    t.shape = [2, 2] ∧ (0 : ℝ) ≤ 1 / 5 ∧ t.isSymmetric (.finite (1 / 5)) = true := by
  intro t
  have hshape : t.shape = [2, 2] := rfl
  have htolerance : (0 : ℝ) ≤ 1 / 5 := by norm_num
  obtain ⟨scale, hscale, hanswer⟩ := isSymmetric_accepts_mirrored hshape
  have hone : 1 ≤ scale := hscale.2 (Set.mem_insert _ _)
  refine ⟨hshape, htolerance, (hanswer _ htolerance).1.2 ⟨rfl, fun i j hi hj => ?_⟩⟩
  rw [get_matrix _ hi hj, get_matrix _ hj hi]
  obtain rfl | rfl : i = 0 ∨ i = 1 := by omega
  · obtain rfl | rfl : j = 0 ∨ j = 1 := by omega
    · exact .nan
    · exact .finite (by norm_num; linarith)
  · obtain rfl | rfl : j = 0 ∨ j = 1 := by omega
    · exact .finite (by norm_num; linarith)
    · exact .infinite true

end Tensor

end InterpolationGeometry
