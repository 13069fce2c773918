import InterpolationGeometry.Scalar
import InterpolationGeometry.Tensor.Basic

/-!
# Axes of a tensor

Rows, columns, leading columns, sums along an axis, and the spreading of a tensor over a larger
shape.  Each operation comes with its value on vectors and matrices; on other shapes it either
treats the further axes as parts of the entries or fails.
-/

namespace InterpolationGeometry

namespace Tensor

variable {α : Type}

/-! ## Entries in row-major order -/

def entry (k : Nat) (t : Tensor α) : Except Failure α :=
  match t.entries[k]? with
  | some x => .ok x
  | none => .error .indexOutOfRange

/-- The first `n` entries along one axis, or all of them if there are fewer. -/
def take (n : Nat) (t : Tensor α) : Tensor α := ofList (t.toList.take n)

/-- The only entry, or the given failure if there is not exactly one. -/
def item (cause : Failure) (t : Tensor α) : Except Failure α :=
  if t.size = 1 then t.entry 0 else .error cause

@[simp] theorem item_scalar (cause : Failure) (x : α) : (scalar x).item cause = .ok x := by
  simp [item, entry, size, scalar, ofFn, Shape.indices]

theorem toList_vector (n : Nat) (f : Nat → α) :
    (vector n f).toList = (List.range n).map f := by
  have hplaces : Shape.indices [n] = (List.range n).map fun k => [k] := by
    rw [List.map_eq_flatMap]
    rfl
  rw [vector, toList_ofFn, hplaces, List.map_map]
  rfl

@[simp] theorem size_vector (n : Nat) (f : Nat → α) : (vector n f).size = n := by
  simp [size_eq_shape_size]

@[simp] theorem size_matrix (m n : Nat) (f : Nat → Nat → α) : (matrix m n f).size = m * n := by
  simp [size_eq_shape_size]

theorem entries_getElem?_vector {n k : Nat} (f : Nat → α) (h : k < n) :
    (vector n f).entries[k]? = some (f k) := by
  have hlist := toList_vector n f
  rw [toList] at hlist
  rw [← Array.getElem?_toList, hlist]
  simp [h]

theorem entries_getD_vector [Inhabited α] {n k : Nat} (f : Nat → α) (h : k < n) :
    (vector n f).entries.getD k default = f k := by
  simp [Array.getD_eq_getD_getElem?, entries_getElem?_vector f h]

theorem all_vector_iff {n : Nat} {f : Nat → α} {p : α → Bool} :
    (vector n f).all p = true ↔ ∀ k, k < n → p (f k) = true := by
  simp [all, toList_vector]

theorem any_vector_iff {n : Nat} {f : Nat → α} {p : α → Bool} :
    (vector n f).any p = true ↔ ∃ k, k < n ∧ p (f k) = true := by
  simp [any, toList_vector]

theorem any_eq_false_iff {t : Tensor α} {p : α → Bool} :
    t.any p = false ↔ (t.all fun x => !p x) = true := by
  simp [any, all]

theorem entry_vector {n k : Nat} (f : Nat → α) (h : k < n) : (vector n f).entry k = .ok (f k) := by
  simp [entry, entries_getElem?_vector f h]

theorem ofList_map_range (n : Nat) (f : Nat → α) :
    ofList ((List.range n).map f) = vector n f := by
  have h := toList_vector n f
  rw [← h]
  simp only [ofList, toList, Array.toArray_toList]
  congr 1
  simp [vector, ofFn]

theorem take_vector (k n : Nat) (f : Nat → α) :
    (vector n f).take k = vector (min k n) f := by
  rw [take, toList_vector, ← List.map_take, List.take_range, ofList_map_range]

theorem all_matrix_iff {m n : Nat} {f : Nat → Nat → α} {p : α → Bool} :
    (matrix m n f).all p = true ↔ ∀ i j, i < m → j < n → p (f i j) = true := by
  simp only [all, matrix, toList_ofFn, List.all_map, List.all_eq_true]
  constructor
  · intro h i j hi hj
    exact h [i, j] (Shape.mem_indices_iff.2 ⟨hi, hj, trivial⟩)
  · intro h place hplace
    obtain ⟨i, j, hi, hj, rfl⟩ := holds_matrix_iff.1 (Shape.mem_indices_iff.1 hplace)
    exact h i j hi hj

/-! ## Rows and columns -/

/-- A place counted from zero, or from the end if it is negative. -/
def place? (length : Nat) (j : Int) : Option Nat :=
  if 0 ≤ j then
    if j < length then some j.toNat else none
  else
    if 0 ≤ j + length then some (j + length).toNat else none

theorem place?_ofNat {length k : Nat} (h : k < length) : place? length (k : Int) = some k := by
  simp [place?, h]

section Parts

variable [Inhabited α]

def leadingColumns (n : Nat) (t : Tensor α) : Except Failure (Tensor α) :=
  match t.shape with
  | rows :: columns :: rest => .ok (ofFn (rows :: min n columns :: rest) t.get)
  | _ => .error .indexOutOfRange

def column (k : Nat) (t : Tensor α) : Except Failure (Tensor α) :=
  match t.shape with
  | rows :: columns :: rest =>
      if k < columns then .ok (ofFn (rows :: rest) fun place => t.get (place.insertIdx 1 k))
      else .error .indexOutOfRange
  | _ => .error .indexOutOfRange

/-- The row at place `j`; a negative place counts from the end. -/
def row (j : Int) (t : Tensor α) : Except Failure (Tensor α) :=
  match t.shape with
  | rows :: columns :: rest =>
      match place? rows j with
      | some i => .ok (ofFn (columns :: rest) fun place => t.get (i :: place))
      | none => .error .indexOutOfRange
  | _ => .error .indexOutOfRange

def transpose (t : Tensor α) : Tensor α := ofFn t.shape.reverse fun place => t.get place.reverse

/-- The tensor spread over a shape: leading axes of length one are dropped if there are too many
axes, and an axis of length one stretches. -/
def spread (shape : Shape) (t : Tensor α) : Except Failure (Tensor α) :=
  let extra := t.shape.length - shape.length
  let own := t.shape.drop extra
  if (t.shape.take extra).all (· == 1) && Shape.join? own shape == some shape then
    .ok (ofFn shape fun place => t.get (List.replicate extra 0 ++ Shape.project own place))
  else
    .error .shapeMismatch

theorem leadingColumns_matrix (k m n : Nat) (f : Nat → Nat → α) :
    (matrix m n f).leadingColumns k = .ok (matrix m (min k n) f) := by
  simp only [leadingColumns, shape_matrix]
  congr 1
  refine ofFn_congr fun place hplace => ?_
  obtain ⟨i, j, hi, hj, rfl⟩ := holds_matrix_iff.1 hplace
  simp [hi, show j < n by omega]

theorem column_matrix {k m n : Nat} (f : Nat → Nat → α) (hk : k < n) :
    (matrix m n f).column k = .ok (vector m fun i => f i k) := by
  simp only [column, shape_matrix, hk, if_true]
  congr 1
  refine ofFn_congr fun place hplace => ?_
  obtain ⟨i, hi, rfl⟩ := holds_vector_iff.1 hplace
  simp [hi, hk]

theorem row_matrix {k m n : Nat} (f : Nat → Nat → α) (hk : k < m) :
    (matrix m n f).row (k : Int) = .ok (vector n (f k)) := by
  simp only [row, shape_matrix, place?_ofNat hk]
  congr 1
  refine ofFn_congr fun place hplace => ?_
  obtain ⟨j, hj, rfl⟩ := holds_vector_iff.1 hplace
  simp [hj, hk]

@[simp] theorem transpose_matrix (m n : Nat) (f : Nat → Nat → α) :
    (matrix m n f).transpose = matrix n m fun i j => f j i := by
  simp only [transpose, shape_matrix]
  refine ofFn_congr fun place hplace => ?_
  obtain ⟨i, j, hi, hj, rfl⟩ := holds_matrix_iff.1 hplace
  simp [hi, hj]

theorem spread_self (t : Tensor α) : t.spread t.shape = .ok t := by
  simp only [spread, Nat.sub_self, List.drop_zero, List.take_zero, List.all_nil, Bool.true_and,
    Shape.join?_self, BEq.rfl, if_true, List.replicate_zero, List.nil_append]
  congr 1
  conv => rhs; rw [← ofFn_get t]
  exact ofFn_congr fun place hplace => by rw [Shape.project_self hplace]

end Parts

/-! ## Sums and bounds -/

section Reductions

variable [Scalar α]

/-- Sums along an axis, which is removed.  A number without axes is its own sum along the first. -/
def sumAxis (k : Nat) (t : Tensor α) : Except Failure (Tensor α) :=
  match t.shape[k]? with
  | some n =>
      .ok (ofFn (t.shape.eraseIdx k) fun place =>
        Scalar.sum n fun l => t.get (place.insertIdx k l))
  | none => if k = 0 then .ok t else .error (.axisOutOfRange k)

def total (t : Tensor α) : α := Scalar.sum t.size fun k => t.entries.getD k default

def greatest? (t : Tensor α) : Option α :=
  match t.toList with
  | [] => none
  | x :: rest => some (rest.foldl Scalar.upper x)

def least? (t : Tensor α) : Option α :=
  match t.toList with
  | [] => none
  | x :: rest => some (rest.foldl Scalar.lower x)

def greatestWithZero (t : Tensor α) : α := t.toList.foldl Scalar.upper 0

def countNaN (t : Tensor α) : Nat := t.toList.countP Scalar.isNaN

def zeroNaN (t : Tensor α) : Tensor α := t.map fun x => if Scalar.isNaN x then 0 else x

def isFinite (t : Tensor α) : Bool := t.all Scalar.isFinite

def add (t u : Tensor α) : Except Failure (Tensor α) := zipWith (· + ·) t u

def sub (t u : Tensor α) : Except Failure (Tensor α) := zipWith (· - ·) t u

def mul (t u : Tensor α) : Except Failure (Tensor α) := zipWith (· * ·) t u

def scale (c : α) (t : Tensor α) : Tensor α := t.map (c * ·)

def neg (t : Tensor α) : Tensor α := t.map (- ·)

theorem sumAxis_zero_matrix (m n : Nat) (f : Nat → Nat → α) :
    (matrix m n f).sumAxis 0 = .ok (vector n fun j => Scalar.sum m fun i => f i j) := by
  simp only [sumAxis, shape_matrix, List.getElem?_cons_zero, List.eraseIdx_cons_zero]
  congr 1
  refine ofFn_congr fun place hplace => ?_
  obtain ⟨j, hj, rfl⟩ := holds_vector_iff.1 hplace
  exact Scalar.sum_congr fun i hi => by simp [hi, hj]

theorem sumAxis_one_matrix (m n : Nat) (f : Nat → Nat → α) :
    (matrix m n f).sumAxis 1 = .ok (vector m fun i => Scalar.sum n fun j => f i j) := by
  simp only [sumAxis, shape_matrix, List.getElem?_cons_succ, List.getElem?_cons_zero,
    List.eraseIdx_cons_succ, List.eraseIdx_cons_zero]
  congr 1
  refine ofFn_congr fun place hplace => ?_
  obtain ⟨i, hi, rfl⟩ := holds_vector_iff.1 hplace
  exact Scalar.sum_congr fun j hj => by simp [hi, hj]

theorem total_vector (n : Nat) (f : Nat → α) : (vector n f).total = Scalar.sum n f := by
  simp only [total, size_vector]
  exact Scalar.sum_congr fun k hk => entries_getD_vector f hk

@[simp] theorem scale_vector (c : α) (n : Nat) (f : Nat → α) :
    (vector n f).scale c = vector n fun k => c * f k := by simp [scale]

@[simp] theorem neg_vector (n : Nat) (f : Nat → α) :
    (vector n f).neg = vector n fun k => -f k := by simp [neg]

@[simp] theorem add_vector (n : Nat) (f g : Nat → α) :
    (vector n f).add (vector n g) = .ok (vector n fun k => f k + g k) := by simp [add]

@[simp] theorem sub_vector (n : Nat) (f g : Nat → α) :
    (vector n f).sub (vector n g) = .ok (vector n fun k => f k - g k) := by simp [sub]

@[simp] theorem mul_vector (n : Nat) (f g : Nat → α) :
    (vector n f).mul (vector n g) = .ok (vector n fun k => f k * g k) := by simp [mul]

@[simp] theorem mul_scalar_left (c : α) (t : Tensor α) : (scalar c).mul t = .ok (t.scale c) :=
  zipWith_scalar_left _ c t

end Reductions

end Tensor

end InterpolationGeometry
