import InterpolationGeometry.Failure
import InterpolationGeometry.Tensor.Shape

/-!
# Arrays with a shape

A tensor is a shape together with its entries in row-major order, as many as the shape has
positions.  It is read through one view, `Tensor.get`, and built through one function,
`Tensor.ofFn`; `get_ofFn` and `ofFn_get` say that these are inverse, and `ext_get` that a tensor is
its shape and what the view shows.  Vectors and matrices are the tensors of one and of two axes.
-/

namespace InterpolationGeometry

/-- Entries in row-major order under a shape. -/
structure Tensor (α : Type) where
  shape : Shape
  entries : Array α
  size_entries : entries.size = shape.size
  deriving DecidableEq, Repr

namespace Tensor

variable {α β γ : Type}

/-! ## The view -/

def ofFn (shape : Shape) (f : Position → α) : Tensor α where
  shape := shape
  entries := ((Shape.indices shape).map f).toArray
  size_entries := by simp

def get [Inhabited α] (t : Tensor α) (place : Position) : α :=
  t.entries.getD (t.shape.offset place) default

def size (t : Tensor α) : Nat := t.entries.size

def toList (t : Tensor α) : List α := t.entries.toList

def rank (t : Tensor α) : Nat := t.shape.length

theorem size_eq_shape_size (t : Tensor α) : t.size = t.shape.size := t.size_entries

@[simp] theorem shape_ofFn (shape : Shape) (f : Position → α) : (ofFn shape f).shape = shape := rfl

@[simp] theorem toList_ofFn (shape : Shape) (f : Position → α) :
    (ofFn shape f).toList = shape.indices.map f := by
  simp [toList, ofFn]

@[simp] theorem length_toList (t : Tensor α) : t.toList.length = t.size := by
  simp [toList, size]

theorem get_ofFn [Inhabited α] {shape : Shape} {place : Position} (f : Position → α)
    (h : shape.Holds place) : (ofFn shape f).get place = f place := by
  simp [get, ofFn, Array.getD_eq_getD_getElem?, Shape.indices_getElem?_offset h]

theorem toList_eq_map_get [Inhabited α] (t : Tensor α) :
    t.toList = t.shape.indices.map t.get := by
  apply List.ext_getElem?
  intro i
  by_cases hi : i < t.shape.size
  · have hlen : i < t.shape.indices.length := by simpa using hi
    have hplace : t.shape.offset (t.shape.indices[i]) = i := by
      have hmem := Shape.holds_of_mem_indices (List.getElem_mem hlen)
      have := Shape.indices_getElem?_offset hmem
      have hnodup := Shape.nodup_indices t.shape
      exact (List.getElem?_inj (by simpa using Shape.offset_lt_size hmem) hnodup).1
        (by rw [this, List.getElem?_eq_getElem hlen])
    have hsize : i < t.entries.size := by rw [t.size_entries]; exact hi
    have hentry : t.entries[i]? = some t.entries[i] := by simp [hsize]
    rw [List.getElem?_map, List.getElem?_eq_getElem hlen]
    simp [toList, get, hplace, hentry, Array.getD_eq_getD_getElem?]
  · rw [List.getElem?_eq_none (by simp [size_eq_shape_size]; omega),
      List.getElem?_eq_none (by simp; omega)]

theorem ofFn_get [Inhabited α] (t : Tensor α) : ofFn t.shape t.get = t := by
  have h := toList_eq_map_get t
  cases t with
  | mk shape entries size_entries =>
      simp only [ofFn, toList] at h ⊢
      congr
      rw [← h]

theorem ofFn_congr {shape : Shape} {f g : Position → α}
    (h : ∀ place, shape.Holds place → f place = g place) : ofFn shape f = ofFn shape g := by
  have : shape.indices.map f = shape.indices.map g :=
    List.map_congr_left fun place hmem => h place (Shape.holds_of_mem_indices hmem)
  simp [ofFn, this]

theorem ext_get [Inhabited α] {t u : Tensor α} (hshape : t.shape = u.shape)
    (hget : ∀ place, t.shape.Holds place → t.get place = u.get place) : t = u := by
  rw [← ofFn_get t, ← ofFn_get u, ← hshape]
  exact ofFn_congr hget

/-! ## Numbers, vectors and matrices -/

def scalar (x : α) : Tensor α := ofFn [] fun _ => x

def vector (n : Nat) (f : Nat → α) : Tensor α := ofFn [n] fun place => f (place.getD 0 0)

def matrix (m n : Nat) (f : Nat → Nat → α) : Tensor α :=
  ofFn [m, n] fun place => f (place.getD 0 0) (place.getD 1 0)

def ofList (xs : List α) : Tensor α where
  shape := [xs.length]
  entries := xs.toArray
  size_entries := by simp

@[simp] theorem shape_scalar (x : α) : (scalar x).shape = [] := rfl

@[simp] theorem shape_vector (n : Nat) (f : Nat → α) : (vector n f).shape = [n] := rfl

@[simp] theorem shape_matrix (m n : Nat) (f : Nat → Nat → α) : (matrix m n f).shape = [m, n] := rfl

@[simp] theorem toList_scalar (x : α) : (scalar x).toList = [x] := by
  simp [scalar, Shape.indices]

@[simp] theorem toList_ofList (xs : List α) : (ofList xs).toList = xs := by
  simp [ofList, toList]

@[simp] theorem get_scalar [Inhabited α] (x : α) : (scalar x).get [] = x :=
  get_ofFn _ Shape.holds_nil

@[simp] theorem get_vector [Inhabited α] {n k : Nat} (f : Nat → α) (h : k < n) :
    (vector n f).get [k] = f k :=
  get_ofFn _ ⟨h, trivial⟩

@[simp] theorem get_matrix [Inhabited α] {m n i j : Nat} (f : Nat → Nat → α) (hi : i < m)
    (hj : j < n) : (matrix m n f).get [i, j] = f i j :=
  get_ofFn _ ⟨hi, hj, trivial⟩

theorem holds_scalar_iff {place : Position} : Shape.Holds [] place ↔ place = [] := by
  cases place <;> simp

theorem holds_vector_iff {n : Nat} {place : Position} :
    Shape.Holds [n] place ↔ ∃ k, k < n ∧ place = [k] := by
  match place with
  | [] => simp
  | [k] => simp
  | k :: j :: rest => simp

theorem holds_matrix_iff {m n : Nat} {place : Position} :
    Shape.Holds [m, n] place ↔ ∃ i j, i < m ∧ j < n ∧ place = [i, j] := by
  match place with
  | [] => simp
  | [i] => simp
  | [i, j] => simp
  | i :: j :: k :: rest => simp

theorem eq_vector_of_shape [Inhabited α] {t : Tensor α} {n : Nat} (h : t.shape = [n]) :
    t = vector n fun k => t.get [k] := by
  refine ext_get (by simp [h]) fun place hplace => ?_
  rw [h] at hplace
  obtain ⟨k, hk, rfl⟩ := holds_vector_iff.1 hplace
  simp [hk]

theorem eq_matrix_of_shape [Inhabited α] {t : Tensor α} {m n : Nat} (h : t.shape = [m, n]) :
    t = matrix m n fun i j => t.get [i, j] := by
  refine ext_get (by simp [h]) fun place hplace => ?_
  rw [h] at hplace
  obtain ⟨i, j, hi, hj, rfl⟩ := holds_matrix_iff.1 hplace
  simp [hi, hj]

theorem vector_congr {n : Nat} {f g : Nat → α} (h : ∀ k, k < n → f k = g k) :
    vector n f = vector n g :=
  ofFn_congr fun place hplace => by
    obtain ⟨k, hk, rfl⟩ := holds_vector_iff.1 hplace
    exact h k hk

theorem matrix_congr {m n : Nat} {f g : Nat → Nat → α}
    (h : ∀ i j, i < m → j < n → f i j = g i j) : matrix m n f = matrix m n g :=
  ofFn_congr fun place hplace => by
    obtain ⟨i, j, hi, hj, rfl⟩ := holds_matrix_iff.1 hplace
    exact h i j hi hj

/-! ## Entry by entry -/

def map (f : α → β) (t : Tensor α) : Tensor β where
  shape := t.shape
  entries := t.entries.map f
  size_entries := by simp [t.size_entries]

@[simp] theorem shape_map (f : α → β) (t : Tensor α) : (t.map f).shape = t.shape := rfl

@[simp] theorem toList_map (f : α → β) (t : Tensor α) : (t.map f).toList = t.toList.map f := by
  simp [map, toList]

theorem map_ofFn (f : α → β) (shape : Shape) (g : Position → α) :
    (ofFn shape g).map f = ofFn shape fun place => f (g place) := by
  simp [map, ofFn, Function.comp_def]

@[simp] theorem map_scalar (f : α → β) (x : α) : (scalar x).map f = scalar (f x) :=
  map_ofFn f _ _

@[simp] theorem map_vector (f : α → β) (n : Nat) (g : Nat → α) :
    (vector n g).map f = vector n fun k => f (g k) :=
  map_ofFn f _ _

@[simp] theorem map_matrix (f : α → β) (m n : Nat) (g : Nat → Nat → α) :
    (matrix m n g).map f = matrix m n fun i j => f (g i j) :=
  map_ofFn f _ _

def all (p : α → Bool) (t : Tensor α) : Bool := t.toList.all p

def any (p : α → Bool) (t : Tensor α) : Bool := t.toList.any p

/-- The entries of `t` and `u` at each position of the join of their shapes, combined. -/
def zipWith [Inhabited α] [Inhabited β] (f : α → β → γ) (t : Tensor α) (u : Tensor β) :
    Except Failure (Tensor γ) :=
  match Shape.join? t.shape u.shape with
  | none => .error .shapeMismatch
  | some shape =>
      .ok (ofFn shape fun place =>
        f (t.get (t.shape.project place)) (u.get (u.shape.project place)))

theorem zipWith_ofFn [Inhabited α] [Inhabited β] (f : α → β → γ) (shape : Shape)
    (g : Position → α) (h : Position → β) :
    zipWith f (ofFn shape g) (ofFn shape h) =
      .ok (ofFn shape fun place => f (g place) (h place)) := by
  simp only [zipWith, shape_ofFn, Shape.join?_self]
  congr 1
  refine ofFn_congr fun place hplace => ?_
  rw [Shape.project_self hplace, get_ofFn g hplace, get_ofFn h hplace]

@[simp] theorem zipWith_scalar [Inhabited α] [Inhabited β] (f : α → β → γ) (x : α) (y : β) :
    zipWith f (scalar x) (scalar y) = .ok (scalar (f x y)) :=
  zipWith_ofFn f _ _ _

@[simp] theorem zipWith_vector [Inhabited α] [Inhabited β] (f : α → β → γ) (n : Nat)
    (g : Nat → α) (h : Nat → β) :
    zipWith f (vector n g) (vector n h) = .ok (vector n fun k => f (g k) (h k)) :=
  zipWith_ofFn f _ _ _

@[simp] theorem zipWith_matrix [Inhabited α] [Inhabited β] (f : α → β → γ) (m n : Nat)
    (g : Nat → Nat → α) (h : Nat → Nat → β) :
    zipWith f (matrix m n g) (matrix m n h) = .ok (matrix m n fun i j => f (g i j) (h i j)) :=
  zipWith_ofFn f _ _ _

theorem zipWith_scalar_left [Inhabited α] [Inhabited β] (f : α → β → γ) (x : α) (t : Tensor β) :
    zipWith f (scalar x) t = .ok (t.map (f x)) := by
  simp only [zipWith, shape_scalar, Shape.join?_nil_left, Shape.project_nil, get_scalar]
  congr 1
  refine (ofFn_congr fun place hplace => ?_).trans
    ((map_ofFn (f x) t.shape t.get).symm.trans (by rw [ofFn_get]))
  rw [Shape.project_self hplace]

/-! ## Other shapes for the same entries -/

def flatten (t : Tensor α) : Tensor α where
  shape := [t.size]
  entries := t.entries
  size_entries := by simp [size]

/-- A tensor of one axis as a matrix of one row; any other tensor as it is. -/
def asMatrix (t : Tensor α) : Tensor α :=
  match t.shape, t.size_entries with
  | [n], h => { shape := [1, n], entries := t.entries, size_entries := by simpa using h }
  | shape, h => { shape := shape, entries := t.entries, size_entries := h }

@[simp] theorem shape_flatten (t : Tensor α) : t.flatten.shape = [t.size] := rfl

@[simp] theorem toList_flatten (t : Tensor α) : t.flatten.toList = t.toList := rfl

@[simp] theorem flatten_vector (n : Nat) (f : Nat → α) : (vector n f).flatten = vector n f := by
  simp [flatten, vector, ofFn, size]

@[simp] theorem asMatrix_matrix (m n : Nat) (f : Nat → Nat → α) :
    (matrix m n f).asMatrix = matrix m n f := rfl

def axisLength (k : Nat) (t : Tensor α) : Except Failure Nat :=
  match t.shape[k]? with
  | some n => .ok n
  | none => .error .indexOutOfRange

@[simp] theorem axisLength_matrix_zero (m n : Nat) (f : Nat → Nat → α) :
    (matrix m n f).axisLength 0 = .ok m := rfl

end Tensor

end InterpolationGeometry
