import InterpolationGeometry.Tensor.Axis

/-!
# Products and norms

The product contracts the last axis of the left factor with the last but one of the right factor,
or with its only axis.  Further axes in front run along together.  `Tensor.product` names the
shapes of two factors that do not fit; its values on vectors and matrices are the usual ones.
-/

namespace InterpolationGeometry

namespace Tensor

variable {α : Type} [Scalar α]

/-! ## Products -/

/-- The axes of a left factor: those in front, the row axis if there is one, the contracted one. -/
def leftAxes? (shape : Shape) : Option (Shape × Shape × Nat) :=
  match shape.reverse with
  | [] => none
  | [inner] => some ([], [], inner)
  | inner :: rows :: front => some (front.reverse, [rows], inner)

def rightAxes? (shape : Shape) : Option (Shape × Nat × Shape) :=
  match shape.reverse with
  | [] => none
  | [inner] => some ([], inner, [])
  | columns :: inner :: front => some (front.reverse, inner, [columns])

def matmul (t u : Tensor α) : Except Failure (Tensor α) :=
  match leftAxes? t.shape, rightAxes? u.shape with
  | some (front, rows, inner), some (front', inner', columns) =>
      if inner = inner' then
        match Shape.join? front front' with
        | some joined =>
            .ok (ofFn (joined ++ rows ++ columns) fun place =>
              let ahead := place.take joined.length
              let rowPlace := (place.drop joined.length).take rows.length
              let columnPlace := place.drop (joined.length + rows.length)
              Scalar.sum inner fun l =>
                t.get (Shape.project front ahead ++ rowPlace ++ [l]) *
                  u.get (Shape.project front' ahead ++ l :: columnPlace))
        | none => .error .shapeMismatch
      else .error .shapeMismatch
  | _, _ => .error .shapeMismatch

/-- The product; factors whose last and first axis differ in length are named in the failure. -/
def product (t u : Tensor α) : Except Failure (Tensor α) :=
  match t.shape.getLast?, u.shape.head? with
  | some m, some n => if m = n then t.matmul u else .error (.innerLengths t.shape u.shape)
  | _, _ => .error .indexOutOfRange

def inner (t u : Tensor α) : Except Failure α :=
  if t.size = u.size then
    .ok (Scalar.sum t.size fun k => t.entries.getD k default * u.entries.getD k default)
  else
    .error (.sizesDiffer t.size u.size)

def dot (t u : Tensor α) : Except Failure α := do (← t.matmul u).item .notOneNumber

def columnsMinus (t v : Tensor α) : Except Failure (Tensor α) :=
  match t.shape with
  | [] => .error .indexOutOfRange
  | [m, n] =>
      if v.shape = [m] then .ok (matrix m n fun i j => t.get [i, j] - v.get [i])
      else .error (.columnShape m v.shape)
  | m :: _ => .error (.columnShape m v.shape)

theorem matmul_vector_vector (n : Nat) (f g : Nat → α) :
    (vector n f).matmul (vector n g) = .ok (scalar (Scalar.sum n fun k => f k * g k)) := by
  simp only [matmul, leftAxes?, rightAxes?, shape_vector, List.reverse_cons, List.reverse_nil,
    List.nil_append, if_true, Shape.join?_self]
  congr 1
  refine ofFn_congr fun place hplace => Scalar.sum_congr fun k hk => ?_
  obtain rfl := holds_scalar_iff.1 hplace
  simp [hk, Shape.project]

theorem matmul_matrix_vector (m n : Nat) (f : Nat → Nat → α) (g : Nat → α) :
    (matrix m n f).matmul (vector n g) =
      .ok (vector m fun i => Scalar.sum n fun k => f i k * g k) := by
  simp only [matmul, leftAxes?, rightAxes?, shape_vector, shape_matrix, List.reverse_cons,
    List.reverse_nil, List.nil_append, List.cons_append, if_true, Shape.join?_self]
  congr 1
  refine ofFn_congr fun place hplace => Scalar.sum_congr fun k hk => ?_
  obtain ⟨i, hi, rfl⟩ := holds_vector_iff.1 hplace
  simp [hi, hk, Shape.project]

theorem matmul_vector_matrix (m n : Nat) (f : Nat → α) (g : Nat → Nat → α) :
    (vector m f).matmul (matrix m n g) =
      .ok (vector n fun j => Scalar.sum m fun k => f k * g k j) := by
  simp only [matmul, leftAxes?, rightAxes?, shape_vector, shape_matrix, List.reverse_cons,
    List.reverse_nil, List.nil_append, List.cons_append, if_true, Shape.join?_self]
  congr 1
  refine ofFn_congr fun place hplace => Scalar.sum_congr fun k hk => ?_
  obtain ⟨j, hj, rfl⟩ := holds_vector_iff.1 hplace
  simp [hj, hk, Shape.project]

theorem matmul_matrix_matrix (m n p : Nat) (f g : Nat → Nat → α) :
    (matrix m n f).matmul (matrix n p g) =
      .ok (matrix m p fun i j => Scalar.sum n fun k => f i k * g k j) := by
  simp only [matmul, leftAxes?, rightAxes?, shape_matrix, List.reverse_cons, List.reverse_nil,
    List.nil_append, List.cons_append, if_true, Shape.join?_self]
  congr 1
  refine ofFn_congr fun place hplace => Scalar.sum_congr fun k hk => ?_
  obtain ⟨i, j, hi, hj, rfl⟩ := holds_matrix_iff.1 hplace
  simp [hi, hj, hk, Shape.project]

theorem product_matrix_vector (m n : Nat) (f : Nat → Nat → α) (g : Nat → α) :
    (matrix m n f).product (vector n g) =
      .ok (vector m fun i => Scalar.sum n fun k => f i k * g k) := by
  simp [product, matmul_matrix_vector]

theorem product_vector_matrix (m n : Nat) (f : Nat → α) (g : Nat → Nat → α) :
    (vector m f).product (matrix m n g) =
      .ok (vector n fun j => Scalar.sum m fun k => f k * g k j) := by
  simp [product, matmul_vector_matrix]

theorem product_matrix_matrix (m n p : Nat) (f g : Nat → Nat → α) :
    (matrix m n f).product (matrix n p g) =
      .ok (matrix m p fun i j => Scalar.sum n fun k => f i k * g k j) := by
  simp [product, matmul_matrix_matrix]

theorem dot_vector (n : Nat) (f g : Nat → α) :
    (vector n f).dot (vector n g) = .ok (Scalar.sum n fun k => f k * g k) := by
  simp [dot, matmul_vector_vector, bind, Except.bind]

theorem columnsMinus_matrix (m n : Nat) (f : Nat → Nat → α) (g : Nat → α) :
    (matrix m n f).columnsMinus (vector m g) = .ok (matrix m n fun i j => f i j - g i) := by
  simp only [columnsMinus, shape_matrix, shape_vector, if_true]
  congr 1
  exact matrix_congr fun i j hi hj => by simp [hi, hj]

/-! ## Norms -/

def squares (t : Tensor α) : Tensor α := t.map Scalar.square

def norm (t : Tensor α) : α := Scalar.sqrt t.squares.total

def rowNorms (t : Tensor α) : Except Failure (Tensor α) := do
  return (← t.squares.sumAxis 1).map Scalar.sqrt

def columnNorms (t : Tensor α) : Except Failure (Tensor α) := do
  return (← t.squares.sumAxis 0).map Scalar.sqrt

theorem norm_vector (n : Nat) (f : Nat → α) :
    (vector n f).norm = Scalar.sqrt (Scalar.sum n fun k => Scalar.square (f k)) := by
  simp [norm, squares, total_vector]

theorem rowNorms_matrix (m n : Nat) (f : Nat → Nat → α) :
    (matrix m n f).rowNorms =
      .ok (vector m fun i => Scalar.sqrt (Scalar.sum n fun j => Scalar.square (f i j))) := by
  simp [rowNorms, squares, sumAxis_one_matrix, bind, Except.bind, pure, Except.pure]

theorem columnNorms_matrix (m n : Nat) (f : Nat → Nat → α) :
    (matrix m n f).columnNorms =
      .ok (vector n fun j => Scalar.sqrt (Scalar.sum m fun i => Scalar.square (f i j))) := by
  simp [columnNorms, squares, sumAxis_zero_matrix, bind, Except.bind, pure, Except.pure]

end Tensor

end InterpolationGeometry
