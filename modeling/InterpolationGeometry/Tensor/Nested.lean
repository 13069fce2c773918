import InterpolationGeometry.Tensor.Basic

/-!
# Nested rows

An array written as rows within rows.  It is a tensor when all rows at one depth have the same
shape; a row of nothing has no entries, and what stands below it is unknown.  The main statement is
`Nested.toTensor_eq_ok_iff`: agreeing on a shape that is within the limits is all that is asked for.
-/

namespace InterpolationGeometry

/-- Entries within rows within rows. -/
inductive Nested (α : Type) where
  | entry (value : α)
  | row (items : List (Nested α))

namespace Nested

variable {α : Type}

instance : Inhabited (Nested α) := ⟨row []⟩

mutual

def shape? : Nested α → Option Shape
  | entry _ => some []
  | row items => match items with
    | [] => some [0]
    | first :: rest => do
        let shape ← first.shape?
        if allHaveShape shape rest then some ((rest.length + 1) :: shape) else none

def allHaveShape (shape : Shape) : List (Nested α) → Bool
  | [] => true
  | item :: rest => item.shape? == some shape && allHaveShape shape rest

end

mutual

def entries : Nested α → List α
  | entry value => [value]
  | row items => itemEntries items

def itemEntries : List (Nested α) → List α
  | [] => []
  | item :: rest => item.entries ++ itemEntries rest

end

/-! ## Counting entries -/

mutual

/-- Rows that agree on a shape hold as many entries as the shape has positions. -/
theorem length_entries : (nested : Nested α) → {shape : Shape} →
    nested.shape? = some shape → nested.entries.length = shape.size
  | entry value, shape, h => by
      simp only [shape?, Option.some.injEq] at h
      subst h
      rfl
  | row [], shape, h => by
      simp only [shape?, Option.some.injEq] at h
      subst h
      rfl
  | row (first :: rest), shape, h => by
      simp only [shape?, Option.bind_eq_bind, Option.bind_eq_some_iff] at h
      obtain ⟨inner, hfirst, hrest⟩ := h
      split at hrest
      · rename_i hall
        simp only [Option.some.injEq] at hrest
        subst hrest
        have hone := length_entries first hfirst
        have hmany := length_itemEntries rest hall
        simp only [entries, itemEntries, List.length_append, hone, hmany, Shape.size_cons]
        rw [Nat.succ_mul]
        omega
      · exact absurd hrest (by simp)

theorem length_itemEntries : (items : List (Nested α)) → {shape : Shape} →
    allHaveShape shape items = true →
      (itemEntries items).length = items.length * shape.size
  | [], _, _ => by simp [itemEntries]
  | item :: rest, shape, h => by
      simp only [allHaveShape, Bool.and_eq_true, beq_iff_eq] at h
      have hone := length_entries item h.1
      have hmany := length_itemEntries rest h.2
      simp only [itemEntries, List.length_append, hone, hmany, List.length_cons]
      rw [Nat.succ_mul]
      omega

end

end Nested

/-- The tensor of a shape and its entries in row-major order, if there are as many as needed and
the shape is within the limits. -/
def Tensor.ofEntries {α : Type} (shape : Shape) (entries : List α) : Except Failure (Tensor α) :=
  if h : entries.toArray.size = shape.size then
    if shape.IsSupported then
      .ok { shape := shape, entries := entries.toArray, size_entries := h }
    else
      .error .unsupportedShape
  else
    .error .ragged

def Nested.toTensor {α : Type} (nested : Nested α) : Except Failure (Tensor α) :=
  match nested.shape? with
  | some shape => Tensor.ofEntries shape nested.entries
  | none => .error .ragged

theorem Tensor.shape_of_ofEntries {α : Type} {shape : Shape} {entries : List α} {t : Tensor α}
    (h : Tensor.ofEntries shape entries = .ok t) : t.shape = shape ∧ shape.IsSupported := by
  unfold Tensor.ofEntries at h
  split at h
  · split at h
    · rename_i hsupported
      simp only [Except.ok.injEq] at h
      exact ⟨by rw [← h], hsupported⟩
    · exact absurd h (by simp)
  · exact absurd h (by simp)

/-- Nested rows write a tensor exactly when they agree on a shape within the limits, and the tensor
has that shape. -/
theorem Nested.toTensor_eq_ok_iff {α : Type} {nested : Nested α} {shape : Shape} :
    (∃ t : Tensor α, nested.toTensor = .ok t ∧ t.shape = shape) ↔
      nested.shape? = some shape ∧ shape.IsSupported := by
  constructor
  · rintro ⟨t, ht, hshape⟩
    unfold toTensor at ht
    split at ht
    · rename_i found hfound
      obtain ⟨heq, hsupported⟩ := Tensor.shape_of_ofEntries ht
      rw [hshape] at heq
      rw [heq]
      exact ⟨hfound, hsupported⟩
    · exact absurd ht (by simp)
  · rintro ⟨h, hsupported⟩
    have hsize : nested.entries.toArray.size = shape.size := by
      simpa using length_entries nested h
    refine ⟨⟨shape, nested.entries.toArray, hsize⟩, ?_, rfl⟩
    simp [toTensor, h, Tensor.ofEntries, hsize, hsupported]

end InterpolationGeometry
