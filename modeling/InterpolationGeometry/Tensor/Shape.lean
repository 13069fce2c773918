/-!
# Shapes and positions

A shape lists the lengths of the axes of an array; a position lists one place for each axis.
Positions are counted in row-major order: the last axis runs fastest.  The main statement is
`indices_getElem?_offset`: the offset of a position is its place in that order.

Two shapes are joined from their last axes on.  An axis of length one stretches to the length of
its partner, a missing axis counts as one of length one, and any other difference has no join.

An array is read only if its shape is within two limits, `maxAxes` and `extentLimit`.
-/

namespace InterpolationGeometry

abbrev Shape := List Nat

abbrev Position := List Nat

namespace Shape

def size : Shape → Nat
  | [] => 1
  | n :: shape => n * size shape

@[simp] theorem size_nil : size [] = 1 := rfl

@[simp] theorem size_cons (n : Nat) (shape : Shape) : size (n :: shape) = n * size shape := rfl

/-! ## Limits -/

def maxAxes : Nat := 64

/-- The number that the lengths of an array other than zero multiply to less than: eight bytes for
each place are then counted by a signed word of 64 bits. -/
def extentLimit : Nat := 1152921504606846976

def extent (shape : Shape) : Nat := size (shape.filter (0 < ·))

def IsSupported (shape : Shape) : Prop := shape.length ≤ maxAxes ∧ shape.extent < extentLimit

instance (shape : Shape) : Decidable shape.IsSupported :=
  inferInstanceAs (Decidable (shape.length ≤ maxAxes ∧ shape.extent < extentLimit))

theorem size_le_extent (shape : Shape) : size shape ≤ extent shape := by
  induction shape with
  | nil => exact Nat.le_refl _
  | cons n shape ih =>
      rcases Nat.eq_zero_or_pos n with rfl | hpos
      · simp
      · have hcons : extent (n :: shape) = n * extent shape := by
          simp [extent, hpos]
        rw [size_cons, hcons]
        exact Nat.mul_le_mul_left n ih

theorem IsSupported.size_lt {shape : Shape} (h : shape.IsSupported) : size shape < extentLimit :=
  Nat.lt_of_le_of_lt (size_le_extent shape) h.2

/-! ## Row-major order -/

/-- The position has one place for each axis, each below the length of its axis. -/
def Holds : Shape → Position → Prop
  | [], [] => True
  | n :: shape, k :: place => k < n ∧ Holds shape place
  | _, _ => False

instance instDecidableHolds : (shape : Shape) → (place : Position) → Decidable (Holds shape place)
  | [], [] => isTrue trivial
  | n :: shape, k :: place =>
      have : Decidable (Holds shape place) := instDecidableHolds shape place
      inferInstanceAs (Decidable (k < n ∧ Holds shape place))
  | [], _ :: _ => isFalse fun h => h
  | _ :: _, [] => isFalse fun h => h

def indices : Shape → List Position
  | [] => [[]]
  | n :: shape => (List.range n).flatMap fun k => (indices shape).map (k :: ·)

def offset : Shape → Position → Nat
  | _ :: shape, k :: place => k * size shape + offset shape place
  | _, _ => 0

@[simp] theorem holds_nil : Holds [] [] := trivial

@[simp] theorem holds_cons {n k : Nat} {shape : Shape} {place : Position} :
    Holds (n :: shape) (k :: place) ↔ k < n ∧ Holds shape place := Iff.rfl

@[simp] theorem not_holds_nil_cons {k : Nat} {place : Position} : ¬ Holds [] (k :: place) :=
  fun h => h

@[simp] theorem not_holds_cons_nil {n : Nat} {shape : Shape} : ¬ Holds (n :: shape) [] :=
  fun h => h

private theorem length_flatMap_range (n : Nat) (blocks : Nat → List Position) (size : Nat)
    (h : ∀ k, (blocks k).length = size) :
    ((List.range n).flatMap blocks).length = n * size := by
  induction n with
  | zero => simp
  | succ n ih => simp [List.range_succ, ih, h, Nat.succ_mul]

@[simp] theorem length_indices (shape : Shape) : (indices shape).length = size shape := by
  induction shape with
  | nil => rfl
  | cons n shape ih =>
      simp only [indices, size_cons]
      exact length_flatMap_range n _ _ fun k => by simp [ih]

theorem offset_lt_size {shape : Shape} {place : Position} (h : Holds shape place) :
    offset shape place < size shape := by
  induction shape generalizing place with
  | nil => cases place with
    | nil => simp [offset]
    | cons k place => exact absurd h not_holds_nil_cons
  | cons n shape ih => cases place with
    | nil => exact absurd h not_holds_cons_nil
    | cons k place =>
        obtain ⟨hk, hp⟩ := holds_cons.1 h
        have hstep : k * size shape + size shape ≤ n * size shape := by
          rw [← Nat.succ_mul]
          exact Nat.mul_le_mul_right _ hk
        have := ih hp
        simp only [offset, size_cons]
        omega

private theorem getElem?_flatMap_range (n : Nat) (blocks : Nat → List Position) (size k r : Nat)
    (h : ∀ k, (blocks k).length = size) (hk : k < n) (hr : r < size) :
    ((List.range n).flatMap blocks)[k * size + r]? = (blocks k)[r]? := by
  induction n with
  | zero => omega
  | succ n ih =>
      have hlen := length_flatMap_range n blocks size h
      simp only [List.range_succ, List.flatMap_append, List.flatMap_cons, List.flatMap_nil,
        List.append_nil]
      rcases Nat.lt_succ_iff_lt_or_eq.1 hk with hlt | rfl
      · have hbound : k * size + r < n * size := by
          have : k * size + size ≤ n * size := by
            rw [← Nat.succ_mul]
            exact Nat.mul_le_mul_right _ hlt
          omega
        rw [List.getElem?_append_left (by omega)]
        exact ih hlt
      · rw [List.getElem?_append_right (by omega), hlen]
        congr 1
        omega

/-- The offset of a position is its place in row-major order. -/
theorem indices_getElem?_offset {shape : Shape} {place : Position} (h : Holds shape place) :
    (indices shape)[offset shape place]? = some place := by
  induction shape generalizing place with
  | nil => cases place with
    | nil => rfl
    | cons k place => exact absurd h not_holds_nil_cons
  | cons n shape ih => cases place with
    | nil => exact absurd h not_holds_cons_nil
    | cons k place =>
        obtain ⟨hk, hp⟩ := holds_cons.1 h
        simp only [indices, offset]
        rw [getElem?_flatMap_range n _ (size shape) k _ (fun k => by simp) hk (offset_lt_size hp)]
        simp [List.getElem?_map, ih hp]

theorem holds_of_mem_indices {shape : Shape} {place : Position} (h : place ∈ indices shape) :
    Holds shape place := by
  induction shape generalizing place with
  | nil =>
      have : place = [] := by simpa [indices] using h
      simp [this]
  | cons n shape ih =>
      simp only [indices, List.mem_flatMap, List.mem_range, List.mem_map] at h
      obtain ⟨k, hk, tail, htail, rfl⟩ := h
      exact ⟨hk, ih htail⟩

theorem mem_indices_iff {shape : Shape} {place : Position} :
    place ∈ indices shape ↔ Holds shape place :=
  ⟨holds_of_mem_indices, fun h => List.mem_of_getElem? (indices_getElem?_offset h)⟩

theorem nodup_indices (shape : Shape) : (indices shape).Nodup := by
  induction shape with
  | nil => simp [indices]
  | cons n shape ih =>
      unfold indices List.Nodup
      rw [List.pairwise_flatMap]
      refine ⟨fun k _ => List.pairwise_map.2 (ih.imp fun hne => by simpa using hne), ?_⟩
      refine List.nodup_range.imp fun hne => ?_
      intro place hplace place' hplace'
      obtain ⟨tail, _, rfl⟩ := List.mem_map.1 hplace
      obtain ⟨tail', _, rfl⟩ := List.mem_map.1 hplace'
      simp [hne]

/-! ## Joining shapes -/

/-- The common length of two axes, if one of them stretches to the other. -/
def stretch? (m n : Nat) : Option Nat :=
  if m = n then some n else if m = 1 then some n else if n = 1 then some m else none

/-- The join of two shapes that are written with the last axis first. -/
def joinReversed? : List Nat → List Nat → Option (List Nat)
  | [], lengths => some lengths
  | lengths, [] => some lengths
  | m :: left, n :: right => do
      let length ← stretch? m n
      let rest ← joinReversed? left right
      return length :: rest

def join? (left right : Shape) : Option Shape :=
  (joinReversed? left.reverse right.reverse).map List.reverse

/-- The position, in an array of the given shape, of the entry that is read for a position of a
join: its last places, and the first entry along each axis that was stretched. -/
def project (shape : Shape) (place : Position) : Position :=
  List.zipWith (fun n k => if n = 1 then 0 else k) shape
    (place.drop (place.length - shape.length))

@[simp] theorem stretch?_self (n : Nat) : stretch? n n = some n := by simp [stretch?]

@[simp] theorem stretch?_one_left (n : Nat) : stretch? 1 n = some n := by
  unfold stretch?
  split <;> simp_all

@[simp] theorem stretch?_one_right (n : Nat) : stretch? n 1 = some n := by
  unfold stretch?
  split <;> simp_all

theorem joinReversed?_self (lengths : List Nat) :
    joinReversed? lengths lengths = some lengths := by
  induction lengths with
  | nil => rfl
  | cons n lengths ih => simp [joinReversed?, ih]

@[simp] theorem join?_self (shape : Shape) : join? shape shape = some shape := by
  simp [join?, joinReversed?_self]

@[simp] theorem join?_nil_left (shape : Shape) : join? [] shape = some shape := by
  simp [join?, joinReversed?]

@[simp] theorem join?_nil_right (shape : Shape) : join? shape [] = some shape := by
  cases h : shape.reverse with
  | nil => simp_all [join?, joinReversed?]
  | cons n lengths =>
      have : shape = (n :: lengths).reverse := by rw [← h, List.reverse_reverse]
      simp [join?, joinReversed?, this]

theorem length_eq_of_holds {shape : Shape} {place : Position} (h : Holds shape place) :
    place.length = shape.length := by
  induction shape generalizing place with
  | nil => cases place with
    | nil => rfl
    | cons k place => exact absurd h not_holds_nil_cons
  | cons n shape ih => cases place with
    | nil => exact absurd h not_holds_cons_nil
    | cons k place => simp [ih (holds_cons.1 h).2]

theorem project_self {shape : Shape} {place : Position} (h : Holds shape place) :
    project shape place = place := by
  have hlen := length_eq_of_holds h
  simp only [project, hlen, Nat.sub_self, List.drop_zero]
  clear hlen
  induction shape generalizing place with
  | nil => cases place with
    | nil => rfl
    | cons k place => exact absurd h not_holds_nil_cons
  | cons n shape ih => cases place with
    | nil => exact absurd h not_holds_cons_nil
    | cons k place =>
        obtain ⟨hk, hp⟩ := holds_cons.1 h
        have hzero : n = 1 → 0 = k := by omega
        simp only [List.zipWith_cons_cons, ih hp, List.cons.injEq, and_true]
        split
        · exact hzero ‹_›
        · rfl

@[simp] theorem project_nil (place : Position) : project [] place = [] := by simp [project]

end Shape

end InterpolationGeometry
