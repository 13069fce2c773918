import InterpolationGeometry.Control
import InterpolationGeometry.Proofs.Returns
import InterpolationGeometry.Proofs.Simplex.WorstVertex
import InterpolationGeometry.Proofs.Tensor.Bounds

/-!
# The report on a dropped vertex

The vertex is chosen among the distances that are numbers, but the reason in the report is read off
the extreme distances, which are numbers only if all distances are.  A report therefore agrees with
the decision it reports exactly when no value that is not a number is in the way of its reading:
none among the lengths when an edge is too long, none among the heights when a face is too thin, and
none at all when there is no vertex to drop.  With checking on there never is one.
-/

namespace InterpolationGeometry

namespace Control

open Scalar hiding abs
open Simplex hiding isAcceptable dropForGeometry
open Selection (IsFirstGreatest IsFirstLeast)

variable {α : Type} [Scalar α]

/-- A report that agrees with its decision, given whether some edge is too long, whether some face
is too thin, and whether the simplex is accepted. -/
structure Coherent (drop : GeometryDrop α) (long thin accepted : Prop) : Prop where
  isAdequate_iff : drop.isAdequate = true ↔ drop.vertex = none
  longEdge_iff : drop.reason = .longEdge ↔ long
  thinFace_iff : drop.reason = .thinFace ↔ ¬ long ∧ thin
  none_iff : drop.reason = .none ↔ drop.vertex = none
  accepted_of_isAdequate : drop.isAdequate = true → accepted

/-- A value that is not a number hides the reason of the decision, or the lack of one. -/
def Misreports (n : Nat) (heights lengths : Nat → α) (minHeight maxLength : α) : Prop :=
  (HasLongEdge n lengths maxLength ∧ ∃ k, k < n ∧ isNaN (lengths k) = true) ∨
    (¬ HasLongEdge n lengths maxLength ∧ HasThinFace n heights minHeight ∧
      ∃ k, k < n ∧ isNaN (heights k) = true) ∨
    (¬ HasLongEdge n lengths maxLength ∧ ¬ HasThinFace n heights minHeight ∧
      HasNaN n heights lengths minHeight maxLength)

omit [Scalar α] in
theorem isAdequate_iff {drop : GeometryDrop α} : drop.isAdequate = true ↔ drop.reason = .none := by
  simp [GeometryDrop.isAdequate]

def vectorReport (n : Nat) (heights lengths : Nat → α) : DistanceReport α :=
  { minHeight := (Tensor.vector n heights).least?
    maxLength := (Tensor.vector n lengths).greatest? }

theorem distanceReport_matrix (n : Nat) (x s : Nat → Nat → α) :
    distanceReport (.matrix n (n + 1) x) (.matrix n n s) =
      .ok (vectorReport n (rowHeight n s) (columnLength n x)) := by
  have hdistances : distances (.matrix n (n + 1) x) (.matrix n n s) =
      .ok ⟨.vector n (rowHeight n s), .vector n (columnLength n x)⟩ := distances_matrix n x s
  show (distances (.matrix n (n + 1) x) (.matrix n n s) >>= _) = _
  rw [hdistances]
  rfl

/-! ## The reason -/

section Reason

variable {report : DistanceReport α} {n : Nat} {heights lengths : Nat → α}
  {minHeight maxLength : α}

theorem reason_eq_none_iff :
    report.reason minHeight maxLength = .none ↔
      report.reason minHeight maxLength ≠ .longEdge ∧
        report.reason minHeight maxLength ≠ .thinFace := by
  cases report.reason minHeight maxLength <;> simp

variable [Ordered α]

/-- The longest edge is the reason when some edge is too long and every length is a number. -/
theorem reason_eq_longEdge_iff (hn : 1 ≤ n) :
    (vectorReport n heights lengths).reason minHeight maxLength = .longEdge ↔
      HasLongEdge n lengths maxLength ∧ ∀ k, k < n → isNaN (lengths k) = false := by
  rw [HasLongEdge, and_comm, ← Tensor.greatest?_exceeds_iff hn]
  unfold DistanceReport.reason vectorReport
  by_cases hlong : (Tensor.vector n lengths).greatest?.any (fun m => decide (maxLength < m)) = true
  · simp [hlong]
  · by_cases hthin : (Tensor.vector n heights).least?.any (fun m => decide (m < minHeight)) = true
    · simp [hlong, hthin]
    · simp [hlong, hthin]

theorem reason_eq_thinFace_iff (hn : 1 ≤ n) :
    (vectorReport n heights lengths).reason minHeight maxLength = .thinFace ↔
      (vectorReport n heights lengths).reason minHeight maxLength ≠ .longEdge ∧
        HasThinFace n heights minHeight ∧ ∀ k, k < n → isNaN (heights k) = false := by
  rw [HasThinFace, and_comm (a := ∃ k, _), ← Tensor.least?_below_iff hn]
  unfold DistanceReport.reason vectorReport
  by_cases hlong : (Tensor.vector n lengths).greatest?.any (fun m => decide (maxLength < m)) = true
  · simp [hlong]
  · by_cases hthin : (Tensor.vector n heights).least?.any (fun m => decide (m < minHeight)) = true
    · simp [hlong, hthin]
    · simp [hlong, hthin]

end Reason

/-! ## The decision -/

section Decision

variable {settings : Settings α} {radius : α} {n : Nat} {x s : Nat → Nat → α}
  {drop : GeometryDrop α}

/-- A report is made of the vertex that the routine chooses and of the extreme distances. -/
theorem dropForGeometry_matrix (settings : Settings α) (radius : α) (n : Nat)
    (x s : Nat → Nat → α) :
    dropForGeometry settings radius (.matrix n (n + 1) x) (.matrix n n s) = do
      let vertex ← Simplex.dropForGeometry settings radius settings.minHeightFactor
        settings.maxLengthFactor (.matrix n (n + 1) x) (.matrix n n s)
      let distances := vectorReport n (rowHeight n s) (columnLength n x)
      let reason := distances.reason (settings.minHeightFactor * radius)
        (settings.maxLengthFactor * radius)
      return { vertex, distances, reason } := by
  simp only [dropForGeometry, distanceReport_matrix, Outcome.liftM_ok_bind]

/-- Whatever is returned, the routine has chosen the vertex and the extremes give the reason. -/
theorem eq_of_dropForGeometry_ok
    (h : (dropForGeometry settings radius (.matrix n (n + 1) x) (.matrix n n s)).result =
      .ok drop) :
    (Simplex.dropForGeometry settings radius settings.minHeightFactor settings.maxLengthFactor
        (.matrix n (n + 1) x) (.matrix n n s)).result = .ok drop.vertex ∧
      drop.reason = (vectorReport n (rowHeight n s) (columnLength n x)).reason
        (settings.minHeightFactor * radius) (settings.maxLengthFactor * radius) := by
  rw [dropForGeometry_matrix] at h
  obtain ⟨vertex, hrun, hvalue⟩ := Outcome.exists_of_bind_ok h
  cases hvalue
  exact ⟨hrun, rfl⟩

theorem worstVertex_of_dropForGeometry_ok
    (h : (dropForGeometry settings radius (.matrix n (n + 1) x) (.matrix n n s)).result =
      .ok drop) :
    (Distances.worstVertex ⟨.vector n (rowHeight n s), .vector n (columnLength n x)⟩
      (settings.minHeightFactor * radius) (settings.maxLengthFactor * radius)).result =
      .ok drop.vertex := by
  have hrun := (eq_of_dropForGeometry_ok h).1
  rw [dropForGeometry_of_asMatrix rfl rfl] at hrun
  exact result_of_guarded_ok hrun

/-- With checking a vertex is always found. -/
theorem vertex_ne_none_of_checked (hchecked : settings.checked = true)
    (h : (dropForGeometry settings radius (.matrix n (n + 1) x) (.matrix n n s)).result =
      .ok drop) : drop.vertex ≠ none := by
  intro hnone
  have hrun := (eq_of_dropForGeometry_ok h).1
  rw [dropForGeometry_of_asMatrix rfl rfl, hchecked, hnone] at hrun
  have hfound := (verify_of_guarded_ok hrun).2
  simp [verify, foundCheck, Check.that, bind, Except.bind] at hfound

theorem vertex_lt_of_checked {j : Nat} (hchecked : settings.checked = true)
    (h : (dropForGeometry settings radius (.matrix n (n + 1) x) (.matrix n n s)).result =
      .ok drop) (hvertex : drop.vertex = some j) : j < n := by
  have hrun := (eq_of_dropForGeometry_ok h).1
  rw [dropForGeometry_of_asMatrix rfl rfl, hchecked, hvertex] at hrun
  have hfound := verify_eq_ok_iff.1 (verify_of_guarded_ok hrun).2 _ List.mem_cons_self
  simpa [foundCheck, Check.that, Nat.succ_le_iff] using hfound

theorem exists_drop_of_unchecked [Ordered α] (hunchecked : settings.checked = false)
    (radius : α) (n : Nat) (x s : Nat → Nat → α) :
    ∃ drop, (dropForGeometry settings radius (.matrix n (n + 1) x) (.matrix n n s)).result =
      .ok drop := by
  rw [dropForGeometry_matrix, dropForGeometry_of_asMatrix rfl rfl, hunchecked, guarded_false]
  by_cases hlong : HasLongEdge n (columnLength n x) (settings.maxLengthFactor * radius)
  · obtain ⟨j, hj, -⟩ := exists_longest (rowHeight n s)
      (settings.minHeightFactor * radius) hlong
    exact ⟨_, by rw [hj]; rfl⟩
  · by_cases hthin : HasThinFace n (rowHeight n s) (settings.minHeightFactor * radius)
    · obtain ⟨j, hj, -⟩ := exists_thinnest hlong hthin
      exact ⟨_, by rw [hj]; rfl⟩
    · exact ⟨_, by rw [Distances.worstVertex_of_neither hlong hthin]; rfl⟩

section Vertex

variable [Ordered α]
  (h : (dropForGeometry settings radius (.matrix n (n + 1) x) (.matrix n n s)).result = .ok drop)

include h

theorem exists_vertex_of_long
    (hlong : HasLongEdge n (columnLength n x) (settings.maxLengthFactor * radius)) :
    ∃ j, drop.vertex = some j ∧ IsFirstGreatest n (columnLength n x) j := by
  have hworst := worstVertex_of_dropForGeometry_ok h
  obtain ⟨j, hj, hfirst, -⟩ := exists_longest (rowHeight n s)
    (settings.minHeightFactor * radius) hlong
  rw [hj] at hworst
  exact ⟨j, (Except.ok.inj hworst).symm, hfirst⟩

theorem exists_vertex_of_thin
    (hlong : ¬ HasLongEdge n (columnLength n x) (settings.maxLengthFactor * radius))
    (hthin : HasThinFace n (rowHeight n s) (settings.minHeightFactor * radius)) :
    ∃ j, drop.vertex = some j ∧ IsFirstLeast n (rowHeight n s) j := by
  have hworst := worstVertex_of_dropForGeometry_ok h
  obtain ⟨j, hj, hfirst, -⟩ := exists_thinnest hlong hthin
  rw [hj] at hworst
  exact ⟨j, (Except.ok.inj hworst).symm, hfirst⟩

theorem vertex_eq_none_iff :
    drop.vertex = none ↔
      ¬ HasLongEdge n (columnLength n x) (settings.maxLengthFactor * radius) ∧
        ¬ HasThinFace n (rowHeight n s) (settings.minHeightFactor * radius) := by
  rw [← worstVertex_eq_none_iff, worstVertex_of_dropForGeometry_ok h, Except.ok.injEq]

/-- Where no vertex is dropped, the simplex is accepted when everything compared is a number. -/
theorem isAcceptable_iff_of_vertex_eq_none (hn : 1 ≤ n) (hnone : drop.vertex = none) :
    (isAcceptable settings radius (.matrix n (n + 1) x) (.matrix n n s)).result = .ok true ↔
      ¬ HasNaN n (rowHeight n s) (columnLength n x) (settings.minHeightFactor * radius)
        (settings.maxLengthFactor * radius) := by
  obtain ⟨hlong, hthin⟩ := (vertex_eq_none_iff h).1 hnone
  have hunchecked : settings.checked = false :=
    Bool.eq_false_iff.2 fun hchecked => vertex_ne_none_of_checked hchecked h hnone
  rw [isAcceptable, isAcceptable_of_asMatrix rfl rfl, hunchecked, guarded_false,
    Outcome.result_pure, Except.ok.injEq]
  exact ⟨not_hasNaN_of_areAcceptable hn, areAcceptable_of_no_violation hlong hthin⟩

end Vertex

end Decision

/-! ## Their agreement -/

section Agreement

variable {settings : Settings α} {radius : α} {n : Nat} {x s : Nat → Nat → α}
  {drop : GeometryDrop α}

/-- With checking no value that is not a number is in the way. -/
theorem not_misreports_of_checked [Measured α] (hchecked : settings.checked = true)
    (h : (dropForGeometry settings radius (.matrix n (n + 1) x) (.matrix n n s)).result =
      .ok drop) :
    ¬ Misreports n (rowHeight n s) (columnLength n x) (settings.minHeightFactor * radius)
      (settings.maxLengthFactor * radius) := by
  have hrun := (eq_of_dropForGeometry_ok h).1
  rw [dropForGeometry_of_asMatrix rfl rfl, hchecked] at hrun
  obtain ⟨-, hx, -, hs⟩ := isFinite_of_verify (verify_of_guarded_ok hrun).1
  rw [Tensor.isFinite, Tensor.all_matrix_iff] at hx hs
  rintro (⟨-, k, hk, hnan⟩ | ⟨-, -, k, hk, hnan⟩ | ⟨hlong, hthin, -⟩)
  · rw [columnLength, Measured.isNaN_length fun i hi => hx i k hi (by omega)] at hnan
    contradiction
  · rw [rowHeight, Measured.isNaN_one_div_length fun l hl => hs k l hk hl] at hnan
    contradiction
  · exact vertex_ne_none_of_checked hchecked h ((vertex_eq_none_iff h).2 ⟨hlong, hthin⟩)

variable [Ordered α] (hn : 1 ≤ n)
  (h : (dropForGeometry settings radius (.matrix n (n + 1) x) (.matrix n n s)).result = .ok drop)

include hn h

theorem not_misreports_of_coherent
    (hcoherent : Coherent drop
      (HasLongEdge n (columnLength n x) (settings.maxLengthFactor * radius))
      (HasThinFace n (rowHeight n s) (settings.minHeightFactor * radius))
      ((isAcceptable settings radius (.matrix n (n + 1) x) (.matrix n n s)).result = .ok true)) :
    ¬ Misreports n (rowHeight n s) (columnLength n x) (settings.minHeightFactor * radius)
      (settings.maxLengthFactor * radius) := by
  have hreason := (eq_of_dropForGeometry_ok h).2
  rintro (⟨hlong, k, hk, hnan⟩ | ⟨hlong, hthin, k, hk, hnan⟩ | ⟨hlong, hthin, hnan⟩)
  · have hsaid := hcoherent.longEdge_iff.2 hlong
    rw [hreason, reason_eq_longEdge_iff hn] at hsaid
    rw [hsaid.2 k hk] at hnan
    contradiction
  · have hsaid := hcoherent.thinFace_iff.2 ⟨hlong, hthin⟩
    rw [hreason, reason_eq_thinFace_iff hn] at hsaid
    rw [hsaid.2.2 k hk] at hnan
    contradiction
  · have hnone := (vertex_eq_none_iff h).2 ⟨hlong, hthin⟩
    have haccepted := hcoherent.accepted_of_isAdequate (hcoherent.isAdequate_iff.2 hnone)
    exact (isAcceptable_iff_of_vertex_eq_none h hn hnone).1 haccepted hnan

theorem coherent_of_not_misreports
    (hreports : ¬ Misreports n (rowHeight n s) (columnLength n x)
      (settings.minHeightFactor * radius) (settings.maxLengthFactor * radius)) :
    Coherent drop
      (HasLongEdge n (columnLength n x) (settings.maxLengthFactor * radius))
      (HasThinFace n (rowHeight n s) (settings.minHeightFactor * radius))
      ((isAcceptable settings radius (.matrix n (n + 1) x) (.matrix n n s)).result = .ok true) := by
  have hreason := (eq_of_dropForGeometry_ok h).2
  simp only [Misreports, not_or, not_and, not_exists, Bool.not_eq_true] at hreports
  obtain ⟨hlengths, hheights, hnumbers⟩ := hreports
  by_cases hlong : HasLongEdge n (columnLength n x) (settings.maxLengthFactor * radius)
  · obtain ⟨j, hvertex, -⟩ := exists_vertex_of_long h hlong
    rw [(reason_eq_longEdge_iff hn).2 ⟨hlong, hlengths hlong⟩] at hreason
    constructor <;> simp [isAdequate_iff, hreason, hvertex, hlong]
  have hnotLong : drop.reason ≠ .longEdge := fun hsaid =>
    hlong ((reason_eq_longEdge_iff hn).1 (hreason ▸ hsaid)).1
  by_cases hthin : HasThinFace n (rowHeight n s) (settings.minHeightFactor * radius)
  · obtain ⟨j, hvertex, -⟩ := exists_vertex_of_thin h hlong hthin
    rw [(reason_eq_thinFace_iff hn).2 ⟨hreason ▸ hnotLong, hthin, hheights hlong hthin⟩] at hreason
    constructor <;> simp [isAdequate_iff, hreason, hvertex, hlong, hthin]
  · have hnotThin : drop.reason ≠ .thinFace := fun hsaid =>
      hthin ((reason_eq_thinFace_iff hn).1 (hreason ▸ hsaid)).2.1
    have hvertex := (vertex_eq_none_iff h).2 ⟨hlong, hthin⟩
    have haccepted := (isAcceptable_iff_of_vertex_eq_none h hn hvertex).2 (hnumbers hlong hthin)
    rw [hreason] at hnotLong hnotThin
    rw [reason_eq_none_iff.2 ⟨hnotLong, hnotThin⟩] at hreason
    constructor <;> simp [isAdequate_iff, hreason, hvertex, hlong, hthin, haccepted]

end Agreement

/-- The report on a dropped vertex agrees with the decision exactly when no value that is not a
number is in the way of its reading, as with checking there never is. -/
theorem dropForGeometry_coherent_iff [Measured α] {settings : Settings α} {radius : α} {n : Nat}
    {x s : Nat → Nat → α} {drop : GeometryDrop α} (hn : 1 ≤ n)
    (h : (dropForGeometry settings radius (.matrix n (n + 1) x) (.matrix n n s)).result =
      .ok drop) :
    let minHeight := settings.minHeightFactor * radius
    let maxLength := settings.maxLengthFactor * radius
    let long := HasLongEdge n (columnLength n x) maxLength
    let thin := HasThinFace n (rowHeight n s) minHeight
    let accepted :=
      (isAcceptable settings radius (.matrix n (n + 1) x) (.matrix n n s)).result = .ok true
    (long → ∃ j, drop.vertex = some j ∧ IsFirstGreatest n (columnLength n x) j) ∧
      (¬ long → thin → ∃ j, drop.vertex = some j ∧ IsFirstLeast n (rowHeight n s) j) ∧
      (drop.vertex = none ↔ ¬ long ∧ ¬ thin) ∧
      (Coherent drop long thin accepted ↔
        ¬ Misreports n (rowHeight n s) (columnLength n x) minHeight maxLength) ∧
      (settings.checked = true → Coherent drop long thin accepted) :=
  ⟨exists_vertex_of_long h, exists_vertex_of_thin h, vertex_eq_none_iff h,
    ⟨not_misreports_of_coherent hn h, coherent_of_not_misreports hn h⟩,
    fun hchecked => coherent_of_not_misreports hn h (not_misreports_of_checked hchecked h)⟩

open Extended in
/-- Among edges of numbers that are all too long the report agrees with the decision. -/
theorem dropForGeometry_coherent_iff_of_threes :
    ∃ drop, (dropForGeometry (Settings.standard : Settings Extended) 1
        (.matrix 2 3 fun _ _ => finite 3) (.matrix 2 2 fun _ _ => 1)).result = .ok drop ∧
      drop.reason = .longEdge ∧ drop.vertex ≠ none := by
  obtain ⟨drop, hdrop⟩ := exists_drop_of_unchecked
    (rfl : (Settings.standard : Settings Extended).checked = false) 1 2 (fun _ _ => finite 3)
    fun _ _ => 1
  have hlong : HasLongEdge 2 (columnLength 2 fun _ _ => finite 3) (2.1 * 1) :=
    ⟨0, by decide, lt_columnLength_of_threes fun _ => rfl⟩
  obtain ⟨hlongest, -, -, hcoherent, -⟩ := dropForGeometry_coherent_iff (by decide) hdrop
  obtain ⟨j, hj, -⟩ := hlongest hlong
  refine ⟨drop, hdrop, (hcoherent.2 ?_).longEdge_iff.2 hlong, by simp [hj]⟩
  rintro (⟨-, k, hk, hnan⟩ | ⟨hnot, -⟩ | ⟨hnot, -⟩)
  · rw [columnLength, Measured.isNaN_length fun i _ => isFinite_finite 3] at hnan
    contradiction
  · exact hnot hlong
  · exact hnot hlong

open Extended in
/-- An edge is too long and is dropped, but beside an unknown edge the report has no reason for it
and calls the simplex adequate. -/
theorem dropForGeometry_misreports :
    ∃ drop, (dropForGeometry (Settings.standard : Settings Extended) 1
        (.matrix 2 3 fun _ k => if k = 0 then nan else finite 3)
        (.matrix 2 2 fun i j => if i = j then 1 else 0)).result = .ok drop ∧
      drop.vertex = some 1 ∧ drop.reason = .none ∧ drop.isAdequate = true := by
  obtain ⟨drop, hdrop⟩ := exists_drop_of_unchecked
    (rfl : (Settings.standard : Settings Extended).checked = false) 1 2
    (fun _ k => if k = 0 then nan else finite 3) fun i j => if i = j then 1 else 0
  set length := columnLength 2 fun _ k => if k = 0 then nan else finite 3
  have hunknown : isNaN (length 0) = true := by
    simp [length, columnLength, square]
  have hlong : HasLongEdge 2 length (2.1 * 1) :=
    ⟨1, by decide, lt_columnLength_of_threes fun _ => rfl⟩
  have hheight : ∀ k, k < 2 →
      rowHeight 2 (fun i j => if i = j then (1 : Extended) else 0) k = finite 1 := by
    intro k hk
    have hsum : (sum 2 fun l => square (if k = l then (1 : Extended) else 0)) = finite 1 := by
      obtain rfl | rfl : k = 0 ∨ k = 1 := by omega
      · simp [one_eq, zero_eq]
      · simp [one_eq, zero_eq]
    rw [rowHeight, hsum, sqrt_finite zero_le_one, Real.sqrt_one, one_eq, finite_div one_ne_zero,
      div_one]
  have hvertex : drop.vertex = some 1 := by
    obtain ⟨j, hj, hfirst⟩ := exists_vertex_of_long hdrop hlong
    have hlt := hfirst.lt_size
    have hne : j ≠ 0 := fun h0 => by
      have hnumber := hfirst.number
      rw [h0, hunknown] at hnumber
      contradiction
    rw [hj, show j = 1 by omega]
  have hreason : drop.reason = .none := by
    rw [(eq_of_dropForGeometry_ok hdrop).2, reason_eq_none_iff, ne_eq, ne_eq,
      reason_eq_longEdge_iff (by decide), reason_eq_thinFace_iff (by decide)]
    constructor
    · rintro ⟨-, hnumbers⟩
      rw [hnumbers 0 (by decide)] at hunknown
      contradiction
    · rintro ⟨-, ⟨k, hk, hthin⟩, -⟩
      rw [hheight k hk] at hthin
      have hlt : (1 : ℝ) < 0.25 * 1 := finite_lt_finite.1 hthin
      norm_num at hlt
  exact ⟨drop, hdrop, hvertex, hreason, isAdequate_iff.2 hreason⟩

end Control

end InterpolationGeometry
