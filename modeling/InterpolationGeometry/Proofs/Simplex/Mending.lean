import InterpolationGeometry.Proofs.Arithmetic.Ordered
import InterpolationGeometry.Proofs.Simplex.Faces
import InterpolationGeometry.Proofs.Simplex.MeritModel
import InterpolationGeometry.Proofs.Simplex.WorstVertex
import InterpolationGeometry.Simplex.Assessment

/-!
# Mending a simplex

As long as a simplex is not acceptable, the vertex to drop is replaced by the point on the normal of
its opposite face.  In exact arithmetic a pass takes a vertex that violates a threshold, brings its
height and its edge to the length of the step, which is between the thresholds, and spoils no other
vertex.  So the violating vertices become fewer with each pass, and a simplex in `n` dimensions is
acceptable after at most `n` of them, whatever is known of the merit meanwhile.
-/

namespace InterpolationGeometry

namespace Simplex

open Scalar Matrix

variable {n : ℕ}

/-- What a simplex is mended with: thresholds in the order that lets the length of a step lie
between them, the base vertex, and what is known of the merit at each pass. -/
structure Mending (n : ℕ) where
  settings : Settings ℝ
  radius : ℝ
  minHeightFactor : ℝ
  stepFactor : ℝ
  maxLengthFactor : ℝ
  base : Fin n → ℝ
  merit : ℕ → Merit n
  radius_pos : 0 < radius
  minHeight_pos : 0 < minHeightFactor
  minHeight_lt_step : minHeightFactor < stepFactor
  step_lt_one : stepFactor < 1
  one_lt_maxLength : 1 < maxLengthFactor
  admissible : settings.checked = true →
    0 ≤ settings.inverseTolerance ∧ ∀ pass, (merit pass).IsAdmissible

namespace Mending

variable (m : Mending n) (E : Matrix (Fin n) (Fin n) ℝ)

def Violates (k : Fin n) : Prop :=
  faceHeight E⁻¹ k < m.minHeightFactor * m.radius ∨ m.maxLengthFactor * m.radius < edgeLength E k

open Classical in
noncomputable def violating : Finset (Fin n) := Finset.univ.filter (m.Violates E)

noncomputable def isAcceptable : Outcome ℝ Bool :=
  Simplex.isAcceptable m.settings m.radius m.minHeightFactor m.maxLengthFactor (ofEdges E m.base)
    (.ofMatrix E⁻¹)

noncomputable def dropped : Outcome ℝ (Option ℕ) :=
  dropForGeometry m.settings m.radius m.minHeightFactor m.maxLengthFactor (ofEdges E m.base)
    (.ofMatrix E⁻¹)

end Mending

structure Pass (n : ℕ) where
  edges : Matrix (Fin n) (Fin n) ℝ
  vertex : Option ℕ
  step : Tensor ℝ

noncomputable def Pass.exchanged (pass : Pass n) : Matrix (Fin n) (Fin n) ℝ :=
  .of fun i k => if pass.vertex = some (k : ℕ) then pass.step.get [(i : ℕ)] else pass.edges i k

namespace Mending

variable (m : Mending n) (E : Matrix (Fin n) (Fin n) ℝ)

/-- One pass: drop a vertex and step across its face. -/
noncomputable def pass (time : ℕ) (E : Matrix (Fin n) (Fin n) ℝ) : Outcome ℝ (Pass n) := do
  let vertex ← m.dropped E
  let step ← (m.merit time).step m.settings E⁻¹ (vertexNumber vertex : Rat) m.radius m.stepFactor
  return { edges := E, vertex, step }

/-- Passes until the simplex is acceptable, at most as many as are allowed. -/
noncomputable def run : (allowed time : ℕ) → (E : Matrix (Fin n) (Fin n) ℝ) →
    Outcome ℝ (List (Pass n) × Matrix (Fin n) (Fin n) ℝ)
  | 0, _, E => return ([], E)
  | allowed + 1, time, E => do
      if ← m.isAcceptable E then
        return ([], E)
      let pass ← m.pass time E
      let (rest, final) ← run allowed (time + 1) pass.exchanged
      return (pass :: rest, final)

/-! ## Assessment -/

variable {E}

theorem mem_violating_iff {k : Fin n} : k ∈ m.violating E ↔ m.Violates E k := by
  simp [violating]

theorem violating_eq_empty_iff :
    m.violating E = ∅ ↔ ∀ k, m.minHeightFactor * m.radius ≤ faceHeight E⁻¹ k ∧
      edgeLength E k ≤ m.maxLengthFactor * m.radius := by
  simp only [Finset.eq_empty_iff_forall_notMem, mem_violating_iff, Violates, not_or, not_lt]

theorem minHeight_lt_one : m.minHeightFactor < 1 := m.minHeight_lt_step.trans m.step_lt_one

theorem holds_of_mem_checks (hn : 1 ≤ n) (hE : IsUnit E) (hchecked : m.settings.checked = true)
    {check : Check}
    (h : check ∈ shapeChecks m.settings n (ofEdges E m.base) (.ofMatrix E⁻¹) ++
      [radiusCheck m.radius, minHeightCheck m.minHeightFactor,
        maxLengthCheck m.maxLengthFactor]) : check.holds = .ok true :=
  holds_of_mem_assessmentChecks hn (m.admissible hchecked).1 hE m.base m.radius_pos
    m.minHeight_pos m.minHeight_lt_one m.one_lt_maxLength h

open Classical in
theorem isAcceptable_eq (hn : 1 ≤ n) (hE : IsUnit E) :
    m.isAcceptable E = pure (decide (m.violating E = ∅)) := by
  rw [isAcceptable, isAcceptable_ofEdges m.settings m.radius m.minHeightFactor m.maxLengthFactor hn
    hE m.base fun hchecked => ?_]
  · congr 1
    rw [decide_eq_decide, violating_eq_empty_iff]
  · exact ⟨(m.admissible hchecked).1, m.radius_pos, m.minHeight_pos, m.minHeight_lt_one,
      m.one_lt_maxLength⟩

theorem isAcceptable_eq_true_iff (hn : 1 ≤ n) (hE : IsUnit E) :
    m.isAcceptable E = pure true ↔ m.violating E = ∅ := by
  rw [m.isAcceptable_eq hn hE]
  constructor
  · intro h
    have hvalue := congrArg Outcome.result h
    simpa using hvalue
  · intro h
    simp [h]

/-! ## Passes -/

theorem exists_worstVertex (h : (m.violating E).Nonempty) :
    ∃ j : Fin n, m.Violates E j ∧
      Distances.worstVertex ⟨.ofVector (faceHeight E⁻¹), .ofVector (edgeLength E)⟩
        (m.minHeightFactor * m.radius) (m.maxLengthFactor * m.radius) = pure (some (j : ℕ)) := by
  obtain ⟨k, hmem⟩ := h
  by_cases hlong : HasLongEdge n (continued (edgeLength E)) (m.maxLengthFactor * m.radius)
  · obtain ⟨j, hworst, hfirst, hlt⟩ := exists_longest (continued (faceHeight E⁻¹))
      (m.minHeightFactor * m.radius) hlong
    rw [continued_of_lt _ hfirst.lt_size] at hlt
    exact ⟨⟨j, hfirst.lt_size⟩, Or.inr hlt, hworst⟩
  · -- No edge is too long, so that the violating vertex is too close to its face.
    have hlow : faceHeight E⁻¹ k < m.minHeightFactor * m.radius := by
      rcases m.mem_violating_iff.1 hmem with hlow | hfar
      · exact hlow
      · exact absurd ⟨k, k.isLt, by rw [continued_val]; exact hfar⟩ hlong
    have hthin : HasThinFace n (continued (faceHeight E⁻¹)) (m.minHeightFactor * m.radius) :=
      ⟨k, k.isLt, by rw [continued_val]; exact hlow⟩
    obtain ⟨j, hworst, hfirst, hlt⟩ := exists_thinnest hlong hthin
    rw [continued_of_lt _ hfirst.lt_size] at hlt
    exact ⟨⟨j, hfirst.lt_size⟩, Or.inl hlt, hworst⟩

theorem exists_dropped (hE : IsUnit E) (h : (m.violating E).Nonempty) :
    ∃ j : Fin n, m.Violates E j ∧ m.dropped E = pure (some (j : ℕ)) := by
  obtain ⟨j, hj, hworst⟩ := m.exists_worstVertex h
  have hn : 1 ≤ n := j.pos
  refine ⟨j, hj, ?_⟩
  simp only [dropped, dropForGeometry, asMatrix_ofEdges, Tensor.asMatrix_ofMatrix,
    axisLength_ofEdges, Outcome.liftM_ok_bind]
  apply guarded_eq_pure
  · rw [distances_ofEdges, Outcome.liftM_ok_bind, hworst]
  · intro hchecked
    apply verify_eq_ok_iff.2
    intro check hmem
    apply m.holds_of_mem_checks hn hE hchecked
    rcases List.mem_append.1 hmem with hshape | hrest
    · exact List.mem_append_left _ hshape
    · exact List.mem_append_right _ (List.mem_cons_of_mem _ hrest)
  · intro _
    apply verify_eq_ok_iff.2
    intro check hmem
    rw [List.mem_singleton.1 hmem]
    simp [Check.that, j.isLt]

/-- What a pass does: it takes a vertex that violates a threshold, gives it the height and the edge
of the length of the step, and spoils no other vertex. -/
def Mends (pass : Pass n) : Prop :=
  ∃ j : Fin n, pass.vertex = some (j : ℕ) ∧ m.Violates pass.edges j ∧ IsUnit pass.exchanged ∧
    faceHeight pass.exchanged⁻¹ j = m.stepFactor * m.radius ∧
    edgeLength pass.exchanged j = m.stepFactor * m.radius ∧
    ∀ k, k ≠ j → edgeLength pass.exchanged k = edgeLength pass.edges k ∧
      faceHeight pass.edges⁻¹ k ≤ faceHeight pass.exchanged⁻¹ k

theorem exchanged_eq_updateCol (E : Matrix (Fin n) (Fin n) ℝ) (j : Fin n) (v : Fin n → ℝ) :
    Pass.exchanged ⟨E, some (j : ℕ), .ofVector v⟩ = E.updateCol j v := by
  ext i k
  by_cases hk : k = j
  · subst hk
    simp [Pass.exchanged]
  · have hne : (j : ℕ) ≠ (k : ℕ) := fun heq => hk (Fin.ext heq.symm)
    simp [Pass.exchanged, hk, hne]

/-- A simplex that is not acceptable admits a pass. -/
theorem exists_pass (time : ℕ) (hE : IsUnit E) (h : (m.violating E).Nonempty) :
    ∃ pass, m.pass time E = Pure.pure pass ∧ pass.edges = E ∧ m.Mends pass := by
  obtain ⟨j, hj, hdropped⟩ := m.exists_dropped hE h
  have hstep : 0 < m.stepFactor := m.minHeight_pos.trans m.minHeight_lt_step
  obtain ⟨r, hr, hnormal⟩ := (m.merit time).exists_step_eq_faceNormal hE j m.radius_pos hstep
    m.step_lt_one fun hchecked => (m.admissible hchecked).2 time
  have hne : r ≠ 0 := by
    have hpos : 0 < |r| := by
      rw [hr]
      exact mul_pos hstep m.radius_pos
    exact abs_pos.1 hpos
  have hexchanged := exchanged_eq_updateCol E j (faceNormal E⁻¹ j r)
  refine ⟨⟨E, some (j : ℕ), .ofVector (faceNormal E⁻¹ j r)⟩, ?_, rfl, j, rfl, hj, ?_⟩
  · rw [Mending.pass, hdropped, pure_bind, vertexNumber_some, hnormal, pure_bind]
  · rw [hexchanged]
    refine ⟨isUnit_updateCol_faceNormal hE hne, ?_, ?_, fun k hk => ⟨?_, ?_⟩⟩
    · rw [faceHeight_updateCol_faceNormal hE hne, hr]
    · rw [edgeLength_updateCol_faceNormal hE, hr]
    · exact edgeLength_updateCol_of_ne hk _
    · exact faceHeight_le_updateCol hE hne hk

/-- A pass mends a vertex for good. -/
theorem violating_exchanged_ssubset {pass : Pass n} (h : m.Mends pass) :
    m.violating pass.exchanged ⊂ m.violating pass.edges := by
  obtain ⟨j, -, hj, -, hheight, hlength, hothers⟩ := h
  have hmended : ¬ m.Violates pass.exchanged j := by
    rintro (hlow | hlong)
    · rw [hheight] at hlow
      have hlt := mul_lt_mul_of_pos_right m.minHeight_lt_step m.radius_pos
      linarith
    · rw [hlength] at hlong
      have hlt := mul_lt_mul_of_pos_right (m.step_lt_one.trans m.one_lt_maxLength) m.radius_pos
      linarith
  apply (Finset.ssubset_iff_of_subset ?_).2
  · exact ⟨j, m.mem_violating_iff.2 hj, mt m.mem_violating_iff.1 hmended⟩
  · intro k hk
    have hviolates := m.mem_violating_iff.1 hk
    have hkj : k ≠ j := fun heq => hmended (heq ▸ hviolates)
    obtain ⟨hsame, hle⟩ := hothers k hkj
    apply m.mem_violating_iff.2
    rcases hviolates with hlow | hlong
    · exact Or.inl (hle.trans_lt hlow)
    · exact Or.inr (hsame ▸ hlong)

/-! ## Runs -/

/-- Each pass starts from the edges that the one before it leaves. -/
def Linked : Matrix (Fin n) (Fin n) ℝ → List (Pass n) → Matrix (Fin n) (Fin n) ℝ → Prop
  | E, [], final => E = final
  | E, pass :: rest, final => pass.edges = E ∧ Linked pass.exchanged rest final

theorem isUnit_of_linked {passes : List (Pass n)} {E final : Matrix (Fin n) (Fin n) ℝ}
    (hE : IsUnit E) (hlinked : Linked E passes final) (hmends : ∀ pass ∈ passes, m.Mends pass) :
    IsUnit final := by
  induction passes generalizing E with
  | nil => exact hlinked ▸ hE
  | cons pass rest ih =>
      obtain ⟨-, hrest⟩ := hlinked
      obtain ⟨j, -, -, hunit, -⟩ := hmends pass List.mem_cons_self
      exact ih hunit hrest fun pass' hmem => hmends pass' (List.mem_cons_of_mem _ hmem)

/-- Linked passes keep the length of an edge unless they drop its vertex. -/
theorem linked_frame {passes : List (Pass n)} {E final : Matrix (Fin n) (Fin n) ℝ} {k : Fin n}
    (hlinked : Linked E passes final) (hmends : ∀ pass ∈ passes, m.Mends pass)
    (hk : ∀ pass ∈ passes, pass.vertex ≠ some (k : ℕ)) : edgeLength final k = edgeLength E k := by
  induction passes generalizing E with
  | nil => exact hlinked ▸ rfl
  | cons pass rest ih =>
      obtain ⟨rfl, hrest⟩ := hlinked
      obtain ⟨j, hvertex, -, -, -, -, hothers⟩ := hmends pass List.mem_cons_self
      have hne : k ≠ j := fun heq => hk pass List.mem_cons_self (heq ▸ hvertex)
      calc edgeLength final k = edgeLength pass.exchanged k :=
            ih hrest (fun pass' hmem => hmends pass' (List.mem_cons_of_mem _ hmem))
              fun pass' hmem => hk pass' (List.mem_cons_of_mem _ hmem)
        _ = edgeLength pass.edges k := (hothers k hne).1

/-- A run that leaves no violating vertex has dropped every one whose edge was too short or too
long. -/
theorem exists_pass_of_edge {passes : List (Pass n)} {E final : Matrix (Fin n) (Fin n) ℝ}
    (hE : IsUnit E) (hlinked : Linked E passes final) (hmends : ∀ pass ∈ passes, m.Mends pass)
    (hfinished : m.violating final = ∅) {k : Fin n}
    (hedge : edgeLength E k < m.minHeightFactor * m.radius ∨
      m.maxLengthFactor * m.radius < edgeLength E k) :
    ∃ pass ∈ passes, pass.vertex = some (k : ℕ) := by
  by_contra hnone
  simp only [not_exists, not_and] at hnone
  have hkept := m.linked_frame hlinked hmends hnone
  have hheight := faceHeight_le_edgeLength (m.isUnit_of_linked hE hlinked hmends) k
  obtain ⟨hlow, hlong⟩ := m.violating_eq_empty_iff.1 hfinished k
  rw [hkept] at hheight hlong
  rcases hedge with hshort | hfar
  · linarith
  · linarith

/-- A run that is allowed a pass for each violating vertex leaves none. -/
theorem exists_run (hn : 1 ≤ n) (allowed time : ℕ) {E : Matrix (Fin n) (Fin n) ℝ} (hE : IsUnit E)
    (hallowed : (m.violating E).card ≤ allowed) :
    ∃ passes final, m.run allowed time E = Pure.pure (passes, final) ∧
      passes.length ≤ (m.violating E).card ∧ m.violating final = ∅ ∧ Linked E passes final ∧
      ∀ pass ∈ passes, IsUnit pass.edges ∧ m.Mends pass := by
  -- Each pass uses up one that is allowed and leaves fewer vertices to mend, so that the bound
  -- holds again for the edges and the merit that the next pass starts from.
  induction allowed generalizing time E with
  | zero =>
      have hnone : m.violating E = ∅ := Finset.card_eq_zero.1 (by omega)
      exact ⟨[], E, rfl, Nat.zero_le _, hnone, rfl, by simp⟩
  | succ allowed ih =>
      by_cases hnone : m.violating E = ∅
      · refine ⟨[], E, ?_, Nat.zero_le _, hnone, rfl, by simp⟩
        rw [run, m.isAcceptable_eq hn hE, pure_bind, if_pos (by simp [hnone])]
      · obtain ⟨pass, hpass, hedges, hmends⟩ :=
          m.exists_pass time hE (Finset.nonempty_iff_ne_empty.2 hnone)
        have hunit : IsUnit pass.exchanged := by
          obtain ⟨j, -, -, hunit, -⟩ := hmends
          exact hunit
        have hfewer : (m.violating pass.exchanged).card < (m.violating E).card := by
          have hsubset := m.violating_exchanged_ssubset hmends
          rw [hedges] at hsubset
          exact Finset.card_lt_card hsubset
        obtain ⟨rest, final, hrun, hlength, hfinished, hlinked, hrest⟩ :=
          ih (time + 1) hunit (by omega)
        refine ⟨pass :: rest, final, ?_, ?_, hfinished, ⟨hedges, hlinked⟩, ?_⟩
        · rw [run, m.isAcceptable_eq hn hE, pure_bind, if_neg (by simp [hnone]), hpass, pure_bind,
            hrun, pure_bind]
        · rw [List.length_cons]
          omega
        · intro pass' hmem
          rcases List.mem_cons.1 hmem with rfl | hmem
          · exact ⟨hedges ▸ hE, hmends⟩
          · exact hrest pass' hmem

end Mending

/-- Mending ends after at most `n` passes with an acceptable simplex.  Every pass starts from one
that is not, takes a vertex that violates a threshold, keeps the edges independent, brings the
height and the edge of the vertex to the length of the step, keeps the other edges, lowers no other
height, and leaves fewer vertices that violate a threshold. -/
theorem mending_ends (hn : 1 ≤ n) (m : Mending n) {E : Matrix (Fin n) (Fin n) ℝ} (hE : IsUnit E)
    {allowed : ℕ} (hallowed : n ≤ allowed) :
    ∃ passes final, m.run allowed 0 E = pure (passes, final) ∧ passes.length ≤ n ∧
      m.isAcceptable final = pure true ∧ Mending.Linked E passes final ∧
      ∀ pass ∈ passes, m.isAcceptable pass.edges = pure false ∧ m.Mends pass ∧
        m.violating pass.exchanged ⊂ m.violating pass.edges := by
  have hcard : (m.violating E).card ≤ n := by
    have hle := Finset.card_le_univ (m.violating E)
    rwa [Fintype.card_fin] at hle
  obtain ⟨passes, final, hrun, hlength, hfinished, hlinked, hpasses⟩ :=
    m.exists_run hn allowed 0 hE (hcard.trans hallowed)
  have hfinal := m.isUnit_of_linked hE hlinked fun pass hmem => (hpasses pass hmem).2
  refine ⟨passes, final, hrun, hlength.trans hcard,
    (m.isAcceptable_eq_true_iff hn hfinal).2 hfinished, hlinked, fun pass hmem => ?_⟩
  obtain ⟨hunit, hmends⟩ := hpasses pass hmem
  have hsubset := m.violating_exchanged_ssubset hmends
  have hsome : m.violating pass.edges ≠ ∅ := ((Finset.empty_subset _).trans_ssubset hsubset).ne'
  refine ⟨?_, hmends, hsubset⟩
  rw [m.isAcceptable_eq hn hunit, decide_eq_false hsome]

noncomputable def Mending.standard (base : Fin n → ℝ) (merit : ℕ → Merit n) : Mending n where
  settings := Settings.standard
  radius := 1
  minHeightFactor := 0.25
  stepFactor := 0.5
  maxLengthFactor := 2.1
  base := base
  merit := merit
  radius_pos := one_pos
  minHeight_pos := by norm_num
  minHeight_lt_step := by norm_num
  step_lt_one := by norm_num
  one_lt_maxLength := by norm_num
  admissible := fun hchecked => Bool.noConfusion hchecked

/-- Two edges at a right angle, one three times as long as the radius and one a tenth of it. -/
noncomputable def longAndShort : Matrix (Fin 2) (Fin 2) ℝ := diagonal ![3.0, 0.1]

theorem isUnit_longAndShort : IsUnit longAndShort := by
  rw [isUnit_iff_isUnit_det, longAndShort, det_diagonal, Fin.prod_univ_two]
  norm_num

theorem edgeLength_longAndShort : edgeLength longAndShort = ![3.0, 0.1] := by
  funext k
  rw [longAndShort, edgeLength_diagonal]
  fin_cases k <;> norm_num

/-- Both edges are mended, one in each pass, although what is known of the merit changes between
them. -/
theorem mending_ends_of_long_and_short_edge :
    let m := Mending.standard (0 : Fin 2 → ℝ) fun pass =>
      if pass = 0 then Merit.overshooting else Merit.flat 2
    IsUnit longAndShort ∧ ∃ passes final, m.run 2 0 longAndShort = pure (passes, final) ∧
      passes.length = 2 ∧ (∀ k : Fin 2, ∃ pass ∈ passes, pass.vertex = some (k : ℕ)) ∧
      m.isAcceptable final = pure true := by
  intro m
  obtain ⟨passes, final, hrun, hlength, haccepted, hlinked, hpasses⟩ :=
    mending_ends one_le_two m isUnit_longAndShort le_rfl
  have hmends : ∀ pass ∈ passes, m.Mends pass := fun pass hmem => (hpasses pass hmem).2.1
  have hfinal := m.isUnit_of_linked isUnit_longAndShort hlinked hmends
  have hfinished := (m.isAcceptable_eq_true_iff one_le_two hfinal).1 haccepted
  have hdropped : ∀ k : Fin 2, ∃ pass ∈ passes, pass.vertex = some (k : ℕ) := by
    intro k
    apply m.exists_pass_of_edge isUnit_longAndShort hlinked hmends hfinished
    rw [edgeLength_longAndShort]
    show _ < (0.25 : ℝ) * 1 ∨ (2.1 : ℝ) * 1 < _
    fin_cases k <;> norm_num
  refine ⟨isUnit_longAndShort, passes, final, hrun, le_antisymm hlength ?_, hdropped, haccepted⟩
  obtain ⟨first, hfirst, hzero⟩ := hdropped 0
  obtain ⟨second, hsecond, hone⟩ := hdropped 1
  have hne : first ≠ second := by
    intro heq
    rw [heq, hone] at hzero
    simp at hzero
  match passes with
  | [] => simp at hfirst
  | [pass] =>
      rw [List.mem_singleton] at hfirst hsecond
      exact absurd (hfirst.trans hsecond.symm) hne
  | _ :: _ :: rest => simp

end Simplex

end InterpolationGeometry
