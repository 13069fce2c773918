import InterpolationGeometry.Proofs.Alike
import InterpolationGeometry.Contract
import InterpolationGeometry.Selection
import InterpolationGeometry.Tensor.Inverse

/-!
# Causes of failed conditions

A list of conditions fails for one of two causes: a condition does not hold, and its statement is
the cause, or trying it has no value, and then the cause is the operation's own.  Operations on
scalars and tensors never fail with a condition of a routine, and neither do chains of them.
-/

namespace InterpolationGeometry

/-- The computation does not fail with a condition of a routine. -/
def Uncontracted {β : Type} (x : Except Failure β) : Prop :=
  ∀ routine statement, x ≠ .error (.contract routine statement)

theorem uncontracted_ok {β : Type} (value : β) : Uncontracted (.ok value) := by
  intro routine statement h
  contradiction

theorem uncontracted_error {β : Type} {cause : Failure} (h : cause.isContract = false) :
    Uncontracted (.error cause : Except Failure β) := by
  intro routine statement hcause
  rw [Except.error.inj hcause] at h
  contradiction

theorem Uncontracted.bind {β γ : Type} {x : Except Failure β} {f : β → Except Failure γ}
    (hx : Uncontracted x) (hf : ∀ value, Uncontracted (f value)) : Uncontracted (x >>= f) := by
  intro routine statement h
  cases x with
  | error cause =>
      have hcause : cause = .contract routine statement := by
        simpa [Bind.bind, Except.bind] using h
      exact hx routine statement (by rw [hcause])
  | ok value => exact hf value routine statement h

theorem Uncontracted.ite {β : Type} {x y : Except Failure β} (p : Prop) [Decidable p]
    (hx : Uncontracted x) (hy : Uncontracted y) : Uncontracted (if p then x else y) := by
  split
  · exact hx
  · exact hy

namespace Outcome

variable {α β γ : Type}

def Uncontracted (x : Outcome α β) : Prop := InterpolationGeometry.Uncontracted x.result

theorem uncontracted_pure (value : β) : Uncontracted (pure value : Outcome α β) :=
  uncontracted_ok value

theorem uncontracted_report (event : Event α) : Uncontracted (report event) := uncontracted_ok ()

theorem uncontracted_liftM {x : Except Failure β} (h : InterpolationGeometry.Uncontracted x) :
    Uncontracted (liftM x : Outcome α β) := h

theorem uncontracted_fail {cause : Failure}
    (h : InterpolationGeometry.Uncontracted (.error cause : Except Failure γ)) :
    Uncontracted (fail cause : Outcome α β) := fun routine statement hcause =>
  h routine statement (by rw [Except.error.inj hcause])

theorem Uncontracted.bind {x : Outcome α β} {f : β → Outcome α γ} (hx : Uncontracted x)
    (hf : ∀ value, Uncontracted (f value)) : Uncontracted (x >>= f) := by
  rw [Uncontracted, result_bind]
  exact InterpolationGeometry.Uncontracted.bind hx hf

theorem uncontracted_report_bind_pure (event : Event α) (value : β) :
    Uncontracted (report event >>= fun _ => (pure value : Outcome α β)) :=
  (uncontracted_report event).bind fun _ => uncontracted_pure value

theorem Uncontracted.ite {x y : Outcome α β} (p : Prop) [Decidable p] (hx : Uncontracted x)
    (hy : Uncontracted y) : Uncontracted (if p then x else y) := by
  split
  · exact hx
  · exact hy

end Outcome

/-- What fails is either a condition that does not hold or one that cannot be tried. -/
theorem cause_of_verify {routine : String} {checks : List Check} {cause : Failure}
    (h : verify routine checks = .error cause) :
    ∃ check ∈ checks, check.holds = .error cause ∨ cause = .contract routine check.statement := by
  induction checks with
  | nil => simp at h
  | cons check rest ih =>
      cases hholds : check.holds with
      | error cause' =>
          have hcause : cause' = cause := by
            simpa [verify, hholds, bind, Except.bind] using h
          exact ⟨check, List.mem_cons_self, Or.inl (by rw [hholds, hcause])⟩
      | ok condition =>
          cases condition with
          | false =>
              have hcause : Failure.contract routine check.statement = cause := by
                simpa [verify, hholds, bind, Except.bind] using h
              exact ⟨check, List.mem_cons_self, Or.inr hcause.symm⟩
          | true =>
              have hrest : verify routine rest = .error cause := by
                simpa [verify, hholds, bind, Except.bind] using h
              obtain ⟨check', hmem, hcause⟩ := ih hrest
              exact ⟨check', List.mem_cons_of_mem check hmem, hcause⟩

theorem verify_ne_contract {routine statement : String} {checks : List Check}
    (hchecks : ∀ check ∈ checks, Uncontracted check.holds)
    (hwords : statement ∉ checks.map Check.statement) :
    verify routine checks ≠ .error (.contract routine statement) := by
  intro h
  obtain ⟨check, hmem, hholds | hcause⟩ := cause_of_verify h
  · exact hchecks check hmem routine statement hholds
  · injection hcause with _ hstatement
    exact hwords (List.mem_map.2 ⟨check, hmem, hstatement.symm⟩)

/-! ## Operations -/

theorem uncontracted_divide {α : Type} [Scalar α] (x y : α) : Uncontracted (Scalar.divide x y) :=
  Uncontracted.ite _ (uncontracted_error rfl) (uncontracted_ok _)

theorem uncontracted_boundedSquare {α : Type} [Scalar α] (x : α) :
    Uncontracted (Scalar.boundedSquare x) :=
  Uncontracted.ite _ (uncontracted_error rfl) (uncontracted_ok _)

namespace Tensor

theorem uncontracted_axisLength {β : Type} (k : Nat) (t : Tensor β) :
    Uncontracted (t.axisLength k) := by
  unfold axisLength
  split
  · exact uncontracted_ok _
  · exact uncontracted_error rfl

variable {α : Type} [Scalar α]

theorem uncontracted_leadingColumns (n : Nat) (t : Tensor α) :
    Uncontracted (t.leadingColumns n) := by
  unfold leadingColumns
  split
  · exact uncontracted_ok _
  · exact uncontracted_error rfl

theorem uncontracted_sumAxis (k : Nat) (t : Tensor α) : Uncontracted (t.sumAxis k) := by
  unfold sumAxis
  split
  · exact uncontracted_ok _
  · exact Uncontracted.ite _ (uncontracted_ok _) (uncontracted_error rfl)

theorem uncontracted_matmul (t u : Tensor α) : Uncontracted (t.matmul u) := by
  unfold matmul
  split
  · refine Uncontracted.ite _ ?_ (uncontracted_error rfl)
    split
    · exact uncontracted_ok _
    · exact uncontracted_error rfl
  · exact uncontracted_error rfl

theorem uncontracted_zipWith {β γ δ : Type} [Inhabited β] [Inhabited γ] (f : β → γ → δ)
    (t : Tensor β) (u : Tensor γ) : Uncontracted (zipWith f t u) := by
  unfold zipWith
  split
  · exact uncontracted_error rfl
  · exact uncontracted_ok _

theorem uncontracted_entry {β : Type} (k : Nat) (t : Tensor β) : Uncontracted (t.entry k) := by
  unfold entry
  split
  · exact uncontracted_ok _
  · exact uncontracted_error rfl

theorem uncontracted_item {β : Type} {cause : Failure} (h : cause.isContract = false)
    (t : Tensor β) : Uncontracted (t.item cause) :=
  Uncontracted.ite _ (uncontracted_entry 0 t) (uncontracted_error h)

theorem uncontracted_column (k : Nat) (t : Tensor α) : Uncontracted (t.column k) := by
  unfold column
  split
  · exact Uncontracted.ite _ (uncontracted_ok _) (uncontracted_error rfl)
  · exact uncontracted_error rfl

theorem uncontracted_row (j : Int) (t : Tensor α) : Uncontracted (t.row j) := by
  unfold row
  split
  · split
    · exact uncontracted_ok _
    · exact uncontracted_error rfl
  · exact uncontracted_error rfl

theorem uncontracted_spread (shape : Shape) (t : Tensor α) : Uncontracted (t.spread shape) :=
  Uncontracted.ite _ (uncontracted_ok _) (uncontracted_error rfl)

theorem uncontracted_product (t u : Tensor α) : Uncontracted (t.product u) := by
  unfold product
  split
  · exact Uncontracted.ite _ (uncontracted_matmul t u) (uncontracted_error rfl)
  · exact uncontracted_error rfl

theorem uncontracted_dot (t u : Tensor α) : Uncontracted (t.dot u) :=
  (uncontracted_matmul t u).bind fun product => uncontracted_item rfl product

theorem uncontracted_columnsMinus (t v : Tensor α) : Uncontracted (t.columnsMinus v) := by
  unfold columnsMinus
  split
  · exact uncontracted_error rfl
  · exact Uncontracted.ite _ (uncontracted_ok _) (uncontracted_error rfl)
  · exact uncontracted_error rfl

theorem uncontracted_rowNorms (t : Tensor α) : Uncontracted t.rowNorms :=
  (uncontracted_sumAxis 1 t.squares).bind fun _ => uncontracted_ok _

theorem uncontracted_columnNorms (t : Tensor α) : Uncontracted t.columnNorms :=
  (uncontracted_sumAxis 0 t.squares).bind fun _ => uncontracted_ok _

theorem uncontracted_rowSumNorm (t : Tensor α) : Uncontracted t.rowSumNorm := by
  unfold rowSumNorm
  refine Uncontracted.ite _ ?_ (uncontracted_error rfl)
  refine (uncontracted_sumAxis 1 _).bind fun sums => ?_
  split
  · exact uncontracted_ok _
  · exact uncontracted_error rfl

theorem uncontracted_nearIdentity (bound : α) (n : Nat) (a b : Tensor α) :
    Uncontracted (nearIdentity bound n a b) := by
  refine (uncontracted_matmul a b).bind fun product => ?_
  refine (uncontracted_zipWith _ product (identity n)).bind fun gap => ?_
  exact (uncontracted_rowSumNorm gap).bind fun _ => uncontracted_ok _

theorem uncontracted_isInverse (tolerance : α) (a b : Tensor α) :
    Uncontracted (isInverse tolerance a b) := by
  refine (uncontracted_axisLength 0 a).bind fun n => ?_
  apply Uncontracted.ite
  · refine (uncontracted_rowSumNorm a).bind fun size => ?_
    refine (uncontracted_rowSumNorm b).bind fun size' => ?_
    refine (uncontracted_nearIdentity _ n a b).bind fun near => ?_
    exact Uncontracted.ite _ (uncontracted_nearIdentity _ n b a) (uncontracted_ok false)
  · exact uncontracted_ok false

end Tensor

namespace Selection

variable {α : Type} [Scalar α]

theorem uncontracted_validPlaces (t : Tensor α) (mask : Option (Tensor Bool)) :
    Uncontracted (validPlaces t mask) := by
  unfold validPlaces
  split
  · exact uncontracted_ok _
  · refine Uncontracted.bind ?_ fun _ => uncontracted_ok _
    exact Uncontracted.ite _ (uncontracted_ok _)
      (Uncontracted.ite _ (uncontracted_ok _) (uncontracted_error rfl))

theorem uncontracted_argmax? (t : Tensor α) (mask : Option (Tensor Bool)) :
    Uncontracted (argmax? t mask) :=
  (uncontracted_validPlaces t mask).bind fun _ => uncontracted_ok _

theorem uncontracted_argmin? (t : Tensor α) (mask : Option (Tensor Bool)) :
    Uncontracted (argmin? t mask) :=
  (uncontracted_validPlaces t mask).bind fun _ => uncontracted_ok _

end Selection

end InterpolationGeometry
