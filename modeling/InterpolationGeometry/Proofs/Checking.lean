import InterpolationGeometry.Proofs.Causes

/-!
# What checking does

A routine may be run with its conditions or without them.  Two properties of the pair of runs: the
conditions only observe, so that the checked run is the other one or fails, and they are screened,
so that the checked run fails with the first of them that does not hold and of no other cause.
-/

namespace InterpolationGeometry

variable {α β γ : Type} {routine : String}

/-! ## Observing -/

/-- The checked run of a routine is the unchecked one as far as it gets.  The promises are the
statements of the conditions on the result. -/
structure Observes (routine : String) (promises : List String) (unchecked checked : Outcome α β) :
    Prop where
  /-- A value comes with the value and the events of the unchecked run. -/
  eq_of_ok : ∀ value, checked.result = .ok value → checked = unchecked
  /-- Where the unchecked run fails, so does the checked one. -/
  fails : ∀ cause, unchecked.result = .error cause → ∃ cause', checked.result = .error cause'
  /-- The unchecked run fails with no condition. -/
  uncontracted : unchecked.Uncontracted
  /-- A promise that is not kept is found after all events, for a value of the unchecked run. -/
  log_eq : ∀ statement ∈ promises, checked.result = .error (.contract routine statement) →
    checked.log = unchecked.log ∧ ∃ value, unchecked.result = .ok value

/-- Conditions only observe when their words are not those of the promises and neither they nor the
body fail with a condition. -/
theorem observes_guarded {before : List Check} {body : Outcome α β} {after : β → List Check}
    {promises : List String} (hbody : body.Uncontracted)
    (hbefore : ∀ check ∈ before, Uncontracted check.holds)
    (hwords : ∀ statement ∈ promises, statement ∉ before.map Check.statement) :
    Observes routine promises (guarded false routine before body after)
      (guarded true routine before body after) where
  eq_of_ok value h := by
    rw [guarded_false, guarded_true_of_ok h]
  fails cause h := by
    rw [guarded_false] at h
    cases hchecked : (guarded true routine before body after).result with
    | error cause' => exact ⟨cause', rfl⟩
    | ok value =>
        rw [result_of_guarded_ok hchecked] at h
        contradiction
  uncontracted := by rwa [guarded_false]
  log_eq statement hpromise h := by
    rw [guarded_false]
    cases hverify : verify routine before with
    | error cause =>
        rw [guarded_true_of_error hverify] at h
        rw [Except.error.inj h] at hverify
        exact absurd hverify (verify_ne_contract hbefore (hwords statement hpromise))
    | ok =>
        rw [guarded_true_of_verify hverify] at h ⊢
        refine ⟨rfl, ?_⟩
        cases hresult : body.result with
        | ok value => exact ⟨value, rfl⟩
        | error cause =>
            rw [hresult] at h
            exact absurd (hresult.trans h) (hbody routine statement)

/-- A step that both runs start with makes no difference. -/
theorem Observes.liftM_bind {x : Except Failure γ} {promises : List String}
    {f f' : γ → Outcome α β} (hx : Uncontracted x)
    (h : ∀ value, Observes routine promises (f value) (f' value)) :
    Observes routine promises ((liftM x : Outcome α γ) >>= f)
      ((liftM x : Outcome α γ) >>= f') := by
  cases x with
  | ok value =>
      rw [Outcome.liftM_ok_bind, Outcome.liftM_ok_bind]
      exact h value
  | error cause =>
      rw [Outcome.liftM_error_bind, Outcome.liftM_error_bind]
      have hfail : (Outcome.fail cause : Outcome α β).Uncontracted := Outcome.uncontracted_fail hx
      refine ⟨fun value h => ?_, fun _ _ => ⟨cause, rfl⟩, hfail, fun statement _ h => ?_⟩
      · contradiction
      · exact absurd h (hfail routine statement)

/-! ## Screening -/

inductive FirstFailing : List Check → Check → Prop
  | here {check : Check} {rest : List Check} (h : check.holds = .ok false) :
      FirstFailing (check :: rest) check
  | later {check failing : Check} {rest : List Check} (h : check.holds = .ok true)
      (hrest : FirstFailing rest failing) : FirstFailing (check :: rest) failing

/-- Each condition can be tried once those before it hold. -/
def Triable : List Check → Prop
  | [] => True
  | check :: rest => ∃ condition, check.holds = .ok condition ∧ (condition = true → Triable rest)

theorem verify_of_firstFailing {checks : List Check} {check : Check}
    (h : FirstFailing checks check) :
    verify routine checks = .error (.contract routine check.statement) := by
  induction h with
  | here h => simp [verify, h, bind, Except.bind]
  | later h _ ih => simpa [verify, h, bind, Except.bind] using ih

/-- Conditions that can be tried hold, or one of them is the first that does not. -/
theorem Triable.verify_or (routine : String) {checks : List Check} (h : Triable checks) :
    verify routine checks = .ok () ∨ ∃ check, FirstFailing checks check := by
  induction checks with
  | nil => exact Or.inl rfl
  | cons check rest ih =>
      obtain ⟨condition, hholds, hrest⟩ := h
      cases condition with
      | false => exact Or.inr ⟨check, .here hholds⟩
      | true =>
          rcases ih (hrest rfl) with hverify | ⟨failing, hfailing⟩
          · left
            simpa [verify, hholds, bind, Except.bind] using hverify
          · exact Or.inr ⟨failing, .later hholds hfailing⟩

theorem triable_that_cons {condition : Bool} {statement : String} {rest : List Check}
    (h : condition = true → Triable rest) : Triable (.that condition statement :: rest) :=
  ⟨condition, rfl, h⟩

theorem Triable.append {checks rest : List Check} (h : Triable checks)
    (hrest : (∀ check ∈ checks, check.holds = .ok true) → Triable rest) :
    Triable (checks ++ rest) := by
  induction checks with
  | nil => exact hrest (by simp)
  | cons check checks ih =>
      obtain ⟨condition, hholds, hchecks⟩ := h
      refine ⟨condition, hholds, ?_⟩
      rintro rfl
      exact ih (hchecks rfl) fun hall => hrest (List.forall_mem_cons.2 ⟨hholds, hall⟩)

/-- What a checked run may come to: the first condition on the arguments that does not hold, the
first one on the result of the unchecked run, or that result. -/
inductive Screened (routine : String) (before : List Check) (after : β → List Check)
    (unchecked : Except Failure β) : Except Failure β → Prop
  | argument {check : Check} (h : FirstFailing before check) :
      Screened routine before after unchecked (.error (.contract routine check.statement))
  | result {value : β} {check : Check} (hbefore : verify routine before = .ok ())
      (hvalue : unchecked = .ok value) (h : FirstFailing (after value) check) :
      Screened routine before after unchecked (.error (.contract routine check.statement))
  | value {value : β} (hbefore : verify routine before = .ok ()) (hvalue : unchecked = .ok value)
      (hafter : verify routine (after value) = .ok ()) :
      Screened routine before after unchecked (.ok value)

theorem Screened.eq_of_firstFailing {before : List Check} {after : β → List Check}
    {unchecked checked : Except Failure β} (h : Screened routine before after unchecked checked)
    {check : Check} (hfirst : FirstFailing before check) :
    checked = .error (.contract routine check.statement) := by
  have hverify : verify routine before = .error (.contract routine check.statement) :=
    verify_of_firstFailing hfirst
  cases h with
  | argument h =>
      rw [verify_of_firstFailing h] at hverify
      rw [Except.error.inj hverify]
  | result hbefore =>
      rw [hbefore] at hverify
      contradiction
  | value hbefore =>
      rw [hbefore] at hverify
      contradiction

/-- Conditions are screened when they can be tried and, where those on the arguments hold, the body
returns a value whose conditions can be tried. -/
theorem screened_guarded {before : List Check} {body : Outcome α β} {after : β → List Check}
    (hbefore : Triable before)
    (hbody : verify routine before = .ok () → ∃ value, body.result = .ok value ∧
      Triable (after value)) :
    Screened routine before after (guarded false routine before body after).result
      (guarded true routine before body after).result := by
  rw [guarded_false]
  rcases hbefore.verify_or routine with hverify | ⟨check, hcheck⟩
  · obtain ⟨value, hvalue, hafter⟩ := hbody hverify
    rw [guarded_true_of_verify hverify]
    rcases hafter.verify_or routine with hkept | ⟨check, hcheck⟩
    · simp only [hvalue, hkept, bind, Except.bind, pure, Except.pure]
      exact .value hverify rfl hkept
    · simp only [hvalue, verify_of_firstFailing hcheck, bind, Except.bind]
      exact .result hverify rfl hcheck
  · rw [guarded_true_of_error (verify_of_firstFailing hcheck)]
    exact .argument hcheck

end InterpolationGeometry
