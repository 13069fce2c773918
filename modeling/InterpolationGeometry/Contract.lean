import InterpolationGeometry.Outcome

/-!
# Contracts

A routine may state conditions on its arguments and on its result.  They are tried in order when
checking is on, and the first that does not hold is the failure.  The main statement,
`guarded_true_of_ok`, is that checking never changes an answer: a checked run that has a value has
the value and the events of the unchecked run.
-/

namespace InterpolationGeometry

/-- A condition, with the words that state it. -/
structure Check where
  statement : String
  holds : Except Failure Bool

namespace Check

def that (condition : Bool) (statement : String) : Check :=
  { statement := statement, holds := .ok condition }

end Check

def require (routine statement : String) (condition : Bool) : Except Failure Unit :=
  if condition then .ok () else .error (.contract routine statement)

/-- All conditions hold; otherwise the first that does not is the failure. -/
def verify (routine : String) : List Check → Except Failure Unit
  | [] => .ok ()
  | check :: rest => do
      require routine check.statement (← check.holds)
      verify routine rest

/-- A routine between its conditions on the arguments and those on the result. -/
def guarded {α β : Type} (checked : Bool) (routine : String) (before : List Check)
    (body : Outcome α β) (after : β → List Check) : Outcome α β := do
  if checked then
    verify routine before
  let value ← body
  if checked then
    verify routine (after value)
  return value

section Lemmas

variable {α β : Type} {routine : String} {before : List Check} {body : Outcome α β}
  {after : β → List Check}

@[simp] theorem require_true (routine statement : String) :
    require routine statement true = .ok () := rfl

@[simp] theorem require_false (routine statement : String) :
    require routine statement false = .error (.contract routine statement) := rfl

@[simp] theorem verify_nil (routine : String) : verify routine [] = .ok () := rfl

theorem verify_eq_ok_iff {checks : List Check} :
    verify routine checks = .ok () ↔ ∀ check ∈ checks, check.holds = .ok true := by
  induction checks with
  | nil => simp
  | cons check rest ih =>
      cases h : check.holds with
      | error cause => simp [verify, h, bind, Except.bind]
      | ok condition =>
          cases condition with
          | false => simp [verify, h, bind, Except.bind]
          | true => simp [verify, h, bind, Except.bind, ih]

@[simp] theorem guarded_false : guarded false routine before body after = body := by
  simp [guarded]

/-- With checking the conditions on the arguments come first. -/
theorem guarded_true_of_error {cause : Failure} (h : verify routine before = .error cause) :
    guarded true routine before body after = { log := [], result := .error cause } := by
  simp [guarded, h, Outcome.fail]

/-- Once the conditions on the arguments hold, the body runs and its value is checked. -/
theorem guarded_true_of_verify (h : verify routine before = .ok ()) :
    guarded true routine before body after =
      { log := body.log
        result := do
          let value ← body.result
          verify routine (after value)
          return value } := by
  simp only [guarded, if_true, h, Outcome.liftM_ok_bind]
  cases hbody : body.result with
  | error cause =>
      rw [Outcome.bind_of_error hbody]
      rfl
  | ok value =>
      rw [Outcome.bind_of_ok hbody]
      cases hafter : verify routine (after value) with
      | error cause =>
          simp only [Outcome.liftM_error_bind, Outcome.fail, List.append_nil]
          simp [bind, Except.bind, hafter]
      | ok =>
          simp only [Outcome.liftM_ok_bind, Outcome.log_pure, Outcome.result_pure,
            List.append_nil]
          simp [bind, Except.bind, pure, Except.pure, hafter]

theorem verify_of_guarded_ok {value : β}
    (h : (guarded true routine before body after).result = .ok value) :
    verify routine before = .ok () ∧ verify routine (after value) = .ok () := by
  cases hverify : verify routine before with
  | error cause => simp [guarded_true_of_error hverify] at h
  | ok =>
      rw [guarded_true_of_verify hverify] at h
      cases hbody : body.result with
      | error cause => simp [hbody, bind, Except.bind] at h
      | ok value' =>
          cases hafter : verify routine (after value') with
          | error cause => simp [hbody, hafter, bind, Except.bind] at h
          | ok =>
              have hvalue : value' = value := by
                simpa [hbody, hafter, bind, Except.bind, pure, Except.pure] using h
              exact ⟨rfl, hvalue ▸ hafter⟩

/-- A routine whose conditions hold where they are checked comes to the value of its body. -/
theorem guarded_eq_pure {checked : Bool} {value : β} (hbody : body = pure value)
    (hbefore : checked = true → verify routine before = .ok ())
    (hafter : checked = true → verify routine (after value) = .ok ()) :
    guarded checked routine before body after = pure value := by
  cases checked with
  | false => rw [guarded_false, hbody]
  | true =>
      rw [guarded_true_of_verify (hbefore rfl), hbody]
      simp only [Outcome.log_pure, Outcome.result_pure, bind, Except.bind, hafter rfl]
      rfl

/-- Checking never changes an answer. -/
theorem guarded_true_of_ok {value : β}
    (h : (guarded true routine before body after).result = .ok value) :
    guarded true routine before body after = body := by
  cases hverify : verify routine before with
  | error cause => simp [guarded_true_of_error hverify] at h
  | ok =>
      rw [guarded_true_of_verify hverify] at h ⊢
      cases hbody : body.result with
      | error cause => simp [hbody, bind, Except.bind] at h
      | ok value' =>
          cases hafter : verify routine (after value') with
          | error cause => simp [hbody, hafter, bind, Except.bind] at h
          | ok =>
              cases body
              simp_all [bind, Except.bind, pure, Except.pure]

theorem result_of_guarded_ok {checked : Bool} {value : β}
    (h : (guarded checked routine before body after).result = .ok value) :
    body.result = .ok value := by
  cases checked with
  | false => rwa [guarded_false] at h
  | true => rwa [guarded_true_of_ok h] at h

end Lemmas

end InterpolationGeometry
