import InterpolationGeometry.Event
import InterpolationGeometry.Failure

/-!
# Outcomes

What running a routine comes to: the events it reported, in order, and then a value or a failure.
Events that were reported before a failure are kept.  Outcomes are a lawful monad, and computations
that may fail without reporting are part of it.
-/

namespace InterpolationGeometry

/-- Reported events and then a value or a failure. -/
structure Outcome (α β : Type) where
  log : List (Event α)
  result : Except Failure β

namespace Outcome

variable {α β γ δ : Type}

def andThen (x : Outcome α β) (f : β → Outcome α γ) : Outcome α γ :=
  match x.result with
  | .ok value => { log := x.log ++ (f value).log, result := (f value).result }
  | .error cause => { log := x.log, result := .error cause }

instance : Monad (Outcome α) where
  pure value := { log := [], result := .ok value }
  bind := andThen

instance : MonadLift (Except Failure) (Outcome α) where
  monadLift result := { log := [], result := result }

def report (event : Event α) : Outcome α Unit := { log := [event], result := .ok () }

def fail (cause : Failure) : Outcome α β := { log := [], result := .error cause }

@[simp] theorem log_pure (value : β) : (pure value : Outcome α β).log = [] := rfl

@[simp] theorem result_pure (value : β) : (pure value : Outcome α β).result = .ok value := rfl

@[simp] theorem log_liftM (result : Except Failure β) :
    (liftM result : Outcome α β).log = [] := rfl

@[simp] theorem result_liftM (result : Except Failure β) :
    (liftM result : Outcome α β).result = result := rfl

@[simp] theorem log_report (event : Event α) : (report event).log = [event] := rfl

@[simp] theorem result_report (event : Event α) : (report event).result = .ok () := rfl

theorem bind_of_ok {x : Outcome α β} {value : β} (h : x.result = .ok value)
    (f : β → Outcome α γ) :
    x >>= f = { log := x.log ++ (f value).log, result := (f value).result } := by
  show andThen x f = _
  simp [andThen, h]

theorem bind_of_error {x : Outcome α β} {cause : Failure} (h : x.result = .error cause)
    (f : β → Outcome α γ) : x >>= f = { log := x.log, result := .error cause } := by
  show andThen x f = _
  simp [andThen, h]

@[simp] theorem liftM_ok_bind (value : β) (f : β → Outcome α γ) :
    (liftM (Except.ok value : Except Failure β) : Outcome α β) >>= f = f value := by
  show andThen _ _ = _
  rfl

@[simp] theorem liftM_error_bind (cause : Failure) (f : β → Outcome α γ) :
    (liftM (Except.error cause : Except Failure β) : Outcome α β) >>= f = fail cause := by
  show andThen _ _ = _
  rfl

@[simp] theorem report_bind (event : Event α) (f : Unit → Outcome α γ) :
    report event >>= f = { log := event :: (f ()).log, result := (f ()).result } := by
  show andThen _ _ = _
  rfl

instance : LawfulMonad (Outcome α) :=
  LawfulMonad.mk' (Outcome α)
    (fun x => by
      show andThen x _ = x
      cases h : x.result with
      | ok value => cases x; simp_all [andThen]
      | error cause => cases x; simp_all [andThen])
    (fun value f => by
      show andThen _ f = f value
      simp [andThen, pure])
    (fun x f g => by
      show andThen (andThen x f) g = andThen x fun value => andThen (f value) g
      cases hx : x.result with
      | error cause => simp [andThen, hx]
      | ok value =>
          cases hf : (f value).result with
          | error cause => simp [andThen, hx, hf]
          | ok value' => simp [andThen, hx, hf])

end Outcome

end InterpolationGeometry
