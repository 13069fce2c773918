import InterpolationGeometry.Contract

/-!
# What an outcome returns

A property of the value of an outcome, whatever was reported on the way to it.  That there is a value
is part of it, so that a chain of steps each of which returns something never fails.  A checked
routine whose body returns what its conditions ask for fails with a condition on its arguments only.
-/

namespace InterpolationGeometry

namespace Outcome

variable {α β γ : Type} {P : β → Prop} {Q : γ → Prop}

/-- There is a value, and it has the property. -/
def Returns (x : Outcome α β) (P : β → Prop) : Prop := ∃ value, x.result = .ok value ∧ P value

theorem returns_pure {value : β} (h : P value) : Returns (pure value : Outcome α β) P :=
  ⟨value, rfl, h⟩

theorem Returns.mono {x : Outcome α β} {P' : β → Prop} (h : x.Returns P)
    (hP : ∀ value, P value → P' value) : x.Returns P' := by
  obtain ⟨value, hvalue, hvalueP⟩ := h
  exact ⟨value, hvalue, hP value hvalueP⟩

theorem Returns.bind {x : Outcome α β} {f : β → Outcome α γ} (h : x.Returns P)
    (hf : ∀ value, P value → (f value).Returns Q) : (x >>= f).Returns Q := by
  obtain ⟨value, hvalue, hP⟩ := h
  obtain ⟨value', hvalue', hQ⟩ := hf value hP
  refine ⟨value', ?_, hQ⟩
  rw [bind_of_ok hvalue]
  exact hvalue'

theorem exists_of_bind_ok {x : Outcome α β} {f : β → Outcome α γ} {value' : γ}
    (h : (x >>= f).result = .ok value') :
    ∃ value, x.result = .ok value ∧ (f value).result = .ok value' := by
  cases hx : x.result with
  | error cause =>
      rw [bind_of_error hx] at h
      contradiction
  | ok value =>
      rw [bind_of_ok hx] at h
      exact ⟨value, rfl, h⟩

theorem Returns.report {event : Event α} {f : Unit → Outcome α γ} (h : (f ()).Returns Q) :
    (Outcome.report event >>= f).Returns Q := by
  obtain ⟨value, hvalue, hQ⟩ := h
  refine ⟨value, ?_, hQ⟩
  rw [report_bind]
  exact hvalue

end Outcome

section Guarded

variable {α β : Type} {P : β → Prop} {checked : Bool} {routine : String} {before : List Check}
  {body : Outcome α β} {after : β → List Check}
  (h : body.Returns P) (hafter : ∀ value, P value → verify routine (after value) = .ok ())

include h hafter

theorem guarded_returns (hbefore : checked = true → verify routine before = .ok ()) :
    (guarded checked routine before body after).Returns P := by
  cases checked with
  | false => rwa [guarded_false]
  | true =>
      obtain ⟨value, hvalue, hP⟩ := h
      refine ⟨value, ?_, hP⟩
      rw [guarded_true_of_verify (hbefore rfl)]
      simp only [hvalue, hafter value hP, bind, Except.bind, pure, Except.pure]

theorem verify_of_guarded_error {cause : Failure}
    (herror : (guarded checked routine before body after).result = .error cause) :
    verify routine before = .error cause := by
  cases hbefore : verify routine before with
  | ok =>
      have hreturns : (guarded checked routine before body after).Returns P :=
        guarded_returns h hafter fun _ => hbefore
      obtain ⟨value, hvalue, -⟩ := hreturns
      rw [hvalue] at herror
      contradiction
  | error cause' =>
      cases checked with
      | false =>
          obtain ⟨value, hvalue, -⟩ := h
          rw [guarded_false, hvalue] at herror
          contradiction
      | true =>
          rw [guarded_true_of_error hbefore] at herror
          rw [Except.error.inj herror]

end Guarded

end InterpolationGeometry
