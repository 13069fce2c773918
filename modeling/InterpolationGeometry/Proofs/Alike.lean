import InterpolationGeometry.Outcome

/-!
# Two runs that end alike

Two computations end alike when both come to values that stand in a given relation, or both fail of
the same cause.  Chains whose steps end alike end alike, so two runs of a routine are compared step
by step.  What they report on the way is left out of the comparison.
-/

namespace InterpolationGeometry

variable {α β β' γ γ' : Type} {R : β → β' → Prop} {S : γ → γ' → Prop}

theorem related_ite {p p' : Prop} [Decidable p] [Decidable p'] {x y : β} {x' y' : β'}
    (hp : p' ↔ p) (hx : R x x') (hy : R y y') :
    R (if p then x else y) (if p' then x' else y') := by
  by_cases h : p
  · rwa [if_pos h, if_pos (hp.2 h)]
  · rwa [if_neg h, if_neg fun h' => h (hp.1 h')]

/-- Related values on both sides, or one failure. -/
inductive Alike (R : β → β' → Prop) : Except Failure β → Except Failure β' → Prop
  | ok {value : β} {value' : β'} (h : R value value') : Alike R (.ok value) (.ok value')
  | error (cause : Failure) : Alike R (.error cause) (.error cause)

namespace Alike

theorem refl {R : β → β → Prop} (hR : ∀ value, R value value) (x : Except Failure β) :
    Alike R x x := by
  cases x with
  | ok value => exact .ok (hR value)
  | error cause => exact .error cause

theorem mono {x : Except Failure β} {x' : Except Failure β'} {R' : β → β' → Prop}
    (h : Alike R x x') (hR : ∀ value value', R value value' → R' value value') : Alike R' x x' := by
  cases h with
  | ok h => exact .ok (hR _ _ h)
  | error cause => exact .error cause

theorem bind {x : Except Failure β} {x' : Except Failure β'} {f : β → Except Failure γ}
    {f' : β' → Except Failure γ'} (h : Alike R x x')
    (hf : ∀ value value', R value value' → Alike S (f value) (f' value')) :
    Alike S (x.bind f) (x'.bind f') := by
  cases h with
  | ok h => exact hf _ _ h
  | error cause => exact .error cause

theorem exists_of_ok {x : Except Failure β} {x' : Except Failure β'} {value : β}
    (h : Alike R x x') (hx : x = .ok value) : ∃ value', x' = .ok value' ∧ R value value' := by
  cases h with
  | ok h =>
      obtain rfl := Except.ok.inj hx
      exact ⟨_, rfl, h⟩
  | error cause => contradiction

end Alike

namespace Outcome

theorem result_bind (x : Outcome α β) (f : β → Outcome α γ) :
    (x >>= f).result = x.result.bind fun value => (f value).result := by
  cases hx : x.result with
  | error cause =>
      rw [bind_of_error hx]
      rfl
  | ok value =>
      rw [bind_of_ok hx]
      rfl

def Alike (R : β → β' → Prop) (x : Outcome α β) (x' : Outcome α β') : Prop :=
  InterpolationGeometry.Alike R x.result x'.result

theorem alike_pure {value : β} {value' : β'} (h : R value value') :
    Alike R (pure value : Outcome α β) (pure value' : Outcome α β') :=
  .ok h

theorem Alike.bind {x : Outcome α β} {x' : Outcome α β'} {f : β → Outcome α γ}
    {f' : β' → Outcome α γ'} (h : Alike R x x')
    (hf : ∀ value value', R value value' → Alike S (f value) (f' value')) :
    Alike S (x >>= f) (x' >>= f') := by
  rw [Alike, result_bind, result_bind]
  exact InterpolationGeometry.Alike.bind h hf

theorem alike_liftM_bind {x : Except Failure β} {x' : Except Failure β'} {f : β → Outcome α γ}
    {f' : β' → Outcome α γ'} (h : InterpolationGeometry.Alike R x x')
    (hf : ∀ value value', R value value' → Alike S (f value) (f' value')) :
    Alike S ((liftM x : Outcome α β) >>= f) ((liftM x' : Outcome α β') >>= f') :=
  Alike.bind h hf

theorem Alike.report {event event' : Event α} {f : Unit → Outcome α γ} {f' : Unit → Outcome α γ'}
    (h : Alike S (f ()) (f' ())) :
    Alike S (Outcome.report event >>= f) (Outcome.report event' >>= f') := by
  rw [report_bind, report_bind]
  exact h

end Outcome

end InterpolationGeometry
