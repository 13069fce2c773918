import InterpolationGeometry.Tensor.Axis

/-!
# Selecting a place

The place of the largest or smallest valid entry, the lowest place when several entries tie.  A
place is valid when its entry is a number and the mask, if there is one, is true there.  Main
statements: there is no selected place exactly when no place is offered (`best?_eq_none_iff`),
nothing that is offered beats the selected place (`not_beats_of_best?`), and the selected place
beats all that come before it (`beats_of_best?_of_lt`).
-/

namespace InterpolationGeometry

namespace Selection

variable {α : Type}

/-- The first of some places whose value no value at a later one beats, and which beats all values
at earlier ones. -/
def best? (beats : α → α → Bool) (value : Nat → α) : List Nat → Option Nat
  | [] => none
  | i :: rest =>
      match best? beats value rest with
      | none => some i
      | some j => if beats (value j) (value i) then some j else some i

@[simp] theorem best?_nil (beats : α → α → Bool) (value : Nat → α) :
    best? beats value [] = none := rfl

theorem best?_cons (beats : α → α → Bool) (value : Nat → α) (i : Nat) (rest : List Nat) :
    best? beats value (i :: rest) =
      match best? beats value rest with
      | none => some i
      | some j => if beats (value j) (value i) then some j else some i := rfl

theorem best?_eq_none_iff {beats : α → α → Bool} {value : Nat → α} {places : List Nat} :
    best? beats value places = none ↔ places = [] := by
  cases places with
  | nil => simp
  | cons i rest =>
      rw [best?_cons]
      split
      · simp
      · split <;> simp

theorem mem_of_best? {beats : α → α → Bool} {value : Nat → α} {places : List Nat} {j : Nat}
    (h : best? beats value places = some j) : j ∈ places := by
  induction places generalizing j with
  | nil => simp at h
  | cons i rest ih =>
      rw [best?_cons] at h
      split at h
      · simp_all
      · rename_i k hk
        split at h
        · have := ih hk
          simp_all
        · simp_all

/-- A selection depends only on which of the values offered beat each other. -/
theorem best?_congr_beats {beats beats' : α → α → Bool} {value value' : Nat → α}
    {places : List Nat}
    (h : ∀ i ∈ places, ∀ k ∈ places,
      beats (value i) (value k) = beats' (value' i) (value' k)) :
    best? beats value places = best? beats' value' places := by
  induction places with
  | nil => rfl
  | cons i rest ih =>
      have hrest := ih fun k hk l hl =>
        h k (List.mem_cons_of_mem i hk) l (List.mem_cons_of_mem i hl)
      rw [best?_cons, best?_cons, hrest]
      split
      · rfl
      · rename_i j hj
        rw [h j (List.mem_cons_of_mem i (mem_of_best? hj)) i List.mem_cons_self]

theorem best?_congr {beats : α → α → Bool} {value value' : Nat → α} {places : List Nat}
    (h : ∀ i ∈ places, value i = value' i) :
    best? beats value places = best? beats value' places :=
  best?_congr_beats fun i hi k hk => by rw [h i hi, h k hk]

section Order

variable {beats : α → α → Bool} {value : Nat → α} {places : List Nat} {j : Nat}

/-- Nothing that was offered beats what is selected, provided that beating is a strict weak order
on the values offered. -/
theorem not_beats_of_best?
    (irrefl : ∀ i ∈ places, beats (value i) (value i) = false)
    (asymm : ∀ i ∈ places, ∀ k ∈ places,
      beats (value i) (value k) = true → beats (value k) (value i) = false)
    (weak : ∀ i ∈ places, ∀ k ∈ places, ∀ l ∈ places,
      beats (value i) (value l) = true →
        beats (value i) (value k) = true ∨ beats (value k) (value l) = true)
    (h : best? beats value places = some j) :
    ∀ k ∈ places, beats (value k) (value j) = false := by
  induction places generalizing j with
  | nil => simp at h
  | cons i rest ih =>
      have hi : i ∈ i :: rest := List.mem_cons_self
      have hrest : ∀ {k}, k ∈ rest → k ∈ i :: rest := fun hk => List.mem_cons_of_mem i hk
      have ih' := fun {m} => ih (fun k hk => irrefl k (hrest hk))
        (fun k hk l hl => asymm k (hrest hk) l (hrest hl))
        (fun k hk l hl m hm => weak k (hrest hk) l (hrest hl) m (hrest hm)) (j := m)
      rw [best?_cons] at h
      cases hbest : best? beats value rest with
      | none =>
          have hempty := best?_eq_none_iff.1 hbest
          rw [hbest] at h
          simp only [Option.some.injEq] at h
          subst h
          intro k hk
          have hki : k = i := by simpa [hempty] using hk
          subst hki
          exact irrefl k hi
      | some m =>
          have hm := mem_of_best? hbest
          have hlost := ih' hbest
          rw [hbest] at h
          simp only at h
          split at h
          · rename_i hbeats
            simp only [Option.some.injEq] at h
            subst h
            intro k hk
            rcases List.mem_cons.1 hk with rfl | hk
            · exact asymm m (hrest hm) k hi hbeats
            · exact hlost k hk
          · rename_i hkeeps
            simp only [Option.some.injEq] at h
            subst h
            intro k hk
            rcases List.mem_cons.1 hk with rfl | hk
            · exact irrefl k hi
            · cases hki : beats (value k) (value i) with
              | false => rfl
              | true =>
                  rcases weak k (hrest hk) m (hrest hm) i hi hki with hkm | hmi
                  · rw [hlost k hk] at hkm
                    contradiction
                  · exact absurd hmi hkeeps

theorem beats_of_best?_of_lt (sorted : places.Pairwise (· < ·))
    (asymm : ∀ i ∈ places, ∀ k ∈ places,
      beats (value i) (value k) = true → beats (value k) (value i) = false)
    (h : best? beats value places = some j) :
    ∀ k ∈ places, k < j → beats (value j) (value k) = true := by
  induction places generalizing j with
  | nil => simp at h
  | cons i rest ih =>
      obtain ⟨hfirst, hsorted⟩ := List.pairwise_cons.1 sorted
      have ih' := fun {m} => ih hsorted (fun k hk l hl =>
        asymm k (List.mem_cons_of_mem i hk) l (List.mem_cons_of_mem i hl)) (j := m)
      rw [best?_cons] at h
      cases hbest : best? beats value rest with
      | none =>
          have hempty := best?_eq_none_iff.1 hbest
          rw [hbest] at h
          simp only [Option.some.injEq] at h
          subst h
          intro k hk hlt
          have hki : k = i := by simpa [hempty] using hk
          omega
      | some m =>
          rw [hbest] at h
          simp only at h
          split at h
          · rename_i hbeats
            simp only [Option.some.injEq] at h
            subst h
            intro k hk hlt
            rcases List.mem_cons.1 hk with rfl | hk
            · exact hbeats
            · exact ih' hbest k hk hlt
          · simp only [Option.some.injEq] at h
            subst h
            intro k hk hlt
            rcases List.mem_cons.1 hk with rfl | hk
            · omega
            · have := hfirst k hk
              omega

end Order

/-- A mask over `n` places; a single truth value is repeated. -/
def maskOver (n : Nat) (mask : List Bool) : Except Failure (List Bool) :=
  if mask.length = n then .ok mask
  else if mask.length = 1 then .ok (List.replicate n (mask.getD 0 false))
  else .error .shapeMismatch

variable [Scalar α]

def validPlaces (t : Tensor α) (mask : Option (Tensor Bool)) : Except Failure (List Nat) := do
  let numbers := (List.range t.size).filter fun k => !Scalar.isNaN (t.entries.getD k default)
  match mask with
  | none => return numbers
  | some mask =>
      let allowed ← maskOver t.size mask.toList
      return numbers.filter fun k => allowed.getD k false

/-- The lowest place of the largest valid entry, in row-major order. -/
def argmax? (t : Tensor α) (mask : Option (Tensor Bool)) : Except Failure (Option Nat) := do
  return best? (fun y x => decide (x < y)) (fun k => t.entries.getD k default)
    (← validPlaces t mask)

def argmin? (t : Tensor α) (mask : Option (Tensor Bool)) : Except Failure (Option Nat) := do
  return best? (fun y x => decide (y < x)) (fun k => t.entries.getD k default)
    (← validPlaces t mask)

theorem maskOver_of_length {n : Nat} {mask : List Bool} (h : mask.length = n) :
    maskOver n mask = .ok mask := by simp [maskOver, h]

theorem mem_validPlaces_none_iff {t : Tensor α} {places : List Nat} {k : Nat}
    (h : validPlaces t none = .ok places) :
    k ∈ places ↔ k < t.size ∧ Scalar.isNaN (t.entries.getD k default) = false := by
  have : places =
      (List.range t.size).filter fun k => !Scalar.isNaN (t.entries.getD k default) := by
    simpa [validPlaces, pure, Except.pure, eq_comm] using h
  simp [this]

theorem pairwise_validPlaces {t : Tensor α} {mask : Option (Tensor Bool)} {places : List Nat}
    (h : validPlaces t mask = .ok places) : places.Pairwise (· < ·) := by
  have hnumbers : ((List.range t.size).filter fun k =>
      !Scalar.isNaN (t.entries.getD k default)).Pairwise (· < ·) :=
    List.pairwise_lt_range.filter _
  cases mask with
  | none =>
      simp only [validPlaces, pure, Except.pure, Except.ok.injEq] at h
      rw [← h]
      exact hnumbers
  | some mask =>
      cases hmask : maskOver t.size mask.toList with
      | error cause => simp [validPlaces, hmask, bind, Except.bind] at h
      | ok allowed =>
          simp only [validPlaces, hmask, bind, Except.bind, pure, Except.pure,
            Except.ok.injEq] at h
          rw [← h]
          exact hnumbers.filter _

theorem validPlaces_vector (n : Nat) (f : Nat → α) :
    validPlaces (.vector n f) none =
      .ok ((List.range n).filter fun k => !Scalar.isNaN (f k)) := by
  simp only [validPlaces, pure, Except.pure, Tensor.size_vector]
  congr 1
  refine List.filter_congr fun k hk => ?_
  rw [Tensor.entries_getD_vector f (List.mem_range.1 hk)]

theorem argmax?_vector (n : Nat) (f : Nat → α) :
    argmax? (.vector n f) none =
      .ok (best? (fun y x => decide (x < y)) f
        ((List.range n).filter fun k => !Scalar.isNaN (f k))) := by
  simp only [argmax?, validPlaces_vector, bind, Except.bind, pure, Except.pure]
  congr 1
  refine best?_congr fun k hk => ?_
  have hlt : k < n := by simp_all
  exact Tensor.entries_getD_vector f hlt

theorem argmin?_vector (n : Nat) (f : Nat → α) :
    argmin? (.vector n f) none =
      .ok (best? (fun y x => decide (y < x)) f
        ((List.range n).filter fun k => !Scalar.isNaN (f k))) := by
  simp only [argmin?, validPlaces_vector, bind, Except.bind, pure, Except.pure]
  congr 1
  refine best?_congr fun k hk => ?_
  have hlt : k < n := by simp_all
  exact Tensor.entries_getD_vector f hlt

end Selection

end InterpolationGeometry
