import InterpolationGeometry.Decimal.Binary

/-!
# Scientific notation

One digit, a point, a fixed number of digits, and a decimal exponent of at least two digits with
its sign.  The exact value is rounded to that many digits, a half to the even neighbour.  The main
statement is `roundDiv_within_half`: the rounded quotient is at most half a unit away.
-/

namespace InterpolationGeometry

namespace Scientific

/-- The quotient rounded to the nearest natural number, a half to the even one. -/
def roundDiv (num den : Nat) : Nat :=
  let quotient := num / den
  let rest := num % den
  if 2 * rest < den then quotient
  else if den < 2 * rest then quotient + 1
  else quotient + quotient % 2

/-- The rounded quotient is at most half a unit away from the exact one. -/
theorem roundDiv_within_half (num : Nat) {den : Nat} (h : 0 < den) :
    2 * num ≤ 2 * (roundDiv num den * den) + den ∧
      2 * (roundDiv num den * den) ≤ 2 * num + den := by
  have hsplit : num / den * den + num % den = num := Nat.div_add_mod' num den
  have hrest : num % den < den := Nat.mod_lt num h
  have hsucc : (num / den + 1) * den = num / den * den + den := Nat.succ_mul _ _
  simp only [roundDiv]
  split
  · omega
  · split
    · rw [hsucc]
      omega
    · rcases Nat.mod_two_eq_zero_or_one (num / den) with heven | hodd
      · rw [heven, Nat.add_zero]
        omega
      · rw [hodd, hsucc]
        omega

theorem even_roundDiv_of_half {num den : Nat} (h : 2 * (num % den) = den) :
    roundDiv num den % 2 = 0 := by
  simp only [roundDiv, h, Nat.lt_irrefl, if_false]
  omega

def tenTo (k : Nat) : Nat := Nat.pow 10 k

def digitCount (n : Nat) : Nat := (Nat.toDigits 10 n).length

/-- The exponent of the largest power of ten that is not above a positive quotient. -/
def decimalExponent (num den : Nat) : Int :=
  if den ≤ num then digitCount (num / den) - 1
  else -(digitCount ((den - 1) / num) : Int)

def roundScaled (num den : Nat) : Int → Nat
  | .ofNat k => roundDiv (num * tenTo k) den
  | .negSucc k => roundDiv num (den * tenTo (k + 1))

/-- The digits of a quotient as a whole number of `places + 1` digits, and its exponent. -/
def digits (places num den : Nat) : Nat × Int :=
  if num = 0 then (0, 0)
  else
    let exponent := decimalExponent num den
    let rounded := roundScaled num den (places - exponent)
    if rounded < tenTo (places + 1) then (rounded, exponent) else (rounded / 10, exponent + 1)

def padded (width n : Nat) : String :=
  let text := Nat.toDigits 10 n
  String.ofList (List.replicate (width - text.length) '0' ++ text)

/-- A rounded number of `places + 1` digits with its point and its exponent. -/
def compose (places : Nat) (rounded : Nat) (exponent : Int) : String :=
  padded 1 (rounded / tenTo places) ++ "." ++ padded places (rounded % tenTo places) ++ "e" ++
    (if exponent < 0 then "-" else "+") ++ padded 2 exponent.natAbs

/-- A value with the given number of places; zero has no sign. -/
def write (places : Nat) : Binary64 → String
  | .nan => "nan"
  | .infinite negative => if negative then "-inf" else "inf"
  | .finite negative significand exponent =>
      let (num, den) := Binary64.ratio significand exponent
      let (rounded, exponent) := digits places num den
      (if negative && significand != 0 then "-" else "") ++ compose places rounded exponent

def ofFloat (places : Nat) (x : Float) : String := write places (Binary64.ofFloat x)

end Scientific

end InterpolationGeometry
