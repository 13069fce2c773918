/-!
# Binary64 values as exact numbers

The bits of a binary64 value hold a sign, an exponent of eleven bits and a fraction of fifty-two.
`Binary64.ofBits` takes them apart: a finite value is a sign, a natural number and a power of two.
-/

namespace InterpolationGeometry

/-- A binary64 value without its encoding. -/
inductive Binary64 where
  | nan
  | infinite (negative : Bool)
  /-- The value `significand * 2 ^ exponent`. -/
  | finite (negative : Bool) (significand : Nat) (exponent : Int)
  deriving DecidableEq, Repr

namespace Binary64

def fractions : Nat := 4503599627370496

def ofBits (bits : Nat) : Binary64 :=
  let negative := (bits >>> 63) % 2 == 1
  let biased := (bits >>> 52) % 2048
  let fraction := bits % fractions
  if biased = 2047 then
    if fraction = 0 then infinite negative else nan
  else if biased = 0 then
    finite negative fraction (-1074)
  else
    finite negative (fractions + fraction) (Int.ofNat biased - 1075)

def ofFloat (x : Float) : Binary64 := ofBits x.toBits.toNat

/-- Numerator and denominator of `significand * 2 ^ exponent`. -/
def ratio (significand : Nat) (exponent : Int) : Nat × Nat :=
  match exponent with
  | .ofNat e => (significand <<< e, 1)
  | .negSucc e => (significand, 1 <<< (e + 1))

def toRat? : Binary64 → Option Rat
  | finite negative significand exponent =>
      let (num, den) := ratio significand exponent
      let value := mkRat num den
      some (if negative then -value else value)
  | _ => none

theorem ratio_den_pos (significand : Nat) (exponent : Int) :
    0 < (ratio significand exponent).2 := by
  cases exponent with
  | ofNat e => exact Nat.one_pos
  | negSucc e =>
      show 0 < 1 <<< (e + 1)
      rw [Nat.shiftLeft_eq, Nat.one_mul]
      exact Nat.two_pow_pos (e + 1)

/-- The significand of a finite value has at most fifty-three bits. -/
theorem significand_lt_of_ofBits {bits : Nat} {negative : Bool} {significand : Nat}
    {exponent : Int} (h : ofBits bits = finite negative significand exponent) :
    significand < 2 * fractions := by
  have hfraction : bits % fractions < fractions := Nat.mod_lt bits (by decide)
  by_cases hlast : (bits >>> 52) % 2048 = 2047
  · by_cases hzero : bits % fractions = 0
    · simp [ofBits, hlast, hzero] at h
    · simp [ofBits, hlast, hzero] at h
  · by_cases hfirst : (bits >>> 52) % 2048 = 0
    · simp [ofBits, hfirst] at h
      omega
    · simp [ofBits, hlast, hfirst] at h
      omega

end Binary64

end InterpolationGeometry
