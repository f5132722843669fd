import TrialControl.Power

/-!
# Binary floating point

Numbers of 64 bits in binary floating point, described by what they stand for: a mantissa below
`2 ^ 53` times a power of two. Rounding is to nearest, a tie going to the even mantissa, and is done
on exact fractions of natural numbers.
-/

namespace TrialControl

/-- A finite value `mantissa * 2 ^ exponent`. The leading bit of the mantissa is set unless the
exponent is the least one, so every value has one description. -/
structure Dyadic where
  negative : Bool
  mantissa : Nat
  exponent : Int
  canonical : mantissa < 9_007_199_254_740_992 ∧ -1074 ≤ exponent ∧ exponent ≤ 971 ∧
    (4_503_599_627_370_496 ≤ mantissa ∨ exponent = -1074)
deriving DecidableEq

def Dyadic.zero (negative : Bool) : Dyadic := ⟨negative, 0, -1074, by decide⟩

inductive Binary64 where
  | nan
  | infinite (negative : Bool)
  | finite (value : Dyadic)
deriving DecidableEq

/-- The quotient of two naturals rounded to nearest, a tie going to the even neighbour. -/
def roundHalfEven (num den : Nat) : Nat :=
  let q := num / den
  match compare (2 * (num % den)) den with
  | .lt => q
  | .gt => q + 1
  | .eq => if q % 2 = 0 then q else q + 1

/-- The greatest `l` with `2 ^ l ≤ num / den`, for positive arguments. -/
def floorLog2 (num den : Nat) : Int :=
  let l : Int := (num.log2 : Int) - den.log2
  if den * twoTo l.toNat ≤ num * twoTo (-l).toNat then l else l - 1

namespace Binary64

def zero (negative : Bool) : Binary64 := .finite (.zero negative)

instance : Inhabited Binary64 := ⟨zero false⟩

def isFinite : Binary64 → Bool
  | .finite _ => true
  | _ => false

def isZero : Binary64 → Bool
  | .finite x => x.mantissa == 0
  | _ => false

/-- The value of a mantissa and an exponent, infinite when it lies beyond the finite range. -/
def pack (negative : Bool) (mantissa : Nat) (exponent : Int) : Binary64 :=
  if h : _ then .finite ⟨negative, mantissa, exponent, h⟩ else .infinite negative

def ofRatio (negative : Bool) (num den : Nat) : Binary64 :=
  if num = 0 then zero negative
  else
    let exponent := max (-1074) (floorLog2 num den - 52)
    let mantissa := roundHalfEven (num * twoTo (-exponent).toNat) (den * twoTo exponent.toNat)
    if mantissa = 9_007_199_254_740_992 then pack negative 4_503_599_627_370_496 (exponent + 1)
    else pack negative mantissa exponent

/-- Digits in base ten read as an integer times a power of ten, rounded once. -/
def ofDecimal (negative : Bool) (digits : Nat) (exponent : Int) : Binary64 :=
  let size : Int := (Nat.toDigits 10 digits).length + exponent
  if digits = 0 ∨ size < -400 then zero negative
  else if 400 < size then .infinite negative
  else ofRatio negative (digits * tenTo exponent.toNat) (tenTo (-exponent).toNat)

def ofInt (i : Int) : Binary64 := ofRatio (i < 0) i.natAbs 1

end Binary64

namespace Dyadic

def mul (x y : Dyadic) : Binary64 :=
  let e := x.exponent + y.exponent
  .ofRatio (x.negative != y.negative) (x.mantissa * y.mantissa * twoTo e.toNat) (twoTo (-e).toNat)

/-- The rounded quotient by a value other than zero. -/
def div (x y : Dyadic) : Binary64 :=
  let e := x.exponent - y.exponent
  .ofRatio (x.negative != y.negative) (x.mantissa * twoTo e.toNat) (y.mantissa * twoTo (-e).toNat)

end Dyadic

end TrialControl
