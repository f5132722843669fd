import TrialControl.Binary64.Basic

/-!
# Shortest decimals

The decimal with the fewest digits among those that round to a given value, and of several such
the nearest; of two equally near the greater. Digits are found by exact arithmetic on naturals:
on the grid of each power of ten the two neighbours of the value are tested, coarse grids first.
-/

namespace TrialControl

/-- A decimal `digits * 10 ^ exponent`. -/
structure Decimal where
  digits : Nat
  exponent : Int
deriving DecidableEq, Inhabited

namespace Dyadic

/-- Compares `a * 10 ^ i` with `n * 2 ^ j`. -/
def compareScaled (a : Nat) (i : Int) (n : Nat) (j : Int) : Ordering :=
  compare (a * tenTo i.toNat * twoTo (-j).toNat) (n * twoTo j.toNat * tenTo (-i).toNat)

/-- Whether a decimal lies among the reals that round to the magnitude of `x`: between the midpoints
to the neighbours, the midpoints included when the mantissa is even. Below a power of two the
neighbour is half as far away. -/
def roundsTo (x : Dyadic) (d : Decimal) : Bool :=
  let isPower := x.mantissa = 4_503_599_627_370_496 ∧ -1074 < x.exponent
  let lower := if isPower then 4 * x.mantissa - 1 else 4 * x.mantissa - 2
  let below := compareScaled d.digits d.exponent lower (x.exponent - 2)
  let above := compareScaled d.digits d.exponent (4 * x.mantissa + 2) (x.exponent - 2)
  let ends := x.mantissa % 2 = 0
  (below == .gt || (ends && below == .eq)) && (above == .lt || (ends && above == .eq))

def floorOnGrid (x : Dyadic) (g : Int) : Nat :=
  x.mantissa * twoTo x.exponent.toNat * tenTo (-g).toNat / (twoTo (-x.exponent).toNat * tenTo g.toNat)

/-- The neighbour of the magnitude on the grid of `10 ^ g` that rounds to it, the nearer of two. -/
def onGrid (x : Dyadic) (g : Int) : Option Decimal :=
  let low : Decimal := ⟨x.floorOnGrid g, g⟩
  let high : Decimal := ⟨x.floorOnGrid g + 1, g⟩
  match x.roundsTo low, x.roundsTo high with
  | true, false => some low
  | false, true => some high
  | false, false => none
  | true, true =>
    if compareScaled (2 * low.digits + 1) g (2 * x.mantissa) x.exponent = .gt then some low else some high

/-- The least `k` with a magnitude below `10 ^ k`. No value other than zero is below `10 ^ (-400)`. -/
def decimalSize (x : Dyadic) : Int := (Nat.toDigits 10 (x.floorOnGrid (-400))).length - 400

def exactDecimal (x : Dyadic) : Decimal :=
  ⟨x.mantissa * twoTo x.exponent.toNat * fiveTo (-x.exponent).toNat, min x.exponent 0⟩

end Dyadic

namespace Decimal

/-- Moves trailing zeros of the digits into the exponent, at most `fuel` of them. -/
def stripZeros : Nat → Decimal → Decimal
  | 0, d => d
  | fuel + 1, d =>
    if d.digits ≠ 0 ∧ d.digits % 10 = 0 then stripZeros fuel ⟨d.digits / 10, d.exponent + 1⟩ else d

end Decimal

/-- The shortest decimal that rounds to the magnitude of a value other than zero. -/
def Dyadic.shortest (x : Dyadic) : Decimal :=
  let d := ((List.range 17).findSome? fun n : Nat => x.onGrid (x.decimalSize - 1 - n)).getD x.exactDecimal
  Decimal.stripZeros 400 d

end TrialControl
