import TrialControl.Binary64.Text
import TrialControl.Json.Document

/-!
# Numbers in JSON

A number without fraction and exponent is an integer where 64 bits hold it, with or without sign.
Every other number is floating point: the leading digits that fit into 64 bits, rounded, times or by
a rounded power of ten. A result beyond the finite range is void.
-/

namespace TrialControl.Json

open Text (spanDigits digitsValue)

/-- Digits taken while 64 bits hold their value, and the number of digits left over. -/
def significand (start : Nat) (digits : List Char) : Nat × Nat :=
  digits.foldl (fun (value, dropped) c =>
    let next := 10 * value + digitsValue [c]
    if dropped = 0 ∧ next < UInt64.size then (next, 0) else (value, dropped + 1)) (start, 0)

def powerOfTen (n : Nat) : Dyadic :=
  match Binary64.ofDecimal false 1 n with
  | .finite x => x
  | _ => .zero false

/-- A value times `10 ^ e`. Exponents below -308 are applied in steps. -/
def scaled : Nat → Dyadic → Int → Option Binary64
  | 0, x, _ => some (.finite x)
  | fuel + 1, x, e =>
    if x.mantissa = 0 then some (.finite x)
    else if 308 < e then none
    else if 0 ≤ e then
      let y := x.mul (powerOfTen e.toNat)
      if y.isFinite then some y else none
    else if -308 ≤ e then some (x.div (powerOfTen (-e).toNat))
    else
      match x.div (powerOfTen 308) with
      | .finite y => scaled fuel y (e + 308)
      | _ => none

def readFloat (negative : Bool) (whole fraction : List Char) (exponent : Int) : Document :=
  let (value, dropped) := significand 0 whole
  let (value, unused) := significand value fraction
  let e := exponent + dropped - (fraction.length - unused : Nat)
  match Binary64.ofRatio negative value 1 with
  | .finite x => (scaled 4 x e).elim .void .float
  | _ => .void

def readExponent : List Char → Option (Bool × Int)
  | [] => some (false, 0)
  | cs => (Binary64.readExponent cs).map fun e => (true, e)

def readNumber (cs : List Char) : Option Document := do
  let (negative, cs) := match cs with
    | '-' :: cs => (true, cs)
    | cs => (false, cs)
  let (whole, rest) := spanDigits cs
  if whole.isEmpty ∨ (whole.head? = some '0' ∧ whole.length ≠ 1) then failure
  let (fraction, rest) ← match rest with
    | '.' :: rest => let (ds, rest) := spanDigits rest; if ds.isEmpty then none else some (ds, rest)
    | rest => some ([], rest)
  let (marked, exponent) ← readExponent rest
  let value : Int := if negative then -(digitsValue whole : Int) else digitsValue whole
  if fraction.isEmpty ∧ !marked ∧ -9_223_372_036_854_775_808 ≤ value ∧ value < UInt64.size ∧
      ¬ (negative ∧ value = 0) then
    some (.integer value)
  else some (readFloat negative whole fraction exponent)

/-! ## Writing -/

/-- The text of a finite number: with a point where the leading digit stands between `10 ^ (-5)` and
`10 ^ 15`, with an exponent elsewhere. -/
def floatChars (x : Dyadic) : List Char :=
  let sign := Binary64.signChars x.negative
  if x.mantissa = 0 then sign ++ ['0', '.', '0']
  else
    let d := x.shortest
    let ds := d.digitChars
    let size : Int := ds.length + d.exponent
    if 0 ≤ d.exponent ∧ size ≤ 16 then sign ++ d.positional ++ ['.', '0']
    else if -5 < size ∧ size ≤ 16 then sign ++ d.positional
    else
      let mantissa := match ds with
        | [] => []
        | [c] => [c]
        | c :: cs => c :: '.' :: cs
      sign ++ mantissa ++ 'e' :: (toString (size - 1)).toList

end TrialControl.Json
