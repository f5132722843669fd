import TrialControl.Binary64.Shortest
import TrialControl.Text.Digits

/-!
# Texts of binary floating point numbers

A number is written positionally with the fewest digits that read back, without exponent, without a
point when it is an integer, zero with its sign. Reading takes an optional sign, digits with an
optional point and at least one digit, an optional exponent, or the words for infinity and for no
number, and rounds the exact decimal once.
-/

namespace TrialControl

namespace Decimal

def digitChars (d : Decimal) : List Char := Text.decimal d.digits

/-- The digits with zeros up to the point, and the point where digits follow it. -/
def positional (d : Decimal) : List Char :=
  let ds := d.digitChars
  if 0 ≤ d.exponent then ds ++ List.replicate d.exponent.toNat '0'
  else
    let whole := (ds.length : Int) + d.exponent
    if 0 < whole then ds.take whole.toNat ++ '.' :: ds.drop whole.toNat
    else '0' :: '.' :: (List.replicate (-whole).toNat '0' ++ ds)

end Decimal

namespace Binary64

def signChars (negative : Bool) : List Char := if negative then ['-'] else []

def text : Binary64 → String
  | .nan => "NaN"
  | .infinite negative => String.ofList (signChars negative ++ ['i', 'n', 'f'])
  | .finite x =>
    let magnitude := if x.mantissa = 0 then ['0'] else x.shortest.positional
    String.ofList (signChars x.negative ++ magnitude)

/-! ## Reading -/

open Text (digitsValue spanDigits)

/-- An optional sign and what follows it; the sign is true when negative. -/
def splitSign : List Char → Bool × List Char
  | '-' :: cs => (true, cs)
  | '+' :: cs => (false, cs)
  | cs => (false, cs)

/-- The exponent at the end of a number: none at all, or a mark, an optional sign and digits. -/
def readExponent : List Char → Option Int
  | [] => some 0
  | c :: cs =>
    if c = 'e' ∨ c = 'E' then
      let (negative, cs) := splitSign cs
      let (digits, rest) := spanDigits cs
      if digits.isEmpty ∨ !rest.isEmpty then none
      else some (if negative then -(digitsValue digits : Int) else digitsValue digits)
    else none

def readMagnitude (negative : Bool) (cs : List Char) : Option Binary64 :=
  let (whole, rest) := spanDigits cs
  let (fraction, rest) := match rest with
    | '.' :: rest => spanDigits rest
    | rest => ([], rest)
  if whole.isEmpty ∧ fraction.isEmpty then
    let word := cs.map Char.toLower
    if word = "inf".toList ∨ word = "infinity".toList then some (.infinite negative)
    else if word = "nan".toList then some .nan
    else none
  else (readExponent rest).map fun e => ofDecimal negative (digitsValue (whole ++ fraction)) (e - fraction.length)

def ofText? (s : String) : Option Binary64 :=
  let (negative, cs) := splitSign s.toList
  readMagnitude negative cs

end Binary64

end TrialControl
