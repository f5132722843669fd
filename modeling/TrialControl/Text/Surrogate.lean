/-!
# Halves of characters

A code unit of sixteen bits is a character, or one half of a pair that spells a character beyond
`U+FFFF`. A half without the other one spells nothing.
-/

namespace TrialControl.Text

def isFirstHalf (u : Nat) : Bool := 0xd800 ≤ u && u < 0xdc00

def isSecondHalf (u : Nat) : Bool := 0xdc00 ≤ u && u < 0xe000

def joined (first second : Nat) : Char := .ofNat (0x10000 + (first - 0xd800) * 0x400 + (second - 0xdc00))

/-- The characters that units spell, the last unit first, in front of other characters. A unit may
also be a whole character beyond `U+FFFF`. -/
def spelled? : List Nat → List Char → Option (List Char)
  | [], cs => some cs
  | [u], cs => if isFirstHalf u || isSecondHalf u then none else some (.ofNat u :: cs)
  | u :: v :: us, cs =>
    if isSecondHalf u then
      if isFirstHalf v then spelled? us (joined v u :: cs) else none
    else if isFirstHalf u then none
    else spelled? (v :: us) (.ofNat u :: cs)

end TrialControl.Text
