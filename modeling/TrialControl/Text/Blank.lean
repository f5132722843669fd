/-!
# Blanks

Blanks are the characters of the Unicode property White_Space, twenty-five code points. `trim`
removes them from both ends of a text.
-/

namespace TrialControl.Text

def isBlank (c : Char) : Bool :=
  let n := c.toNat
  (0x09 ≤ n && n ≤ 0x0d) || n == 0x20 || n == 0x85 || n == 0xa0 || n == 0x1680 ||
  (0x2000 ≤ n && n ≤ 0x200a) || n == 0x2028 || n == 0x2029 || n == 0x202f || n == 0x205f || n == 0x3000

def dropBlanks (cs : List Char) : List Char := cs.dropWhile isBlank

def trim (s : String) : String :=
  String.ofList (dropBlanks (dropBlanks s.toList).reverse).reverse

end TrialControl.Text
