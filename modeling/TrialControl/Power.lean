/-!
# Powers

Powers of the bases in which numbers are held and written.
-/

namespace TrialControl

def twoTo (n : Nat) : Nat := Nat.pow 2 n

def fiveTo (n : Nat) : Nat := Nat.pow 5 n

def tenTo (n : Nat) : Nat := Nat.pow 10 n

end TrialControl
