import TrialControl.Binary64.Text

/-!
# Collected values

A metric has a slot with a number of capture attempts. A failed attempt uses one up, a captured
result closes the slot with the decimal texts of the value and of its deviation.
-/

namespace TrialControl

structure Value where
  name : String
  /-- Empty until captured. -/
  value : String
  deviation : Option String
  attempts : UInt32
deriving DecidableEq, Inhabited

/-- A captured result; the deviation is zero when none was reported. -/
structure Captured where
  value : Binary64
  deviation : Binary64
deriving DecidableEq, Inhabited

def Captured.exactly (value : Binary64) : Captured := ⟨value, .zero false⟩

namespace Value

def budget : UInt32 := 3

def fresh (name : String) : Value := ⟨name, "", none, budget⟩

def isResolved (v : Value) : Bool := v.attempts == 0

def settle (v : Value) (c : Captured) : Value :=
  { v with
    value := c.value.text
    deviation := if c.deviation.isZero then v.deviation else some c.deviation.text
    attempts := 0 }

def spend (v : Value) : Value := { v with attempts := if v.attempts = 0 then 0 else v.attempts - 1 }

/-- The slot of a name in a list of slots, a new one if there is none. -/
def slot (name : String) (vs : List Value) : Value := (vs.find? (·.name == name)).getD (.fresh name)

/-- Changes the slot of a name, appending a new one first if there is none. -/
def update (name : String) (f : Value → Value) : List Value → List Value
  | [] => [f (.fresh name)]
  | v :: vs => if v.name = name then f v :: vs else v :: update name f vs

end Value

end TrialControl
