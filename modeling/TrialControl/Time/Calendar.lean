/-!
# Calendar

Days of the proleptic Gregorian calendar, counted from the first of January 1970. A cycle of four
hundred years has 146097 days; within it years are taken to begin in March, so that the leap day is
the last day of its year.
-/

namespace TrialControl

structure Date where
  year : Int
  month : Nat
  day : Nat
deriving DecidableEq, Inhabited

namespace Date

def isLeap (year : Int) : Bool := year % 4 = 0 ∧ (year % 100 ≠ 0 ∨ year % 400 = 0)

def daysInMonth (year : Int) : Nat → Nat
  | 2 => if isLeap year then 29 else 28
  | 4 | 6 | 9 | 11 => 30
  | _ => 31

def IsValid (d : Date) : Prop :=
  1 ≤ d.month ∧ d.month ≤ 12 ∧ 1 ≤ d.day ∧ d.day ≤ daysInMonth d.year d.month

instance (d : Date) : Decidable d.IsValid := inferInstanceAs (Decidable (_ ∧ _ ∧ _ ∧ _))

/-- Days from the first of January 1970. -/
def toDays (d : Date) : Int :=
  let y := if d.month ≤ 2 then d.year - 1 else d.year
  let m : Int := ((d.month + 9) % 12 : Nat)
  let yearOfCycle := y % 400
  let dayOfYear := (153 * m + 2) / 5 + d.day - 1
  y / 400 * 146097 + (yearOfCycle * 365 + yearOfCycle / 4 - yearOfCycle / 100 + dayOfYear) - 719468

/-- The date of a day counted from the first of January 1970. -/
def ofDays (n : Int) : Date :=
  let z := n + 719468
  let dayOfCycle := z % 146097
  let yearOfCycle := (dayOfCycle - dayOfCycle / 1460 + dayOfCycle / 36524 - dayOfCycle / 146096) / 365
  let dayOfYear := dayOfCycle - (365 * yearOfCycle + yearOfCycle / 4 - yearOfCycle / 100)
  let m := (5 * dayOfYear + 2) / 153
  let day := dayOfYear - (153 * m + 2) / 5 + 1
  let month := if m < 10 then m + 3 else m - 9
  let year := z / 146097 * 400 + yearOfCycle + if month ≤ 2 then 1 else 0
  ⟨year, month.toNat, day.toNat⟩

end Date

end TrialControl
