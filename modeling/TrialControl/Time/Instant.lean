import TrialControl.Time.Duration

/-!
# Instants

An instant is a count of nanoseconds from the first of January 1970, between the first of January of
the year -262143 and the end of the year 262142. Leap seconds are not counted. An instant within one
is marked and has the count of the second in front of it, which is the last of its minute, so that
the order of instants is by seconds, then by the mark, then by the rest. A duration can be added when
it is a span of at most `2 ^ 63 - 1` milliseconds and the sum is an instant.
-/

namespace TrialControl

def Instant.least : Int := -8_334_601_228_800_000_000_000

def Instant.greatest : Int := 8_210_266_876_799_999_999_999

structure Instant where
  nanos : Int
  /-- Whether the instant lies within a leap second. -/
  leap : Bool
  least_le : Instant.least ≤ nanos
  le_greatest : nanos ≤ Instant.greatest
  ends_minute : leap = true → nanos / 1_000_000_000 % 60 = 59
deriving DecidableEq

namespace Instant

instance : Inhabited Instant := ⟨0, false, by decide, by decide, nofun⟩

/-- The instant of a count, within a leap second or not. -/
def ofParts? (nanos : Int) (leap : Bool) : Option Instant :=
  if h : least ≤ nanos ∧ nanos ≤ greatest ∧ (leap = true → nanos / 1_000_000_000 % 60 = 59) then
    some ⟨nanos, leap, h.1, h.2.1, h.2.2⟩
  else none

def ofNanos? (n : Int) : Option Instant := ofParts? n false

/-! ## Order -/

def second (t : Instant) : Int := t.nanos / 1_000_000_000

/-- The place of an instant where every second has room for a leap second behind it. -/
def rank (t : Instant) : Int :=
  t.second * 2_000_000_000 + (if t.leap then 1_000_000_000 else 0) + t.nanos % 1_000_000_000

instance : LT Instant := ⟨fun a b => a.rank < b.rank⟩
instance : LE Instant := ⟨fun a b => a.rank ≤ b.rank⟩
instance (a b : Instant) : Decidable (a < b) := inferInstanceAs (Decidable (a.rank < b.rank))
instance (a b : Instant) : Decidable (a ≤ b) := inferInstanceAs (Decidable (a.rank ≤ b.rank))

/-! ## Spans -/

/-- Nanoseconds of the longest span that can be added to an instant. -/
def longestSpan : Nat := 9_223_372_036_854_775_807_000_000

/-- The instant a duration later, if the span and the sum are representable. A leap second is left
when the sum has another count of seconds. -/
def later? (t : Instant) (d : Duration) : Option Instant :=
  if d.nanos ≤ longestSpan then
    let sum := t.nanos + d.nanos
    ofParts? sum (t.leap && sum / 1_000_000_000 == t.second)
  else none

def secondOfDay (t : Instant) : Int := t.second % 86_400

/-- Nanoseconds from `s` to `t`. The leap second of an instant counts unless the other instant has a
later time of day. -/
def nanosSince (t s : Instant) : Int :=
  let extra (a b : Instant) : Int := if a.leap ∧ b.secondOfDay ≤ a.secondOfDay then 1_000_000_000 else 0
  t.nanos - s.nanos + (extra t s - extra s t)

/-- Whole milliseconds from `s` to `t`, rounded toward zero. -/
def millisSince (t s : Instant) : Int := (t.nanosSince s).tdiv 1_000_000

end Instant

end TrialControl
