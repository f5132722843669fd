import TrialControl.Text.Digits

/-!
# Durations

A duration is a count of nanoseconds whose whole seconds fit into 64 bits. Scaling saturates at the
longest duration.
-/

namespace TrialControl

structure Duration where
  nanos : Nat
  fits : nanos < UInt64.size * 1_000_000_000
deriving DecidableEq

namespace Duration

def zero : Duration := ⟨0, by decide⟩

instance : Inhabited Duration := ⟨zero⟩

instance : LT Duration := ⟨fun a b => a.nanos < b.nanos⟩
instance : LE Duration := ⟨fun a b => a.nanos ≤ b.nanos⟩
instance (a b : Duration) : Decidable (a < b) := inferInstanceAs (Decidable (a.nanos < b.nanos))
instance (a b : Duration) : Decidable (a ≤ b) := inferInstanceAs (Decidable (a.nanos ≤ b.nanos))

def longest : Duration := ⟨UInt64.size * 1_000_000_000 - 1, by decide⟩

def ofNanos? (n : Nat) : Option Duration := if h : _ then some ⟨n, h⟩ else none

/-- The duration of a count of nanoseconds, or the longest one. -/
def saturated (n : Nat) : Duration := (ofNanos? n).getD longest

def ofMillis (ms : UInt64) : Duration :=
  ⟨ms.toNat * 1_000_000, by have := ms.toNat_lt_size; omega⟩

def ofSeconds (s : UInt64) : Duration :=
  ⟨s.toNat * 1_000_000_000, by have := s.toNat_lt_size; omega⟩

def seconds (d : Duration) : UInt64 := .ofNat (d.nanos / 1_000_000_000)

def subNanos (d : Duration) : UInt32 := .ofNat (d.nanos % 1_000_000_000)

def millis (d : Duration) : Nat := d.nanos / 1_000_000

def ceilMillis (d : Duration) : Nat := (d.nanos + 999_999) / 1_000_000

def isZero (d : Duration) : Bool := d.nanos == 0

def times (d : Duration) (n : Nat) : Duration := saturated (d.nanos * n)

def shorter (a b : Duration) : Duration := if b < a then b else a

/-! ## Text -/

/-- A whole number of units and the digits behind the point, without trailing zeros. -/
def unitText (whole width rest : Nat) (unit : String) : String :=
  let places := ((Text.padded width rest).reverse.dropWhile (· = '0')).reverse
  String.ofList (Text.decimal whole ++ if places.isEmpty then [] else '.' :: places) ++ unit

/-- The duration in the largest of the units s, ms, µs and ns that it reaches. -/
def text (d : Duration) : String :=
  if 1_000_000_000 ≤ d.nanos then unitText (d.nanos / 1_000_000_000) 9 (d.nanos % 1_000_000_000) "s"
  else if 1_000_000 ≤ d.nanos then unitText (d.nanos / 1_000_000) 6 (d.nanos % 1_000_000) "ms"
  else if 1_000 ≤ d.nanos then unitText (d.nanos / 1_000) 3 (d.nanos % 1_000) "µs"
  else unitText d.nanos 0 0 "ns"

end Duration

end TrialControl
