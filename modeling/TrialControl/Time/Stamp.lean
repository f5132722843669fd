import TrialControl.Power
import TrialControl.Text.Blank
import TrialControl.Time.Calendar
import TrialControl.Time.Instant

/-!
# Time stamps

The text of an instant is its date and time of day in UTC, `2023-11-14T22:13:20Z`, with a fraction of
three, six or nine digits where it is needed; a year beyond four digits has a sign, and a leap second
is the second 60 of its minute. Reading also takes an offset from UTC, fractions of any length (digits
beyond nanoseconds are dropped), fields without leading zeros, blanks between fields, and a blank or a
small letter between date and time.
-/

namespace TrialControl.Instant

open Text (padded digitsValue isBlank dropBlanks)

/-! ## Writing -/

def yearChars (year : Int) : List Char :=
  if 0 ≤ year ∧ year ≤ 9999 then padded 4 year.natAbs
  else (if year < 0 then '-' else '+') :: padded 4 year.natAbs

/-- The fraction of a second in as few groups of three digits as are exact. -/
def fractionChars (nanos : Nat) : List Char :=
  if nanos = 0 then []
  else if nanos % 1_000_000 = 0 then '.' :: padded 3 (nanos / 1_000_000)
  else if nanos % 1_000 = 0 then '.' :: padded 6 (nanos / 1_000)
  else '.' :: padded 9 nanos

def dayNanos : Int := 86_400_000_000_000

def chars (t : Instant) : List Char :=
  let date := Date.ofDays (t.nanos / dayNanos)
  let nanos := (t.nanos % dayNanos).toNat
  let seconds := nanos / 1_000_000_000
  yearChars date.year ++ '-' :: padded 2 date.month ++ '-' :: padded 2 date.day ++
    'T' :: padded 2 (seconds / 3600) ++ ':' :: padded 2 (seconds / 60 % 60) ++
    ':' :: padded 2 (seconds % 60 + if t.leap then 1 else 0) ++ fractionChars (nanos % 1_000_000_000) ++ ['Z']

def text (t : Instant) : String := String.ofList t.chars

/-! ## Reading -/

/-- A number of at least one and at most `width` digits, after blanks. -/
def readNumber (width : Nat) (cs : List Char) : Option (Nat × List Char) :=
  let cs := dropBlanks cs
  let digits := (cs.take width).takeWhile Char.isDigit
  if digits.isEmpty then none else some (digitsValue digits, cs.drop digits.length)

/-- A year: four digits at most, or a sign and any number of them. -/
def readYear (cs : List Char) : Option (Int × List Char) :=
  match dropBlanks cs with
  | '-' :: cs => (readSigned cs).map fun (n, cs) => (-n, cs)
  | '+' :: cs => readSigned cs
  | cs => (readNumber 4 cs).map fun (n, cs) => (n, cs)
where
  readSigned (cs : List Char) : Option (Int × List Char) :=
    match cs with
    | [] => none
    | c :: _ => if c.isDigit then (readNumber cs.length cs).map fun (n, cs) => (n, cs) else none

def readMark (mark : Char) (cs : List Char) : Option (List Char) :=
  match dropBlanks cs with
  | c :: cs => if c = mark then some cs else none
  | [] => none

def readSeparator : List Char → Option (List Char)
  | 'T' :: cs | 't' :: cs | ' ' :: cs => some cs
  | _ => none

def readFraction : List Char → Option (Nat × List Char)
  | '.' :: cs =>
    let digits := cs.takeWhile Char.isDigit
    if digits.isEmpty then none
    else
      let kept := digits.take 9
      some (digitsValue kept * tenTo (9 - kept.length), cs.drop digits.length)
  | cs => some (0, cs)

def readPair : List Char → Option (Nat × List Char)
  | a :: b :: cs => if a.isDigit && b.isDigit then some (digitsValue [a, b], cs) else none
  | _ => none

/-- Seconds east of UTC. -/
def readOffset : List Char → Option (Int × List Char)
  | 'Z' :: cs | 'z' :: cs => some (0, cs)
  | sign :: cs =>
    if sign.toLower = 'u' ∧ (cs.take 2).map Char.toLower = ['t', 'c'] then some (0, cs.drop 2)
    else if sign = '+' ∨ sign = '-' ∨ sign = '−' then do
      let (hours, cs) ← readPair cs
      let (minutes, cs) ← readPair (cs.dropWhile fun c => c = ':' || isBlank c)
      if minutes < 60 then
        let seconds : Int := ((hours * 60 + minutes) * 60 : Nat)
        some (if sign = '+' then seconds else -seconds, cs)
      else none
    else none
  | [] => none

/-- The instant of a date, a time of day and an offset. Both the local date and the instant have to
be in range. -/
def ofFields (date : Date) (hour minute second nanos : Nat) (offset : Int) : Option Instant :=
  if date.IsValid ∧ hour < 24 ∧ minute < 60 ∧ second ≤ 60 ∧ -86400 < offset ∧ offset < 86400 then do
    let leap := second == 60
    let seconds : Int := ((hour * 60 + minute) * 60 + min second 59 : Nat)
    let shown := date.toDays * dayNanos + (seconds * 1_000_000_000 + nanos)
    let _ ← ofParts? shown leap
    ofParts? (shown - offset * 1_000_000_000) leap
  else none

def ofChars? (cs : List Char) : Option Instant := do
  let (year, cs) ← readYear cs
  let cs ← readMark '-' cs
  let (month, cs) ← readNumber 2 cs
  let cs ← readMark '-' cs
  let (day, cs) ← readNumber 2 cs
  let cs ← readSeparator cs
  let (hour, cs) ← readNumber 2 cs
  let cs ← readMark ':' cs
  let (minute, cs) ← readNumber 2 cs
  let cs ← readMark ':' cs
  let (second, cs) ← readNumber 2 cs
  let (nanos, cs) ← readFraction cs
  let (offset, cs) ← readOffset (dropBlanks cs)
  if (dropBlanks cs).isEmpty then ofFields ⟨year, month, day⟩ hour minute second nanos offset else none

def ofText? (s : String) : Option Instant := ofChars? s.toList

end TrialControl.Instant
