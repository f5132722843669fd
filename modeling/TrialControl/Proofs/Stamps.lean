import Mathlib.Tactic.IntervalCases
import TrialControl.Time.Stamp

/-!
# Time stamps are read back

The text of an instant denotes that instant. Days and dates are matched first: a day of a cycle is split
into centuries, groups of four years, years and the rest, and every division of `Date.ofDays` gives back
one of these parts. Reading then takes each field off the front of the text, since what follows a field is
either a mark or begins after the width of the field.
-/

namespace TrialControl

namespace Date

/-- A day in a cycle: centuries, groups of four years, years and the rest of days, counted from March. -/
structure Split (d c q k r : Int) : Prop where
  century : 0 ≤ c ∧ c ≤ 3
  group : 0 ≤ q ∧ q ≤ 24
  year : 0 ≤ k ∧ k ≤ 3
  day : 0 ≤ r ∧ r ≤ 365
  leap : r = 365 → k = 3 ∧ (q = 24 → c = 3)
  eq : d = 36524 * c + 1461 * q + 365 * k + r

theorem exists_split {d : Int} (least : 0 ≤ d) (greatest : d ≤ 146096) : ∃ c q k r, Split d c q k r := by
  by_cases last : d = 146096
  · refine ⟨3, 24, 3, 365, ?_⟩
    constructor <;> omega
  · obtain ⟨c, s, hc, hs, cut⟩ : ∃ c s, (0 ≤ c ∧ c ≤ 3) ∧ (0 ≤ s ∧ s < 36524) ∧ d = 36524 * c + s :=
      ⟨d / 36524, d % 36524, by omega⟩
    obtain ⟨q, u, hq, hu, cut'⟩ : ∃ q u, (0 ≤ q ∧ q ≤ 24) ∧ (0 ≤ u ∧ u < 1461) ∧ s = 1461 * q + u :=
      ⟨s / 1461, s % 1461, by omega⟩
    by_cases leap : u = 1460
    · refine ⟨c, q, 3, 365, ?_⟩
      constructor <;> omega
    · refine ⟨c, q, u / 365, u % 365, ?_⟩
      constructor <;> omega

variable {d c q k r : Int}

theorem Split.yearOfCycle (split : Split d c q k r) :
    (d - d / 1460 + d / 36524 - d / 146096) / 365 = 100 * c + 4 * q + k := by
  obtain ⟨hc, hq, hk, hr, leap, eq⟩ := split
  by_cases last : d = 146096
  · have : c = 3 ∧ q = 24 ∧ k = 3 := by omega
    rw [last]
    omega
  · have century : d / 36524 = c := by omega
    have cycle : d / 146096 = 0 := by omega
    -- the quotient by 1460 is short of whole groups by one day for each of them
    obtain ⟨e, group, few⟩ : ∃ e, d / 1460 = 25 * c + q + e ∧ 0 ≤ r - e ∧ r - e < 365 :=
      ⟨d / 1460 - (25 * c + q), by omega⟩
    have days : d - d / 1460 + d / 36524 - d / 146096 = 365 * (100 * c + 4 * q + k) + (r - e) := by omega
    omega

theorem month_day {r : Int} (hr : 0 ≤ r ∧ r ≤ 365) {m : Int} (hm : m = (5 * r + 2) / 153) :
    0 ≤ m ∧ m ≤ 11 ∧ 0 ≤ r - (153 * m + 2) / 5 := by
  omega

theorem Split.quarters (split : Split d c q k r) :
    (100 * c + 4 * q + k) / 4 = 25 * c + q ∧ (100 * c + 4 * q + k) / 100 = c := by
  obtain ⟨hc, hq, hk, -⟩ := split
  omega

/-- The date of a day, from its place in its cycle. -/
theorem Split.ofDays_eq {n era : Int} (split : Split d c q k r) (day : n + 719468 = 146097 * era + d) :
    ofDays n =
      let m := (5 * r + 2) / 153
      let month := if m < 10 then m + 3 else m - 9
      ⟨era * 400 + (100 * c + 4 * q + k) + if month ≤ 2 then 1 else 0, month.toNat,
        (r - (153 * m + 2) / 5 + 1).toNat⟩ := by
  have bounds : 0 ≤ d ∧ d ≤ 146096 := by
    obtain ⟨hc, hq, hk, hr, leap, eq⟩ := split
    omega
  have rest : (n + 719468) % 146097 = d := by omega
  have cycle : (n + 719468) / 146097 = era := by omega
  have years := split.yearOfCycle
  obtain ⟨fours, hundreds⟩ := split.quarters
  have dayOfYear : d - (365 * (100 * c + 4 * q + k) + (25 * c + q) - c) = r := by
    have := split.eq
    omega
  simp only [ofDays, rest, cycle, years, fours, hundreds, dayOfYear]

theorem Split.of_day (n : Int) : ∃ c q k r, Split ((n + 719468) % 146097) c q k r :=
  exists_split (Int.emod_nonneg _ (by decide)) (by omega)

theorem toDays_ofDays (n : Int) : (ofDays n).toDays = n := by
  obtain ⟨c, q, k, r, split⟩ := Split.of_day n
  have day : n + 719468 = 146097 * ((n + 719468) / 146097) + (n + 719468) % 146097 := by omega
  rw [split.ofDays_eq day]
  obtain ⟨fours, hundreds⟩ := split.quarters
  have eq := split.eq
  obtain ⟨least, greatest, first⟩ := month_day split.day rfl
  have rest := split.day
  have year : 0 ≤ 100 * c + 4 * q + k ∧ 100 * c + 4 * q + k ≤ 399 := by
    obtain ⟨hc, hq, hk, -⟩ := split
    omega
  generalize (n + 719468) / 146097 = era at *
  generalize (n + 719468) % 146097 = d at *
  generalize years : 100 * c + 4 * q + k = y at *
  have place : (era * 400 + y) % 400 = y := by omega
  have cycle : (era * 400 + y) / 400 = era := by omega
  generalize (5 * r + 2) / 153 = m at *
  dsimp only
  by_cases late : m < 10
  · have month : ¬ (m + 3).toNat ≤ 2 := by omega
    have march : (((m + 3).toNat + 9) % 12 : Nat) = m := by omega
    have later : ¬ m + 3 ≤ 2 := by omega
    simp only [toDays, if_pos late, if_neg month, if_neg later, march, Int.add_zero, place, cycle, fours, hundreds]
    omega
  · have month : (m - 9).toNat ≤ 2 := by omega
    have march : (((m - 9).toNat + 9) % 12 : Nat) = m := by omega
    have earlier : m - 9 ≤ 2 := by omega
    simp only [toDays, if_neg late, if_pos month, if_pos earlier, march, Int.add_sub_cancel, place, cycle, fours,
      hundreds]
    omega

theorem isValid_ofDays (n : Int) : (ofDays n).IsValid := by
  obtain ⟨c, q, k, r, split⟩ := Split.of_day n
  have day : n + 719468 = 146097 * ((n + 719468) / 146097) + (n + 719468) % 146097 := by omega
  rw [split.ofDays_eq day]
  obtain ⟨least, greatest, first⟩ := month_day split.day rfl
  obtain ⟨hc, hq, hk, hr, leap, -⟩ := split
  generalize (n + 719468) / 146097 = era at *
  generalize months : (5 * r + 2) / 153 = m at *
  dsimp only [IsValid]
  interval_cases m
  all_goals
    simp only [Int.reduceLT, if_true, if_false, Int.reduceAdd, Int.reduceSub, Int.reduceToNat, daysInMonth, isLeap]
  case «11» =>
    refine ⟨by decide, by decide, by omega, ?_⟩
    simp only [Int.le_refl, if_true]
    by_cases last : r = 365
    · obtain ⟨rfl, century⟩ := leap last
      have leap : (era * 400 + (100 * c + 4 * q + 3) + 1) % 4 = 0 ∧
          ((era * 400 + (100 * c + 4 * q + 3) + 1) % 100 ≠ 0 ∨ (era * 400 + (100 * c + 4 * q + 3) + 1) % 400 = 0) := by
        omega
      rw [if_pos (decide_eq_true leap)]
      omega
    · split <;> omega
  all_goals omega

end Date

namespace Text

variable {width n : Nat} {ds rest : List Char}

theorem digitsValue_decimal (n : Nat) : digitsValue (decimal n) = n := Nat.ofDigitChars_ten_toDigits

theorem digitsValue_padded (width n : Nat) : digitsValue (padded width n) = n := by
  show Nat.ofDigitChars 10 (padded width n) 0 = n
  rw [padded, Nat.ofDigitChars_append, Nat.ofDigitChars_replicate_zero, Nat.mul_zero]
  exact digitsValue_decimal n

theorem isDigit_padded {c : Char} (mem : c ∈ padded width n) : c.isDigit = true := by
  rcases List.mem_append.mp mem with mem | mem
  · rw [List.eq_of_mem_replicate mem]
    rfl
  · exact Nat.isDigit_of_mem_toDigits (by decide) (by decide) mem

theorem padded_ne_nil (width n : Nat) : padded width n ≠ [] :=
  List.append_ne_nil_of_right_ne_nil _ Nat.toDigits_ne_nil

theorem length_padded (positive : 0 < width) (fits : n < tenTo width) : (padded width n).length = width := by
  have short : (decimal n).length ≤ width := (Nat.length_toDigits_le_iff (by decide) positive).mpr fits
  rw [padded, List.length_append, List.length_replicate]
  omega

theorem isBlank_of_isDigit {c : Char} (digit : c.isDigit = true) : isBlank c = false := by
  have bounds : 48 ≤ c.toNat ∧ c.toNat ≤ 57 := by
    simpa [Char.isDigit, UInt32.le_iff_toNat_le] using digit
  unfold isBlank
  simp
  omega

theorem takeWhile_digits (digits : ∀ c ∈ ds, c.isDigit = true) (stop : ∀ c ∈ rest.head?, c.isDigit = false) :
    (ds ++ rest).takeWhile Char.isDigit = ds := by
  rw [List.takeWhile_append_of_pos digits]
  cases rest with
  | nil => simp
  | cons c rest => simp [stop c rfl]

theorem dropBlanks_digits (digits : ∀ c ∈ ds, c.isDigit = true) (nonempty : ds ≠ []) :
    dropBlanks (ds ++ rest) = ds ++ rest := by
  cases ds with
  | nil => exact absurd rfl nonempty
  | cons c ds =>
    have digit := isBlank_of_isDigit (digits c (List.mem_cons_self ..))
    simp [dropBlanks, digit]

end Text

theorem bind_of_some {α β : Type} {x : Option α} {a : α} {f : α → Option β} {r : Option β} (read : x = some a)
    (rest : f a = r) : (x >>= f) = r := by
  rw [read]
  exact rest

namespace Instant

open Text

variable {width n : Nat} {ds rest : List Char}

/-! ## Reading back -/

theorem readNumber_digits (digits : ∀ c ∈ ds, c.isDigit = true) (nonempty : ds ≠ []) (fits : ds.length ≤ width)
    (stop : ds.length = width ∨ ∀ c ∈ rest.head?, c.isDigit = false) :
    readNumber width (ds ++ rest) = some (digitsValue ds, rest) := by
  have taken : ((ds ++ rest).take width).takeWhile Char.isDigit = ds := by
    rw [List.take_append, List.take_of_length_le fits]
    refine takeWhile_digits digits fun c mem => ?_
    rcases stop with full | stop
    · rw [full, Nat.sub_self, List.take_zero] at mem
      cases mem
    · refine stop c ?_
      cases rest with
      | nil => simp at mem
      | cons d rest =>
        cases h : width - ds.length with
        | zero => simp [h] at mem
        | succ k => simpa [h] using mem
  unfold readNumber
  rw [dropBlanks_digits digits nonempty]
  dsimp only
  rw [taken]
  simp [nonempty]

theorem readNumber_padded (positive : 0 < width) (fits : n < tenTo width) (rest : List Char) :
    readNumber width (padded width n ++ rest) = some (n, rest) := by
  have length := length_padded positive fits
  rw [readNumber_digits (fun _ => isDigit_padded) (padded_ne_nil width n) (Nat.le_of_eq length) (.inl length),
    digitsValue_padded]

theorem readMark_self {mark : Char} (solid : isBlank mark = false) (rest : List Char) :
    readMark mark (mark :: rest) = some rest := by
  simp [readMark, dropBlanks, solid]

theorem readNumber_all (digits : ∀ c ∈ ds, c.isDigit = true) (nonempty : ds ≠ []) {mark : Char}
    (stop : mark.isDigit = false) (rest : List Char) :
    readYear.readSigned (ds ++ mark :: rest) = some ((digitsValue ds : Int), mark :: rest) := by
  have read : readNumber (ds ++ mark :: rest).length (ds ++ mark :: rest) = some (digitsValue ds, mark :: rest) :=
    readNumber_digits digits nonempty (by simp) (.inr (by simp [stop]))
  cases ds with
  | nil => exact absurd rfl nonempty
  | cons c ds =>
    rw [List.cons_append] at read ⊢
    simp only [readYear.readSigned, digits c (List.mem_cons_self ..), if_true, read, Option.map_some]

theorem readYear_digits (digits : ∀ c ∈ ds, c.isDigit = true) (nonempty : ds ≠ []) (rest : List Char) :
    readYear (ds ++ rest) = (readNumber 4 (ds ++ rest)).map fun (n, cs) => ((n : Int), cs) := by
  unfold readYear
  rw [dropBlanks_digits digits nonempty]
  cases ds with
  | nil => exact absurd rfl nonempty
  | cons c ds =>
    have digit := digits c (List.mem_cons_self ..)
    split
    · next minus =>
      cases minus
      cases digit
    · next plus =>
      cases plus
      cases digit
    · rfl

theorem readYear_minus (n : Nat) (rest : List Char) :
    readYear ('-' :: padded 4 n ++ '-' :: rest) = some (-(n : Int), '-' :: rest) := by
  have signed : readYear.readSigned (padded 4 n ++ '-' :: rest) = some ((n : Int), '-' :: rest) := by
    rw [readNumber_all (fun _ => isDigit_padded) (padded_ne_nil 4 n) rfl, digitsValue_padded]
  show (readYear.readSigned (padded 4 n ++ '-' :: rest)).map _ = _
  rw [signed]
  rfl

theorem readYear_plus (n : Nat) (rest : List Char) :
    readYear ('+' :: padded 4 n ++ '-' :: rest) = some ((n : Int), '-' :: rest) := by
  show readYear.readSigned (padded 4 n ++ '-' :: rest) = _
  rw [readNumber_all (fun _ => isDigit_padded) (padded_ne_nil 4 n) rfl, digitsValue_padded]

theorem readYear_yearChars (year : Int) (rest : List Char) :
    readYear (yearChars year ++ '-' :: rest) = some (year, '-' :: rest) := by
  unfold yearChars
  by_cases short : 0 ≤ year ∧ year ≤ 9999
  · have fits : year.natAbs < tenTo 4 := by
      show _ < 10000
      omega
    have same : (year.natAbs : Int) = year := by omega
    rw [if_pos short, readYear_digits (fun _ => isDigit_padded) (padded_ne_nil 4 year.natAbs),
      readNumber_padded (by decide) fits, Option.map_some]
    simp only [same]
  rw [if_neg short]
  by_cases negative : year < 0
  · have same : -(year.natAbs : Int) = year := by omega
    rw [if_pos negative, readYear_minus, same]
  · have same : (year.natAbs : Int) = year := by omega
    rw [if_neg negative, readYear_plus, same]

theorem readFraction_fractionChars {nanos : Nat} (fits : nanos < 1_000_000_000) :
    readFraction (fractionChars nanos ++ ['Z']) = some (nanos, ['Z']) := by
  have read {width n : Nat} (positive : 0 < width) (few : width ≤ 9) (fits : n < tenTo width) :
      readFraction ('.' :: padded width n ++ ['Z']) = some (n * tenTo (9 - width), ['Z']) := by
    have length := length_padded positive fits
    have taken : (padded width n ++ ['Z']).takeWhile Char.isDigit = padded width n :=
      takeWhile_digits (fun _ => isDigit_padded) (by simp)
    rw [List.cons_append]
    unfold readFraction
    simp only [taken, padded_ne_nil, List.isEmpty_iff, if_false, List.drop_left]
    rw [List.take_of_length_le (by omega), length, digitsValue_padded]
  unfold fractionChars
  split
  · next zero =>
    rw [zero]
    rfl
  · split
    · next millis =>
      have scaled : nanos / 1_000_000 * tenTo (9 - 3) = nanos := Nat.div_mul_cancel (Nat.dvd_of_mod_eq_zero millis)
      rw [read (by decide) (by decide) (show _ < 1000 by omega), scaled]
    · split
      · next micros =>
        have scaled : nanos / 1_000 * tenTo (9 - 6) = nanos := Nat.div_mul_cancel (Nat.dvd_of_mod_eq_zero micros)
        rw [read (by decide) (by decide) (show _ < 1000000 by omega), scaled]
      · have scaled : nanos * tenTo (9 - 9) = nanos := Nat.mul_one nanos
        rw [read (by decide) (by decide) fits, scaled]

theorem ofParts?_self (t : Instant) : ofParts? t.nanos t.leap = some t :=
  dif_pos ⟨t.least_le, t.le_greatest, t.ends_minute⟩

theorem daysInMonth_le (year : Int) (month : Nat) : Date.daysInMonth year month ≤ 31 := by
  unfold Date.daysInMonth
  split
  · split <;> decide
  all_goals decide

theorem ofChars?_fields (date : Date) {hour minute second nanos : Nat} (hm : date.month < 100) (hd : date.day < 100)
    (hh : hour < 100) (hmin : minute < 100) (hs : second < 100) (hn : nanos < 1_000_000_000) :
    ofChars? (yearChars date.year ++ '-' :: padded 2 date.month ++ '-' :: padded 2 date.day ++ 'T' :: padded 2 hour ++
      ':' :: padded 2 minute ++ ':' :: padded 2 second ++ fractionChars nanos ++ ['Z']) =
      ofFields date hour minute second nanos 0 := by
  have pair {n : Nat} (h : n < 100) (rest : List Char) : readNumber 2 (padded 2 n ++ rest) = some (n, rest) :=
    readNumber_padded (by decide) h rest
  have dash (rest : List Char) : readMark '-' ('-' :: rest) = some rest := readMark_self rfl rest
  have colon (rest : List Char) : readMark ':' (':' :: rest) = some rest := readMark_self rfl rest
  have sep (rest : List Char) : readSeparator ('T' :: rest) = some rest := rfl
  have zone : readOffset (dropBlanks ['Z']) = some (0, []) := rfl
  simp only [List.append_assoc, List.cons_append]
  unfold ofChars?
  refine bind_of_some (readYear_yearChars _ _) ?_
  refine bind_of_some (dash _) (bind_of_some (pair hm _) ?_)
  refine bind_of_some (dash _) (bind_of_some (pair hd _) ?_)
  refine bind_of_some (sep _) (bind_of_some (pair hh _) ?_)
  refine bind_of_some (colon _) (bind_of_some (pair hmin _) ?_)
  refine bind_of_some (colon _) (bind_of_some (pair hs _) ?_)
  exact bind_of_some (readFraction_fractionChars hn) (bind_of_some zone rfl)

/-- The seconds of an instant shown count one more within a leap second. -/
theorem ofFields_shown (t : Instant) {date : Date} {nanos : Nat} (valid : date.IsValid)
    (whole : date.toDays * dayNanos + nanos = t.nanos) (within : nanos < 86_400_000_000_000)
    (ends : t.leap = true → nanos / 1_000_000_000 % 60 = 59) :
    ofFields date (nanos / 1_000_000_000 / 3600) (nanos / 1_000_000_000 / 60 % 60)
      (nanos / 1_000_000_000 % 60 + if t.leap then 1 else 0) (nanos % 1_000_000_000) 0 = some t := by
  have leap : (nanos / 1_000_000_000 % 60 + (if t.leap = true then 1 else 0) == 60) = t.leap := by
    cases h : t.leap with
    | true => simp [ends h]
    | false =>
      simp
      omega
  have second : min (nanos / 1_000_000_000 % 60 + if t.leap = true then 1 else 0) 59 = nanos / 1_000_000_000 % 60 := by
    cases h : t.leap with
    | true => simp [ends h]
    | false =>
      simp
      omega
  have few : (nanos / 1_000_000_000 % 60 + if t.leap = true then 1 else 0) ≤ 60 := by
    split <;> omega
  unfold ofFields
  rw [if_pos ⟨valid, by omega, by omega, few, by decide, by decide⟩]
  dsimp only
  rw [leap, second]
  have shown : date.toDays * dayNanos + ((((nanos / 1_000_000_000 / 3600 * 60 + nanos / 1_000_000_000 / 60 % 60) * 60 +
      nanos / 1_000_000_000 % 60 : Nat) : Int) * 1_000_000_000 + ((nanos % 1_000_000_000 : Nat) : Int)) = t.nanos := by
    omega
  rw [shown, Int.zero_mul, Int.sub_zero, t.ofParts?_self]
  rfl

theorem ofText?_text (t : Instant) : ofText? t.text = some t := by
  have valid := Date.isValid_ofDays (t.nanos / dayNanos)
  have ⟨_, months, _, days⟩ := valid
  have days := days.trans (daysInMonth_le _ _)
  have whole : (Date.ofDays (t.nanos / dayNanos)).toDays * dayNanos + (t.nanos % dayNanos).toNat = t.nanos := by
    rw [Date.toDays_ofDays]
    unfold dayNanos
    omega
  have within : (t.nanos % dayNanos).toNat < 86_400_000_000_000 := by
    unfold dayNanos
    omega
  have ends : t.leap = true → (t.nanos % dayNanos).toNat / 1_000_000_000 % 60 = 59 := by
    intro leap
    have := t.ends_minute leap
    unfold dayNanos
    omega
  have second : (t.nanos % dayNanos).toNat / 1_000_000_000 % 60 + (if t.leap = true then 1 else 0) < 100 := by
    split <;> omega
  unfold ofText? text chars
  rw [String.toList_ofList]
  exact (ofChars?_fields _ (by omega) (by omega) (by omega) (by omega) second (by omega)).trans
    (ofFields_shown t valid whole within ends)

end Instant

end TrialControl
