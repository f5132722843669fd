import TrialControl.Workload.Bracket

/-!
# Narrowing times

A time is narrowed exactly when its flag says so: the candidate that counts is another time than the
current one, also with an offset added, since an offset never moves a time backward.
-/

namespace TrialControl

namespace Instant

theorem not_lt_self (t : Instant) : ¬ t < t := Int.lt_irrefl _

theorem lt_of_lt_of_le {a b c : Instant} (h : a < b) (h' : b ≤ c) : a < c := Int.lt_of_lt_of_le (b := b.rank) h h'

theorem ne_of_lt {a b : Instant} (h : a < b) : a ≠ b := by
  rintro rfl
  exact not_lt_self a h

theorem le_refl (a : Instant) : a ≤ a := Int.le_refl a.rank

theorem le_trans (a b c : Instant) (h : a ≤ b) (h' : b ≤ c) : a ≤ c := Int.le_trans (b := b.rank) h h'

theorem ge_trans (a b c : Instant) (h : a ≥ b) (h' : b ≥ c) : a ≥ c := c.le_trans b a h' h

theorem le_antisymm {a b : Instant} (h : a ≤ b) (h' : b ≤ a) : a = b := by
  have same : a.rank = b.rank := Int.le_antisymm h h'
  obtain ⟨n, leap, _, _, _⟩ := a
  obtain ⟨m, mark, _, _, _⟩ := b
  simp only [rank, second] at same
  -- the mark takes a second half of its own, so the rank has the seconds, the mark and the rest
  cases leap with
  | true =>
    cases mark with
    | true =>
      simp only [if_true] at same
      obtain rfl : n = m := by omega
      rfl
    | false =>
      simp only [if_true, Bool.false_eq_true, if_false] at same
      omega
  | false =>
    cases mark with
    | true =>
      simp only [if_true, Bool.false_eq_true, if_false] at same
      omega
    | false =>
      simp only [Bool.false_eq_true, if_false] at same
      obtain rfl : n = m := by omega
      rfl

section
variable {t u : Instant} {d : Duration}

theorem later?_eq_some_iff :
    t.later? d = some u ↔
      d.nanos ≤ longestSpan ∧ u.nanos = t.nanos + d.nanos ∧ (u.leap = true ↔ t.leap = true ∧ u.second = t.second) := by
  unfold later?
  by_cases span : d.nanos ≤ longestSpan
  · rw [if_pos span]
    dsimp only
    unfold ofParts?
    split
    · next within =>
      constructor
      · rintro ⟨⟩
        exact ⟨span, rfl, by simp [second]⟩
      · rintro ⟨-, sum, mark⟩
        obtain ⟨n, leap, _, _, _⟩ := u
        obtain rfl : n = t.nanos + d.nanos := sum
        have same : leap = (t.leap && (t.nanos + d.nanos) / 1_000_000_000 == t.second) := by
          rw [Bool.eq_iff_iff, Bool.and_eq_true, beq_iff_eq]
          exact mark
        subst same
        rfl
    · next refused =>
      refine ⟨nofun, fun ⟨_, sum, mark⟩ => absurd ?_ refused⟩
      refine ⟨sum ▸ u.least_le, sum ▸ u.le_greatest, fun marked => sum ▸ u.ends_minute (mark.mpr ?_)⟩
      rw [Bool.and_eq_true, beq_iff_eq, ← sum] at marked
      exact marked
  · rw [if_neg span]
    exact ⟨nofun, fun ⟨short, _⟩ => absurd short span⟩

theorem later?_eq_none_iff : t.later? d = none ↔ longestSpan < d.nanos ∨ greatest < t.nanos + d.nanos := by
  unfold later?
  by_cases span : d.nanos ≤ longestSpan
  · rw [if_pos span]
    dsimp only
    unfold ofParts?
    split
    · next within => exact ⟨nofun, fun beyond => by omega⟩
    · next refused =>
      refine ⟨fun _ => .inr (Int.not_le.mp fun within => ?_), fun _ => rfl⟩
      -- the sum is late enough, and a mark is kept only in the second of `t`, which may bear it
      have least := t.least_le
      refine refused ⟨by omega, by omega, fun marked => ?_⟩
      simp only [Bool.and_eq_true, beq_iff_eq] at marked
      rw [marked.2]
      exact t.ends_minute marked.1
  · rw [if_neg span]
    exact ⟨fun _ => .inl (by omega), fun _ => rfl⟩

theorem le_later? (h : t.later? d = some u) : t ≤ u := by
  obtain ⟨-, sum, mark⟩ := later?_eq_some_iff.mp h
  show t.rank ≤ u.rank
  simp only [rank]
  have seconds : t.second ≤ u.second := by simp only [second]; omega
  cases leap : t.leap with
  | true =>
    by_cases same : u.second = t.second
    · have kept : u.leap = true := mark.mpr ⟨leap, same⟩
      simp only [kept, same, if_true]
      simp only [second] at same
      omega
    · cases kept : u.leap <;> simp only [if_true, Bool.false_eq_true, if_false] <;> omega
  | false =>
    have kept : u.leap = false := by simpa [leap] using mark
    simp only [kept, Bool.false_eq_true, if_false, second]
    omega

end

end Instant

theorem le_shifted (t : Instant) (offset : Option Duration) : t ≤ shifted t offset := by
  unfold shifted
  cases h : offset.bind t.later? with
  | none => exact Int.le_refl _
  | some u =>
    obtain ⟨d, -, hd⟩ := Option.bind_eq_some_iff.mp h
    exact Instant.le_later? hd

theorem earliest_unchanged {current candidate : Option Instant} (h : (earliest current candidate).2 = false) :
    (earliest current candidate).1 = current := by
  unfold earliest at h ⊢
  split at h
  · cases h
  · next c n =>
    by_cases hn : n < c
    · simp [hn] at h
    · simp [hn]
  · rfl

theorem earliest_changed {current candidate : Option Instant} (h : (earliest current candidate).2 = true) :
    (earliest current candidate).1 ≠ current := by
  unfold earliest at h ⊢
  split at h
  · simp
  · next c n =>
    by_cases hn : n < c
    · simpa [hn] using Instant.ne_of_lt hn
    · simp [hn] at h
  · cases h

theorem latest_unchanged {current candidate : Option Instant} {offset : Option Duration}
    (h : (latest current candidate offset).2 = false) : (latest current candidate offset).1 = current := by
  unfold latest at h ⊢
  split at h
  · cases h
  · next c n =>
    by_cases hn : n ≤ c
    · simp [hn]
    · simp [hn] at h
  · rfl

theorem latest_changed {current candidate : Option Instant} {offset : Option Duration}
    (h : (latest current candidate offset).2 = true) : (latest current candidate offset).1 ≠ current := by
  unfold latest at h ⊢
  split at h
  · simp
  · next c n =>
    by_cases hn : n ≤ c
    · simp [hn] at h
    · have later : c < shifted n offset := Instant.lt_of_lt_of_le (Int.not_le.mp hn) (le_shifted n offset)
      simpa [hn] using (Instant.ne_of_lt later).symm
  · cases h

/-! ## Times that settle -/

section
variable {current candidate other : Option Instant} {offset : Option Duration} {c n : Instant}

theorem latest_flag_iff : (latest current candidate offset).2 = true ↔
    ∃ n, candidate = some n ∧ ∀ c, current = some c → ¬ n ≤ c := by
  unfold latest
  split
  · next n => exact ⟨fun _ => ⟨n, rfl, fun c there => by cases there⟩, fun _ => rfl⟩
  · next c n =>
    constructor
    · intro h
      refine ⟨n, rfl, fun d there before => ?_⟩
      cases there
      rw [if_pos before] at h
      cases h
    · rintro ⟨m, ⟨⟩, later⟩
      rw [if_neg (later c rfl)]
  · simp

theorem latest_flag (current candidate : Option Instant) (offset shift : Option Duration) :
    (latest current candidate offset).2 = (latest current candidate shift).2 := by
  rw [Bool.eq_iff_iff, latest_flag_iff, latest_flag_iff]

theorem latest_grows (offset : Option Duration) (there : current = some c) :
    ∃ d, (latest current candidate offset).1 = some d ∧ c ≤ d := by
  subst there
  cases candidate with
  | none => exact ⟨c, rfl, Int.le_refl _⟩
  | some n =>
    unfold latest
    by_cases h : n ≤ c
    · exact ⟨c, by simp [h], Int.le_refl _⟩
    · have later : c ≤ shifted n offset := Int.le_trans (Int.le_of_lt (Int.not_le.mp h)) (le_shifted n offset)
      exact ⟨shifted n offset, by simp [h], later⟩

theorem latest_reaches (current : Option Instant) (offset : Option Duration) (n : Instant) :
    ∃ d, (latest current (some n) offset).1 = some d ∧ n ≤ d := by
  cases current with
  | none => exact ⟨shifted n offset, rfl, le_shifted n offset⟩
  | some c =>
    unfold latest
    by_cases h : n ≤ c
    · exact ⟨c, by simp [h], h⟩
    · exact ⟨shifted n offset, by simp [h], le_shifted n offset⟩

/-- Once a start was taken, with an offset or without, no other start counts that did not count before. -/
theorem latest_antitone {shift : Option Duration}
    (h : (latest (latest current candidate shift).1 other offset).2 = true) :
    (latest current other offset).2 = true := by
  obtain ⟨n, rfl, later⟩ := latest_flag_iff.mp h
  refine latest_flag_iff.mpr ⟨n, rfl, fun c there before => ?_⟩
  obtain ⟨d, taken, grown⟩ := latest_grows shift there
  exact later d taken (Int.le_trans before grown)

theorem latest_settles (current candidate : Option Instant) (shift offset : Option Duration) :
    (latest (latest current candidate shift).1 candidate offset).2 = false := by
  rw [Bool.eq_false_iff]
  intro h
  obtain ⟨n, rfl, later⟩ := latest_flag_iff.mp h
  obtain ⟨d, taken, reached⟩ := latest_reaches current shift n
  exact later d taken reached

theorem earliest_flag_iff : (earliest current candidate).2 = true ↔
    ∃ n, candidate = some n ∧ ∀ c, current = some c → n < c := by
  unfold earliest
  split
  · next n => exact ⟨fun _ => ⟨n, rfl, fun c there => by cases there⟩, fun _ => rfl⟩
  · next c n =>
    constructor
    · intro h
      refine ⟨n, rfl, fun d there => ?_⟩
      cases there
      by_cases before : n < c
      · exact before
      · rw [if_neg before] at h
        cases h
    · rintro ⟨m, ⟨⟩, sooner⟩
      rw [if_pos (sooner c rfl)]
  · simp

theorem earliest_shrinks (there : current = some c) : ∃ d, (earliest current candidate).1 = some d ∧ d ≤ c := by
  subst there
  cases candidate with
  | none => exact ⟨c, rfl, Int.le_refl _⟩
  | some n =>
    unfold earliest
    by_cases h : n < c
    · exact ⟨n, by simp [h], Int.le_of_lt h⟩
    · exact ⟨c, by simp [h], Int.le_refl _⟩

theorem earliest_reaches (current : Option Instant) (n : Instant) :
    ∃ d, (earliest current (some n)).1 = some d ∧ d ≤ n := by
  cases current with
  | none => exact ⟨n, rfl, Int.le_refl _⟩
  | some c =>
    unfold earliest
    by_cases h : n < c
    · exact ⟨n, by simp [h], Int.le_refl _⟩
    · exact ⟨c, by simp [h], Int.not_lt.mp h⟩

theorem earliest_antitone (h : (earliest (earliest current candidate).1 other).2 = true) :
    (earliest current other).2 = true := by
  obtain ⟨n, rfl, sooner⟩ := earliest_flag_iff.mp h
  refine earliest_flag_iff.mpr ⟨n, rfl, fun c there => ?_⟩
  obtain ⟨d, taken, shrunk⟩ := earliest_shrinks there
  exact Instant.lt_of_lt_of_le (sooner d taken) shrunk

theorem earliest_settles (current candidate : Option Instant) :
    (earliest (earliest current candidate).1 candidate).2 = false := by
  rw [Bool.eq_false_iff]
  intro h
  obtain ⟨n, rfl, sooner⟩ := earliest_flag_iff.mp h
  obtain ⟨d, taken, reached⟩ := earliest_reaches current n
  exact Instant.not_lt_self n (Instant.lt_of_lt_of_le (sooner d taken) reached)

end

/-! ## Absorbing -/

theorem TrialStatus.absorb_unchanged {s : TrialStatus} {b : Bracket} {offset : Option Duration}
    (h : (s.absorb b offset).2 = false) : (s.absorb b offset).1 = s := by
  simp only [absorb, Bool.or_eq_false_iff] at h ⊢
  rw [latest_unchanged h.1, earliest_unchanged h.2]

theorem TrialStatus.absorb_changed {s : TrialStatus} {b : Bracket} {offset : Option Duration}
    (h : (s.absorb b offset).2 = true) :
    (s.absorb b offset).1.startTime ≠ s.startTime ∨ (s.absorb b offset).1.completionTime ≠ s.completionTime := by
  simp only [absorb, Bool.or_eq_true] at h ⊢
  exact h.imp latest_changed earliest_changed

/-! ## What units show -/

/-- A time of a list that has its place before all the others, or none where the list is empty. -/
def Extreme (before : Instant → Instant → Prop) (xs : List Instant) : Option Instant → Prop
  | none => xs = []
  | some x => x ∈ xs ∧ ∀ y ∈ xs, before x y

structure Picks (before : Instant → Instant → Prop) (f : Option Instant → Option Instant → Option Instant) : Prop where
  fresh : ∀ c, f none c = c
  kept : ∀ a, f a none = a
  picks : ∀ x n, f (some x) (some n) = some x ∧ before x n ∨ f (some x) (some n) = some n ∧ before n x

theorem earliest_picks : Picks (· ≤ ·) fun a c => (earliest a c).1 := by
  refine ⟨fun c => ?_, fun a => ?_, fun x n => ?_⟩
  · cases c <;> rfl
  · cases a <;> rfl
  · by_cases sooner : n < x
    · exact .inr ⟨by simp [earliest, sooner], Int.le_of_lt sooner⟩
    · exact .inl ⟨by simp [earliest, sooner], Int.not_lt.mp sooner⟩

theorem latest_picks : Picks (· ≥ ·) fun a c => (latest a c none).1 := by
  refine ⟨fun c => ?_, fun a => ?_, fun x n => ?_⟩
  · cases c <;> rfl
  · cases a <;> rfl
  · by_cases sooner : n ≤ x
    · exact .inl ⟨by simp [latest, sooner], sooner⟩
    · exact .inr ⟨by simp [latest, sooner, shifted], Int.le_of_lt (Int.not_le.mp sooner)⟩

section
variable {before : Instant → Instant → Prop} {f : Option Instant → Option Instant → Option Instant}
variable {xs ys : List Instant} {a b : Option Instant}
variable (trans : ∀ x y z, before x y → before y z → before x z)
include trans

theorem Extreme.pick (refl : ∀ x, before x x) (picks : Picks before f) (h : Extreme before xs a) (c : Option Instant) :
    Extreme before (xs ++ c.toList) (f a c) := by
  cases c with
  | none =>
    rw [picks.kept]
    simpa using h
  | some n =>
    cases a with
    | none =>
      obtain rfl : xs = [] := h
      rw [picks.fresh]
      exact ⟨List.mem_singleton.mpr rfl, fun y mem => (List.mem_singleton.mp mem) ▸ refl n⟩
    | some x =>
      obtain ⟨mem, first⟩ := h
      rcases picks.picks x n with ⟨same, sooner⟩ | ⟨same, sooner⟩
      · rw [same]
        refine ⟨List.mem_append_left _ mem, fun y hy => ?_⟩
        rcases List.mem_append.mp hy with hy | hy
        · exact first y hy
        · exact (List.mem_singleton.mp hy) ▸ sooner
      · rw [same]
        refine ⟨by simp, fun y hy => ?_⟩
        rcases List.mem_append.mp hy with hy | hy
        · exact trans n x y sooner (first y hy)
        · exact (List.mem_singleton.mp hy) ▸ refl n

theorem Extreme.foldl {α : Type} (refl : ∀ x, before x x) (picks : Picks before f) (g : α → Option Instant)
    (cs : List α) (h : Extreme before xs a) :
    Extreme before (xs ++ cs.filterMap g) (cs.foldl (fun a c => f a (g c)) a) := by
  induction cs generalizing xs a with
  | nil => simpa using h
  | cons c cs ih =>
    have rest := ih (h.pick trans refl picks (g c))
    cases shown : g c with
    | none =>
      rw [List.filterMap_cons_none shown]
      simpa [shown] using rest
    | some x =>
      rw [List.filterMap_cons_some shown]
      simpa [shown] using rest

theorem Extreme.eq_iff (antisymm : ∀ x y, before x y → before y x → x = y) (fewer : ys ⊆ xs)
    (h : Extreme before xs a) (h' : Extreme before ys b) : a = b ↔ ∀ x ∈ xs, ∃ y ∈ ys, before y x := by
  constructor
  · rintro rfl x mem
    cases a with
    | none =>
      obtain rfl : xs = [] := h
      cases mem
    | some m => exact ⟨m, h'.1, h.2 x mem⟩
  · intro covered
    cases a with
    | none =>
      obtain rfl : xs = [] := h
      cases b with
      | none => rfl
      | some y => cases fewer h'.1
    | some x =>
      obtain ⟨y, mem, sooner⟩ := covered x h.1
      cases b with
      | none =>
        obtain rfl : ys = [] := h'
        cases mem
      | some z => exact congrArg some (antisymm x z (h.2 z (fewer h'.1)) (trans z y x (h'.2 y mem) sooner))

theorem Extreme.of_perm (refl : ∀ x, before x x) (antisymm : ∀ x y, before x y → before y x → x = y)
    (perm : xs.Perm ys) (h : Extreme before xs a) (h' : Extreme before ys b) : a = b := by
  apply (Extreme.eq_iff trans antisymm perm.symm.subset h h').mpr
  intro x mem
  exact ⟨x, perm.subset mem, refl x⟩

end

def starts (units : List ExecutionUnit) : List Instant := (units.flatMap (·.containers)).filterMap (·.started?)

def finishes (units : List ExecutionUnit) : List Instant := (units.flatMap (·.containers)).filterMap (·.finished?)

theorem Bracket.extreme_started (units : List ExecutionUnit) : Extreme (· ≤ ·) (starts units) (ofUnits units).started := by
  have folded (cs : List ContainerState) (b : Bracket) :
      (cs.foldl Bracket.add b).started = cs.foldl (fun a c => (earliest a c.started?).1) b.started := by
    induction cs generalizing b with
    | nil => rfl
    | cons c cs ih => exact ih _
  have empty : Extreme (· ≤ ·) [] none := rfl
  have reached := empty.foldl Instant.le_trans Instant.le_refl earliest_picks (·.started?) (units.flatMap (·.containers))
  unfold ofUnits
  rw [folded]
  exact reached

theorem Bracket.extreme_finished (units : List ExecutionUnit) :
    Extreme (· ≥ ·) (finishes units) (ofUnits units).finished := by
  have folded (cs : List ContainerState) (b : Bracket) :
      (cs.foldl Bracket.add b).finished = cs.foldl (fun a c => (latest a c.finished? none).1) b.finished := by
    induction cs generalizing b with
    | nil => rfl
    | cons c cs ih => exact ih _
  have empty : Extreme (· ≥ ·) [] none := rfl
  have reached := empty.foldl Instant.ge_trans Instant.le_refl latest_picks (·.finished?) (units.flatMap (·.containers))
  unfold ofUnits
  rw [folded]
  exact reached

end TrialControl
