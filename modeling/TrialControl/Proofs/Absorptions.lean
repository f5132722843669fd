import TrialControl.Proofs.Touches

/-!
# Absorbed brackets

A status that has absorbed a bracket lies within it: it starts no earlier and ends no later. It stays there
whatever else is absorbed, since its start moves forward only and its end only backward. So a bracket is absorbed
once, and what is seen again changes nothing.
-/

namespace TrialControl

theorem Extreme.toList {before : Instant → Instant → Prop} (refl : ∀ x, before x x) (a : Option Instant) :
    Extreme before a.toList a := by
  cases a with
  | none => rfl
  | some x => exact ⟨List.mem_singleton_self x, fun y mem => (List.mem_singleton.mp mem) ▸ refl x⟩

/-! ## Offsets -/

/-- An instant moved by an offset. Where there is no offset, or no instant so much later, it stays. -/
inductive Instant.Moved (t : Instant) (offset : Option Duration) : Instant → Prop where
  | later {d : Duration} {u : Instant} (by_offset : offset = some d) (span : d.nanos ≤ longestSpan)
      (sum : u.nanos = t.nanos + d.nanos) (mark : u.leap = true ↔ t.leap = true ∧ u.second = t.second) :
      Moved t offset u
  | beyond {d : Duration} (by_offset : offset = some d)
      (unreachable : longestSpan < d.nanos ∨ greatest < t.nanos + d.nanos) : Moved t offset t
  | still (unmoved : offset = none) : Moved t offset t

theorem Instant.moved_shifted (t : Instant) (offset : Option Duration) : t.Moved offset (shifted t offset) := by
  cases offset with
  | none => exact .still rfl
  | some d =>
    have shown : shifted t (some d) = (t.later? d).getD t := rfl
    rw [shown]
    cases added : t.later? d with
    | none => exact .beyond rfl (later?_eq_none_iff.mp added)
    | some u =>
      obtain ⟨span, sum, mark⟩ := later?_eq_some_iff.mp added
      exact .later rfl span sum mark

namespace TrialStatus

variable {s u : TrialStatus} {b : Bracket} {bs bs' : List Bracket} {offset : Option Duration} {x : Instant}

/-! ## One bracket -/

/-- The status starts no earlier than the bracket and ends no later. -/
structure Within (s : TrialStatus) (b : Bracket) : Prop where
  start : ∀ x, b.started = some x → ∃ y, s.startTime = some y ∧ x ≤ y
  finish : ∀ x, b.finished = some x → ∃ y, s.completionTime = some y ∧ y ≤ x

theorem within_absorb (s : TrialStatus) (b : Bracket) (offset : Option Duration) : (s.absorb b offset).1.Within b := by
  constructor
  · intro x started
    unfold absorb
    rw [started]
    exact latest_reaches s.startTime offset x
  · intro x finished
    unfold absorb
    rw [finished]
    exact earliest_reaches s.completionTime x

theorem Within.narrows (within : s.Within b) (narrows : s.Narrows u) : u.Within b := by
  constructor
  · intro x started
    obtain ⟨y, there, le⟩ := within.start x started
    obtain ⟨z, grown, le'⟩ := narrows.start y there
    exact ⟨z, grown, Instant.le_trans x y z le le'⟩
  · intro x finished
    obtain ⟨y, there, le⟩ := within.finish x finished
    obtain ⟨z, shrunk, le'⟩ := narrows.finish y there
    exact ⟨z, shrunk, Instant.le_trans z y x le' le⟩

theorem Within.absorb_eq (within : s.Within b) (offset : Option Duration) : s.absorb b offset = (s, false) := by
  have silent : (s.absorb b offset).2 = false := by
    rw [absorb, Bool.or_eq_false_iff, Bool.eq_false_iff, Bool.eq_false_iff]
    constructor
    · intro moved
      obtain ⟨x, started, later⟩ := latest_flag_iff.mp moved
      obtain ⟨y, there, le⟩ := within.start x started
      exact later y there le
    · intro moved
      obtain ⟨x, finished, sooner⟩ := earliest_flag_iff.mp moved
      obtain ⟨y, there, le⟩ := within.finish x finished
      exact Instant.not_lt_self x (Instant.lt_of_lt_of_le (sooner y there) le)
  exact Prod.ext (absorb_unchanged silent) silent

structure Absorbed (s : TrialStatus) (u : TrialStatus) (moved : Bool) : Prop where
  moved_iff : moved = true ↔ u.startTime ≠ s.startTime ∨ u.completionTime ≠ s.completionTime
  rest : u.phase = s.phase ∧ u.conditions = s.conditions
  narrows : s.Narrows u

theorem absorbed (s : TrialStatus) (b : Bracket) (offset : Option Duration) :
    Absorbed s (s.absorb b offset).1 (s.absorb b offset).2 := by
  refine ⟨⟨absorb_changed, fun moved => ?_⟩, ⟨rfl, rfl⟩, narrows_absorb s b offset⟩
  by_contra silent
  rw [absorb_unchanged (by simpa using silent)] at moved
  simp at moved

/-! ## Several brackets -/

def absorbAll (offset : Option Duration) (s : TrialStatus) (bs : List Bracket) : TrialStatus :=
  bs.foldl (fun s b => (s.absorb b offset).1) s

theorem absorbAll_cons : s.absorbAll offset (b :: bs) = (s.absorb b offset).1.absorbAll offset bs := rfl

theorem absorbAll_concat : s.absorbAll offset (bs ++ [b]) = ((s.absorbAll offset bs).absorb b offset).1 := by
  simp [absorbAll]

theorem Narrows.trans {v : TrialStatus} (first : s.Narrows u) (second : u.Narrows v) : s.Narrows v := by
  constructor
  · intro x there
    obtain ⟨y, grown, le⟩ := first.start x there
    obtain ⟨z, grown', le'⟩ := second.start y grown
    exact ⟨z, grown', Instant.le_trans x y z le le'⟩
  · intro x there
    obtain ⟨y, shrunk, le⟩ := first.finish x there
    obtain ⟨z, shrunk', le'⟩ := second.finish y shrunk
    exact ⟨z, shrunk', Instant.le_trans z y x le' le⟩

theorem narrows_absorbAll (s : TrialStatus) (offset : Option Duration) (bs : List Bracket) :
    s.Narrows (s.absorbAll offset bs) := by
  induction bs generalizing s with
  | nil => exact narrows_of_same rfl rfl
  | cons b bs ih => exact (narrows_absorb s b offset).trans (ih (s.absorb b offset).1)

theorem within_absorbAll (s : TrialStatus) (offset : Option Duration) {bs : List Bracket} (mem : b ∈ bs) :
    (s.absorbAll offset bs).Within b := by
  obtain ⟨before, after, rfl⟩ := List.append_of_mem mem
  have here := within_absorb (s.absorbAll offset before) b offset
  have later := here.narrows (narrows_absorbAll _ offset after)
  simpa [absorbAll] using later

theorem absorbAll_of_within (within : ∀ b ∈ bs, s.Within b) : s.absorbAll offset bs = s := by
  induction bs with
  | nil => rfl
  | cons b bs ih =>
    rw [absorbAll_cons, (within b (List.mem_cons_self ..)).absorb_eq]
    exact ih fun x mem => within x (List.mem_cons_of_mem b mem)

section
variable (s : TrialStatus) (offset : Option Duration) (bs : List Bracket)

theorem absorbAll_eq : s.absorbAll offset bs =
    { s with
      startTime := (s.absorbAll offset bs).startTime
      completionTime := (s.absorbAll offset bs).completionTime } := by
  induction bs generalizing s with
  | nil => rfl
  | cons b bs ih => exact ih (s.absorb b offset).1

theorem completionTime_absorbAll :
    (s.absorbAll offset bs).completionTime = bs.foldl (fun a b => (earliest a b.finished).1) s.completionTime := by
  induction bs generalizing s with
  | nil => rfl
  | cons b bs ih => exact ih (s.absorb b offset).1

theorem startTime_absorbAll :
    (s.absorbAll offset bs).startTime = bs.foldl (fun a b => (latest a b.started offset).1) s.startTime := by
  induction bs generalizing s with
  | nil => rfl
  | cons b bs ih => exact ih (s.absorb b offset).1

theorem finish_absorbAll :
    Extreme (· ≤ ·) (s.completionTime.toList ++ bs.filterMap (·.finished)) (s.absorbAll offset bs).completionTime := by
  rw [completionTime_absorbAll]
  exact (Extreme.toList Instant.le_refl _).foldl Instant.le_trans Instant.le_refl earliest_picks (·.finished) bs

theorem start_absorbAll :
    Extreme (· ≥ ·) (s.startTime.toList ++ bs.filterMap (·.started)) (s.absorbAll none bs).startTime := by
  have start := @Extreme.toList (· ≥ ·) Instant.le_refl s.startTime
  rw [startTime_absorbAll]
  exact start.foldl Instant.ge_trans Instant.le_refl latest_picks (·.started) bs

end

theorem latest_source {current candidate : Option Instant} (changed : (latest current candidate offset).1 ≠ current) :
    ∃ x, candidate = some x ∧ (latest current candidate offset).1 = some (shifted x offset) := by
  have flag : (latest current candidate offset).2 = true := by
    by_contra kept
    exact changed (latest_unchanged (Bool.eq_false_iff.mpr kept))
  obtain ⟨x, rfl, later⟩ := latest_flag_iff.mp flag
  refine ⟨x, rfl, ?_⟩
  cases current with
  | none => rfl
  | some c => simp [latest, later c rfl]

theorem source_absorbAll (s : TrialStatus) (changed : (s.absorbAll offset bs).startTime ≠ s.startTime) :
    ∃ b ∈ bs, ∃ x, b.started = some x ∧ (s.absorbAll offset bs).startTime = some (shifted x offset) := by
  induction bs generalizing s with
  | nil => exact absurd rfl changed
  | cons b bs ih =>
    rw [absorbAll_cons] at changed ⊢
    by_cases later : ((s.absorb b offset).1.absorbAll offset bs).startTime = (s.absorb b offset).1.startTime
    · rw [later] at changed ⊢
      obtain ⟨x, started, taken⟩ := latest_source changed
      exact ⟨b, List.mem_cons_self .., x, started, taken⟩
    · obtain ⟨c, mem, found⟩ := ih (s.absorb b offset).1 later
      exact ⟨c, List.mem_cons_of_mem b mem, found⟩

theorem absorbAll_perm (s : TrialStatus) (perm : bs.Perm bs') : s.absorbAll none bs = s.absorbAll none bs' := by
  have start := Extreme.of_perm Instant.ge_trans Instant.le_refl
    (fun _ _ later earlier => Instant.le_antisymm earlier later)
    ((perm.filterMap _).append_left _) (s.start_absorbAll bs) (s.start_absorbAll bs')
  have finish := Extreme.of_perm Instant.le_trans Instant.le_refl (fun _ _ => Instant.le_antisymm)
    ((perm.filterMap _).append_left _) (s.finish_absorbAll none bs) (s.finish_absorbAll none bs')
  rw [s.absorbAll_eq none bs, s.absorbAll_eq none bs', start, finish]

structure Bracketed (s : TrialStatus) (bs : List Bracket) (offset : Option Duration) (u : TrialStatus) : Prop where
  finish : Extreme (· ≤ ·) (s.completionTime.toList ++ bs.filterMap (·.finished)) u.completionTime
  forward : ∀ x, s.startTime = some x → ∃ y, u.startTime = some y ∧ x ≤ y
  reached : ∀ b ∈ bs, ∀ x, b.started = some x → ∃ y, u.startTime = some y ∧ x ≤ y
  source : u.startTime ≠ s.startTime → ∃ b ∈ bs, ∃ x y, b.started = some x ∧ u.startTime = some y ∧ x.Moved offset y
  unshifted : offset = none → Extreme (· ≥ ·) (s.startTime.toList ++ bs.filterMap (·.started)) u.startTime

/-- When brackets are absorbed in a row, each one says whether it has moved a time, and moves nothing else. In the
end the completion is the earliest finish, and the start has moved forward beyond every start, to one of them with
the offset. Brackets that were absorbed change nothing when they come again, in whatever order. Without an offset
the start is the latest one, and the order of the brackets makes no difference. -/
theorem absorbing_narrows_times (s : TrialStatus) (bs : List Bracket) (offset : Option Duration) :
    (∀ before b after, bs = before ++ b :: after → ∃ moved,
      (s.absorbAll offset before).absorb b offset = (s.absorbAll offset (before ++ [b]), moved) ∧
        Absorbed (s.absorbAll offset before) (s.absorbAll offset (before ++ [b])) moved) ∧
      Bracketed s bs offset (s.absorbAll offset bs) ∧
      (∀ again, again ⊆ bs → (s.absorbAll offset bs).absorbAll offset again = s.absorbAll offset bs ∧
        ∀ b ∈ again, (s.absorbAll offset bs).absorb b offset = (s.absorbAll offset bs, false)) ∧
      (offset = none → ∀ bs', bs.Perm bs' → s.absorbAll offset bs' = s.absorbAll offset bs) := by
  refine ⟨?_, ?_, ?_, ?_⟩
  · intro before b after split
    rw [absorbAll_concat]
    exact ⟨_, rfl, absorbed (s.absorbAll offset before) b offset⟩
  · refine ⟨s.finish_absorbAll offset bs, (s.narrows_absorbAll offset bs).start,
      fun b mem => (s.within_absorbAll offset mem).start, ?_, ?_⟩
    · intro changed
      obtain ⟨b, mem, x, started, taken⟩ := s.source_absorbAll changed
      exact ⟨b, mem, x, _, started, taken, x.moved_shifted offset⟩
    · rintro rfl
      exact s.start_absorbAll bs
  · intro again seen
    have within : ∀ b ∈ again, (s.absorbAll offset bs).Within b := fun b mem =>
      s.within_absorbAll offset (seen mem)
    exact ⟨absorbAll_of_within within, fun b mem => (within b mem).absorb_eq offset⟩
  · rintro rfl bs' perm
    exact (s.absorbAll_perm perm).symm

/-- The second of two starts falls between the first one and where its offset has moved it. -/
theorem shifted_start_hides_second :
    let at_ (n : UInt64) : Instant := shifted default (some (.ofSeconds n))
    let offset := some (Duration.ofSeconds 30)
    let early : Bracket := ⟨some (at_ 1), some (at_ 9)⟩
    let late : Bracket := ⟨some (at_ 20), some (at_ 7)⟩
    let u := TrialStatus.empty.absorbAll offset [early, late]
    u.startTime = some (at_ 31) ∧ u.completionTime = some (at_ 7) ∧ (∃ x : Instant, x.Moved offset (at_ 31)) ∧
      u.absorbAll offset [late, early, late] = u ∧
      TrialStatus.empty.absorbAll none [late, early] = TrialStatus.empty.absorbAll none [early, late] := by
  intro at_ offset early late u
  obtain ⟨-, bracketed, again, -⟩ := absorbing_narrows_times .empty [early, late] offset
  obtain ⟨-, -, -, unordered⟩ := absorbing_narrows_times .empty [early, late] none
  have start : u.startTime = some (at_ 31) := by decide +kernel
  obtain ⟨b, mem, x, y, started, taken, moved⟩ := bracketed.source (start ▸ Option.some_ne_none _)
  obtain rfl : at_ 31 = y := Option.some.inj (start.symm.trans taken)
  refine ⟨start, by decide +kernel, ⟨x, moved⟩, (again _ ?_).1, unordered rfl _ (.swap ..)⟩
  simp

end TrialStatus

end TrialControl
