import Mathlib.Data.List.Induction
import Mathlib.Data.List.Nodup
import TrialControl.Proofs.Ledgers

/-!
# Histories of ledgers

What is recorded of one kind does not touch what is recorded of another, so a ledger sums up its history kind by
kind: the kinds stand in the order of their first recordings, and the entry of a kind has the standing of the last
recording, since the first of the recordings at the end that say the same.
-/

namespace TrialControl

structure Recording where
  kind : ConditionKind
  standing : Standing
  now : Instant
deriving DecidableEq

theorem Condition.taking_eq (now : Instant) (c : Condition) (standing : Standing) :
    c.taking now standing = ⟨c.kind, standing, if standing = c.standing then c.since else now⟩ := by
  by_cases same : standing = c.standing
  · rw [taking, if_pos same.symm, if_pos same, same]
  · rw [taking, if_neg (Ne.symm same), if_neg same]

/-- A condition has the standing with which its recordings end, since the first of those at the end that have it. -/
def Condition.Concludes (c : Condition) (own : List Recording) : Prop :=
  ∃ before first same, own = before ++ first :: same ∧ (∀ r ∈ same, r.standing = first.standing) ∧
    (∀ r ∈ before.getLast?, r.standing ≠ first.standing) ∧ c.standing = first.standing ∧ c.since = first.now

namespace Condition.Concludes

variable {c : Condition} {own : List Recording}

theorem last (concludes : c.Concludes own) : own.getLast?.map (·.standing) = some c.standing := by
  obtain ⟨before, first, same, rfl, alike, -, stands, -⟩ := concludes
  cases ending : same.getLast? with
  | none => simp [List.getLast?_cons, ending, stands]
  | some r => simp [List.getLast?_cons, ending, stands, alike r (List.mem_of_getLast? ending)]

theorem singleton (r : Recording) : Concludes ⟨r.kind, r.standing, r.now⟩ [r] :=
  ⟨[], r, [], rfl, by simp, by simp, rfl, rfl⟩

theorem concat (concludes : c.Concludes own) (r : Recording) :
    (c.taking r.now r.standing).Concludes (own ++ [r]) := by
  by_cases again : r.standing = c.standing
  · obtain ⟨before, first, same, rfl, alike, changed, stands, since⟩ := concludes
    refine ⟨before, first, same ++ [r], by simp, ?_, changed, ?_, ?_⟩
    · intro x mem
      rcases List.mem_append.mp mem with mem | mem
      · exact alike x mem
      · rw [List.mem_singleton.mp mem, again, stands]
    · rw [c.standing_taking, again, stands]
    · rw [c.since_taking, if_pos again, since]
  · refine ⟨own, r, [], rfl, by simp, ?_, c.standing_taking r.now r.standing, ?_⟩
    · intro x ending same
      have last := concludes.last
      rw [Option.mem_def.mp ending, Option.map_some, Option.some.injEq, same] at last
      exact again last
    · rw [c.since_taking, if_neg again]

end Condition.Concludes

namespace Ledger

/-! ## One recording -/

section
variable (kind : ConditionKind) (standing : Standing) (now : Instant)

theorem recordIn_cases (cs : List Condition) :
    (kind ∉ cs.map (·.kind) ∧ recordIn kind standing now cs = cs ++ [⟨kind, standing, now⟩]) ∨
      ∃ front c back, cs = front ++ c :: back ∧ c.kind = kind ∧ kind ∉ front.map (·.kind) ∧
        recordIn kind standing now cs = front ++ c.taking now standing :: back := by
  induction cs with
  | nil => exact .inl ⟨by simp, rfl⟩
  | cons c cs ih =>
    rw [recordIn]
    by_cases here : c.kind = kind
    · rw [if_pos here]
      exact .inr ⟨[], c, cs, rfl, here, by simp, rfl⟩
    · rw [if_neg here]
      rcases ih with ⟨new, appended⟩ | ⟨front, d, back, rfl, found, earlier, taken⟩
      · exact .inl ⟨by simpa using ⟨Ne.symm here, by simpa using new⟩, by rw [appended]; rfl⟩
      · exact .inr ⟨c :: front, d, back, rfl, found, by simpa using ⟨Ne.symm here, by simpa using earlier⟩,
          by rw [taken]; rfl⟩

def kinds (l : Ledger) : List ConditionKind := l.entries.map (·.kind)

theorem kinds_record (l : Ledger) :
    (l.record kind standing now).kinds = if kind ∈ l.kinds then l.kinds else l.kinds ++ [kind] := by
  unfold kinds record
  rcases recordIn_cases kind standing now l.entries with ⟨new, appended⟩ | ⟨front, c, back, split, found, -, taken⟩
  · rw [appended, if_neg new, List.map_append]
    rfl
  · rw [taken, split, if_pos (by simp [found]), c.taking_eq]
    simp

theorem nodup_record {l : Ledger} (distinct : l.kinds.Nodup) : (l.record kind standing now).kinds.Nodup := by
  rw [kinds_record]
  split
  · exact distinct
  · next new => exact List.concat_eq_append ▸ distinct.concat new

theorem changes_iff_ne (l : Ledger) : l.changes kind standing = true ↔ l.record kind standing now ≠ l := by
  rw [changes_iff, Ne, Ne, record_eq_self_iff]

end

theorem find?_eq_none_iff {l : Ledger} {kind : ConditionKind} : l.find? kind = none ↔ kind ∉ l.kinds := by
  simp [find?, kinds]

theorem find?_of_mem {l : Ledger} (distinct : l.kinds.Nodup) {c : Condition} (mem : c ∈ l.entries) :
    l.find? c.kind = some c := by
  cases found : l.find? c.kind with
  | none => exact absurd (List.mem_map_of_mem mem) (find?_eq_none_iff.mp found)
  | some d =>
    have same : d.kind = c.kind := by simpa using List.find?_some found
    rw [List.inj_on_of_nodup_map distinct (List.mem_of_find?_eq_some found) mem same]

/-! ## All recordings -/

def recordAll (l : Ledger) (rs : List Recording) : Ledger := rs.foldl (fun l r => l.record r.kind r.standing r.now) l

theorem recordAll_concat (l : Ledger) (rs : List Recording) (r : Recording) :
    l.recordAll (rs ++ [r]) = (l.recordAll rs).record r.kind r.standing r.now := by
  simp [recordAll]

theorem nodup_recordAll (rs : List Recording) : (empty.recordAll rs).kinds.Nodup := by
  induction rs using List.reverseRecOn with
  | nil => exact .nil
  | append_singleton rs r ih =>
    rw [recordAll_concat]
    exact nodup_record r.kind r.standing r.now ih

theorem kinds_recordAll (rs : List Recording) : (empty.recordAll rs).kinds = (rs.map (·.kind)).eraseDups := by
  induction rs using List.reverseRecOn with
  | nil => rfl
  | append_singleton rs r ih =>
    rw [recordAll_concat, kinds_record, ih, List.map_append, List.eraseDups_append]
    by_cases known : r.kind ∈ rs.map (·.kind)
    · rw [if_pos (List.mem_eraseDups.mpr known)]
      simp [List.cons_removeAll, known]
    · rw [if_neg (mt List.mem_eraseDups.mp known)]
      simp [List.cons_removeAll, known]
      rfl

theorem concludes_recordAll {rs : List Recording} {kind : ConditionKind} {c : Condition}
    (found : (empty.recordAll rs).find? kind = some c) : c.Concludes (rs.filter (·.kind = kind)) := by
  induction rs using List.reverseRecOn generalizing c with
  | nil => cases found
  | append_singleton rs r ih =>
    rw [recordAll_concat] at found
    rw [List.filter_append]
    by_cases own : r.kind = kind
    · subst own
      rw [find?_record_self, Option.some.injEq] at found
      subst found
      have appended : [r].filter (·.kind = r.kind) = [r] := by simp
      rw [appended]
      cases earlier : (empty.recordAll rs).find? r.kind with
      | none =>
        -- nothing of this kind was recorded before
        have first : rs.filter (·.kind = r.kind) = [] := by
          rw [find?_eq_none_iff, kinds_recordAll, List.mem_eraseDups] at earlier
          simpa [List.filter_eq_nil_iff] using earlier
        rw [first]
        exact .singleton r
      | some d => exact (ih earlier).concat r
    · rw [find?_record_of_ne r.kind r.standing r.now _ (Ne.symm own)] at found
      have skipped : [r].filter (·.kind = kind) = [] := by simp [own]
      rw [skipped, List.append_nil]
      exact ih found

/-- After any recordings on an empty ledger the kinds are distinct and stand in the order of their first recordings.
The entry of a kind has the standing of the last recording of that kind, and its time is that of the first in the
longest run of recordings at the end that have this standing. Look-ups answer from this entry, and find none
exactly for kinds that were never recorded. From any ledger, a recording reports a change exactly if it makes one;
it appends an entry of a new kind or changes the first entry of its kind alone, and keeps kinds distinct. -/
theorem ledger_sums_up_history (rs : List Recording) :
    let l := empty.recordAll rs
    (l.entries.map (·.kind)).Nodup ∧ l.entries.map (·.kind) = (rs.map (·.kind)).eraseDups ∧
      (∀ c ∈ l.entries,
        (rs.filter (·.kind = c.kind)).getLast?.map (·.standing) = some c.standing ∧
        c.Concludes (rs.filter (·.kind = c.kind)) ∧ l.find? c.kind = some c ∧
        ∀ status, l.compare? c.kind status = some (c.standing.status == status) ∧
          l.holds c.kind status = (c.standing.status == status)) ∧
      (∀ kind status, (l.find? kind = none ↔ ∀ r ∈ rs, r.kind ≠ kind) ∧
        (l.compare? kind status = none ↔ ∀ r ∈ rs, r.kind ≠ kind) ∧
        ((∀ r ∈ rs, r.kind ≠ kind) → l.holds kind status = false)) ∧
      ∀ (m : Ledger) kind standing now, (m.changes kind standing = true ↔ m.record kind standing now ≠ m) ∧
        ((kind ∉ m.entries.map (·.kind) ∧
            (m.record kind standing now).entries = m.entries ++ [⟨kind, standing, now⟩]) ∨
          ∃ front c back, m.entries = front ++ c :: back ∧ c.kind = kind ∧ kind ∉ front.map (·.kind) ∧
            (m.record kind standing now).entries =
              front ++ ⟨kind, standing, if standing = c.standing then c.since else now⟩ :: back) ∧
        ((m.entries.map (·.kind)).Nodup → ((m.record kind standing now).entries.map (·.kind)).Nodup) := by
  intro l
  have distinct : l.kinds.Nodup := nodup_recordAll rs
  have absent (kind : ConditionKind) : l.find? kind = none ↔ ∀ r ∈ rs, r.kind ≠ kind := by
    rw [find?_eq_none_iff, kinds_recordAll, List.mem_eraseDups]
    simp
  refine ⟨distinct, kinds_recordAll rs, fun c mem => ?_, fun kind status => ⟨absent kind, ?_, fun never => ?_⟩,
    fun m kind standing now => ⟨m.changes_iff_ne kind standing now, ?_, nodup_record kind standing now⟩⟩
  · have found := find?_of_mem distinct mem
    have concludes := concludes_recordAll found
    refine ⟨concludes.last, concludes, found, fun status => ⟨?_, ?_⟩⟩
    · rw [compare?, found, Option.map_some]
    · rw [holds, compare?, found, Option.map_some, Option.getD_some]
  · rw [compare?, Option.map_eq_none_iff]
    exact absent kind
  · rw [holds, compare?, (absent kind).mpr never]
    rfl
  · rcases recordIn_cases kind standing now m.entries with new | ⟨front, c, back, split, found, earlier, taken⟩
    · exact .inl new
    · rw [c.taking_eq, found] at taken
      exact .inr ⟨front, c, back, split, found, earlier, taken⟩

/-- The trial waits, becomes stable and waits again: the second wait counts, although the clock was put back for it
and went on since. A condition that was not recorded does not hold, and is appended. -/
theorem second_wait_counts :
    let later : Instant := ⟨1, false, by decide, by decide, nofun⟩
    let wait : Standing := ⟨.false, "Waiting", "1 of 3"⟩
    let rs : List Recording := [⟨.stable, wait, later⟩, ⟨.failed, .plain .false, later⟩,
      ⟨.stable, .plain .true, later⟩, ⟨.stable, wait, default⟩, ⟨.failed, .plain .false, default⟩, ⟨.stable, wait, later⟩]
    let l := empty.recordAll rs
    l.find? .stable = some ⟨.stable, wait, default⟩ ∧ (∀ r ∈ rs, r.kind ≠ .observed) ∧
      l.holds .observed .true = false ∧ (l.entries.map (·.kind)).Nodup ∧
      ((l.record .observed wait later).entries.map (·.kind)).Nodup := by
  intro later wait rs l
  obtain ⟨distinct, -, entries, absent, recordings⟩ := ledger_sums_up_history rs
  have never : ∀ r ∈ rs, r.kind ≠ .observed := by decide
  exact ⟨(entries ⟨.stable, wait, default⟩ (by decide)).2.2.1, never, (absent .observed .true).2.2 never, distinct,
    (recordings l .observed wait later).2.2 distinct⟩

end Ledger

end TrialControl
