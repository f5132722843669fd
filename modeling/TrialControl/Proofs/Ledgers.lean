import TrialControl.Trial.Basic

/-!
# Recording conditions

After a record the ledger answers with the new standing for its kind and as before for every other
kind. It is the same ledger exactly when the kind already had the standing.
-/

namespace TrialControl

def Condition.taking (now : Instant) (c : Condition) (standing : Standing) : Condition :=
  if c.standing = standing then c else { c with standing, since := now }

namespace Condition

theorem standing_taking (now : Instant) (c : Condition) (standing : Standing) :
    (c.taking now standing).standing = standing := by
  unfold taking
  split
  · next same => exact same
  · rfl

theorem since_taking (now : Instant) (c : Condition) (standing : Standing) :
    (c.taking now standing).since = if standing = c.standing then c.since else now := by
  unfold taking
  by_cases same : c.standing = standing
  · rw [if_pos same, if_pos same.symm]
  · rw [if_neg same, if_neg (Ne.symm same)]

theorem foldl_taking (now : Instant) (c : Condition) (standings : List Standing) :
    (standings.foldl (taking now) c).standing = standings.getLast?.getD c.standing ∧
      (standings.foldl (taking now) c).since = if ∀ s ∈ standings, s = c.standing then c.since else now := by
  induction standings generalizing c with
  | nil => simp
  | cons s standings ih =>
    obtain ⟨stands, since⟩ := ih (c.taking now s)
    rw [c.standing_taking now s] at stands since
    refine ⟨?_, ?_⟩
    · rw [List.foldl_cons, stands]
      cases standings <;> simp [List.getLast?_cons]
    · rw [List.foldl_cons, since, c.since_taking now s]
      by_cases same : s = c.standing
      · simp [same]
      · simp [same]

end Condition

namespace Ledger

def standing? (l : Ledger) (kind : ConditionKind) : Option Standing := (l.find? kind).map (·.standing)

theorem compare?_eq (l : Ledger) (kind : ConditionKind) (status : Truth) :
    l.compare? kind status = (l.standing? kind).map fun s => s.status == status := by
  simp [compare?, standing?, Option.map_map, Function.comp_def]

theorem holds_eq (l : Ledger) (kind : ConditionKind) (status : Truth) :
    l.holds kind status = (l.standing? kind).any fun s => s.status == status := by
  rw [holds, compare?_eq]
  cases l.standing? kind <;> rfl

theorem holds_congr {l l' : Ledger} {kind : ConditionKind} (same : l'.find? kind = l.find? kind) (status : Truth) :
    l'.holds kind status = l.holds kind status := by
  rw [holds, holds, compare?, compare?, same]

theorem changes_iff (l : Ledger) (kind : ConditionKind) (standing : Standing) :
    l.changes kind standing = true ↔ l.standing? kind ≠ some standing := by
  unfold changes standing?
  cases l.find? kind <;> simp

section
variable (kind : ConditionKind) (standing : Standing) (now : Instant)

theorem find?_recordIn_of_ne {other : ConditionKind} (h : other ≠ kind) (cs : List Condition) :
    (recordIn kind standing now cs).find? (·.kind == other) = cs.find? (·.kind == other) := by
  induction cs with
  | nil => simp [recordIn, Ne.symm h]
  | cons c cs ih =>
    unfold recordIn
    by_cases hc : c.kind = kind
    · have : ¬ c.kind = other := fun e => h (e.symm.trans hc)
      by_cases hs : c.standing = standing <;> simp [hc, hs, Ne.symm h]
    · rw [if_neg hc, List.find?_cons, List.find?_cons, ih]

theorem find?_recordIn_self (cs : List Condition) :
    (recordIn kind standing now cs).find? (·.kind == kind) =
      some (((cs.find? (·.kind == kind)).map (·.taking now standing)).getD ⟨kind, standing, now⟩) := by
  induction cs with
  | nil => simp [recordIn]
  | cons c cs ih =>
    unfold recordIn
    by_cases hc : c.kind = kind
    · by_cases hs : c.standing = standing <;> simp [hc, hs, Condition.taking]
    · simp [hc, ih]

theorem recordIn_eq_self_iff (cs : List Condition) :
    recordIn kind standing now cs = cs ↔ (cs.find? (·.kind == kind)).map (·.standing) = some standing := by
  induction cs with
  | nil => simp [recordIn]
  | cons c cs ih =>
    unfold recordIn
    by_cases hc : c.kind = kind
    · by_cases hs : c.standing = standing
      · simp [hc, hs]
      · simp only [hc, hs, if_true, if_false, List.find?_cons, beq_self_eq_true, Option.map_some,
          Option.some.injEq, List.cons.injEq, and_true, iff_false]
        intro e
        exact hs (congrArg Condition.standing e).symm
    · simp [hc, ih]

variable (l : Ledger)

theorem find?_record_of_ne {other : ConditionKind} (h : other ≠ kind) :
    (l.record kind standing now).find? other = l.find? other := find?_recordIn_of_ne kind standing now h l.entries

theorem find?_record_self : (l.record kind standing now).find? kind =
    some (((l.find? kind).map (·.taking now standing)).getD ⟨kind, standing, now⟩) :=
  find?_recordIn_self kind standing now l.entries

theorem find?_record_of_some {other : ConditionKind} {c : Condition} (found : l.find? other = some c) :
    ∃ last : Option Standing,
      (l.record kind standing now).find? other = some (last.toList.foldl (Condition.taking now) c) := by
  by_cases h : other = kind
  · subst h
    exact ⟨some standing, by simp [find?_record_self, found]⟩
  · exact ⟨none, (find?_record_of_ne kind standing now l h).trans found⟩

theorem standing?_record (other : ConditionKind) :
    (l.record kind standing now).standing? other = if other = kind then some standing else l.standing? other := by
  by_cases h : other = kind
  · subst h
    rw [if_pos rfl, standing?, find?_record_self]
    cases l.find? other with
    | none => rfl
    | some c => exact congrArg some (c.standing_taking now standing)
  · rw [if_neg h, standing?, find?_record_of_ne kind standing now l h]
    rfl

theorem record_eq_self_iff : l.record kind standing now = l ↔ l.standing? kind = some standing := by
  cases l with
  | mk cs =>
    rw [record, Ledger.mk.injEq]
    exact recordIn_eq_self_iff kind standing now cs

theorem holds_record (other : ConditionKind) (status : Truth) :
    (l.record kind standing now).holds other status =
      if other = kind then standing.status == status else l.holds other status := by
  rw [holds_eq, standing?_record, holds_eq]
  by_cases h : other = kind <;> simp [h]

end

end Ledger

end TrialControl
