import TrialControl.Store.Write

/-!
# Stored trials

A write changes the trial of at most one key: it creates a trial, asks for its deletion, or replaces a
part of a trial of the same version. What is stored has the next version then. So as long as the
counter of versions has not gone round, a version that a key once had never comes back for another
content.
-/

namespace TrialControl

def Trial.withVersion (t : Trial) (v : UInt64) : Trial := { t with metadata.version := v }

theorem Part.key_merge (part : Part) (stored t : Trial) : (part.merge stored t).key = stored.key := by
  cases part <;> rfl

theorem Part.status_merge (part : Part) (stored t : Trial) : (part.merge stored t).status = t.status := by
  cases part <;> rfl

theorem Part.deletedAt_merge (part : Part) (stored t : Trial) :
    (part.merge stored t).metadata.deletedAt = stored.metadata.deletedAt := by
  cases part <;> rfl

namespace Store

/-! ## Single reads -/

theorem getTrial_eq_ok {s : Store} {key : ObjectKey} {t : Trial} :
    s.getTrial key = .ok t ↔ s.trials.get? key = some t := by
  unfold getTrial
  cases s.trials.get? key <;> simp

theorem getExperiment_eq_ok {s : Store} {key : ObjectKey} {e : Experiment} :
    s.getExperiment key = .ok e ↔ s.experiments.get? key = some e := by
  unfold getExperiment
  cases s.experiments.get? key <;> simp

/-! ## Single writes -/

section
variable (s : Store)

theorem replaceTrial_eq (t : Trial) (part : Part) :
    s.replaceTrial t part =
      match s.trials.get? t.key with
      | none => .error (.notFound .trial t.key.text)
      | some stored =>
        if stored.metadata.version ≠ t.metadata.version then .error (.conflict .trial t.key.text)
        else if part.agrees stored t then .ok (stored, s)
        else .ok ((s.putTrial (part.merge stored t)).1,
          { (s.putTrial (part.merge stored t)).2 with commits := s.commits + 1 }) := by
  unfold replaceTrial getTrial
  cases s.trials.get? t.key with
  | none => rfl
  | some stored =>
    by_cases hv : stored.metadata.version = t.metadata.version
    · by_cases ha : part.agrees stored t = true <;> simp [bind, Except.bind, pure, Except.pure, hv, ha]
      rfl
    · simp [bind, Except.bind, hv]; rfl

theorem replaceTrial_conflict {t stored : Trial} (there : s.trials.get? t.key = some stored)
    (stale : stored.metadata.version ≠ t.metadata.version) (part : Part) :
    s.replaceTrial t part = .error (.conflict .trial t.key.text) := by
  rw [replaceTrial_eq, there]
  exact if_pos stale

theorem replaceTrial_of_differs {t stored : Trial} (there : s.trials.get? t.key = some stored)
    (fresh : stored.metadata.version = t.metadata.version) {part : Part} (differs : part.agrees stored t = false) :
    s.replaceTrial t part = .ok ((s.putTrial (part.merge stored t)).1,
      { (s.putTrial (part.merge stored t)).2 with commits := s.commits + 1 }) := by
  rw [replaceTrial_eq, there]
  dsimp only
  rw [if_neg (not_not_intro fresh), differs]
  rfl

theorem markDeleted_eq (key : ObjectKey) (at_ : Instant) :
    s.markDeleted key at_ =
      match s.trials.get? key with
      | none => .error (.notFound .trial key.text)
      | some t => .ok (s.putTrial { t with metadata.deletedAt := some at_ }).2 := by
  unfold markDeleted getTrial
  cases s.trials.get? key <;> rfl

end

inductive Puts (s : Store) : Write → Trial → Prop where
  | create {t : Trial} (absent : s.trials.get? t.key = none) : Puts s (.createTrial t) t
  | delete {key : ObjectKey} {at_ : Instant} {t : Trial} (there : s.trials.get? key = some t) :
      Puts s (.markDeleted key at_) { t with metadata.deletedAt := some at_ }
  | replace {stored t : Trial} {part : Part} (there : s.trials.get? t.key = some stored)
      (fresh : stored.metadata.version = t.metadata.version) (differs : part.agrees stored t = false) :
      Puts s (.updateTrial t part) (part.merge stored t)

inductive Effect (s : Store) (w : Write) (u : Store) : Prop where
  | aside (trials : u.trials = s.trials) (version : u.version = s.version ∨ u.version = s.version + 1)
  | put {t : Trial} (puts : s.Puts w t)
      (trials : u.trials = s.trials.insert t.key (t.withVersion (s.version + 1))) (version : u.version = s.version + 1)

theorem after_effect (s : Store) (w : Write) : s.Effect w (s.after w) := by
  cases w with
  | createTrial t =>
    simp only [after, write, createTrial]
    cases there : s.trials.contains t.key with
    | true => exact .aside rfl (.inl rfl)
    | false => exact .put (.create (by simpa [Table.contains] using there)) rfl rfl
  | markDeleted key at_ =>
    simp only [after, write, markDeleted_eq]
    cases there : s.trials.get? key with
    | none => exact .aside rfl (.inl rfl)
    | some t => exact .put (.delete there) rfl rfl
  | updateTrial t part =>
    simp only [after, write, replaceTrial_eq]
    cases there : s.trials.get? t.key with
    | none => exact .aside rfl (.inl rfl)
    | some stored =>
      dsimp only
      by_cases fresh : stored.metadata.version = t.metadata.version
      · rw [if_neg (not_not_intro fresh)]
        cases same : part.agrees stored t with
        | true => exact .aside rfl (.inl rfl)
        | false => exact .put (.replace there fresh same) rfl rfl
      · rw [if_pos fresh]
        exact .aside rfl (.inl rfl)
  | createWorkload w =>
    simp only [after, write, createWorkload]
    cases s.workloads.contains w.key with
    | true => exact .aside rfl (.inl rfl)
    | false => exact .aside rfl (.inr rfl)
  | updateWorkloadStatus key status =>
    simp only [after, write, updateWorkloadStatus]
    cases s.workloads.get? key with
    | none => exact .aside rfl (.inl rfl)
    | some w => exact .aside rfl (.inr rfl)
  | putExperiment e => exact .aside rfl (.inr rfl)
  | putWorkload w => exact .aside rfl (.inr rfl)
  | putUnit u => exact .aside rfl (.inr rfl)
  | putService e => exact .aside rfl (.inl rfl)
  | setRollout target r => exact .aside rfl (.inl rfl)

theorem trials_after_createWorkload (s : Store) (w : Workload) : (s.after (.createWorkload w)).trials = s.trials := by
  rcases after_effect s (.createWorkload w) with ⟨trials, -⟩ | ⟨puts, -, -⟩
  · exact trials
  · cases puts

/-! ## The counter -/

variable {s u : Store} {w : Write} {n : Nat} {key : ObjectKey}

theorem Effect.version (effect : s.Effect w u) : u.version = s.version ∨ u.version = s.version + 1 := by
  cases effect with
  | aside trials version => exact version
  | put puts trials version => exact .inr version

theorem given_of_tick (h : u.version = s.version + 1) : s.given u = 1 := by
  unfold given
  rw [h, UInt64.add_comm, UInt64.add_sub_cancel]
  rfl

theorem given_after (s : Store) (w : Write) :
    ((s.after w).version = s.version ∧ s.given (s.after w) = 0) ∨
      ((s.after w).version = s.version + 1 ∧ s.given (s.after w) = 1) := by
  rcases (after_effect s w).version with h | h
  · exact .inl ⟨h, by rw [given, h, UInt64.sub_self]; rfl⟩
  · exact .inr ⟨h, given_of_tick h⟩

theorem version_after (fits : s.version.toNat + s.given (s.after w) < UInt64.size) :
    (s.after w).version.toNat = s.version.toNat + s.given (s.after w) := by
  rcases given_after s w with ⟨hv, hg⟩ | ⟨hv, hg⟩
  · rw [hv, hg, Nat.add_zero]
  · rw [hg] at fits ⊢
    rw [hv, UInt64.toNat_add]
    exact Nat.mod_eq_of_lt fits

theorem Built.version (built : Built n s) (fits : n < UInt64.size) : s.version.toNat = n := by
  induction built with
  | empty => rfl
  | @write n s built w ih =>
    have before := ih (by omega)
    rw [version_after (by omega), before]

theorem Built.writes (built : Built n s) (ws : List Write) : ∃ m ≤ n + ws.length, Built m (ws.foldl after s) := by
  induction ws generalizing n s with
  | nil => exact ⟨n, Nat.le_refl n, built⟩
  | cons w ws ih =>
    obtain ⟨m, most, written⟩ := ih (built.write w)
    refine ⟨m, Nat.le_trans most ?_, written⟩
    rw [List.length_cons]
    rcases given_after s w with ⟨-, given⟩ | ⟨-, given⟩ <;> omega

/-! ## Keys and versions -/

def Keyed (s : Store) : Prop := ∀ key t, s.trials.get? key = some t → t.key = key

def Dated (s : Store) : Prop := ∀ key t, s.trials.get? key = some t → t.metadata.version ≤ s.version

theorem Keyed.after (keyed : s.Keyed) (w : Write) : (s.after w).Keyed := by
  intro key t
  rcases after_effect s w with ⟨trials, -⟩ | ⟨puts, trials, -⟩
  · rw [trials]
    exact keyed key t
  · rw [trials, Table.get?_insert]
    split
    · next here =>
      rintro ⟨⟩
      exact here.symm
    · exact keyed key t

theorem Built.keyed (built : Built n s) : s.Keyed := by
  induction built with
  | empty =>
    intro key t there
    cases there
  | write built w ih => exact ih.after w

theorem Dated.after (dated : s.Dated) (fits : s.version.toNat + s.given (s.after w) < UInt64.size) :
    (s.after w).Dated := by
  intro key t
  have grows : s.version ≤ (s.after w).version := by
    rw [UInt64.le_iff_toNat_le, version_after fits]
    exact Nat.le_add_right ..
  rcases after_effect s w with ⟨trials, -⟩ | ⟨puts, trials, version⟩
  · rw [trials]
    intro there
    exact UInt64.le_trans (dated key t there) grows
  · rw [trials, Table.get?_insert]
    split
    · rintro ⟨⟩
      rw [version]
      exact UInt64.le_refl _
    · intro there
      exact UInt64.le_trans (dated key t there) grows

theorem Built.dated (built : Built n s) (fits : n < UInt64.size) : s.Dated := by
  induction built with
  | empty =>
    intro key t there
    cases there
  | @write n s built w ih =>
    have before := built.version (by omega)
    exact (ih (by omega)).after (by omega)

/-! ## Trials that were read -/

/-- A trial that was read from the store at some time: what is stored with its version is that trial. -/
structure Read (s : Store) (key : ObjectKey) (t : Trial) : Prop where
  here : t.key = key
  present : s.trials.get? key ≠ none
  dated : t.metadata.version ≤ s.version
  same : ∀ u, s.trials.get? key = some u → u.metadata.version = t.metadata.version → u = t

theorem Read.of_get (keyed : s.Keyed) (dated : s.Dated) {t : Trial} (there : s.trials.get? key = some t) :
    s.Read key t := by
  refine ⟨keyed key t there, by simp [there], dated key t there, fun u hu _ => ?_⟩
  rw [there] at hu
  cases hu
  rfl

theorem present_after (present : s.trials.get? key ≠ none) (w : Write) : (s.after w).trials.get? key ≠ none := by
  rcases after_effect s w with ⟨trials, -⟩ | ⟨puts, trials, -⟩
  · rw [trials]
    exact present
  · rw [trials, Table.get?_insert]
    split
    · simp
    · exact present

theorem Read.after {t : Trial} (read : s.Read key t) (fits : s.version.toNat + s.given (s.after w) < UInt64.size) :
    (s.after w).Read key t := by
  have count := version_after fits
  have old := UInt64.le_iff_toNat_le.mp read.dated
  refine ⟨read.here, present_after read.present w, UInt64.le_iff_toNat_le.mpr (by omega), fun u => ?_⟩
  rcases after_effect s w with ⟨trials, -⟩ | ⟨puts, trials, version⟩
  · rw [trials]
    exact read.same u
  · rw [trials, Table.get?_insert]
    split
    · -- what is stored now has a version that nothing had before
      rintro ⟨⟩ h
      have := congrArg UInt64.toNat h
      have new : s.given (s.after w) = 1 := by
        rcases given_after s w with ⟨hv, -⟩ | ⟨-, hg⟩
        · rw [hv] at version
          simp at version
        · exact hg
      simp only [Trial.withVersion] at this
      rw [← version] at this
      omega
    · exact read.same u

end Store

end TrialControl
