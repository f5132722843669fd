import TrialControl.Proofs.Closings
import TrialControl.Proofs.Crowds
import TrialControl.Trial.Draft

/-!
# Closed trials

A trial that is finished or deleted is closed for good: whatever the passes of the trial have read
before, and in whatever order they go on, none of them changes it any more. A pass that decides on a
failure and one that decides on completion never both take effect.
-/

namespace TrialControl

theorem Trial.isTorn_congr {t u : Trial} (h : u.status.conditions = t.status.conditions) : u.isTorn = t.isTorn := by
  rw [isTorn, isTorn, h]

theorem Trial.isFinished_congr {t u : Trial} (h : u.status.conditions = t.status.conditions) :
    u.isFinished = t.isFinished := by
  rw [isFinished, isFinished, h]

namespace Store

def Closed (s : Store) (key : ObjectKey) : Prop := ∃ t, s.trials.get? key = some t ∧ t.isLive = false

def Intact (s : Store) (key : ObjectKey) : Prop := ∀ t, s.trials.get? key = some t → t.isTorn = false

/-- A write that leaves the conditions of a trial alone. -/
def KeepsConditions (key : ObjectKey) (s : Store) (w : Write) : Prop :=
  ((s.after w).trials.get? key).map (·.status.conditions) = (s.trials.get? key).map (·.status.conditions)

variable {s : Store} {key : ObjectKey} {w : Write}

theorem after_deleted (keyed : s.Keyed) {t u : Trial} (there : s.trials.get? key = some t)
    (now : (s.after w).trials.get? key = some u) (deleted : t.metadata.isDeleted = true) :
    u.metadata.isDeleted = true := by
  rcases after_effect s w with ⟨trials, -⟩ | ⟨puts, trials, -⟩
  · rw [trials, there] at now
    cases now
    exact deleted
  · rw [trials, Table.get?_insert] at now
    split at now
    · next here =>
      cases now
      cases puts with
      | create absent =>
        rw [← here, there] at absent
        cases absent
      | delete found => rfl
      | @replace stored v part found fresh differs =>
        rw [Part.key_merge, keyed _ _ found] at here
        rw [← here, there] at found
        cases found
        exact (congrArg Option.isSome (part.deletedAt_merge t v)).trans deleted
    · rw [there] at now
      cases now
      exact deleted

theorem keepsConditions_markDeleted (keyed : s.Keyed) (key other : ObjectKey) (at_ : Instant) :
    KeepsConditions key s (.markDeleted other at_) := by
  unfold KeepsConditions
  rcases after_effect s (.markDeleted other at_) with ⟨trials, -⟩ | ⟨puts, trials, -⟩
  · rw [trials]
  · rw [trials, Table.get?_insert]
    split
    · next here =>
      cases puts with
      | @delete _ _ t there =>
        have same : key = other := here.trans (keyed other t there)
        rw [same, there]
        rfl
    · rfl

end Store

namespace Crowd

open Pass
open Store (KeepsConditions)

variable {s : Store} {key : ObjectKey} {c d e : Crowd} {m n : Nat}

/-! ## Steps -/

theorem closed_pass (sound : c.Sound key) (closed : c.store.Closed key) (step : PassStep key c d) :
    d.store.trials.get? key = c.store.trials.get? key := by
  obtain ⟨t, there, shut⟩ := closed
  obtain ⟨asked, progress⟩ := sound.progress step
  cases progress with
  | none same => exact same
  | transition found live told made stored =>
    rw [there] at found
    cases found
    rw [shut] at live
    cases live

theorem closed_step (sound : c.Sound key) (closed : c.store.Closed key) (step : Step key (KeepsConditions key) c d) :
    d.store.Closed key := by
  obtain ⟨t, there, shut⟩ := closed
  cases step with
  | pass step => exact ⟨t, (closed_pass sound ⟨t, there, shut⟩ step).trans there, shut⟩
  | @work w allowed =>
    unfold KeepsConditions at allowed
    rw [there, Option.map_some, Option.map_eq_some_iff] at allowed
    obtain ⟨u, now, same⟩ := allowed
    refine ⟨u, now, ?_⟩
    unfold Trial.isLive at shut ⊢
    rw [Trial.isFinished_congr same]
    cases deleted : t.metadata.isDeleted with
    | true => simp [Store.after_deleted sound.keyed there now deleted]
    | false =>
      rw [deleted, Bool.not_false, Bool.and_true] at shut
      simp [shut]

theorem intact_step (sound : c.Sound key) (intact : c.store.Intact key) (step : Step key (KeepsConditions key) c d) :
    d.store.Intact key := by
  intro u now
  cases step with
  | pass step =>
    obtain ⟨asked, progress⟩ := sound.progress step
    cases progress with
    | none same =>
      rw [same] at now
      exact intact u now
    | @transition settings now' t v action there live told made stored =>
      rw [stored] at now
      cases now
      have same := congrArg TrialStatus.conditions (Part.status_merge (.toUpdate t.spec v) t v.syncPhase)
      exact (Trial.isTorn_congr same).trans (made.untorn live)
  | @work w allowed =>
    unfold KeepsConditions at allowed
    rw [now, Option.map_some, eq_comm, Option.map_eq_some_iff] at allowed
    obtain ⟨t, there, same⟩ := allowed
    rw [Trial.isTorn_congr same.symm]
    exact intact t there

/-! ## Runs -/

theorem Run.closed (run : Run key (KeepsConditions key) c n d) (sound : c.Sound key)
    (fits : c.store.version.toNat + n < UInt64.size) (closed : c.store.Closed key) : d.store.Closed key := by
  induction run with
  | start => exact closed
  | @step n d e run step ih =>
    have before := (run.sound sound (by omega)).1
    exact closed_step before (ih (by omega)) step

theorem Run.intact (run : Run key (KeepsConditions key) c n d) (sound : c.Sound key)
    (fits : c.store.version.toNat + n < UInt64.size) (intact : c.store.Intact key) : d.store.Intact key := by
  induction run with
  | start => exact intact
  | @step n d e run step ih =>
    have before := (run.sound sound (by omega)).1
    exact intact_step before (ih (by omega)) step

/-- Once a trial is closed it stays so, and no pass of it changes it, whatever the pass has read before.
A trial that was not failed and complete at once never becomes so. Passes and other work come in any
order; only the conditions are written by nobody else, and the counter of versions has not come round. -/
theorem closed_for_good (built : s.Built m) (run : Run key (KeepsConditions key) ⟨s, []⟩ n c)
    (fits : m + n < UInt64.size) :
    (c.store.Closed key → ∀ {k : Nat} {d : Crowd}, Run key (KeepsConditions key) c k d → m + n + k < UInt64.size →
      d.store.Closed key ∧ ∀ e, PassStep key d e → e.store.trials.get? key = d.store.trials.get? key) ∧
    (s.Intact key → c.store.Intact key) := by
  have start := sound_of_built built (by omega) key
  have version := built.version (by omega)
  obtain ⟨sound, counted⟩ := run.sound start (by simp only [version]; exact fits)
  simp only [version] at counted
  constructor
  · intro closed k d later fits'
    have after := later.closed sound (by omega) closed
    exact ⟨after, fun e step => closed_pass (later.sound sound (by omega)).1 after step⟩
  · exact run.intact start (by simp only [version]; exact fits)

/-- A pass that has read a trial comes to its commit after the deletion of the trial, and is refused. -/
theorem deletion_stops_commit :
    let key : ObjectKey := ⟨"ns", "t1"⟩
    let now : Instant := default
    let s := Store.empty.after (.createTrial (Draft.named "ns" "t1" now).build)
    let t := (Draft.named "ns" "t1" now).build.withVersion 1
    let c : Crowd := ⟨s.after (.markDeleted key now), [commit t.spec (t.record .stable (.plain .true) now) .done]⟩
    (∃ m n, s.Built m ∧ Run key (KeepsConditions key) ⟨s, []⟩ n c ∧ m + n < UInt64.size) ∧ c.store.Closed key ∧
      s.Intact key ∧ c.store.Intact key ∧ PassStep key c ⟨c.store, [.done (.ok .requeue)]⟩ ∧
      ∀ e, PassStep key c e → e.store.trials.get? key = c.store.trials.get? key := by
  intro key now s t c
  have stored : s.trials.get? key = some t := by decide +kernel
  have there : s.getTrial key = .ok t := by rw [Store.getTrial, stored]
  have built := Store.Built.empty.write (.createTrial (Draft.named "ns" "t1" now).build)
  have begin : PassStep key ⟨s, []⟩ ⟨s, [reconcile .standard key now]⟩ := .begin .standard now
  have read : PassStep key ⟨s, [reconcile .standard key now]⟩
      ⟨s, [commit t.spec (t.record .stable (.plain .true) now) .done]⟩ :=
    @PassStep.answer key ⟨s, [reconcile .standard key now]⟩ [] [] (.getTrial key) _ (Except.ok t) s rfl
      ⟨there.symm, rfl⟩
  have gone : c.store.trials.get? key = some { t.withVersion 2 with metadata.deletedAt := some now } := by
    decide +kernel
  have allowed := Store.keepsConditions_markDeleted built.keyed key key now
  have run : Run key (KeepsConditions key) ⟨s, []⟩ _ c :=
    .step (.step (.step .start (.pass begin)) (.pass read)) (.work allowed)
  have conflict : (.error (.conflict .trial key.text), c.store) =
      c.store.taking (c.store.replaceTrial (t.record .stable (.plain .true) now).syncPhase .status) := by
    rw [c.store.replaceTrial_conflict (t := (t.record .stable (.plain .true) now).syncPhase) gone
      (by decide +kernel)]
    rfl
  have refused : PassStep key c ⟨c.store, [.done (.ok .requeue)]⟩ :=
    @PassStep.answer key c [] [] (.updateTrial (t.record .stable (.plain .true) now).syncPhase .status) _
      (Except.error (.conflict .trial key.text)) c.store rfl conflict
  have fits : 0 + Store.empty.given s + (0 + s.given s + s.given s + s.given c.store) < UInt64.size := by decide +kernel
  have closed : c.store.Closed key := ⟨_, gone, by decide +kernel⟩
  have intact : s.Intact key := by
    intro u hu
    rw [stored] at hu
    cases hu
    decide +kernel
  have result := closed_for_good built run fits
  exact ⟨⟨_, _, built, run, fits⟩, closed, intact, result.2 intact, refused, (result.1 closed .start fits).2⟩
end Crowd

end TrialControl
