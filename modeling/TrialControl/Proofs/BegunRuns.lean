import TrialControl.Metric.Computed
import TrialControl.Proofs.Absorptions
import TrialControl.Proofs.HeldTrials
import TrialControl.Proofs.RunEnds
import TrialControl.Proofs.Views

/-!
# Runs that have begun

A container that has terminated has started before, so units that show a finish show a start. A trial takes both
from the same units, and neither is lost again: a trial whose run has ended has a start. This holds of every trial
that was stored, and so of those that passes have read and work with.
-/

namespace TrialControl

open Store (Write)
open Rehearsal (Play)

theorem StartedAt.of_finished {units : List ExecutionUnit} {f : Instant} (finished : FinishedAt units f) :
    ∃ x, StartedAt units x := by
  obtain ⟨u, here, started, code, reason, mem⟩ := finished
  exact ⟨started, u, here, .inr ⟨f, code, reason, mem⟩⟩

theorem Bracket.started_of_finished {units : List ExecutionUnit} {f : Instant}
    (finished : (ofUnits units).finished = some f) : ∃ x, (ofUnits units).started = some x := by
  have last := first_finished units
  rw [finished] at last
  obtain ⟨x, started⟩ := StartedAt.of_finished last.1
  have first := first_started units
  cases shown : (ofUnits units).started with
  | some y => exact ⟨y, rfl⟩
  | none =>
    rw [shown] at first
    exact absurd started (first x)

def TrialStatus.Begun (s : TrialStatus) : Prop := s.completionTime.isSome = true → s.startTime.isSome = true

theorem TrialStatus.begun_of_unended {s : TrialStatus} (unended : s.completionTime = none) : s.Begun := by
  intro ended
  rw [unended] at ended
  cases ended

theorem TrialStatus.Begun.absorb {s : TrialStatus} (begun : s.Begun) (units : List ExecutionUnit)
    (offset : Option Duration) : (s.absorb (Bracket.ofUnits units) offset).1.Begun := by
  have narrows := s.narrows_absorb (Bracket.ofUnits units) offset
  have within := s.within_absorb (Bracket.ofUnits units) offset
  intro ended
  cases finished : (Bracket.ofUnits units).finished with
  | some f =>
    obtain ⟨x, started⟩ := Bracket.started_of_finished finished
    obtain ⟨y, there, -⟩ := within.start x started
    rw [there]
    rfl
  | none =>
    have before : s.completionTime.isSome = true := by
      unfold TrialStatus.absorb earliest at ended
      rw [finished] at ended
      cases h : s.completionTime with
      | none => simp [h] at ended
      | some c => rfl
    obtain ⟨x, started⟩ := Option.isSome_iff_exists.mp (begun before)
    obtain ⟨y, there, -⟩ := narrows.start x started
    rw [there]
    rfl

namespace Pass

variable {settings : Settings} {now : Instant} {t u : Trial} {asked : Transcript} {action : Action}

theorem begun_absorb (begun : t.status.Begun) (units : List ExecutionUnit) (failures : List Failure) :
    (absorb t (Bracket.ofUnits units) failures now).1.status.Begun := by
  cases failures with
  | nil => exact begun.absorb units t.spec.startOffset
  | cons f rest =>
    exact TrialStatus.Begun.absorb (s := (t.record .failed ⟨.true, f.reason, f.message⟩ now).status) begun units
      t.spec.startOffset

theorem Transition.begun (made : Transition settings now t asked u action) (begun : t.status.Begun) :
    u.status.Begun := by
  by_cases same : u.status.completionTime = t.status.completionTime
  · -- a start is never lost
    intro ended
    rw [same] at ended
    obtain ⟨x, started⟩ := Option.isSome_iff_exists.mp (begun ended)
    obtain ⟨y, there, -⟩ := made.touch.narrows.start x started
    rw [there]
    rfl
  · obtain ⟨-, w, units, b, failures, -, view, -, rfl⟩ := made.keeps_end same
    have visible : w.view units ≠ .lagging := by simp [view]
    rw [Workload.view_of_visible visible] at view
    cases view
    exact begun_absorb begun units _

end Pass

namespace Chronicle

open Pass

variable {key : ObjectKey} {c : Chronicle} {s : Store} {m n : Nat}

theorem handed_begun : Handed (·.status.Begun) := by
  intro settings now t u x asked action made begun _ part version
  show (part.merge x u.syncPhase).status.Begun
  rw [part.status_merge]
  exact made.begun begun

theorem begun_of_made {d : Draft} {v : UInt64} (made : d.Made) : (d.build.withVersion v).status.Begun := by
  apply TrialStatus.begun_of_unended
  show d.trial.status.completionTime = none
  rw [made.blank.2]
  rfl

/-- From a new trial that only passes write, whatever else changes: the stored trial has a start if its run has
ended. When a pass asks for the duration of the run it gives the trial with both times, and the duration is computed
from them. -/
theorem ended_run_has_begun {d : Draft} {v : UInt64} (made : d.Made) (built : s.Built m)
    (drafted : s.trials.get? key = some (d.build.withVersion v)) (run : Run key (Spares key) ⟨s, [], []⟩ n c) :
    (∃ t, c.store.trials.get? key = some t ∧
      (t.status.completionTime.isSome = true → t.status.startTime.isSome = true)) ∧
    ∀ j ∈ c.passes, ∀ {m : Metric} {u : Trial} {target : MetricTarget}
      {next : Except CaptureFailure Captured → Plan Outcome}, j.plan = .ask (.capture m u target) next →
        m.kind = .computed → (Text.trim m.query = "" ∨ Text.trim m.query = "duration") →
          ∃ start finish, u.status.startTime = some start ∧ u.status.completionTime = some finish ∧
            m.compute u = .ok (.exactly (secondsOfMillis (finish.millisSince start))) := by
  have held := run.held built handed_begun (fun spared there begun => ⟨_, spared.trans there, begun⟩)
    ⟨_, drafted, begun_of_made made⟩
  refine ⟨held.stored, fun j mem m u target next asks kind query => ?_⟩
  obtain ⟨settings, now, reached⟩ := run.reached j mem
  rw [asks] at reached
  cases allowed_of_reaches reached with
  | other unprobing uncapturing => cases uncapturing
  | @capture t _ _ due prescribed unprobed uncaptured =>
    obtain ⟨finish, ended⟩ := Option.isSome_iff_exists.mp due.ended
    obtain ⟨start, started⟩ := Option.isSome_iff_exists.mp (held.read j mem t due.read due.ended)
    have started : (t.updateValue m.name id).status.startTime = some start := started
    have ended : (t.updateValue m.name id).status.completionTime = some finish := ended
    refine ⟨start, finish, started, ended, ?_⟩
    unfold Metric.compute
    simp only [kind, query, started, ended, if_true, ne_eq, not_true_eq_false, if_false]

/-- The duration of a run of one second is asked for when the run has ended. -/
theorem duration_is_asked_for :
    let key : ObjectKey := ⟨"ns", "t1"⟩
    let at_ (n : UInt64) : Instant := shifted default (some (.ofSeconds n))
    let p := Play.start (setting (.named "duration" .computed))
    let c := (p.passing key .standard [at_ 0, at_ 5, at_ 6, at_ 7]).chronicle
    (∃ t, c.store.trials.get? key = some t ∧ t.status.completionTime = some (at_ 1) ∧ t.status.startTime.isSome = true) ∧
      ∃ n b, Run key (Spares key) p.chronicle n b ∧ ∃ j ∈ b.passes, ∃ m u target next, ∃ start finish : Instant,
        j.plan = .ask (.capture m u target) next ∧ m.kind = .computed ∧ m.query = "" ∧
          m.compute u = .ok (.exactly (secondsOfMillis (finish.millisSince start))) := by
  intro key at_ p c
  obtain ⟨m, n, built, run, -⟩ : ∃ m n, p.chronicle.store.Built m ∧ Run key (Spares key) p.chronicle n c ∧
      m + n < UInt64.size :=
    Play.reached_of_start .standard (setting (.named "duration" .computed)) [at_ 0, at_ 5, at_ 6, at_ 7]
      (by decide +kernel)
  have made : ((Draft.named "ns" "t1" default).experiment "e1").Made := .experiment (.named "ns" "t1" default) "e1"
  have drafted : p.chronicle.store.trials.get? key =
      some (((Draft.named "ns" "t1" default).experiment "e1").build.withVersion 1) := by
    decide +kernel
  constructor
  · have ended : (c.store.trials.get? key).bind (·.status.completionTime) = some (at_ 1) := by decide +kernel
    obtain ⟨t, there, ended⟩ := Option.bind_eq_some_iff.mp ended
    obtain ⟨⟨t', there', begun⟩, -⟩ := ended_run_has_begun made built drafted run
    obtain rfl : t' = t := Option.some.inj (there'.symm.trans there)
    exact ⟨t', there', ended, begun (by rw [ended]; rfl)⟩
  · have asked : c.passes.flatMap (fun j => j.asked.captures.map (·.1)) = [.named "duration" .computed] := by
      decide +kernel
    obtain ⟨j, mem, called⟩ := List.mem_flatMap.mp (asked ▸ List.mem_singleton_self _)
    obtain ⟨⟨metric, u, target⟩, called, rfl⟩ := List.mem_map.mp called
    obtain ⟨⟨call, answer⟩, exchanged, shows⟩ := List.mem_filterMap.mp called
    obtain ⟨later, before, split⟩ := List.append_of_mem exchanged
    obtain ⟨k, -, b, -, next, first, -, stood, -⟩ := run.told j mem later ⟨call, answer⟩ before split
    cases call <;> cases shows
    obtain ⟨start, finish, -, -, computed⟩ :=
      (ended_run_has_begun made built drafted first).2 _ stood rfl rfl (.inl (by decide +kernel))
    exact ⟨k, b, first, _, stood, _, u, target, next, start, finish, rfl, rfl, rfl, computed⟩

end Chronicle

end TrialControl
