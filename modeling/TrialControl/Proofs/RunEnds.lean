import TrialControl.Proofs.Captures
import TrialControl.Proofs.Completions
import TrialControl.Proofs.Deferrals
import TrialControl.Proofs.OwnWorkloads
import TrialControl.Proofs.SetupUnits
import TrialControl.Proofs.Touches

/-!
# The end of a run

A pass takes the end of a run from the containers that have terminated by then. Containers that still run count
for nothing, so the time is final only when no container will finish before it, and it may be set while a part of
the workload is at work.
-/

namespace TrialControl

open Store (Write)
open Rehearsal (Cast)
open Crowd (committed_of_there get?_putTrial_merge)

def LastFinish (units : List ExecutionUnit) (f : Instant) : Prop := f ∈ finishes units ∧ ∀ g ∈ finishes units, g ≤ f

theorem lastFinish_iff {units : List ExecutionUnit} {f : Instant} :
    LastFinish units f ↔ (Bracket.ofUnits units).finished = some f := by
  have extreme := Bracket.extreme_finished units
  cases shown : (Bracket.ofUnits units).finished with
  | none =>
    rw [shown] at extreme
    have none_finished : finishes units = [] := extreme
    simp [LastFinish, none_finished]
  | some g =>
    rw [shown] at extreme
    obtain ⟨mem, last⟩ := extreme
    constructor
    · rintro ⟨mem', last'⟩
      exact congrArg some (Instant.le_antisymm (last' g mem) (last f mem'))
    · rintro ⟨⟩
      exact ⟨mem, last⟩

namespace Pass

variable {settings : Settings} {now : Instant} {t u : Trial} {asked told : Transcript} {s s' : Store} {key : ObjectKey}
variable {outcome : Outcome} {n : Nat} {w : Workload} {units : List ExecutionUnit} {action : Action}

/-- A pass comes to absorb what a run workload shows: the run workloads before it are merged. -/
structure Folds (settings : Settings) (now : Instant) (s : Store) (t : Trial) (w : Workload)
    (units : List ExecutionUnit) : Prop where
  live : t.isLive = true
  ready : Ready settings now t
  reached : ∃ found before after, s.listWorkloads t.metadata.ns t.ownSelector = .ok found ∧
    (found.filter fun w => !w.isSetup) = before ++ w :: after ∧ ∀ x ∈ before, Merged s t x
  listed : s.listUnits (some w.metadata.ns) w.selector = .ok units
  agrees : w.view units ≠ .lagging

/-- A finish that is earlier than the end that a trial has, if it has any. -/
def Sooner (t : Trial) (f : Instant) : Prop := ∀ c, t.status.completionTime = some c → f < c

theorem completionTime_absorb (t : Trial) (b : Bracket) (failures : List Failure) (now : Instant) :
    (Pass.absorb t b failures now).1.status.completionTime = (earliest t.status.completionTime b.finished).1 := by
  cases failures <;> rfl

theorem Sooner.earliest_eq {f : Instant} (sooner : Sooner t f) :
    earliest t.status.completionTime (some f) = (some f, true) := by
  unfold Sooner at sooner
  cases ended : t.status.completionTime with
  | none => rfl
  | some c => simp [earliest, sooner c ended]

theorem absorb_of_finish {b : Bracket} (failures : List Failure) (now : Instant)
    (flag : (earliest t.status.completionTime b.finished).2 = true) : (absorb t b failures now).2 = true := by
  cases failures <;> simp [absorb, TrialStatus.absorb, flag]

theorem Transition.keeps_end (made : Transition settings now t asked u action)
    (moved : u.status.completionTime ≠ t.status.completionTime) :
    Ready settings now t ∧ ∃ w units b failures, asked.Shows w units ∧ w.view units = .consistent b failures ∧
      (Pass.absorb t b failures now).2 = true ∧ u = (Pass.absorb t b failures now).1 := by
  cases made with
  | absorb early ready shown view changed => exact ⟨ready, _, _, _, _, shown, view, changed, rfl⟩
  | settle => exact absurd (by rw [Trial.awaiting_eq]; rfl) moved
  | failWaiting => exact absurd (by rw [Trial.awaiting_eq]; rfl) moved
  | wait => exact absurd (by rw [Trial.awaiting_eq]) moved
  | stabilize => exact absurd rfl moved
  | observe => exact absurd rfl moved
  | capture => exact absurd rfl moved
  | miss =>
    refine absurd ?_ moved
    rw [Trial.recordMissed_eq]
    split <;> rfl
  | complete => exact absurd (t.completionTime_recordComplete now) moved

theorem completionTime_merge (read : TrialSpec) (t u : Trial) (version : UInt64) :
    (((Part.toUpdate read u).merge t u.syncPhase).withVersion version).status.completionTime = u.status.completionTime := by
  unfold Part.toUpdate
  split <;> rfl

theorem end_of_commit (keyed : s.Keyed) (there : s.trials.get? key = some t) (same : u.metadata = t.metadata)
    {r : Except Error Trial} (reply : s.Replies (.updateTrial u.syncPhase (.toUpdate t.spec u)) r s') :
    ∃ v, s'.trials.get? key = some v ∧ v.status.completionTime = u.status.completionTime := by
  have same : u.syncPhase.metadata = t.metadata := same
  cases committed_of_there there (keyed key t there) same reply with
  | changed _ differs => exact ⟨_, get?_putTrial_merge (keyed key t there) _ _, completionTime_merge ..⟩
  | kept _ agrees =>
    have statuses : t.status = u.syncPhase.status := by
      by_contra differs
      exact Bool.noConfusion ((Part.agrees_of_status _ differs).symm.trans agrees)
    exact ⟨t, there, (congrArg TrialStatus.completionTime statuses).trans rfl⟩
  | refused gone => exact absurd there gone

/-- A pass that comes to a workload which changes the trial commits what it shows. -/
theorem Folds.committed (keyed : s.Keyed) (there : s.trials.get? key = some t) (folds : Folds settings now s t w units)
    (tells : (reconcile settings key now).Tells [] s told outcome s')
    (changed : (absorb t (Bracket.ofUnits units) (w.failures units) now).2 = true) :
    ∃ u, s'.trials.get? key = some u ∧
      u.status.completionTime = (earliest t.status.completionTime (Bracket.ofUnits units).finished).1 := by
  obtain ⟨found, before, after, listed, runs, merged⟩ := folds.reached
  have proceeding := proceed_of_tells there folds.live tells
  rw [proceed_of_ready folds.ready] at proceeding
  obtain ⟨mid, following⟩ : ∃ mid, (follow t.spec t now (before ++ w :: after)).Tells mid s told outcome s' := by
    cases proceeding with
    | ask reply tells =>
      obtain ⟨rfl, rfl⟩ := reply
      simp only [listed, runs] at tells
      cases before with
      | nil => exact ⟨_, tells⟩
      | cons x before => exact ⟨_, tells⟩
  obtain ⟨mid, following⟩ := follow_of_merged before merged following
  cases following with
  | ask reply tells =>
    obtain ⟨rfl, rfl⟩ := reply
    simp only [folds.listed, Workload.view_of_visible folds.agrees, changed, if_true] at tells
    obtain ⟨r, -, reply, -⟩ := commit_tells tells
    have same : (absorb t (Bracket.ofUnits units) (w.failures units) now).1.metadata = t.metadata := rfl
    obtain ⟨u, stored, ended⟩ := end_of_commit keyed there same reply
    exact ⟨u, stored, ended.trans (completionTime_absorb ..)⟩

/-- The first run workload that is not merged is the one at which a pass stops. -/
theorem moved_of_unmerged {found before after : List Workload} (there : s.trials.get? key = some t)
    (live : t.isLive = true) (ready : Ready settings now t)
    (listed : s.listWorkloads t.metadata.ns t.ownSelector = .ok found)
    (next : (found.filter fun w => !w.isSetup) = before ++ w :: after) (merged : ∀ x ∈ before, Merged s t x)
    (unmerged : ¬ Merged s t w) (tells : (reconcile settings key now).Tells [] s told outcome s') (moved : s' ≠ s) :
    ∃ units, Folds settings now s t w units ∧
      (absorb t (Bracket.ofUnits units) (w.failures units) now).2 = true := by
  have stopped {o : Outcome} (obstacle : Obstacle s t (found.filter fun w => !w.isSetup) o) : False :=
    moved (stopped_of_obstacle there live ready listed obstacle tells).1
  cases shown : s.listUnits (some w.metadata.ns) w.selector with
  | error e => exact (stopped (.selector next merged shown)).elim
  | ok units =>
    by_cases behind : w.view units = .lagging
    · exact (stopped (.lagging next merged shown behind)).elim
    · refine ⟨units, ⟨live, ready, ⟨found, before, after, listed, next, merged⟩, shown, behind⟩, ?_⟩
      by_contra unchanged
      rw [Bool.not_eq_true] at unchanged
      obtain ⟨unfailed, same⟩ := failures_of_unchanged live unchanged
      have view := Workload.view_of_visible behind
      rw [unfailed] at view
      exact unmerged ⟨units, _, shown, view, same⟩

theorem exists_first_not {α : Type} {P : α → Prop} {xs : List α} (h : ∃ x ∈ xs, ¬ P x) :
    ∃ before x after, xs = before ++ x :: after ∧ (∀ y ∈ before, P y) ∧ ¬ P x := by
  induction xs with
  | nil =>
    obtain ⟨x, mem, -⟩ := h
    cases mem
  | cons a xs ih =>
    by_cases ha : P a
    · obtain ⟨x, mem, hx⟩ := h
      have later : x ∈ xs := (List.mem_cons.mp mem).resolve_left fun same => hx (same ▸ ha)
      obtain ⟨before, y, after, rfl, first, hy⟩ := ih ⟨x, later, hx⟩
      exact ⟨a :: before, y, after, rfl, List.forall_mem_cons.mpr ⟨ha, first⟩, hy⟩
    · exact ⟨[], a, xs, rfl, by simp, ha⟩

theorem folds_of_moved (keyed : s.Keyed) (there : s.trials.get? key = some t)
    (tells : (reconcile settings key now).Tells [] s told outcome s') (stored : s'.trials.get? key = some u)
    (moved : u.status.completionTime ≠ t.status.completionTime) :
    ∃ w units, Folds settings now s t w units ∧
      (absorb t (Bracket.ofUnits units) (w.failures units) now).2 = true := by
  have same_of_trials (same : s'.trials = s.trials) : u = t := by
    rw [same, there] at stored
    exact (Option.some.inj stored).symm
  have changed : s' ≠ s := by
    rintro rfl
    exact moved (congrArg (·.status.completionTime) (same_of_trials rfl))
  cases lone_of_tells tells with
  | idle same => exact absurd same changed
  | create there' listed unrun reply =>
    rw [reply.store] at same_of_trials
    exact absurd (congrArg (·.status.completionTime) (same_of_trials (s.trials_after_createWorkload _))) moved
  | @commit x v action asked r there' live made seen read reached tells' reply result =>
    obtain rfl : x = t := Option.some.inj (there'.symm.trans there)
    obtain ⟨v', stored', ended⟩ := end_of_commit keyed there made.metadata_eq reply
    obtain rfl := Option.some.inj (stored.symm.trans stored')
    have ends : v.status.completionTime ≠ x.status.completionTime := ended ▸ moved
    obtain ⟨ready, w, units, b, failures, shown, view, absorbed, -⟩ := made.keeps_end ends
    obtain ⟨ns, selector, found, listing, mem, run⟩ := Transcript.mem_runs shown.found
    have listed : s.listWorkloads x.metadata.ns x.ownSelector = .ok found := by
      obtain ⟨y, there'', listed⟩ := listed_of_tells tells (tells' ▸ List.mem_cons_of_mem _ listing)
      obtain rfl := Option.some.inj (there.symm.trans there'')
      exact listed
    have unmerged : ¬ Merged s x w := by
      rintro ⟨units', b', listed', view', merged⟩
      have listing := (seen _ (List.mem_of_head? shown.last)).1
      obtain rfl : units = units' := Except.ok.inj (listing.trans listed')
      rw [view] at view'
      cases view'
      simp [Pass.absorb, merged] at absorbed
    have mem : w ∈ found.filter fun w => !w.isSetup := List.mem_filter.mpr ⟨mem, by simp [run]⟩
    obtain ⟨before, w', after, next, merged, unmerged⟩ := exists_first_not ⟨w, mem, unmerged⟩
    exact ⟨w', moved_of_unmerged there live ready listed next merged unmerged tells changed⟩

/-- What moves the end of a run. A pass over a store to which nobody else writes moves it exactly when it comes to
a run workload with an earlier last finish, or the first one; that finish is the end of the run then. Neither the
containers that still run nor the completion time of the workload make a difference. -/
theorem run_ends_with_last_finish_so_far (built : s.Built n) (there : s.trials.get? key = some t)
    (tells : (reconcile settings key now).Tells [] s told outcome s') :
    ∃ u, s'.trials.get? key = some u ∧
      (u.status.completionTime ≠ t.status.completionTime ↔
        ∃ w units f, Folds settings now s t w units ∧ LastFinish units f ∧ Sooner t f) ∧
      ∀ w units f, Folds settings now s t w units → LastFinish units f → Sooner t f →
        u.status.completionTime = some f := by
  have keyed := built.keyed
  obtain ⟨-, -, -, -, touched⟩ := pass_touches built tells
  obtain ⟨u, stored, -, -⟩ := touched t there
  have ends {w : Workload} {units : List ExecutionUnit} {f : Instant} (folds : Folds settings now s t w units)
      (last : LastFinish units f) (sooner : Sooner t f) : u.status.completionTime = some f := by
    have earlier : earliest t.status.completionTime (Bracket.ofUnits units).finished = (some f, true) := by
      rw [lastFinish_iff.mp last]
      exact sooner.earliest_eq
    have changed := absorb_of_finish (w.failures units) now (congrArg Prod.snd earlier)
    obtain ⟨v, stored', ended⟩ := folds.committed keyed there tells changed
    obtain rfl := Option.some.inj (stored.symm.trans stored')
    rw [ended, earlier]
  refine ⟨u, stored, ⟨fun moved => ?_, ?_⟩, fun w units f folds last sooner => ends folds last sooner⟩
  · obtain ⟨w, units, folds, changed⟩ := folds_of_moved keyed there tells stored moved
    obtain ⟨v, stored', ended⟩ := folds.committed keyed there tells changed
    obtain rfl := Option.some.inj (stored.symm.trans stored')
    rw [ended] at moved
    have flag : (earliest t.status.completionTime (Bracket.ofUnits units).finished).2 = true := by
      by_contra kept
      exact moved (earliest_unchanged (Bool.eq_false_iff.mpr kept))
    obtain ⟨f, finished, sooner⟩ := earliest_flag_iff.mp flag
    exact ⟨w, units, f, folds, lastFinish_iff.mpr finished, sooner⟩
  · rintro ⟨w, units, f, folds, last, sooner⟩ same
    exact Instant.not_lt_self f (sooner f (same ▸ ends folds last sooner))

/-- Two containers have terminated: the later finish is the end of the run. -/
theorem later_of_two_finishes_ends_run :
    let key : ObjectKey := ⟨"ns", "t1"⟩
    let at_ (n : UInt64) : Instant := shifted default (some (.ofSeconds n))
    let t := ((Draft.named "ns" "t1" default).build.record .stable (.plain .true) default).syncPhase
    let unit : ExecutionUnit :=
      { ExecutionUnit.pending { Metadata.named "ns" "u" with labels := (∅ : Labels).insert Label.trial "t1" } with
        containers := [.terminated (at_ 1) (at_ 4) 0 "", .terminated (at_ 1) (at_ 3) 0 ""] }
    let s := [Write.createTrial t, .createWorkload (t.runWorkload .standard), .putUnit unit].foldl Store.after .empty
    ∃ told outcome s' u, (reconcile .standard key (at_ 5)).Tells [] s told outcome s' ∧
      s'.trials.get? key = some u ∧ u.status.completionTime = some (at_ 4) := by
  intro key at_ t unit s
  let run := t.runWorkload .standard
  let stored : Workload := { run with metadata.version := 2 }
  obtain ⟨n, -, built⟩ := Store.Built.empty.writes [.createTrial t, .createWorkload run, .putUnit unit]
  have there : s.trials.get? key = some (t.withVersion 1) := by decide +kernel
  obtain ⟨tells, -⟩ := Cast.attend_tells (c := ⟨⟨s, [], ∅⟩, .rollouts .zero, .computed, [], []⟩)
    ⟨rfl, trivial, trivial⟩ [] (reconcile .standard key (at_ 5))
  obtain ⟨u, after, -, ends⟩ := run_ends_with_last_finish_so_far built there tells
  have live : (t.withVersion 1).isLive = true := by decide +kernel
  have ready : Ready .standard (at_ 5) (t.withVersion 1) := by
    constructor
    all_goals decide +kernel
  have found : s.listWorkloads "ns" t.ownSelector = .ok [stored] := by
    rw [Store.listWorkloads, Store.select_within]
    exact eq_ok_of_toOption (by decide +kernel)
  have next : ([stored].filter fun w => !w.isSetup) = [] ++ stored :: [] := by decide +kernel
  have listed : s.listUnits (some "ns") stored.selector = .ok [{ unit with metadata.version := 3 }] := by
    rw [Store.listUnits, Store.select_within]
    exact eq_ok_of_toOption (by decide +kernel)
  have folds : Folds .standard (at_ 5) s (t.withVersion 1) stored [{ unit with metadata.version := 3 }] :=
    ⟨live, ready, ⟨_, _, _, found, next, by simp⟩, listed, by decide +kernel⟩
  have last : LastFinish [{ unit with metadata.version := 3 }] (at_ 4) := lastFinish_iff.mpr (by decide +kernel)
  have sooner : Sooner (t.withVersion 1) (at_ 4) := fun c ended => by cases ended
  exact ⟨_, _, _, u, tells, after, ends _ _ _ folds last sooner⟩

/-- One container has terminated and another one runs: the run has ended, and a metric is captured. -/
theorem capture_while_container_runs :
    let key : ObjectKey := ⟨"ns", "t1"⟩
    let at_ (n : UInt64) : Instant := shifted default (some (.ofSeconds n))
    let t := (((Draft.named "ns" "t1" default).experiment "e1").build.record .stable (.plain .true) default).syncPhase
    let unit : ExecutionUnit :=
      { ExecutionUnit.pending { Metadata.named "ns" "u" with labels := (∅ : Labels).insert Label.trial "t1" } with
        phase := .running, containers := [.terminated (at_ 1) (at_ 4) 0 "", .running (at_ 1)] }
    let s := [Write.putExperiment ⟨.named "ns" "e1", [.named "cost" .computed]⟩, .createTrial t,
      .createWorkload (t.runWorkload .standard), .putUnit unit].foldl Store.after .empty
    let summary (t : Trial) := (t.status.phase, t.status.completionTime)
    ∃ told₁ told₂ told₃ o₁ o₂ o₃ s₁ s₂ s₃, (reconcile .standard key (at_ 5)).Tells [] s told₁ o₁ s₁ ∧
      (reconcile .standard key (at_ 6)).Tells [] s₁ told₂ o₂ s₂ ∧
      (reconcile .standard key (at_ 7)).Tells [] s₂ told₃ o₃ s₃ ∧
      (s.trials.get? key).map summary = some ("Stable", none) ∧
      (s₁.trials.get? key).map summary = some ("Capturing Metrics", some (at_ 4)) ∧
      told₃.captures.map (·.1.name) = ["cost"] ∧
      (s₃.units.get? ⟨"ns", "u"⟩).map (·.containers) = some [.terminated (at_ 1) (at_ 4) 0 "", .running (at_ 1)] ∧
      (s₃.workloads.get? key).map (·.status.completionTime) = some none := by
  intro key at_ t unit s summary
  obtain ⟨tells₁, still₁⟩ := Cast.attend_tells (c := ⟨⟨s, [], ∅⟩, .rollouts .zero, .computed, [], []⟩)
    ⟨rfl, trivial, trivial⟩ [] (reconcile .standard key (at_ 5))
  obtain ⟨tells₂, still₂⟩ := Cast.attend_tells still₁ [] (reconcile .standard key (at_ 6))
  obtain ⟨tells₃, -⟩ := Cast.attend_tells still₂ [] (reconcile .standard key (at_ 7))
  refine ⟨_, _, _, _, _, _, _, _, _, tells₁, tells₂, tells₃, ?_, ?_, ?_, ?_, ?_⟩
  all_goals decide +kernel

end Pass

end TrialControl
