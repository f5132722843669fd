import TrialControl.Proofs.Performances
import TrialControl.Proofs.QuietPasses
import TrialControl.Proofs.StoredWorkloads

/-!
# Deferred passes leave no trace

A pass computes with its own copy of the trial and writes at its very end, so a pass that fails or asks to
be repeated has written nothing. Only the wait for patches asks for a delay and commits the reason.
-/

namespace TrialControl.Pass

open Store (Write)
open Rehearsal (Cast)

variable {settings : Settings} {now : Instant} {t u : Trial} {asked told : Transcript} {action : Action}
variable {s s' : Store} {key : ObjectKey} {outcome : Outcome} {p : Plan Outcome}

/-! ## How a pass ends -/

/-- A pass ends without a trace, or it waits for patches, or it is done. -/
inductive Ending (settings : Settings) (now : Instant) (t : Trial) (s : Store) (told : Transcript) (outcome : Outcome)
    (s' : Store) : Prop where
  | silent (same : s' = s)
      (deferred : ∀ delay, outcome = .ok (.requeueAfter delay) → Deferred settings now t told delay)
  | waiting {delay : Duration} (waits : t.hasWaitingPatches = true) (longest : told.longest? = some delay)
      (result : outcome = .ok (.requeueAfter delay))
  | done (result : outcome = .ok .done)

theorem ending_of_commit (made : Transition settings now t asked u action)
    (tells : (commit t.spec u action).Tells asked s told outcome s') : Ending settings now t s told outcome s' := by
  cases tells with
  | @ask _ _ _ _ _ _ _ r _ reply tells =>
    have answer : (r, _) = s.taking (s.replaceTrial u.syncPhase (.toUpdate t.spec u)) := reply
    cases written : s.replaceTrial u.syncPhase (.toUpdate t.spec u) with
    | error e =>
      rw [written] at answer
      cases answer
      cases tells
      refine .silent rfl fun delay after => ?_
      cases conflict : e.isConflict <;> rw [conflict] at after <;> cases after
    | ok stored =>
      rw [written] at answer
      cases answer
      cases tells
      rcases made.ends with rfl | ⟨delay, rfl⟩
      · exact .done rfl
      · cases made with
        | wait early waits longest => exact .waiting waits longest rfl

theorem ending_of_create (tells : (createRun settings t).Tells asked s told outcome s') :
    Ending settings now t s told outcome s' := by
  cases tells with
  | @ask _ _ _ _ _ _ _ r _ reply tells =>
    have answer : (r, _) = s.taking (s.createWorkload (t.runWorkload settings.workload)) := reply
    rcases s.taking_createWorkload (t.runWorkload settings.workload) with ⟨free, created⟩ | ⟨taken, refused⟩
    · rw [created] at answer
      cases answer
      cases tells
      exact .done rfl
    · rw [refused] at answer
      cases answer
      cases tells
      exact .silent rfl nofun

theorem ending_of_rest (rest : Rest settings now t asked p) (tells : p.Tells asked s told outcome s') :
    Ending settings now t s told outcome s' := by
  induction rest generalizing s with
  | stop outcome deferred =>
    cases tells
    exact .silent rfl deferred
  | look looks rest ih =>
    cases tells with
    | ask reply tells =>
      obtain rfl := reply.of_looks looks
      exact ih _ tells
  | commit made => exact ending_of_commit made tells
  | create ready listed unrun => exact ending_of_create tells

theorem ending_of_tells (tells : (reconcile settings key now).Tells [] s told outcome s') :
    s' = s ∧ (∀ delay, outcome ≠ .ok (.requeueAfter delay)) ∨
      ∃ t, s.trials.get? key = some t ∧ t.isLive = true ∧ Ending settings now t s told outcome s' := by
  rcases closed_or_proceeds tells with ⟨same, result, -⟩ | ⟨t, there, live, proceeding⟩
  · exact .inl ⟨same, fun delay after => by cases result.symm.trans after⟩
  · exact .inr ⟨t, there, live, ending_of_rest (rest_proceed t key) proceeding⟩

theorem unchanged_of_tells (tells : (reconcile settings key now).Tells [] s told outcome s')
    (undone : outcome ≠ .ok .done) (undelayed : ∀ delay, outcome ≠ .ok (.requeueAfter delay)) : s' = s := by
  rcases ending_of_tells tells with ⟨same, -⟩ | ⟨t, -, -, ending⟩
  · exact same
  · cases ending with
    | silent same deferred => exact same
    | waiting waits longest result => exact absurd result (undelayed _)
    | done result => exact absurd result undone

/-! ## What stops a pass -/

theorem proceed_of_ready (ready : Ready settings now t) : proceed settings t now = discover settings t.spec t now := by
  have idle := scan_of_still now ready.still
  unfold proceed
  rw [idle]
  show advance settings t now = _
  unfold advance
  rw [if_neg ready.stable, if_neg (by simp [ready.graced]), if_neg (by simp [ready.patched])]

/-- What stops a pass of a ready trial, with the outcome: the run workloads before are merged. -/
inductive Obstacle (s : Store) (t : Trial) (runs : List Workload) : Outcome → Prop where
  | selector {before after : List Workload} {w : Workload} {e : Error} (next : runs = before ++ w :: after)
      (merged : ∀ x ∈ before, Merged s t x) (refused : s.listUnits (some w.metadata.ns) w.selector = .error e) :
      Obstacle s t runs (.error e)
  | lagging {before after : List Workload} {w : Workload} {units : List ExecutionUnit}
      (next : runs = before ++ w :: after) (merged : ∀ x ∈ before, Merged s t x)
      (listed : s.listUnits (some w.metadata.ns) w.selector = .ok units) (behind : w.view units = .lagging) :
      Obstacle s t runs (.ok .requeue)
  | parent {e : Error} (some_run : runs ≠ []) (merged : ∀ x ∈ runs, Merged s t x)
      (ended : t.status.completionTime.isSome = true) (unknown : t.experimentKey = .error e) :
      Obstacle s t runs (.error e)
  | experiment {e : Error} {k : ObjectKey} (some_run : runs ≠ []) (merged : ∀ x ∈ runs, Merged s t x)
      (ended : t.status.completionTime.isSome = true) (named : t.experimentKey = .ok k)
      (missing : s.getExperiment k = .error e) : Obstacle s t runs (.error e)

theorem follow_of_merged (before : List Workload) {after : List Workload} (merged : ∀ x ∈ before, Merged s t x)
    (tells : (follow t.spec t now (before ++ after)).Tells asked s told outcome s') :
    ∃ mid, (follow t.spec t now after).Tells mid s told outcome s' := by
  induction before generalizing asked with
  | nil => exact ⟨asked, tells⟩
  | cons w before ih =>
    obtain ⟨units, b, listed, view, same⟩ := merged w (List.mem_cons_self ..)
    cases tells with
    | ask reply tells =>
      obtain ⟨rfl, rfl⟩ := reply
      have unchanged : absorb t b [] now = (t, false) := by
        unfold absorb
        simp only [List.head?_nil, same]
        rfl
      simp only [listed, view, unchanged] at tells
      exact ih (fun x mem => merged x (List.mem_cons_of_mem _ mem)) tells

theorem stopped_of_answer {c : Call} {next : c.Answer → Plan Outcome} {a : c.Answer} {o : Outcome}
    (tells : (Plan.ask c next).Tells asked s told outcome s') (answered : ∀ r u, s.Replies c r u → r = a ∧ u = s)
    (stops : next a = .done o) : s' = s ∧ outcome = o := by
  cases tells with
  | ask reply tells =>
    obtain ⟨rfl, rfl⟩ := answered _ _ reply
    rw [stops] at tells
    cases tells
    exact ⟨rfl, rfl⟩

theorem stopped_of_obstacle {found : List Workload} {o : Outcome} (there : s.trials.get? key = some t)
    (live : t.isLive = true) (ready : Ready settings now t)
    (listed : s.listWorkloads t.metadata.ns t.ownSelector = .ok found)
    (obstacle : Obstacle s t (found.filter fun w => !w.isSetup) o)
    (tells : (reconcile settings key now).Tells [] s told outcome s') : s' = s ∧ outcome = o := by
  have proceeding := proceed_of_tells there live tells
  rw [proceed_of_ready ready] at proceeding
  generalize runs_eq : (found.filter fun w => !w.isSetup) = runs at obstacle
  have following (some_run : runs ≠ []) : ∃ mid, (follow t.spec t now runs).Tells mid s told outcome s' := by
    cases proceeding with
    | ask reply tells =>
      obtain ⟨rfl, rfl⟩ := reply
      simp only [listed, runs_eq] at tells
      cases runs with
      | nil => exact absurd rfl some_run
      | cons w ws => exact ⟨_, tells⟩
  have measuring (some_run : runs ≠ []) (merged : ∀ x ∈ runs, Merged s t x) :
      ∃ mid, (measure t.spec t now).Tells mid s told outcome s' := by
    obtain ⟨mid, tells⟩ := following some_run
    rw [← List.append_nil runs] at tells
    exact follow_of_merged runs merged tells
  have unended (ended : t.status.completionTime.isSome = true) : ¬ t.status.completionTime.isNone = true := by
    rw [Option.isNone_iff_eq_none]
    exact Option.isSome_iff_ne_none.mp ended
  cases obstacle with
  | @selector before after w e next merged refused =>
    obtain ⟨mid, tells⟩ := following (by simp [next])
    rw [next] at tells
    obtain ⟨mid, tells⟩ := follow_of_merged before merged tells
    exact stopped_of_answer tells (fun r u reply => ⟨reply.1.trans refused, reply.2⟩) rfl
  | @lagging before after w units next merged listed behind =>
    obtain ⟨mid, tells⟩ := following (by simp [next])
    rw [next] at tells
    obtain ⟨mid, tells⟩ := follow_of_merged before merged tells
    refine stopped_of_answer tells (fun r u reply => ⟨reply.1.trans listed, reply.2⟩) ?_
    simp only [behind]
  | parent some_run merged ended unknown =>
    obtain ⟨mid, tells⟩ := measuring some_run merged
    unfold measure at tells
    rw [if_neg (unended ended), unknown] at tells
    cases tells
    exact ⟨rfl, rfl⟩
  | experiment some_run merged ended named missing =>
    obtain ⟨mid, tells⟩ := measuring some_run merged
    unfold measure at tells
    rw [if_neg (unended ended), named] at tells
    exact stopped_of_answer tells (fun r u reply => ⟨reply.1.trans missing, reply.2⟩) rfl

/-- A pass over any store that ends with an error or with the wish to be repeated at once has left the whole
store as it was. So has one that asks for a delay, unless it waits for patches. In particular a workload whose
selector is refused, a workload that is ahead of its units, whichever one it is, an unknown parent and a
missing experiment stop a pass without a trace. -/
theorem deferred_pass_leaves_no_trace (tells : (reconcile settings key now).Tells [] s told outcome s') :
    (∀ e, outcome = .error e → s' = s) ∧ (outcome = .ok .requeue → s' = s) ∧
      (∀ delay, outcome = .ok (.requeueAfter delay) →
        ∃ t, s.trials.get? key = some t ∧ t.isLive = true ∧
          (t.hasWaitingPatches = true ∧ told.longest? = some delay ∨ s' = s ∧ Deferred settings now t told delay)) ∧
      ∀ t found o, s.trials.get? key = some t → t.isLive = true → Ready settings now t →
        s.listWorkloads t.metadata.ns t.ownSelector = .ok found →
          Obstacle s t (found.filter fun w => !w.isSetup) o → s' = s ∧ outcome = o := by
  refine ⟨?_, ?_, ?_, fun t found o there live ready listed obstacle =>
    stopped_of_obstacle there live ready listed obstacle tells⟩
  · rintro e rfl
    exact unchanged_of_tells tells nofun nofun
  · rintro rfl
    exact unchanged_of_tells tells nofun nofun
  · rintro delay rfl
    rcases ending_of_tells tells with ⟨-, other⟩ | ⟨t, there, live, ending⟩
    · exact absurd rfl (other delay)
    · refine ⟨t, there, live, ?_⟩
      cases ending with
      | silent same deferred => exact .inr ⟨same, deferred delay rfl⟩
      | waiting waits longest result =>
        cases result
        exact .inl ⟨waits, longest⟩
      | done result => cases result

/-- The second of two run workloads is ahead of its units. -/
theorem second_run_lags_without_trace :
    let key : ObjectKey := ⟨"ns", "t1"⟩
    let t := ((Draft.named "ns" "t1" default).build.record .stable (.plain .true) default).syncPhase
    let run := t.runWorkload .standard
    let ahead := { run with metadata.name := "t1-again", status.startTime := some default }
    let s := [Write.createTrial t, .putWorkload run, .putWorkload ahead].foldl Store.after .empty
    ∃ told outcome s', (reconcile .standard key (shifted default (some (.ofSeconds 5)))).Tells [] s told outcome s' ∧
      s' = s ∧ outcome = .ok .requeue := by
  intro key t run ahead s
  obtain ⟨tells, -⟩ := Cast.attend_tells (c := ⟨⟨s, [], ∅⟩, .rollouts .zero, .computed, [], []⟩)
    ⟨rfl, trivial, trivial⟩ [] (reconcile .standard key (shifted default (some (.ofSeconds 5))))
  obtain ⟨-, -, -, stopped⟩ := deferred_pass_leaves_no_trace tells
  let first : Workload := { run with metadata.version := 2 }
  let second : Workload := { ahead with metadata.version := 3 }
  have there : s.trials.get? key = some (t.withVersion 1) := by decide +kernel
  have live : (t.withVersion 1).isLive = true := by decide +kernel
  have ready : Ready .standard (shifted default (some (.ofSeconds 5))) (t.withVersion 1) := by
    constructor
    all_goals decide +kernel
  have listed : s.listWorkloads "ns" t.ownSelector = .ok [first, second] := by
    rw [Store.listWorkloads, Store.select_within]
    exact eq_ok_of_toOption (by decide +kernel)
  have empty (w : Workload) (h : w = first ∨ w = second) : s.listUnits (some w.metadata.ns) w.selector = .ok [] := by
    rcases h with rfl | rfl
    · exact eq_ok_of_toOption (by decide +kernel)
    · exact eq_ok_of_toOption (by decide +kernel)
  have merged : Merged s (t.withVersion 1) first := by
    refine ⟨[], .empty, empty first (.inl rfl), ?_, ?_⟩
    all_goals decide +kernel
  have runs : ([first, second].filter fun w => !w.isSetup) = [first] ++ second :: [] := by decide +kernel
  have behind : second.view [] = .lagging := by decide +kernel
  have obstacle : Obstacle s (t.withVersion 1) ([first, second].filter fun w => !w.isSetup) (.ok .requeue) :=
    .lagging runs (List.forall_mem_singleton.mpr merged) (empty second (.inr rfl)) behind
  exact ⟨_, _, _, tells, stopped _ _ _ there live ready listed obstacle⟩

end TrialControl.Pass
