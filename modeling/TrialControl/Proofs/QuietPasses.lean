import Mathlib.Logic.ExistsUnique
import TrialControl.Proofs.Commits
import TrialControl.Proofs.Crowds
import TrialControl.Trial.Draft

/-!
# Quiet passes

A quiet pass asks for nothing: it waits for a change. Then there is nothing to do for its trial, or a
change outside is waited for, or the pass has written something that is reported as a change of the
trial. No pass waits for a change of its own making that the store has not reported.
-/

namespace TrialControl.Pass

/-- A run workload of which everything is in the trial already. -/
def Merged (s : Store) (t : Trial) (w : Workload) : Prop :=
  ∃ units b, s.listUnits (some w.metadata.ns) w.selector = .ok units ∧ w.view units = .consistent b [] ∧
    t.status.absorb b t.spec.startOffset = (t.status, false)

/-- The run has not ended, and all that the pass found of it is merged. -/
structure AwaitsRun (s : Store) (t : Trial) (told : Transcript) : Prop where
  unended : t.status.completionTime = none
  found : told.runs ≠ []
  merged : ∀ w ∈ told.runs, Merged s t w

inductive Quiet where
  /-- There is no trial, or a closed one. -/
  | closed
  | woken
  /-- Patches of a live trial are not evaluated yet. -/
  | unpatched
  | running
deriving DecidableEq

def Quiet.Holds (key : ObjectKey) (s s' : Store) (told : Transcript) : Quiet → Prop
  | .closed => s' = s ∧ ∀ t, s.trials.get? key = some t → t.isLive = false
  | .woken => Woken key s s'
  | .unpatched => s' = s ∧ ∃ t, s.trials.get? key = some t ∧ t.isLive = true ∧
      t.status.conditions.holds .patched .unknown = true
  | .running => s' = s ∧ ∃ t, s.trials.get? key = some t ∧ t.isLive = true ∧ AwaitsRun s t told

/-! ## A live trial -/

/-- Failures that change nothing of a live trial are none, since a recorded failure closes the trial. -/
theorem failures_of_unchanged {t : Trial} {b : Bracket} {failures : List Failure} {now : Instant}
    (live : t.isLive = true) (h : (absorb t b failures now).2 = false) :
    failures = [] ∧ t.status.absorb b t.spec.startOffset = (t.status, false) := by
  unfold absorb at h
  cases hf : failures with
  | nil =>
    simp only [hf, List.head?_nil, Bool.false_or] at h
    exact ⟨rfl, Prod.ext (TrialStatus.absorb_unchanged h) h⟩
  | cons f rest =>
    simp only [hf, List.head?_cons, Bool.or_eq_false_iff] at h
    have failed : t.status.conditions.standing? .failed = some ⟨.true, f.reason, f.message⟩ :=
      Decidable.not_not.mp fun n => by simp [(Ledger.changes_iff ..).mpr n] at h
    have unfailed := (t.unfinished_of_live live).2
    simp [Ledger.holds_eq, failed] at unfailed

theorem scanFrom_of_still {t : Trial} {now : Instant} (ps seen : List Patch) (still : ps.any (·.waits) = false) :
    Trial.scanFrom now t none seen ps = .done .idle := by
  induction ps generalizing seen with
  | nil => rfl
  | cons p ps ih =>
    rw [List.any_cons, Bool.or_eq_false_iff] at still
    unfold Trial.scanFrom
    rw [if_neg (by simp [still.1])]
    exact ih (seen ++ [p]) still.2

theorem scan_of_still {t : Trial} (now : Instant) (still : t.hasWaitingPatches = false) :
    t.scan now = .done .idle :=
  scanFrom_of_still t.spec.patches [] still

section
variable {settings : Settings} {now : Instant} {t : Trial} {asked told : Transcript} {s s' : Store} {key : ObjectKey}
variable (keyed : s.Keyed) (there : s.trials.get? key = some t) (live : t.isLive = true)
include keyed there live

theorem measure_quiet (ready : Ready settings now t) (read : asked.trial? = some t)
    (early : asked.experiment? = none) (tells : (measure t.spec t now).Tells asked s told (.ok .done) s') :
    Woken key s s' ∨ s' = s ∧ t.status.completionTime = none ∧ told = asked := by
  unfold measure at tells
  split at tells
  · next unended =>
    obtain ⟨rfl, -, rfl⟩ := Plan.tells_done.mp tells
    exact .inr ⟨rfl, Option.isNone_iff_eq_none.mp unended, rfl⟩
  · next unended =>
    have ended : t.status.completionTime.isSome = true := by
      cases h : t.status.completionTime <;> simp_all
    cases named : t.experimentKey with
    | error e =>
      rw [named] at tells
      cases (Plan.tells_done.mp tells).2.1
    | ok k =>
      rw [named] at tells
      cases tells with
      | @ask _ _ _ _ _ _ _ r _ reply tells =>
        obtain ⟨-, rfl⟩ := reply
        cases r with
        | error e => cases (Plan.tells_done.mp tells).2.1
        | ok e =>
          obtain ⟨mid, c, v, collecting, tells⟩ := Plan.tells_bind tells
          have idle := Transcript.attempt?_cons_of_early (x := ⟨.getExperiment k, .ok e⟩) early
          have ensures : (t.collect e.metrics now).Ensures (·.looks = true) (Collected settings now t)
              (⟨.getExperiment k, .ok e⟩ :: asked) := collect_ensures read rfl idle ready ended
          obtain ⟨rfl, collected⟩ := ensures.tells collecting
          cases c with
          | changed u => exact .inl (commit_wakes keyed there live collected tells.run)
          | delayed d => cases (Plan.tells_done.mp tells).2.1

theorem follow_quiet (ready : Ready settings now t) (asked : Transcript) (read : asked.trial? = some t)
    (early : asked.experiment? = none) (ws : List Workload) (found : ∀ w ∈ ws, w ∈ asked.runs)
    (tells : (follow t.spec t now ws).Tells asked s told (.ok .done) s') :
    Woken key s s' ∨ s' = s ∧ t.status.completionTime = none ∧ told.runs = asked.runs ∧ ∀ w ∈ ws, Merged s t w := by
  induction ws generalizing asked with
  | nil =>
    refine (measure_quiet keyed there live ready read early tells).imp_right fun ⟨same, unended, last⟩ => ?_
    refine ⟨same, unended, by rw [last], ?_⟩
    intro w hw
    cases hw
  | cons w ws ih =>
    cases tells with
    | @ask _ _ _ _ _ _ _ r _ reply tells =>
      obtain ⟨listed, rfl⟩ := reply
      cases r with
      | error e => cases (Plan.tells_done.mp tells).2.1
      | ok units =>
        dsimp only at tells
        cases view : w.view units with
        | lagging =>
          rw [view] at tells
          cases (Plan.tells_done.mp tells).2.1
        | consistent b failures =>
          rw [view] at tells
          dsimp only at tells
          cases changed : (absorb t b failures now).2 with
          | true =>
            rw [changed] at tells
            have made : Transition settings now t (⟨.listUnits w.metadata.ns w.selector, .ok units⟩ :: asked)
                (absorb t b failures now).1 .done :=
              .absorb early ready ⟨found w (List.mem_cons_self ..), rfl⟩ view changed
            exact .inl (commit_wakes keyed there live made tells.run)
          | false =>
            rw [changed, absorb_unchanged changed] at tells
            obtain ⟨rfl, merged⟩ := failures_of_unchanged live changed
            have rest := ih (⟨.listUnits w.metadata.ns w.selector, .ok units⟩ :: asked) read early
              (fun w hw => found w (List.mem_cons_of_mem _ hw)) tells
            refine rest.imp_right fun ⟨same, unended, runs, rest⟩ => ⟨same, unended, runs, fun x hx => ?_⟩
            rcases List.mem_cons.mp hx with rfl | hx
            · exact ⟨units, b, listed.symm, view, merged⟩
            · exact rest x hx

theorem proceed_quiet (tells : (proceed settings t now).Tells [⟨.getTrial key, .ok t⟩] s told (.ok .done) s') :
    Woken key s s' ∨ s' = s ∧ (t.status.conditions.holds .patched .unknown = true ∧ told.runs = [] ∨
      t.status.conditions.holds .patched .unknown = false ∧ AwaitsRun s t told) := by
  obtain ⟨mid, scan, u, scanning, tells⟩ := Plan.tells_bind tells
  obtain ⟨rfl, scanned⟩ := (scan_ensures settings t key).tells scanning
  cases scan with
  | changed v => exact .inl (commit_wakes keyed there live scanned tells.run)
  | waiting v delay => exact .inl (commit_wakes keyed there live scanned tells.run)
  | idle =>
    obtain ⟨read, early, still⟩ := scanned
    -- nothing waits, so nothing was probed
    rw [scan_of_still now still] at scanning
    obtain ⟨rfl, -, -⟩ := Plan.tells_done.mp scanning
    dsimp only at tells
    unfold advance at tells
    split at tells
    · next unstable =>
      have made : Transition settings now t [⟨.getTrial key, .ok t⟩] (t.record .stable (.plain .true) now) .done :=
        .stabilize early still unstable
      exact .inl (commit_wakes keyed there live made tells.run)
    · next stable =>
      split at tells
      · cases (Plan.tells_done.mp tells).2.1
      · next graced =>
        split at tells
        · next unpatched =>
          obtain ⟨rfl, -, rfl⟩ := Plan.tells_done.mp tells
          exact .inr ⟨rfl, .inl ⟨unpatched, rfl⟩⟩
        · next patched =>
          have ready : Ready settings now t :=
            ⟨still, stable, by simpa using graced, by simpa using patched⟩
          cases tells with
          | @ask _ _ _ _ _ _ _ r _ reply tells =>
            obtain ⟨-, rfl⟩ := reply
            cases r with
            | error e => cases (Plan.tells_done.mp tells).2.1
            | ok found =>
              dsimp only at tells
              cases runs : found.filter fun w => !w.isSetup with
              | nil =>
                rw [runs] at tells
                rw [← keyed key t there]
                exact .inl (createRun_wakes tells.run)
              | cons w ws =>
                rw [runs] at tells
                let asked : Transcript :=
                  [⟨.listWorkloads t.metadata.ns t.ownSelector, .ok found⟩, ⟨.getTrial key, .ok t⟩]
                have listed : asked.runs = w :: ws := runs
                have quiet := follow_quiet keyed there live ready asked read early (w :: ws)
                  (fun x hx => listed.symm ▸ hx) tells
                refine quiet.imp_right fun ⟨same, unended, told_runs, merged⟩ => ⟨same, .inr ⟨ready.patched, ?_⟩⟩
                have found : told.runs = w :: ws := told_runs.trans listed
                exact ⟨unended, by simp [found], found ▸ merged⟩

theorem Rest.wakes {p : Plan Outcome} (rest : Rest settings now t asked p) {c : Call}
    {next : c.Answer → Plan Outcome} {u : Store} (comes : p.Comes s (.ask c next) u) (writes : c.write? ≠ none)
    (run : (Plan.ask c next).Runs u (.ok .done) s') : Woken key s s' := by
  generalize hq : Plan.ask c next = q at comes
  induction comes generalizing asked with
  | here p s =>
    subst hq
    generalize hp : Plan.ask c next = p at rest
    cases rest with
    | stop outcome => cases hp
    | look looks rest =>
      cases hp
      exact absurd (Call.write?_of_looks looks) writes
    | commit made =>
      rw [hp] at run
      exact commit_wakes keyed there live made run
    | create ready =>
      rw [hp] at run
      rw [← keyed key t there]
      exact createRun_wakes run
  | @ask call next' s u v r q reply comes ih =>
    generalize hp : Plan.ask call next' = p at rest
    cases rest with
    | stop outcome => cases hp
    | look looks rest =>
      cases hp
      obtain rfl := reply.of_looks looks
      exact ih keyed there (rest r) run hq
    | commit made =>
      -- nothing is asked after a write
      cases hp
      cases r <;> cases hq.trans comes.of_done
    | create ready =>
      cases hp
      cases r with
      | ok w => cases hq.trans comes.of_done
      | error error => cases error <;> cases hq.trans comes.of_done

end

/-! ## The pass -/

variable {settings : Settings} {now : Instant} {told : Transcript} {s s' : Store} {key : ObjectKey}

theorem reconcile_quiet (keyed : s.Keyed) (tells : (reconcile settings key now).Tells [] s told (.ok .done) s') :
    ∃ q : Quiet, q.Holds key s s' told := by
  rcases closed_or_proceeds tells with ⟨same, -, closed⟩ | ⟨t, there, live, proceeding⟩
  · exact ⟨.closed, same, closed⟩
  · rcases proceed_quiet keyed there live proceeding with woken | ⟨same, ⟨unpatched, -⟩ | ⟨-, awaits⟩⟩
    · exact ⟨.woken, woken⟩
    · exact ⟨.unpatched, same, t, there, live, unpatched⟩
    · exact ⟨.running, same, t, there, live, awaits⟩

theorem Woken.ne (woken : Woken key s s') : s' ≠ s := by
  rintro rfl
  obtain ⟨change, log, -⟩ := woken
  exact List.cons_ne_self change s'.log log.symm

theorem Quiet.Holds.eq_closed {q : Quiet} (closed : Quiet.closed.Holds key s s' told) (h : q.Holds key s s' told) :
    q = .closed := by
  cases q with
  | closed => rfl
  | woken => exact absurd closed.1 h.ne
  | unpatched =>
    obtain ⟨-, t, there, live, -⟩ := h
    rw [closed.2 t there] at live
    cases live
  | running =>
    obtain ⟨-, t, there, live, -⟩ := h
    rw [closed.2 t there] at live
    cases live

theorem Quiet.Holds.eq_woken {q : Quiet} (woken : Woken key s s') (h : q.Holds key s s' told) : q = .woken := by
  cases q with
  | closed => exact absurd h.1 woken.ne
  | woken => rfl
  | unpatched => exact absurd h.1 woken.ne
  | running => exact absurd h.1 woken.ne

/-- A pass does not look for run workloads before the patches are evaluated. -/
theorem Quiet.Holds.apart (keyed : s.Keyed) (tells : (reconcile settings key now).Tells [] s told (.ok .done) s')
    (unpatched : Quiet.unpatched.Holds key s s' told) (running : Quiet.running.Holds key s s' told) : False := by
  obtain ⟨same, t, there, live, without⟩ := unpatched
  obtain ⟨-, u, -, -, awaits⟩ := running
  rcases proceed_quiet keyed there live (proceed_of_tells there live tells) with
    woken | ⟨-, ⟨-, none_found⟩ | ⟨patched, -⟩⟩
  · exact woken.ne same
  · exact awaits.found none_found
  · rw [without] at patched
    cases patched

theorem Quiet.Holds.unique (keyed : s.Keyed) (tells : (reconcile settings key now).Tells [] s told (.ok .done) s')
    {q r : Quiet} (hq : q.Holds key s s' told) (hr : r.Holds key s s' told) : q = r := by
  cases q with
  | closed => exact (hq.eq_closed hr).symm
  | woken => exact (Quiet.Holds.eq_woken hq hr).symm
  | unpatched =>
    cases r with
    | closed => exact hr.eq_closed hq
    | woken => exact Quiet.Holds.eq_woken hr hq
    | unpatched => rfl
    | running => exact (hq.apart keyed tells hr).elim
  | running =>
    cases r with
    | closed => exact hr.eq_closed hq
    | woken => exact Quiet.Holds.eq_woken hr hq
    | unpatched => exact (hr.apart keyed tells hq).elim
    | running => rfl

theorem reconcile_wakes (keyed : s.Keyed) {c : Call} {next : c.Answer → Plan Outcome} {u : Store}
    (comes : (reconcile settings key now).Comes s (.ask c next) u) (writes : c.write? ≠ none)
    (run : (Plan.ask c next).Runs u (.ok .done) s') : Woken key s s' := by
  generalize hq : Plan.ask c next = q at comes
  cases comes with
  | here p s =>
    cases hq
    exact absurd rfl writes
  | @ask _ _ _ v _ r _ reply comes =>
    obtain ⟨hr, rfl⟩ := reply
    unfold Store.getTrial at hr
    cases there : v.trials.get? key with
    | none =>
      rw [there] at hr
      subst hr
      cases hq.trans comes.of_done
    | some t =>
      rw [there] at hr
      subst hr
      dsimp only at comes
      split at comes
      · cases hq.trans comes.of_done
      · next open_ =>
        subst hq
        have live : t.isLive = true := by simp [Trial.isLive_eq, open_]
        exact (rest_proceed t key).wakes keyed there live comes writes run

/-- A quiet pass on a store of any history has one of four reasons and only one: its trial is closed or
missing, or it has written and exactly one change of the trial was reported, or the patches of a live trial
are not evaluated yet, or a live trial awaits a run of which the pass has found something and everything found
is merged. Each write that a quiet pass comes to was reported as a change of its trial. -/
theorem quiet_for_one_reason {n : Nat} (built : s.Built n)
    (tells : (reconcile settings key now).Tells [] s told (.ok .done) s') :
    (∃! q : Quiet, q.Holds key s s' told) ∧
      ∀ {c : Call} {next : c.Answer → Plan Outcome} {u : Store},
        (reconcile settings key now).Comes s (.ask c next) u → c.write? ≠ none →
          (Plan.ask c next).Runs u (.ok .done) s' → Woken key s s' := by
  obtain ⟨q, holds⟩ := reconcile_quiet built.keyed tells
  exact ⟨⟨q, holds, fun r hr => hr.unique built.keyed tells holds⟩, reconcile_wakes built.keyed⟩

/-- A pass that finds nothing to wait for: its commit is the change that the next pass begins with. -/
theorem quiet_after_stable :
    let key : ObjectKey := ⟨"ns", "t1"⟩
    let now : Instant := default
    let s := Store.empty.after (.createTrial (Draft.named "ns" "t1" now).build)
    let t := (Draft.named "ns" "t1" now).build.withVersion 1
    let s' := s.after (.updateTrial (t.record .stable (.plain .true) now).syncPhase .status)
    ∃ n told, s.Built n ∧ (reconcile .standard key now).Tells [] s told (.ok .done) s' ∧
      (∃! q : Quiet, q.Holds key s s' told) ∧ Quiet.woken.Holds key s s' told := by
  intro key now s t s'
  have built := Store.Built.empty.write (.createTrial (Draft.named "ns" "t1" now).build)
  have stored : s.trials.get? key = some t := by decide +kernel
  have there : s.getTrial key = .ok t := by rw [Store.getTrial, stored]
  let u := (t.record .stable (.plain .true) now).syncPhase
  have committed : (.ok (u.withVersion 2), s') = s.taking (s.replaceTrial u .status) := by
    have replaced : (s.replaceTrial u .status).toOption = some (u.withVersion 2, s') := by decide +kernel
    cases h : s.replaceTrial u .status with
    | error e => rw [h] at replaced; cases replaced
    | ok r => rw [h] at replaced; rw [Option.some.inj replaced]; rfl
  have commits : (commit t.spec (t.record .stable (.plain .true) now) .done).Tells [⟨.getTrial key, .ok t⟩] s
      [⟨.updateTrial u .status, .ok (u.withVersion 2)⟩, ⟨.getTrial key, .ok t⟩] (.ok .done) s' :=
    .ask (c := .updateTrial u .status) (r := Except.ok (u.withVersion 2)) committed (.done _ _ _)
  have tells : (reconcile .standard key now).Tells [] s _ (.ok .done) s' :=
    .ask (c := .getTrial key) (r := Except.ok t) ⟨there.symm, rfl⟩ commits
  have result := quiet_for_one_reason built tells
  exact ⟨_, _, built, tells, result.1, .trial key, by decide +kernel, rfl⟩

/-- A trial that was deleted before its patches were evaluated is both closed and without its patches. -/
theorem deleted_trial_is_unpatched :
    let key : ObjectKey := ⟨"ns", "t1"⟩
    let now : Instant := default
    let fresh := (Draft.named "ns" "t1" now).build.record .patched (.plain .unknown) now
    let s := (Store.empty.after (.createTrial fresh)).after (.markDeleted key now)
    ∃ n told, s.Built n ∧ (reconcile .standard key now).Tells [] s told (.ok .done) s ∧
      Quiet.closed.Holds key s s told ∧
      ∃ t, s.trials.get? key = some t ∧ t.metadata.isDeleted = true ∧
        t.status.conditions.holds .patched .unknown = true := by
  intro key now fresh s
  have built := (Store.Built.empty.write (.createTrial fresh)).write (.markDeleted key now)
  let t : Trial := { fresh.withVersion 2 with metadata.deletedAt := some now }
  have stored : s.trials.get? key = some t := by decide +kernel
  have there : s.getTrial key = .ok t := by rw [Store.getTrial, stored]
  have tells : (reconcile .standard key now).Tells [] s [⟨.getTrial key, .ok t⟩] (.ok .done) s :=
    .ask (c := .getTrial key) (r := Except.ok t) ⟨there.symm, rfl⟩ (.done _ _ _)
  refine ⟨_, _, built, tells, ⟨rfl, fun u found => ?_⟩, t, stored, by decide +kernel, by decide +kernel⟩
  obtain rfl := Option.some.inj (stored.symm.trans found)
  decide +kernel

end TrialControl.Pass
