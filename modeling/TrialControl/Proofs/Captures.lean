import TrialControl.Proofs.Performances
import TrialControl.Proofs.QuietPasses

/-!
# Captures

A pass calls the capture client behind all its other questions: after a run that has ended, whose workloads
show neither a failure nor a time that the trial does not have. What a pass may ask is stated with what was
asked before it, so it holds for every answer, whatever else happens between a question and its answer.
-/

namespace TrialControl

open Store (Write)
open Rehearsal (Cast)

def Call.probed? : Call → Option Patch
  | .probe p => some p
  | _ => none

def Call.captured? : Call → Option (Metric × Trial × MetricTarget)
  | .capture m t target => some (m, t, target)
  | _ => none

namespace Transcript

def probes (asked : Transcript) : List Patch := asked.filterMap (·.call.probed?)

def captures (asked : Transcript) : List (Metric × Trial × MetricTarget) := asked.filterMap (·.call.captured?)

def Merges (asked : Transcript) (t : Trial) (w : Workload) : Prop :=
  ∃ units b, ⟨.listUnits w.metadata.ns w.selector, .ok units⟩ ∈ asked ∧ w.view units = .consistent b [] ∧
    t.status.absorb b t.spec.startOffset = (t.status, false)

/-- The target of a metric as its kind prescribes it, where it was looked up last. -/
inductive Prescribes (asked : Transcript) (t : Trial) (m : Metric) : MetricTarget → Prop where
  | computed (kind : m.kind = .computed) : Prescribes asked t m .nothing
  | pods {units : List ExecutionUnit} (kind : m.kind = .pods)
      (last : asked.head? = some ⟨.listUnits t.targetNs m.selector, .ok units⟩) : Prescribes asked t m (.units units)
  | service {services : List ServiceEndpoint} (kind : m.kind = .prometheus ∨ m.kind = .jsonPath)
      (last : asked.head? = some ⟨.listServices m.selector, .ok services⟩) :
      Prescribes asked t m (.services services)

end Transcript

namespace Trial

def HasClosedSlot (t : Trial) (name : String) : Prop := ∃ v, t.value? name = some v ∧ v.attempts = 0

/-- The first metric declared that has no slot, or one with attempts left. -/
def Turn (t : Trial) (metrics : List Metric) (m : Metric) : Prop :=
  ∃ before after, metrics = before ++ m :: after ∧ (∀ x ∈ before, t.HasClosedSlot x.name) ∧ ¬ t.HasClosedSlot m.name

theorem isResolved_slot_iff {t : Trial} {name : String} :
    (Value.slot name t.spec.values).isResolved = true ↔ t.HasClosedSlot name := by
  unfold HasClosedSlot value? Value.slot
  cases t.spec.values.find? (·.name == name) with
  | none => simp [Value.isResolved, Value.fresh, Value.budget]
  | some v => simp [Value.isResolved]

theorem nextMetric?_eq_some_iff {t : Trial} {metrics : List Metric} {m : Metric} :
    t.nextMetric? metrics = some m ↔ t.Turn metrics m := by
  rw [nextMetric?, List.find?_eq_some_iff_append]
  simp only [Bool.not_eq_true', ← Bool.not_eq_true, Bool.not_not, isResolved_slot_iff]
  constructor
  · rintro ⟨open_, before, after, declared, closed⟩
    exact ⟨before, after, declared, closed, open_⟩
  · rintro ⟨before, after, declared, closed, open_⟩
    exact ⟨open_, before, after, declared, closed⟩

end Trial

/-! ## Guarded questions -/

namespace Plan

variable {α β : Type} {P : Transcript → Call → Prop} {Q Q' : Transcript → α → Prop} {p q : Plan α}
variable {asked start : Transcript}

/-- After what was asked before: every question that a plan may ask fulfils `P` with what was asked by then,
and every result that it may have fulfils `Q`. -/
def Guards (P : Transcript → Call → Prop) (Q : Transcript → α → Prop) : Transcript → Plan α → Prop
  | asked, .done a => Q asked a
  | asked, .ask c next => P asked c ∧ ∀ r, (next r).Guards P Q (⟨c, r⟩ :: asked)

theorem Guards.bind {R : Transcript → β → Prop} {f : α → Plan β} (h : p.Guards P Q asked)
    (hf : ∀ told a, Q told a → (f a).Guards P R told) : (p.bind f).Guards P R asked := by
  induction p generalizing asked with
  | done a => exact hf asked a h
  | ask c next ih => exact ⟨h.1, fun r => ih r (h.2 r)⟩

theorem Guards.imp (h : p.Guards P Q asked) (weaker : ∀ told a, Q told a → Q' told a) : p.Guards P Q' asked := by
  induction p generalizing asked with
  | done a => exact weaker asked a h
  | ask c next ih => exact ⟨h.1, fun r => ih r (h.2 r)⟩

theorem Guards.reached (h : p.Guards P Q start) (reaches : p.Reaches asked q) : q.Guards P Q (asked ++ start) := by
  induction reaches with
  | start => exact h
  | answer reaches r ih => exact ih.2 r

end Plan

namespace Pass

variable {settings : Settings} {now : Instant} {t u : Trial} {asked told : Transcript} {key : ObjectKey}
variable {p : Plan Outcome} {m : Metric} {target : MetricTarget}

/-- It is the turn of a metric of the live trial that was read: nothing waits, the trial is stable and out of its
grace and its patches are evaluated; there are run workloads, all merged; the run has ended and is observed. -/
structure CaptureDue (settings : Settings) (now : Instant) (asked : Transcript) (t : Trial) (m : Metric) : Prop where
  read : asked.trial? = some t
  live : t.isLive = true
  ready : Ready settings now t
  run : asked.runs ≠ []
  merged : ∀ w ∈ asked.runs, asked.Merges t w
  ended : t.status.completionTime.isSome = true
  observed : (t.status.conditions.find? .observed).isSome = true
  turn : ∃ e, asked.experiment? = some e ∧ t.Turn e.metrics m

inductive Allowed (settings : Settings) (now : Instant) (asked : Transcript) : Call → Prop where
  | probe {t : Trial} {p : Patch} (read : asked.trial? = some t) (mem : p ∈ t.spec.patches) (waits : p.waits = true)
      (uncaptured : asked.captures = []) : Allowed settings now asked (.probe p)
  | capture {t : Trial} {m : Metric} {target : MetricTarget} (due : CaptureDue settings now asked t m)
      (prescribed : asked.Prescribes t m target) (unprobed : asked.probes = []) (uncaptured : asked.captures = []) :
      Allowed settings now asked (.capture m (t.updateValue m.name id) target)
  | other {c : Call} (unprobing : c.probed? = none) (uncapturing : c.captured? = none) : Allowed settings now asked c

abbrev Guarded (settings : Settings) (now : Instant) (asked : Transcript) (p : Plan Outcome) : Prop :=
  p.Guards (Allowed settings now) (fun _ _ => True) asked

theorem guarded_commit (read : TrialSpec) (u : Trial) (action : Action) (asked : Transcript) :
    Guarded settings now asked (commit read u action) := by
  refine ⟨.other rfl rfl, fun r => ?_⟩
  cases r <;> exact trivial

theorem guarded_createRun (asked : Transcript) : Guarded settings now asked (createRun settings t) := by
  refine ⟨.other rfl rfl, fun r => ?_⟩
  cases r with
  | ok w => exact trivial
  | error e => cases e <;> exact trivial

theorem scanFrom_guards (asked : Transcript) (ps : List Patch) (some_of : ps ⊆ t.spec.patches) (u : Trial)
    (delay : Option Duration) (seen : List Patch) (read : asked.trial? = some t) (uncaptured : asked.captures = []) :
    (Trial.scanFrom now u delay seen ps).Guards (Allowed settings now)
      (fun told scan => scan = .idle → delay = none ∧ ps.any (·.waits) = false ∧ told = asked) asked := by
  induction ps generalizing u delay seen asked with
  | nil =>
    unfold Trial.scanFrom
    cases delay with
    | none => exact fun _ => ⟨rfl, rfl, rfl⟩
    | some d =>
      intro idle
      cases idle
  | cons p ps ih =>
    have rest : ps ⊆ t.spec.patches := fun q mem => some_of (List.mem_cons_of_mem p mem)
    unfold Trial.scanFrom
    by_cases waits : p.waits = true
    · rw [if_pos waits]
      refine ⟨.probe read (some_of (List.mem_cons_self ..)) waits uncaptured, fun r => ?_⟩
      cases r with
      | ok _ =>
        intro idle
        cases idle
      | error e =>
        dsimp only
        cases e.retryDelay? with
        | none =>
          intro idle
          cases idle
        | some d =>
          dsimp only
          split
          · refine (ih (⟨.probe p, .error e⟩ :: asked) rest _ (some d) _ read uncaptured).imp ?_
            intro told scan h idle
            cases (h idle).1
          · next longer =>
            refine (ih (⟨.probe p, .error e⟩ :: asked) rest u delay _ read uncaptured).imp ?_
            intro told scan h idle
            rw [(h idle).1] at longer
            exact absurd rfl longer
    · rw [if_neg waits]
      refine (ih asked rest u delay _ read uncaptured).imp ?_
      intro told scan h idle
      obtain ⟨undelayed, still, same⟩ := h idle
      exact ⟨undelayed, by simp [waits, still], same⟩

/-! ## Collecting -/

theorem CaptureDue.later {x : Exchange} (due : CaptureDue settings now asked t m) (trial : x.trial? = none)
    (workloads : x.workloads? = none) (experiment : x.experiment? = none) :
    CaptureDue settings now (x :: asked) t m := by
  have runs : Transcript.runs (x :: asked) = asked.runs := Transcript.runs_cons workloads
  have same_trial : Transcript.trial? (x :: asked) = asked.trial? := List.findSome?_cons_of_isNone (by simp [trial])
  have same_experiment : Transcript.experiment? (x :: asked) = asked.experiment? :=
    List.findSome?_cons_of_isNone (by simp [experiment])
  refine ⟨same_trial.trans due.read, due.live, due.ready, runs ▸ due.run, fun w mem => ?_, due.ended,
    due.observed, ?_⟩
  · obtain ⟨units, b, listed, shows⟩ := due.merged w (runs ▸ mem)
    exact ⟨units, b, List.mem_cons_of_mem x listed, shows⟩
  · rw [same_experiment]
    exact due.turn

theorem guarded_attempt (due : CaptureDue settings now asked t m) (unprobed : asked.probes = [])
    (uncaptured : asked.captures = []) :
    (m.attempt (t.updateValue m.name id)).Guards (Allowed settings now) (fun _ _ => True) asked := by
  have captured {asked : Transcript} {target : MetricTarget} (due : CaptureDue settings now asked t m)
      (prescribed : asked.Prescribes t m target) (unprobed : asked.probes = []) (uncaptured : asked.captures = []) :
      (Plan.ask (.capture m (t.updateValue m.name id) target) fun r =>
        .done (r.bind (Captured.finite m.name))).Guards (Allowed settings now) (fun _ _ => True) asked :=
    ⟨.capture due prescribed unprobed uncaptured, fun _ => trivial⟩
  unfold Metric.attempt Metric.resolve
  cases kind : m.kind with
  | computed => exact captured due (.computed kind) unprobed uncaptured
  | pods =>
    refine ⟨.other rfl rfl, fun r => ?_⟩
    cases r with
    | error e => exact trivial
    | ok units => exact captured (due.later rfl rfl rfl) (.pods kind rfl) unprobed uncaptured
  | prometheus =>
    refine ⟨.other rfl rfl, fun r => ?_⟩
    cases r with
    | error e => exact trivial
    | ok services => exact captured (due.later rfl rfl rfl) (.service (.inl kind) rfl) unprobed uncaptured
  | jsonPath =>
    refine ⟨.other rfl rfl, fun r => ?_⟩
    cases r with
    | error e => exact trivial
    | ok services => exact captured (due.later rfl rfl rfl) (.service (.inr kind) rfl) unprobed uncaptured

theorem guarded_collect (asked : Transcript) {e : Experiment}
    (due : ∀ m, t.Turn e.metrics m → (t.status.conditions.find? .observed).isSome = true →
      CaptureDue settings now asked t m)
    (unprobed : asked.probes = []) (uncaptured : asked.captures = []) :
    (t.collect e.metrics now).Guards (Allowed settings now) (fun _ _ => True) asked := by
  unfold Trial.collect
  by_cases first : (!e.metrics.isEmpty && (t.status.conditions.find? .observed).isNone) = true
  · rw [if_pos first]
    exact trivial
  · rw [if_neg first]
    cases next : t.nextMetric? e.metrics with
    | none => exact trivial
    | some m =>
      have observed : (t.status.conditions.find? .observed).isSome = true := by
        cases hm : e.metrics <;> cases ho : t.status.conditions.find? .observed <;> simp_all [Trial.nextMetric?]
      have due := due m (Trial.nextMetric?_eq_some_iff.mp next) observed
      refine (guarded_attempt due unprobed uncaptured).bind fun told r _ => ?_
      cases r with
      | ok c => exact trivial
      | error f =>
        dsimp only
        cases f.retryDelay? <;> exact trivial

/-! ## The pass -/

structure Following (settings : Settings) (now : Instant) (asked : Transcript) (t : Trial) (ws : List Workload) :
    Prop where
  read : asked.trial? = some t
  live : t.isLive = true
  ready : Ready settings now t
  run : asked.runs ≠ []
  merged : ∀ w ∈ asked.runs, w ∈ ws ∨ asked.Merges t w
  unprobed : asked.probes = []
  uncaptured : asked.captures = []

theorem guarded_measure (following : Following settings now asked t []) :
    Guarded settings now asked (measure t.spec t now) := by
  unfold measure
  by_cases unended : t.status.completionTime.isNone = true
  · rw [if_pos unended]
    exact trivial
  · rw [if_neg unended]
    have ended : t.status.completionTime.isSome = true := by
      cases h : t.status.completionTime <;> simp_all
    cases t.experimentKey with
    | error e => exact trivial
    | ok key =>
      refine ⟨.other rfl rfl, fun r => ?_⟩
      cases r with
      | error e => exact trivial
      | ok e =>
        refine (guarded_collect (⟨.getExperiment key, .ok e⟩ :: asked) (fun m turn observed => ?_) following.unprobed
          following.uncaptured).bind fun told c _ => ?_
        · refine ⟨following.read, following.live, following.ready, following.run, fun w mem => ?_, ended, observed, e,
            rfl, turn⟩
          obtain ⟨units, b, listed, shows⟩ := (following.merged w mem).resolve_left List.not_mem_nil
          exact ⟨units, b, List.mem_cons_of_mem _ listed, shows⟩
        · cases c with
          | changed u => exact guarded_commit t.spec u .done told
          | delayed d => exact trivial

theorem guarded_follow (ws : List Workload) (following : Following settings now asked t ws) :
    Guarded settings now asked (follow t.spec t now ws) := by
  induction ws generalizing asked with
  | nil => exact guarded_measure following
  | cons w ws ih =>
    refine ⟨.other rfl rfl, fun r => ?_⟩
    cases r with
    | error e => exact trivial
    | ok units =>
      dsimp only
      cases view : w.view units with
      | lagging => exact trivial
      | consistent b failures =>
        dsimp only
        cases changed : (absorb t b failures now).2 with
        | true => exact guarded_commit t.spec _ .done _
        | false =>
          rw [absorb_unchanged changed]
          obtain ⟨rfl, same⟩ := failures_of_unchanged following.live changed
          refine ih ⟨following.read, following.live, following.ready, following.run, fun x mem => ?_,
            following.unprobed, following.uncaptured⟩
          rcases following.merged x mem with mem | ⟨units', b', listed, shows⟩
          · rcases List.mem_cons.mp mem with rfl | mem
            · exact .inr ⟨units, b, List.mem_cons_self .., view, same⟩
            · exact .inl mem
          · exact .inr ⟨units', b', List.mem_cons_of_mem _ listed, shows⟩

theorem guarded_proceed (live : t.isLive = true) :
    Guarded settings now [⟨.getTrial key, .ok t⟩] (proceed settings t now) := by
  refine (scanFrom_guards [⟨.getTrial key, .ok t⟩] t.spec.patches (List.Subset.refl _) t none [] rfl rfl).bind ?_
  intro told scan idle
  cases scan with
  | changed u => exact guarded_commit t.spec u .done told
  | waiting u delay => exact guarded_commit t.spec u (.requeueAfter delay) told
  | idle =>
    obtain ⟨-, still, rfl⟩ := idle rfl
    dsimp only
    unfold advance
    by_cases unstable : t.status.conditions.compare? .stable .true = some false
    · rw [if_pos unstable]
      exact guarded_commit t.spec _ .done _
    · rw [if_neg unstable]
      split
      · exact trivial
      · next graced =>
        split
        · exact trivial
        · next patched =>
          have ready : Ready settings now t := ⟨still, unstable, by simpa using graced, by simpa using patched⟩
          refine ⟨.other rfl rfl, fun r => ?_⟩
          cases r with
          | error e => exact trivial
          | ok found =>
            dsimp only
            cases runs : found.filter fun w => !w.isSetup with
            | nil => exact guarded_createRun _
            | cons w ws =>
              have listed : Transcript.runs [⟨.listWorkloads t.metadata.ns t.ownSelector, .ok found⟩,
                  ⟨.getTrial key, .ok t⟩] = w :: ws := runs
              exact guarded_follow (w :: ws)
                ⟨rfl, live, ready, by simp [listed], fun x mem => .inl (listed ▸ mem), rfl, rfl⟩

theorem guarded_reconcile (settings : Settings) (key : ObjectKey) (now : Instant) :
    Guarded settings now [] (reconcile settings key now) := by
  refine ⟨.other rfl rfl, fun r => ?_⟩
  cases r with
  | error e => exact trivial
  | ok t =>
    dsimp only
    split
    · exact trivial
    · next live => exact guarded_proceed (by simp [Trial.isLive_eq, live])

theorem allowed_of_reaches {c : Call} {next : c.Answer → Plan Outcome}
    (reaches : (reconcile settings key now).Reaches asked (.ask c next)) : Allowed settings now asked c := by
  have guarded := (guarded_reconcile settings key now).reached reaches
  rw [List.append_nil] at guarded
  exact guarded.1

theorem spent_of_reaches (reaches : (reconcile settings key now).Reaches asked p) :
    asked.captures.length ≤ 1 ∧ (asked.probes = [] ∨ asked.captures = []) := by
  induction reaches with
  | start => exact ⟨Nat.zero_le 1, .inl rfl⟩
  | @answer asked c next reaches r ih =>
    cases allowed_of_reaches reaches with
    | @probe t p read mem waits uncaptured =>
      have same : Transcript.captures (⟨.probe p, r⟩ :: asked) = [] := uncaptured
      rw [same]
      exact ⟨Nat.zero_le 1, .inr rfl⟩
    | @capture t m target due prescribed unprobed uncaptured =>
      have one : Transcript.captures (⟨.capture m (t.updateValue m.name id) target, r⟩ :: asked) =
          (m, t.updateValue m.name id, target) :: asked.captures := rfl
      rw [one, uncaptured]
      exact ⟨Nat.le_refl 1, .inl unprobed⟩
    | other unprobing uncapturing =>
      have captures : Transcript.captures (⟨c, r⟩ :: asked) = asked.captures := List.filterMap_cons_none uncapturing
      have probes : Transcript.probes (⟨c, r⟩ :: asked) = asked.probes := List.filterMap_cons_none unprobing
      rw [captures, probes]
      exact ih

/-- At every point of a pass, whatever it was answered: it has called the capture client once at the most, and not
if it has probed. It probes waiting patches of the trial that it has read. It calls the capture client for the first
metric declared that has no slot or one with attempts left, with the target that the metric's kind prescribes; and
only for a live trial that is ready, of which run workloads were found, all of them merged and without failure, and
which has ended and is observed. -/
theorem capture_follows_ended_run (reaches : (reconcile settings key now).Reaches told p) :
    told.captures.length ≤ 1 ∧ (told.probes = [] ∨ told.captures = []) ∧
      (∀ q next, p = .ask (.probe q) next → ∃ t, told.trial? = some t ∧ q ∈ t.spec.patches ∧ q.waits = true) ∧
      ∀ m u target next, p = .ask (.capture m u target) next → told.captures = [] ∧ told.probes = [] ∧
        ∃ t, CaptureDue settings now told t m ∧ told.Prescribes t m target ∧ u = t.updateValue m.name id := by
  obtain ⟨once, apart⟩ := spent_of_reaches reaches
  refine ⟨once, apart, ?_, ?_⟩
  · rintro q next rfl
    cases allowed_of_reaches reaches with
    | probe read mem waits uncaptured => exact ⟨_, read, mem, waits⟩
    | other unprobing uncapturing => cases unprobing
  · rintro m u target next rfl
    cases allowed_of_reaches reaches with
    | capture due prescribed unprobed uncaptured => exact ⟨uncaptured, unprobed, _, due, prescribed, rfl⟩
    | other unprobing uncapturing => cases uncapturing

/-- The first metric is collected already; the second one is read from a unit of the run. -/
theorem second_metric_is_captured :
    let key : ObjectKey := ⟨"ns", "t1"⟩
    let at_ (n : UInt64) : Instant := shifted default (some (.ofSeconds n))
    let draft := ((Draft.named "ns" "t1" default).experiment "e1").build
    let t := (draft.record .stable (.plain .true) default).record .observed (.plain .false) (at_ 3)
    let t := { t with
      spec.values := [{ Value.fresh "cost" with value := "1", attempts := 0 }]
      status.startTime := some (at_ 1)
      status.completionTime := some (at_ 2) }
    let unit : ExecutionUnit :=
      { ExecutionUnit.pending { Metadata.named "ns" "u" with labels := (∅ : Labels).insert Label.trial "t1" } with
        phase := .succeeded, containers := [.terminated (at_ 1) (at_ 2) 0 ""] }
    let metrics := [Metric.named "cost" .computed, .named "load" .pods]
    let s := [Write.putExperiment ⟨.named "ns" "e1", metrics⟩, .createTrial t.syncPhase,
      .createWorkload (t.runWorkload .standard), .putUnit unit].foldl Store.after .empty
    ∃ told outcome s', (reconcile .standard key (at_ 9)).Tells [] s told outcome s' ∧
      told.captures.map (·.1.name) = ["load"] ∧ told.captures.length ≤ 1 ∧
      ∃ asked m u target next, (reconcile .standard key (at_ 9)).Reaches asked (.ask (.capture m u target) next) ∧
        asked.captures = [] ∧ ∃ t, CaptureDue .standard (at_ 9) asked t m ∧ asked.Prescribes t m target := by
  intro key at_ draft t t unit metrics s
  obtain ⟨tells, -⟩ := Cast.attend_tells (c := ⟨⟨s, [], ∅⟩, .rollouts .zero, .computed, [], []⟩)
    ⟨rfl, trivial, trivial⟩ [] (reconcile .standard key (at_ 9))
  generalize told_eq : ((reconcile .standard key (at_ 9)).run Cast.attend _).2.1 = told at tells
  have captured : told.captures.map (·.1.name) = ["load"] := by
    rw [← told_eq]
    decide +kernel
  obtain ⟨call, calls, -⟩ := List.map_eq_singleton_iff.mp captured
  have called : call ∈ told.captures := by simp [calls]
  obtain ⟨⟨question, answer⟩, mem, shows⟩ := List.mem_filterMap.mp called
  obtain ⟨asked, next, reaches⟩ := (tells.reaches .start).asked mem
  have once := (capture_follows_ended_run (tells.reaches .start)).1
  cases question <;> cases shows
  obtain ⟨-, -, -, due⟩ := capture_follows_ended_run reaches
  obtain ⟨first, -, t, due, prescribed, -⟩ := due _ _ _ next rfl
  exact ⟨told, _, _, tells, captured, once, asked, _, _, _, next, reaches, first, t, due, prescribed⟩

end Pass

end TrialControl
