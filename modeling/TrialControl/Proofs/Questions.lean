import TrialControl.Proofs.Transitions

/-!
# What a pass asks

A pass reads the trial of its key first. All that it asks afterwards concerns that trial: it lists the
workloads with the trial's own selector, and looks up the trial's experiment.
-/

namespace TrialControl

def Call.Concerns (t : Trial) : Call → Prop
  | .getTrial _ => False
  | .listWorkloads ns selector => ns = t.metadata.ns ∧ selector = t.ownSelector
  | .getExperiment key => t.experimentKey = .ok key
  | _ => True

theorem Transcript.mem_runs {asked : Transcript} {w : Workload} (h : w ∈ asked.runs) :
    ∃ ns selector found, ⟨.listWorkloads ns selector, .ok found⟩ ∈ asked ∧ w ∈ found ∧ w.isSetup = false := by
  simp only [runs, List.mem_filter, Bool.not_eq_true'] at h
  obtain ⟨mem, run⟩ := h
  cases listed : asked.findSome? Exchange.workloads? with
  | none => simp [listed] at mem
  | some found =>
    rw [listed, Option.getD_some] at mem
    obtain ⟨x, hx, shows⟩ := List.exists_of_findSome?_eq_some listed
    obtain ⟨call, answer⟩ := x
    cases call <;> cases answer <;> cases shows
    exact ⟨_, _, found, hx, mem, run⟩

theorem Transcript.mem_experiment? {asked : Transcript} {e : Experiment} (h : asked.experiment? = some e) :
    ∃ key, ⟨.getExperiment key, .ok e⟩ ∈ asked := by
  obtain ⟨x, hx, shows⟩ := List.exists_of_findSome?_eq_some h
  obtain ⟨call, answer⟩ := x
  cases call <;> cases answer <;> cases shows
  exact ⟨_, hx⟩

namespace Pass

variable {settings : Settings} {now : Instant} {t : Trial}

abbrev Concerned {α : Type} (t : Trial) (p : Plan α) : Prop := ∀ asked, p.Ensures (·.Concerns t) (fun _ _ => True) asked

theorem Concerned.bind {α β : Type} {p : Plan α} {f : α → Plan β} (h : Concerned t p) (hf : ∀ a, Concerned t (f a)) :
    Concerned t (p.bind f) :=
  fun asked => (h asked).bind fun told a _ => hf a told

theorem concerned_scanFrom (ps : List Patch) (u : Trial) (delay : Option Duration) (seen : List Patch) :
    Concerned t (Trial.scanFrom now u delay seen ps) := by
  induction ps generalizing u delay seen with
  | nil => exact fun _ => trivial
  | cons p ps ih =>
    intro asked
    unfold Trial.scanFrom
    by_cases waits : p.waits = true
    · rw [if_pos waits]
      refine ⟨trivial, fun r => ?_⟩
      cases r with
      | ok _ => exact trivial
      | error e =>
        dsimp only
        cases e.retryDelay? with
        | none => exact trivial
        | some d =>
          dsimp only
          split
          · exact ih _ _ _ _
          · exact ih _ _ _ _
    · rw [if_neg waits]
      exact ih _ _ _ _

theorem concerned_commit (read : TrialSpec) (u : Trial) (action : Action) : Concerned t (commit read u action) := by
  refine fun asked => ⟨trivial, fun r => ?_⟩
  cases r <;> exact trivial

theorem concerned_createRun : Concerned t (createRun settings t) := by
  refine fun asked => ⟨trivial, fun r => ?_⟩
  cases r with
  | ok w => exact trivial
  | error e => cases e <;> exact trivial

theorem concerned_attempt (m : Metric) (u : Trial) : Concerned t (m.attempt u) := by
  have resolved : Concerned t (m.resolve u.targetNs) := by
    intro asked
    unfold Metric.resolve
    cases m.kind.scope with
    | nothing => exact trivial
    | unitsOfNamespace => exact ⟨trivial, fun _ => trivial⟩
    | servicesOfCluster => exact ⟨trivial, fun _ => trivial⟩
  refine resolved.bind fun r => ?_
  cases r with
  | ok target => exact fun asked => ⟨trivial, fun _ => trivial⟩
  | error e => exact fun asked => trivial

theorem concerned_collect (metrics : List Metric) : Concerned t (t.collect metrics now) := by
  unfold Trial.collect
  split
  · exact fun asked => trivial
  · cases t.nextMetric? metrics with
    | none => exact fun asked => trivial
    | some m =>
      refine (concerned_attempt m _).bind fun r => ?_
      cases r with
      | ok c => exact fun asked => trivial
      | error e =>
        dsimp only
        cases e.retryDelay? <;> exact fun asked => trivial

theorem concerned_measure (read : TrialSpec) : Concerned t (measure read t now) := by
  unfold measure
  split
  · exact fun asked => trivial
  · cases named : t.experimentKey with
    | error e => exact fun asked => trivial
    | ok key =>
      refine fun asked => ⟨named, fun r => ?_⟩
      cases r with
      | error e => exact trivial
      | ok e =>
        refine (concerned_collect e.metrics).bind (fun c => ?_) _
        cases c with
        | changed u => exact concerned_commit read u .done
        | delayed d => exact fun asked => trivial

theorem concerned_follow (read : TrialSpec) (ws : List Workload) : Concerned t (follow read t now ws) := by
  induction ws with
  | nil => exact concerned_measure read
  | cons w ws ih =>
    refine fun asked => ⟨trivial, fun r => ?_⟩
    cases r with
    | error e => exact trivial
    | ok units =>
      dsimp only
      cases w.view units with
      | lagging => exact trivial
      | consistent b failures =>
        dsimp only
        cases changed : (absorb t b failures now).2 with
        | true => exact concerned_commit read _ .done _
        | false =>
          rw [absorb_unchanged changed]
          exact ih _

theorem concerned_proceed (settings : Settings) (t : Trial) (now : Instant) : Concerned t (proceed settings t now) := by
  refine (concerned_scanFrom t.spec.patches t none []).bind fun scan => ?_
  cases scan with
  | changed u => exact concerned_commit t.spec u .done
  | waiting u delay => exact concerned_commit t.spec u (.requeueAfter delay)
  | idle =>
    dsimp only
    unfold advance
    split
    · exact concerned_commit t.spec _ .done
    · split
      · exact fun asked => trivial
      · split
        · exact fun asked => trivial
        · refine fun asked => ⟨⟨rfl, rfl⟩, fun r => ?_⟩
          cases r with
          | error e => exact trivial
          | ok found =>
            dsimp only
            split
            · exact concerned_createRun _
            · exact concerned_follow t.spec _ _

theorem trial?_append_read {asked : Transcript} (concern : ∀ x ∈ asked, x.call.Concerns t) (key : ObjectKey)
    (r : Except Error Trial) : Transcript.trial? (asked ++ [⟨.getTrial key, r⟩]) = r.toOption := by
  have silent : asked.findSome? Exchange.trial? = none := by
    refine List.findSome?_eq_none_iff.mpr fun x hx => ?_
    have concerns := concern x hx
    obtain ⟨call, answer⟩ := x
    cases call with
    | getTrial key => exact concerns.elim
    | _ => rfl
  rw [Transcript.trial?, List.findSome?_append, silent]
  cases r <;> rfl

theorem asked_of_reaches {key : ObjectKey} {asked : Transcript} {p : Plan Outcome}
    (reaches : (reconcile settings key now).Reaches asked p) (read : asked.trial? = some t) :
    ∃ later, asked = later ++ [⟨.getTrial key, .ok t⟩] ∧ ∀ x ∈ later, x.call.Concerns t := by
  rcases reaches.of_ask with ⟨rfl, -⟩ | ⟨r, later, rfl, reached⟩
  · cases read
  · have silent : ∀ u, (∀ x ∈ later, x.call.Concerns u) → r = .ok t := by
      intro u concern
      rw [trial?_append_read concern key r] at read
      cases r <;> cases read
      rfl
    cases r with
    | error e =>
      obtain ⟨rfl, -⟩ := reached.of_done
      cases silent t (by simp)
    | ok u =>
      dsimp only at reached
      split at reached
      · obtain ⟨rfl, -⟩ := reached.of_done
        exact ⟨[], by rw [silent t (by simp)], by simp⟩
      · have concern := ((concerned_proceed settings u now []).asked reached).1
        cases silent u concern
        exact ⟨later, rfl, concern⟩

theorem concerns_of_reaches {key : ObjectKey} {asked : Transcript} {p : Plan Outcome}
    (reaches : (reconcile settings key now).Reaches asked p) (read : asked.trial? = some t) {x : Exchange}
    (mem : x ∈ asked) (other : ∀ key, x.call ≠ .getTrial key) : x.call.Concerns t := by
  obtain ⟨later, rfl, concern⟩ := asked_of_reaches reaches read
  rcases List.mem_append.mp mem with mem | mem
  · exact concern x mem
  · obtain rfl := List.mem_singleton.mp mem
    exact absurd rfl (other key)

end Pass

end TrialControl
