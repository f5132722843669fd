import Mathlib.Data.List.Nodup
import TrialControl.Proofs.Captures
import TrialControl.Proofs.Completions
import TrialControl.Proofs.HeldTrials

/-!
# Slots in the order of declaration

A pass attempts the first metric without a closed slot, so a metric gets its slot when those declared before it are
closed. The slots of a trial follow the declaration then, where a name that is declared again counts once, and only
the last one may still be open.
-/

namespace TrialControl

open Store (Write)
open Rehearsal (Play)

/-! ## Names without repetitions -/

section
variable {names xs before after rest : List String} {a : String}

theorem nodup_eraseDups (xs : List String) : xs.eraseDups.Nodup := by
  match xs with
  | [] => exact .nil
  | x :: xs =>
    rw [List.eraseDups_cons, List.nodup_cons]
    refine ⟨fun mem => ?_, nodup_eraseDups _⟩
    have kept := List.mem_filter.mp (List.mem_eraseDups.mp mem)
    simp at kept
termination_by xs.length
decreasing_by exact Nat.lt_succ_of_le (List.length_filter_le ..)

/-- A name that is declared for the first time comes behind the names declared before it. -/
theorem eraseDups_of_fresh (fresh : a ∉ before) (after : List String) :
    ∃ rest, (before ++ a :: after).eraseDups = before.eraseDups ++ a :: rest := by
  rw [List.eraseDups_append, List.cons_removeAll, if_pos (by simpa using fresh), List.eraseDups_cons]
  exact ⟨_, rfl⟩

theorem prefix_of_not_mem (ordered : names <+: xs ++ a :: rest) (fresh : a ∉ names) : names <+: xs := by
  have longer : xs ++ [a] <+: xs ++ a :: rest := ⟨rest, by simp⟩
  rcases List.prefix_or_prefix_of_prefix ordered longer with short | long
  · rcases List.prefix_concat_iff.mp short with rfl | short
    · simp at fresh
    · exact short
  · exact absurd (long.subset (by simp)) fresh

theorem eq_of_prefix (ordered : names <+: xs) (distinct : xs.Nodup) (all : xs ⊆ names) : names = xs := by
  obtain ⟨rest, rfl⟩ := ordered
  cases rest with
  | nil => rw [List.append_nil]
  | cons a rest =>
    have early : a ∈ names := all (by simp)
    exact absurd rfl ((List.nodup_append.mp distinct).2.2 a early a (List.mem_cons_self ..))

end

namespace Value

theorem update_append {name : String} (f : Value → Value) {init : List Value} (others : ∀ v ∈ init, v.name ≠ name)
    (vs : List Value) : update name f (init ++ vs) = init ++ update name f vs := by
  induction init with
  | nil => rfl
  | cons v init ih =>
    obtain ⟨other, others⟩ := List.forall_mem_cons.mp others
    rw [List.cons_append, update, if_neg other, ih others, List.cons_append]

end Value

/-! ## Slots of a trial -/

structure Trial.Collects (t : Trial) (names : List String) : Prop where
  ordered : t.spec.values.map (·.name) <+: names.eraseDups
  closed : ∀ v ∈ t.spec.values.dropLast, v.attempts = 0 ∧ v.value ≠ ""
  blank : ∀ v ∈ t.spec.values, v.attempts ≠ 0 → v.value = "" ∧ v.deviation = none
  exhausted : ∀ v ∈ t.spec.values, v.attempts = 0 → v.value = "" → t.FailedBy "MetricFailed"
  whole : t.status.conditions.holds .complete .true = true → t.spec.values.map (·.name) = names.eraseDups

theorem Trial.Collects.of_same {t u : Trial} {names : List String} (collects : t.Collects names)
    (values : u.spec.values = t.spec.values) (conditions : u.status.conditions = t.status.conditions) :
    u.Collects names := by
  obtain ⟨ordered, closed, blank, exhausted, whole⟩ := collects
  unfold Trial.FailedBy at exhausted
  rw [← values] at ordered closed blank exhausted whole
  rw [← conditions] at exhausted whole
  exact ⟨ordered, closed, blank, exhausted, whole⟩

structure Trial.Attempts (t : Trial) (names : List String) (name : String) (init : List Value) : Prop where
  ordered : init.map (·.name) ++ [name] <+: names.eraseDups
  closed : ∀ v ∈ init, v.attempts = 0 ∧ v.value ≠ ""
  named : (Value.slot name t.spec.values).name = name
  blank : (Value.slot name t.spec.values).value = "" ∧ (Value.slot name t.spec.values).deviation = none
  update : ∀ f, Value.update name f t.spec.values = init ++ [f (Value.slot name t.spec.values)]

namespace Trial

variable {t u : Trial} {names : List String} {metrics : List Metric} {m : Metric} {name : String} {v w : Value}

theorem HasClosedSlot.mem (closed : t.HasClosedSlot name) : ∃ v ∈ t.spec.values, v.name = name ∧ v.attempts = 0 := by
  obtain ⟨v, found, left⟩ := closed
  exact ⟨v, List.mem_of_find?_eq_some found, by simpa using List.find?_some found, left⟩

theorem names_of_closed (closed : ∀ name ∈ names, t.HasClosedSlot name) :
    names.eraseDups ⊆ t.spec.values.map (·.name) := by
  intro name mem
  obtain ⟨v, here, named, -⟩ := (closed name (List.mem_eraseDups.mp mem)).mem
  exact List.mem_map.mpr ⟨v, here, named⟩

section
variable (collects : t.Collects names)
include collects

theorem Collects.distinct : (t.spec.values.map (·.name)).Nodup :=
  collects.ordered.sublist.nodup (nodup_eraseDups names)

theorem Collects.unique (hv : v ∈ t.spec.values) (hw : w ∈ t.spec.values) (same : v.name = w.name) : v = w :=
  List.inj_on_of_nodup_map collects.distinct hv hw same

theorem Collects.all_of_closed (closed : ∀ name ∈ names, t.HasClosedSlot name) :
    t.spec.values.map (·.name) = names.eraseDups :=
  eq_of_prefix collects.ordered (nodup_eraseDups names) (names_of_closed closed)

theorem Collects.attempts_of_mem (mem : v ∈ t.spec.values) (left : v.attempts ≠ 0) :
    ∃ init, t.Attempts names v.name init := by
  obtain ⟨init, last, split⟩ : ∃ init last, t.spec.values = init ++ [last] :=
    (List.eq_nil_or_concat' t.spec.values).resolve_left fun empty => by simp [empty] at mem
  have closed := collects.closed
  have ordered := collects.ordered
  rw [split, List.dropLast_concat] at closed
  -- all but the last are closed
  have apart : v ∉ init := fun early => left (closed v early).1
  obtain rfl : v = last := by
    rw [split, List.mem_append, List.mem_singleton] at mem
    exact mem.resolve_left apart
  have others : ∀ x ∈ init, x.name ≠ v.name := by
    intro x early same
    exact apart (collects.unique (by simp [split, early]) mem same ▸ early)
  have slot : Value.slot v.name t.spec.values = v := by
    unfold Value.slot
    rw [split, List.find?_append, List.find?_eq_none.mpr fun x early => by simpa using others x early]
    simp
  refine ⟨init, ?_, closed, ?_, ?_, fun f => ?_⟩
  · simpa [split] using ordered
  · rw [slot]
  · rw [slot]
    exact collects.blank v mem left
  · rw [slot, split, Value.update_append f others]
    simp [Value.update]

end

theorem Collects.attempts_of_absent (collects : t.Collects (metrics.map (·.name)))
    (unfailed : ¬ t.FailedBy "MetricFailed") (turn : t.Turn metrics m) (absent : ∀ v ∈ t.spec.values, v.name ≠ m.name) :
    t.Attempts (metrics.map (·.name)) m.name t.spec.values := by
  obtain ⟨before, after, rfl, closed, open_⟩ := turn
  have slot : Value.slot m.name t.spec.values = .fresh m.name := by
    unfold Value.slot
    rw [List.find?_eq_none.mpr fun v mem => by simpa using absent v mem]
    rfl
  have closed : ∀ name ∈ before.map (·.name), t.HasClosedSlot name := List.forall_mem_map.mpr closed
  have fresh : m.name ∉ before.map (·.name) := fun early => open_ (closed m.name early)
  have unnamed : m.name ∉ t.spec.values.map (·.name) := by
    intro mem
    obtain ⟨v, here, same⟩ := List.mem_map.mp mem
    exact absent v here same
  obtain ⟨rest, declared⟩ := eraseDups_of_fresh fresh (after.map (·.name))
  have ordered := collects.ordered
  rw [List.map_append, List.map_cons, declared] at ordered
  -- the slots that are there are those of all metrics before this one
  have slots : t.spec.values.map (·.name) = (before.map (·.name)).eraseDups :=
    eq_of_prefix (prefix_of_not_mem ordered unnamed) (nodup_eraseDups _) (names_of_closed closed)
  refine ⟨?_, fun v mem => ?_, ?_, ?_, fun f => ?_⟩
  · rw [List.map_append, List.map_cons, declared, slots]
    exact ⟨rest, by simp⟩
  · have early : v.name ∈ (before.map (·.name)).eraseDups := slots ▸ List.mem_map_of_mem mem
    obtain ⟨w, here, named, left⟩ := (closed v.name (List.mem_eraseDups.mp early)).mem
    obtain rfl := collects.unique here mem named
    exact ⟨left, fun empty => unfailed (collects.exhausted w mem left empty)⟩
  · rw [slot]
    rfl
  · rw [slot]
    exact ⟨rfl, rfl⟩
  · have appended := Value.update_append f absent []
    rw [List.append_nil] at appended
    rw [appended, slot]
    rfl

theorem Collects.attempts (collects : t.Collects (metrics.map (·.name))) (unfailed : ¬ t.FailedBy "MetricFailed")
    (turn : t.Turn metrics m) : ∃ init, t.Attempts (metrics.map (·.name)) m.name init := by
  have ⟨before, after, declared, closed, open_⟩ := turn
  cases found : t.value? m.name with
  | some v =>
    have named : v.name = m.name := by simpa using List.find?_some found
    have left : v.attempts ≠ 0 := fun left => open_ ⟨v, found, left⟩
    rw [← named]
    exact collects.attempts_of_mem (List.mem_of_find?_eq_some found) left
  | none =>
    refine ⟨t.spec.values, collects.attempts_of_absent unfailed turn fun v mem => ?_⟩
    simpa using List.find?_eq_none.mp found v mem

theorem Attempts.collects {init : List Value} (attempts : t.Attempts names name init)
    (values : u.spec.values = init ++ [v]) (named : v.name = name)
    (blank : v.attempts ≠ 0 → v.value = "" ∧ v.deviation = none)
    (exhausted : v.attempts = 0 → v.value = "" → u.FailedBy "MetricFailed")
    (whole : u.status.conditions.holds .complete .true = true → u.spec.values.map (·.name) = names.eraseDups) :
    u.Collects names := by
  refine ⟨?_, ?_, fun x mem => ?_, fun x mem => ?_, whole⟩
  · rw [values]
    simpa [named] using attempts.ordered
  · rw [values, List.dropLast_concat]
    exact attempts.closed
  · rw [values, List.mem_append, List.mem_singleton] at mem
    rcases mem with early | rfl
    · exact fun left => absurd (attempts.closed x early).1 left
    · exact blank
  · rw [values, List.mem_append, List.mem_singleton] at mem
    rcases mem with early | rfl
    · exact fun _ empty => absurd empty (attempts.closed x early).2
    · exact exhausted

end Trial

/-! ## Transitions -/

namespace Pass

variable {settings : Settings} {now : Instant} {t u v : Trial} {asked : Transcript} {action : Action}
variable {names : List String} {name : String}

/-- The attempt with which a pass has come to its commit was at the metric whose turn it was. -/
theorem Transition.turn (made : Transition settings now t asked u action) {r : Except CaptureFailure Captured}
    (attempted : asked.attempt? = some (name, r)) :
    ∃ e m, asked.experiment? = some e ∧ t.Turn e.metrics m ∧ m.name = name := by
  have busy (idle : asked.attempt? = none) : ∃ e m, asked.experiment? = some e ∧ t.Turn e.metrics m ∧ m.name = name := by
    rw [idle] at attempted
    cases attempted
  cases made with
  | settle early => exact busy (Transcript.attempt?_of_early early)
  | failWaiting early => exact busy (Transcript.attempt?_of_early early)
  | wait early => exact busy (Transcript.attempt?_of_early early)
  | stabilize early => exact busy (Transcript.attempt?_of_early early)
  | absorb early => exact busy (Transcript.attempt?_of_early early)
  | observe looked idle => exact busy idle
  | complete looked idle => exact busy idle
  | @capture e m c looked captured ready ended observed next finite =>
    rw [captured] at attempted
    cases attempted
    exact ⟨e, m, looked, Trial.nextMetric?_eq_some_iff.mp next, rfl⟩
  | @miss e m f looked missed final ready ended observed next =>
    rw [missed] at attempted
    cases attempted
    exact ⟨e, m, looked, Trial.nextMetric?_eq_some_iff.mp next, rfl⟩

theorem Transition.whole (made : Transition settings now t asked v action) (live : t.isLive = true)
    (collects : t.Collects names) (consulted : ∀ e, asked.experiment? = some e → e.metrics.map (·.name) = names)
    (complete : v.status.conditions.holds .complete .true = true) :
    v.spec.values.map (·.name) = names.eraseDups := by
  obtain ⟨e, completion⟩ := made.completion live complete
  rw [completion.recorded, t.spec_recordComplete]
  refine collects.all_of_closed fun name mem => ?_
  rw [← consulted e completion.looked] at mem
  obtain ⟨m, declared, rfl⟩ := List.mem_map.mp mem
  have unwanted := List.find?_eq_none.mp completion.none_next m declared
  exact Trial.isResolved_slot_iff.mp (by simpa using unwanted)

theorem Transition.collects (made : Transition settings now t asked v action) (live : t.isLive = true)
    (collects : t.Collects names) (consulted : ∀ e, asked.experiment? = some e → e.metrics.map (·.name) = names)
    (values : u.spec.values = v.spec.values) (conditions : u.status.conditions = v.status.conditions) :
    u.Collects names := by
  have unfailed : ¬ t.FailedBy "MetricFailed" := Trial.not_failedBy_of_live live rfl
  have whole : u.status.conditions.holds .complete .true = true → u.spec.values.map (·.name) = names.eraseDups := by
    rw [conditions, values]
    exact made.whole live collects consulted
  have attempts {name : String} {r : Except CaptureFailure Captured} (attempted : asked.attempt? = some (name, r)) :
      ∃ init, t.Attempts names name init := by
    obtain ⟨e, m, looked, turn, rfl⟩ := made.turn attempted
    obtain rfl := consulted e looked
    exact collects.attempts unfailed turn
  cases made.tally with
  | keep idle kept =>
    rw [kept] at values
    refine ⟨values ▸ collects.ordered, values ▸ collects.closed, values ▸ collects.blank, fun x mem left empty => ?_, whole⟩
    exact absurd (collects.exhausted x (values ▸ mem) left empty) unfailed
  | @capture name c attempted finite unresolved settled =>
    obtain ⟨init, attempts⟩ := attempts attempted
    rw [settled, attempts.update] at values
    refine attempts.collects values attempts.named (fun left => absurd rfl left) (fun _ empty => ?_) whole
    exact absurd empty c.value.text_ne_empty
  | @miss name f attempted final unresolved spent failed =>
    obtain ⟨init, attempts⟩ := attempts attempted
    rw [spent, attempts.update] at values
    refine attempts.collects values attempts.named (fun _ => attempts.blank) (fun left _ => ?_) whole
    obtain ⟨message, stands⟩ := failed (by simp [Value.isResolved, left])
    exact ⟨message, conditions ▸ stands⟩

end Pass

/-! ## Experiments -/

def Store.Declares (s : Store) (key : ObjectKey) (names : List String) : Prop :=
  ∀ e, s.experiments.get? key = some e → e.metrics.map (·.name) = names

theorem Store.experiments_of_reply {s u : Store} {call : Call} {r : call.Answer} (reply : s.Replies call r u) :
    u.experiments = s.experiments := by
  rw [reply.store]
  cases call with
  | updateTrial t part =>
    simp only [Call.write?, Option.map_some, Option.getD_some, after, write, replaceTrial_eq]
    cases s.trials.get? t.key with
    | none => rfl
    | some stored =>
      dsimp only
      by_cases stale : stored.metadata.version = t.metadata.version
      · rw [if_neg (not_not_intro stale)]
        cases part.agrees stored t <;> rfl
      · rw [if_pos stale]
        rfl
  | createWorkload w =>
    simp only [Call.write?, Option.map_some, Option.getD_some, after, write, createWorkload]
    cases s.workloads.contains w.key <;> rfl
  | _ => rfl

structure Trial.SameParent (t u : Trial) : Prop where
  label : u.metadata.label? Label.experiment = t.metadata.label? Label.experiment
  owners : u.metadata.owners = t.metadata.owners
  ns : u.metadata.ns = t.metadata.ns

theorem Trial.SameParent.experimentKey {t u : Trial} {key : ObjectKey} (same : t.SameParent u)
    (named : t.experimentKey = .ok key) : u.experimentKey = .ok key := by
  have name : u.experimentName? = t.experimentName? := by
    rw [experimentName?, experimentName?, same.label, same.owners]
  unfold Trial.experimentKey at named ⊢
  rw [name, same.ns]
  cases found : t.experimentName? with
  | none => simp [found] at named
  | some n => simpa [found] using named

namespace Chronicle

open Pass

variable {key ekey : ObjectKey} {names : List String} {c d : Chronicle} {s : Store} {t : Trial} {m n : Nat}
variable {may : Store → Write → Prop}

/-- A write that leaves to the trial its experiment, its slots and its conditions, and to the experiment its metrics. -/
def SparesSlots (key ekey : ObjectKey) (names : List String) (s : Store) (w : Write) : Prop :=
  (∀ t, s.trials.get? key = some t → ∃ u, (s.after w).trials.get? key = some u ∧ t.SameParent u ∧
    u.spec.values = t.spec.values ∧ u.status.conditions = t.status.conditions) ∧ (s.after w).Declares ekey names

theorem Run.declares (run : Run key (SparesSlots key ekey names) c n d) (declares : c.store.Declares ekey names) :
    d.store.Declares ekey names := by
  induction run with
  | start => exact declares
  | @step n d e run step ih =>
    cases step with
    | work allowed => exact allowed.2
    | pass step =>
      cases step with
      | begin settings now => exact ih
      | @answer before after asked call next r u asking reply =>
        unfold Store.Declares at ih ⊢
        rwa [Store.experiments_of_reply reply]

theorem handed_parent (first : Trial) : Handed first.SameParent := by
  intro settings now t u x asked action made read stored part version
  have same : u.syncPhase.metadata = t.metadata := made.metadata_eq
  cases part with
  | whole =>
    -- the labels are those that were read, the rest is what is stored
    refine ⟨?_, stored.owners, stored.ns⟩
    show u.syncPhase.metadata.label? Label.experiment = _
    rw [same, read.label]
  | status => exact ⟨stored.label, stored.owners, stored.ns⟩

theorem Run.consulted {first : Trial} (run : Run key (SparesSlots key ekey names) ⟨s, [], []⟩ n c) (built : s.Built m)
    (there : s.trials.get? key = some first) (named : first.experimentKey = .ok ekey) (declares : s.Declares ekey names)
    {j : Journey} (mem : j ∈ c.passes) (read : j.asked.trial? = some t) {e : Experiment}
    (looked : j.asked.experiment? = some e) : e.metrics.map (·.name) = names := by
  have kept {s : Store} {w : Write} {t : Trial} (allowed : SparesSlots key ekey names s w)
      (there : s.trials.get? key = some t) (same : first.SameParent t) :
      ∃ u, (s.after w).trials.get? key = some u ∧ first.SameParent u := by
    obtain ⟨u, stored, later, -⟩ := allowed.1 t there
    exact ⟨u, stored, later.label.trans same.label, later.owners.trans same.owners, later.ns.trans same.ns⟩
  have held := run.held built (handed_parent first) kept ⟨first, there, rfl, rfl, rfl⟩
  have named := (held.read j mem t read).experimentKey named
  obtain ⟨settings, now, reached⟩ := run.reached j mem
  obtain ⟨k, exchanged⟩ := Transcript.mem_experiment? looked
  have concerns : t.experimentKey = .ok k := concerns_of_reaches reached read exchanged nofun
  obtain rfl : k = ekey := Except.ok.inj (concerns.symm.trans named)
  obtain ⟨before, after, cut⟩ := List.append_of_mem exchanged
  obtain ⟨k, l, b, u, next, earlier, -, -, answer, -⟩ := run.told j mem _ _ _ cut
  exact earlier.declares declares e (Store.getExperiment_eq_ok.mp answer.symm)

theorem PassStep.author (step : PassStep key c d) {asked : Transcript}
    (noted : d.history = ⟨.pass asked, t⟩ :: c.history) : ∃ p, ⟨asked, p⟩ ∈ c.passes := by
  have silent {x : Entry} (same : c.history = x :: c.history) : False := List.cons_ne_self _ _ same.symm
  have entry {author : Author} {s : Store} (noted : c.noted key author s = ⟨.pass asked, t⟩ :: c.history) :
      author = .pass asked := by
    unfold Chronicle.noted at noted
    split at noted
    · split at noted
      · exact (silent noted).elim
      · cases noted
        rfl
    · exact (silent noted).elim
  cases step with
  | begin settings now => exact (silent noted).elim
  | @answer before after asked' call next r s asking reply =>
    cases entry noted
    exact ⟨.ask call next, by simp [asking]⟩

theorem collects_of_made {d : Draft} {v : UInt64} (made : d.Made) (names : List String) :
    (d.build.withVersion v).Collects names := by
  have values : (d.build.withVersion v).spec.values = [] := made.blank.1
  have incomplete : (d.build.withVersion v).status.conditions.holds .complete .true = false := by
    show (d.trial.status.conditions.record .stable (.plain .unknown) d.createdAt).holds .complete .true = false
    rw [made.blank.2]
    rfl
  refine ⟨by simp [values], by simp [values], by simp [values], by simp [values], fun complete => ?_⟩
  rw [incomplete] at complete
  cases complete

/-- From a new trial, in any order of passes and of other writes that spare its slots and conditions, as long as its
experiment declares the same metrics: in every stored trial the slots are those of the first metrics declared, in this
order and one for each name. All but the last are closed with a value, an open one holds nothing, and a complete trial
has the slots of all metrics. -/
theorem slots_follow_declaration {d : Draft} {v : UInt64} (made : d.Made) (built : s.Built m)
    (drafted : s.trials.get? key = some (d.build.withVersion v)) (named : d.build.experimentKey = .ok ekey)
    (declares : s.Declares ekey names) (run : Run key (SparesSlots key ekey names) ⟨s, [], []⟩ n c)
    (fits : m + n < UInt64.size) :
    ∃ t, c.store.trials.get? key = some t ∧ (t.spec.values.map (·.name)).Nodup ∧ t.Collects names := by
  have start := sound_of_built built (by omega) key
  have version := built.version (by omega)
  suffices kept : ∃ t, c.store.trials.get? key = some t ∧ t.Collects names by
    obtain ⟨t, there, collects⟩ := kept
    exact ⟨t, there, collects.distinct, collects⟩
  induction run with
  | start => exact ⟨_, drafted, collects_of_made made names⟩
  | @step n b c run step ih =>
    obtain ⟨t, there, collects⟩ := ih (by omega)
    cases step with
    | work allowed =>
      obtain ⟨u, stored, -, values, conditions⟩ := allowed.1 t there
      exact ⟨u, stored, collects.of_same values conditions⟩
    | pass step =>
      obtain ⟨sound, counted⟩ := run.sound start (by simp only [version]; omega)
      simp only [version] at counted
      cases sound.progress step (by omega) with
      | none same silent => exact ⟨t, same.trans there, collects⟩
      | @transition settings now asked t' v' u action there' live read reached moved computed stored noted =>
        obtain rfl : t' = t := Option.some.inj (there'.symm.trans there)
        -- what the pass had looked up is known of the passes underway, of which the author is one
        obtain ⟨p, standing⟩ := step.author noted
        have consulted (e : Experiment) (looked : asked.experiment? = some e) : e.metrics.map (·.name) = names :=
          run.consulted built drafted named declares standing read looked
        refine ⟨u, stored, moved.collects live collects consulted ?_ ?_⟩
        · rw [computed]
          exact (Part.marks_merge t' v').2
        · rw [computed]
          exact Part.conditions_merge t' v' _

/-- A metric that is declared twice has one slot in the complete trial. -/
theorem repeated_metric_has_one_slot :
    let key : ObjectKey := ⟨"ns", "t1"⟩
    let at_ (n : UInt64) : Instant := shifted default (some (.ofSeconds n))
    let e : Experiment := ⟨.named "ns" "e1", [.named "a" .computed, .named "a" .computed, .named "b" .computed]⟩
    let names := e.metrics.map (·.name)
    let ws := setting (.named "a" .computed) ++ [.putExperiment e]
    let p := Play.start ws
    let c := (p.passing key .standard [at_ 0, at_ 5, at_ 6, at_ 7, at_ 8, at_ 9]).chronicle
    (∃ m n, p.chronicle.store.Built m ∧ Run key (SparesSlots key e.key names) p.chronicle n c ∧ m + n < UInt64.size) ∧
      p.chronicle.store.Declares e.key names ∧
      ∃ t, c.store.trials.get? key = some t ∧ t.Collects names ∧ t.spec.values.map (·.name) = ["a", "b"] := by
  intro key at_ e names ws p c
  have reached : ∃ m n, p.chronicle.store.Built m ∧ Run key (SparesSlots key e.key names) p.chronicle n c ∧
      m + n < UInt64.size :=
    Play.reached_of_start .standard ws [at_ 0, at_ 5, at_ 6, at_ 7, at_ 8, at_ 9] (by decide +kernel)
  have ⟨m, n, built, run, fits⟩ := reached
  have made : ((Draft.named "ns" "t1" default).experiment "e1").Made := .experiment (.named "ns" "t1" default) "e1"
  have drafted : p.chronicle.store.trials.get? key =
      some (((Draft.named "ns" "t1" default).experiment "e1").build.withVersion 1) := by
    decide +kernel
  have named : ((Draft.named "ns" "t1" default).experiment "e1").build.experimentKey = .ok e.key := rfl
  have declared : (p.chronicle.store.experiments.get? e.key).map (·.metrics.map (·.name)) = some names := by
    decide +kernel
  have declares : p.chronicle.store.Declares e.key names := by
    intro x there
    rw [there] at declared
    exact Option.some.inj declared
  have completed : (c.store.trials.get? key).map (·.status.conditions.holds .complete .true) = some true := by
    decide +kernel
  obtain ⟨t, there, -, collects⟩ := slots_follow_declaration made built drafted named declares run fits
  rw [there] at completed
  refine ⟨reached, declares, t, there, collects, ?_⟩
  rw [collects.whole (Option.some.inj completed)]
  decide +kernel

end Chronicle

end TrialControl
