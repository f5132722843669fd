import TrialControl.Proofs.Deferrals
import TrialControl.Proofs.RunWorkloads
import TrialControl.Proofs.SetupUnits
import TrialControl.Proofs.Touches
import TrialControl.Proofs.Versions

/-!
# Own workloads

The run workload of a trial is found by passes of that trial only, whatever labels its template has: the labels
that name the trial are set last. Its units carry them too, so its selector finds them, and the selector of no
run workload of a trial with another name.
-/

namespace TrialControl

open Store (Write inNamespace)
open Rehearsal (Cast)

theorem Workload.RunsFor.same_key {w : Workload} {t t' : Trial} (runs : w.RunsFor t) (runs' : w.RunsFor t') :
    t.key = t'.key := by
  have ns : t.metadata.ns = t'.metadata.ns := runs.ns.symm.trans runs'.ns
  have name : t.metadata.name = t'.metadata.name := Option.some.inj (runs.label.symm.trans runs'.label)
  rw [Trial.key, Trial.key, Metadata.key, Metadata.key, ns, name]

namespace Trial

variable (t : Trial) (d : WorkloadDefaults)

theorem runLabels_role : t.runLabels.get? Label.role = some Label.runRole := Table.get?_insert_self ..

theorem runLabels_trial : t.runLabels.get? Label.trial = some t.metadata.name := by
  have apart : Label.trial ≠ Label.role := by decide
  unfold runLabels
  rw [Table.get?_insert, if_neg apart, Table.get?_insert_self]

theorem template_trial : (t.runWorkload d).template.labels.get? Label.trial = some t.metadata.name := by
  unfold runWorkload
  dsimp only
  rw [Table.get?_extend, runLabels_trial]
  rfl

theorem runWorkload_runsFor (version : UInt64) (status : WorkloadStatus) :
    Workload.RunsFor { t.runWorkload d with metadata.version := version, status } t := by
  refine ⟨rfl, t.runLabels_trial, ?_⟩
  show (t.runLabels.get? Label.role == some Label.setupRole) = false
  rw [runLabels_role]
  decide

end Trial

/-! ## What a pass reads -/

def Transcript.LooksForRuns (told : Transcript) : Prop := ∃ ns selector r, ⟨.listWorkloads ns selector, r⟩ ∈ told

theorem Plan.Tells.keeps {α : Type} {p : Plan α} {asked told : Transcript} {s u : Store} {a : α}
    (tells : p.Tells asked s told a u) : asked ⊆ told := by
  induction tells with
  | done a asked s => exact List.Subset.refl asked
  | ask reply tells ih => exact fun x mem => ih (List.mem_cons_of_mem _ mem)

theorem Store.select_own {α : Type} {table : Table ObjectKey α} (walk : table.Walk) (labels : α → Labels)
    (ns : Option String) (t : Trial) : ∃ found, select walk labels ns t.ownSelector = .ok found :=
  ⟨_, rfl⟩

namespace Pass

variable {settings : Settings} {now : Instant} {t : Trial} {asked told : Transcript} {p : Plan Outcome}
variable {s s' : Store} {key : ObjectKey} {outcome : Outcome} {n : Nat}

theorem reads_of_reaches (tells : p.Tells asked s told outcome s') (reaches : (reconcile settings key now).Reaches asked p)
    (seen : ∀ x ∈ asked, x.call.write? = none → s.Replies x.call x.answer s) :
    ∀ x ∈ told, x.call.write? = none → s.Replies x.call x.answer s := by
  induction tells with
  | done outcome asked s => exact seen
  | @ask c next asked told s u s' r outcome reply tells ih =>
    have stored := reply.store
    cases written : c.write? with
    | none =>
      rw [written] at stored
      obtain rfl : u = s := stored
      exact ih (reaches.answer r) (List.forall_mem_cons.mpr ⟨fun _ => reply, seen⟩)
    | some w =>
      -- a pass ends with its write
      rcases writes_of_reaches (reaches.answer r) with unwritten | ⟨-, outcome, ended⟩
      · simp [Transcript.writes, written] at unwritten
      · rw [ended] at tells
        cases tells
        refine List.forall_mem_cons.mpr ⟨fun quiet => ?_, seen⟩
        cases written.symm.trans quiet

theorem reads_of_tells (tells : (reconcile settings key now).Tells [] s told outcome s') {x : Exchange} (mem : x ∈ told)
    (quiet : x.call.write? = none) : s.Replies x.call x.answer s :=
  reads_of_reaches tells .start (by simp) x mem quiet

theorem listed_of_tells (tells : (reconcile settings key now).Tells [] s told outcome s') {ns : String}
    {selector : Selector} {r : Except Error (List Workload)} (mem : ⟨.listWorkloads ns selector, r⟩ ∈ told) :
    ∃ t, s.trials.get? key = some t ∧ s.listWorkloads t.metadata.ns t.ownSelector = r := by
  have listing := (reads_of_tells tells mem rfl).1
  rcases (tells.reaches .start).of_ask with ⟨-, asking⟩ | ⟨first, later, rfl, reaches⟩
  · cases asking
  · have got : first = s.getTrial key :=
      (reads_of_tells tells (x := ⟨.getTrial key, first⟩) (by simp) rfl).1
    rcases List.mem_append.mp mem with asked | first_asked
    · cases first with
      | error e =>
        rw [reaches.of_done.1] at asked
        exact absurd asked List.not_mem_nil
      | ok t =>
        refine ⟨t, Store.getTrial_eq_ok.mp got.symm, ?_⟩
        dsimp only at reaches
        split at reaches
        · rw [reaches.of_done.1] at asked
          exact absurd asked List.not_mem_nil
        · have concerns := ((concerned_proceed settings t now []).asked reaches).1 _ asked
          obtain ⟨rfl, rfl⟩ : ns = t.metadata.ns ∧ selector = t.ownSelector := concerns
          exact listing.symm
    · cases List.mem_singleton.mp first_asked

theorem looks_of_ready (there : s.trials.get? key = some t) (live : t.isLive = true) (ready : Ready settings now t)
    (tells : (reconcile settings key now).Tells [] s told outcome s') : told.LooksForRuns := by
  have proceeding := proceed_of_tells there live tells
  rw [proceed_of_ready ready] at proceeding
  cases proceeding with
  | @ask _ _ _ _ _ _ _ r _ reply discovering =>
    exact ⟨_, _, r, discovering.keeps (List.mem_cons_self ..)⟩

theorem mem_runs_of_tells (housed : s.Housed) (tells : (reconcile settings key now).Tells [] s told outcome s')
    (w : Workload) : w ∈ told.runs ↔
      told.LooksForRuns ∧ ∃ t k, s.trials.get? key = some t ∧ s.workloads.get? k = some w ∧ w.RunsFor t := by
  constructor
  · intro mem
    obtain ⟨ns, selector, found, asked, mem, run⟩ := Transcript.mem_runs mem
    obtain ⟨t, there, listed⟩ := listed_of_tells tells asked
    obtain ⟨⟨k, stored⟩, runs⟩ := (housed.listed listed w).mp ⟨mem, run⟩
    exact ⟨⟨ns, selector, _, asked⟩, t, k, there, stored, runs⟩
  · rintro ⟨⟨ns, selector, r, asked⟩, t, k, there, stored, runs⟩
    obtain ⟨found, listed⟩ : ∃ found, s.listWorkloads t.metadata.ns t.ownSelector = .ok found := Store.select_own ..
    -- every listing in the transcript is this one
    have listing {ns : String} {selector : Selector} {r : Except Error (List Workload)}
        (asked : ⟨.listWorkloads ns selector, r⟩ ∈ told) : r = .ok found := by
      obtain ⟨x, there', listed'⟩ := listed_of_tells tells asked
      obtain rfl := Option.some.inj (there.symm.trans there')
      exact listed'.symm.trans listed
    obtain rfl := listing asked
    obtain ⟨found', shown⟩ : ∃ found', told.findSome? Exchange.workloads? = some found' := by
      rw [← Option.isSome_iff_exists, List.findSome?_isSome_iff]
      exact ⟨_, asked, rfl⟩
    obtain ⟨⟨call, answer⟩, asked', shows⟩ := List.exists_of_findSome?_eq_some shown
    obtain rfl : found' = found := by
      cases call <;> cases answer <;> cases shows
      exact Except.ok.inj (listing asked')
    obtain ⟨mem, run⟩ := (housed.listed listed w).mpr ⟨⟨k, stored⟩, runs⟩
    rw [Transcript.runs, shown, Option.getD_some, List.mem_filter]
    exact ⟨mem, by simp [run]⟩

end Pass

/-! ## Workloads and units of a trial -/

open Pass (Ready listed_of_tells looks_of_ready mem_runs_of_tells)

namespace Store

variable {s : Store} {n : Nat}

theorem Built.unit_key (built : s.Built n) {k : ObjectKey} {u : ExecutionUnit} (there : s.units.get? k = some u) :
    u.key = k :=
  built.filed.objects (.unit k) u.metadata (by rw [metadata?, there]; rfl)

theorem listUnits_carrying (built : s.Built n) {k : ObjectKey} {u : ExecutionUnit} (there : s.units.get? k = some u)
    {name : String} (label : u.metadata.labels.get? Label.trial = some name) (t : Trial) (ns : Option String)
    (walk : s.units.Walk) :
    ∃ units, s.listUnits ns t.ownSelector walk = .ok units ∧
      (u ∈ units ↔ inNamespace ns u.key = true ∧ t.metadata.name = name) := by
  obtain ⟨units, listed⟩ : ∃ units, s.listUnits ns t.ownSelector walk = .ok units := select_own ..
  refine ⟨units, listed, ?_⟩
  rw [mem_select listed u]
  constructor
  · rintro ⟨k', there', within, accepted⟩
    rw [Selector.accepts_own, label] at accepted
    rw [built.unit_key there']
    exact ⟨within, (Option.some.inj accepted).symm⟩
  · rintro ⟨within, rfl⟩
    exact ⟨k, there, built.unit_key there ▸ within, (Selector.accepts_own _).mpr label⟩

end Store

/-- The run workload of a trial has the trial's key and names the trial, is no setup, and has a well-formed
selector. A pass that looks for run workloads finds it exactly if it is a pass of that trial; and passes of trials
that are ready look for them. A unit in the trial's namespace with the labels of the workload's template is listed
with the selectors of run workloads of trials of that name, and no others. -/
theorem run_workload_is_own {s : Store} {n : Nat} (built : s.Built n) (t : Trial) (d : WorkloadDefaults) :
    let w := t.runWorkload d
    w.key = t.key ∧ w.trialKey? = some t.key ∧ w.isSetup = false ∧ w.selector.validate = .ok () ∧
      (∀ version status, s.workloads.get? t.key = some { w with metadata.version := version, status } →
        ∀ settings key now told outcome s', (reconcile settings key now).Tells [] s told outcome s' →
          ({ w with metadata.version := version, status } ∈ told.runs ↔ key = t.key ∧ told.LooksForRuns) ∧
          ∀ x, s.trials.get? key = some x → x.isLive = true → Ready settings now x → told.LooksForRuns) ∧
      ∀ k u, s.units.get? k = some u → u.metadata.ns = t.metadata.ns →
        (∀ l v, w.template.labels.get? l = some v → u.metadata.labels.get? l = some v) →
        ∀ (t' : Trial) d' ns walk, ∃ units, s.listUnits ns (t'.runWorkload d').selector walk = .ok units ∧
          (u ∈ units ↔ inNamespace ns t.key = true ∧ t'.metadata.name = t.metadata.name) := by
  intro w
  refine ⟨rfl, rfl, (t.runWorkload_runsFor d 0 .empty).run, rfl, ?_, ?_⟩
  · intro version status stored settings key now told outcome s' tells
    refine ⟨?_, fun x there live ready => looks_of_ready there live ready tells⟩
    have own := t.runWorkload_runsFor d version status
    rw [mem_runs_of_tells built.housed tells]
    constructor
    · rintro ⟨looks, x, k, there, -, runs⟩
      exact ⟨(built.keyed key x there).symm.trans (runs.same_key own), looks⟩
    · rintro ⟨rfl, looks⟩
      obtain ⟨ns, selector, r, asked⟩ := looks
      obtain ⟨x, there, -⟩ := listed_of_tells tells asked
      have here := built.keyed _ x there
      refine ⟨⟨ns, selector, r, asked⟩, x, t.key, there, stored, ?_, ?_, own.run⟩
      · exact (congrArg ObjectKey.ns here).symm
      · rw [own.label]
        exact congrArg some (congrArg ObjectKey.name here).symm
  · intro k u there ns carries t' d' within walk
    have key : inNamespace within t.key = inNamespace within u.key := congrArg (fun n => within.all (· == n)) ns.symm
    rw [key]
    exact Store.listUnits_carrying built there (carries _ _ (t.template_trial d)) t' within walk

/-- A template names another trial and the role of a setup; the other trial does not find the workload. -/
theorem template_of_other_runs_own :
    let template := { Template.blank with
      labels := ((∅ : Labels).insert Label.trial "t2").insert Label.role Label.setupRole }
    let trial (name : String) :=
      (((Draft.named "ns" name default).template template).build.record .stable (.plain .true) default).syncPhase
    let w := (trial "t1").runWorkload .standard
    let unit := ExecutionUnit.pending { Metadata.named "ns" "u" with labels := w.template.labels }
    let s := [Write.createTrial (trial "t1"), .createTrial (trial "t2"), .createWorkload w, .putUnit unit].foldl
      Store.after .empty
    let later := shifted default (some (.ofSeconds 5))
    let v : Workload := { w with metadata.version := 3, status := .empty }
    let u := { unit with metadata.version := 4 }
    s.workloads.get? ⟨"ns", "t1"⟩ = some v ∧ s.units.get? ⟨"ns", "u"⟩ = some u ∧
      (∃ told outcome s', (reconcile .standard ⟨"ns", "t1"⟩ later).Tells [] s told outcome s' ∧ v ∈ told.runs) ∧
      (∃ told outcome s', (reconcile .standard ⟨"ns", "t2"⟩ later).Tells [] s told outcome s' ∧
        told.LooksForRuns ∧ v ∉ told.runs) ∧
      (∃ units, s.listUnits none w.selector = .ok units ∧ u ∈ units) ∧
      ∃ units, s.listUnits none ((trial "t2").runWorkload .standard).selector = .ok units ∧ u ∉ units := by
  intro template trial w unit s later v u
  obtain ⟨n, -, built⟩ := Store.Built.empty.writes
    [.createTrial (trial "t1"), .createTrial (trial "t2"), .createWorkload w, .putUnit unit]
  obtain ⟨-, -, -, -, discovered, listed⟩ := run_workload_is_own built (trial "t1") .standard
  have stored : s.workloads.get? ⟨"ns", "t1"⟩ = some v := by decide +kernel
  have there : s.units.get? ⟨"ns", "u"⟩ = some u := by decide +kernel
  have pass (name : String) := (Cast.attend_tells (c := ⟨⟨s, [], ∅⟩, .rollouts .zero, .computed, [], []⟩)
    ⟨rfl, trivial, trivial⟩ [] (reconcile .standard ⟨"ns", name⟩ later)).1
  have own := discovered 3 .empty stored _ _ _ _ _ _ (pass "t1")
  have other := discovered 3 .empty stored _ _ _ _ _ _ (pass "t2")
  have first : s.trials.get? ⟨"ns", "t1"⟩ = some ((trial "t1").withVersion 1) := by decide +kernel
  have second : s.trials.get? ⟨"ns", "t2"⟩ = some ((trial "t2").withVersion 2) := by decide +kernel
  have looks := own.2 _ first rfl (by constructor <;> decide +kernel)
  have looks' := other.2 _ second rfl (by constructor <;> decide +kernel)
  have lists := listed _ u there rfl (fun _ _ found => found)
  refine ⟨stored, there, ⟨_, _, _, pass "t1", own.1.mpr ⟨rfl, looks⟩⟩,
    ⟨_, _, _, pass "t2", looks', fun mem => ?_⟩, ?_, ?_⟩
  · exact absurd (other.1.mp mem).1 (by decide)
  · obtain ⟨units, found, mem⟩ := lists (trial "t1") .standard none s.units.inOrder
    exact ⟨units, found, mem.mpr ⟨rfl, rfl⟩⟩
  · obtain ⟨units, found, mem⟩ := lists (trial "t2") .standard none s.units.inOrder
    exact ⟨units, found, fun there => absurd (mem.mp there).2 (by decide)⟩

end TrialControl
