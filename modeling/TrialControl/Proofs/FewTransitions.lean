import Mathlib.Data.List.Dedup
import TrialControl.Proofs.Budgets
import TrialControl.Proofs.LonePasses
import TrialControl.Proofs.WorkLeft

/-!
# Few transitions

Passes of a trial that go on one after the other use up the work that is left for it. None comes back,
except that a run workload adds its two times when it is created. So such passes make only so many
transitions.
-/

namespace TrialControl

namespace Store

def runsOf (s : Store) (t : Trial) : List Workload :=
  ((s.listWorkloads t.metadata.ns t.ownSelector).toOption.getD []).filter fun w => !w.isSetup

def bracketOf (s : Store) (w : Workload) : Bracket :=
  ((s.listUnits (some w.metadata.ns) w.selector).toOption.map Bracket.ofUnits).getD .empty

def metricsOf (s : Store) (t : Trial) : List String :=
  ((t.experimentKey.toOption.bind s.experiments.get?).map fun e => (e.metrics.map (·.name)).dedup).getD []

def workLeft (s : Store) (t : Trial) : Nat := t.workLeft ((s.runsOf t).map s.bracketOf) (s.metricsOf t)

def attemptsLeft (s : Store) (t : Trial) : Nat := ((s.metricsOf t).map t.attemptsLeft).sum

variable {s u : Store} {t v : Trial}

variable {n : UInt64} (same : v.metadata = { t.metadata with version := n })
include same

theorem runsOf_congr (workloads : u.workloads = s.workloads) : u.runsOf v = s.runsOf t := by
  rw [runsOf, listWorkloads, workloads]
  simp only [runsOf, listWorkloads, Trial.ownSelector, same]

theorem metricsOf_congr (experiments : u.experiments = s.experiments) : u.metricsOf v = s.metricsOf t := by
  simp only [metricsOf, Trial.experimentKey, Trial.experimentName?, Trial.key, Metadata.label?, Metadata.key, same,
    experiments]

omit same in
theorem bracketOf_congr (units : u.units = s.units) : u.bracketOf = s.bracketOf := by
  funext w
  rw [bracketOf, listUnits, units]
  rfl

end Store

namespace Pass

open Crowd (Committed committed_of_there)
open Rehearsal (Cast Play)

variable {settings : Settings} {now : Instant} {t u v : Trial} {asked told : Transcript} {action : Action}
variable {s s' : Store} {key : ObjectKey} {outcome : Outcome} {n m : Nat}

/-! ## Passes -/

theorem Transition.spends_in {p : Plan Outcome} (made : Transition settings now t asked u .done) (seen : asked.SeenIn s)
    (read : asked.trial? = some t) (reached : (reconcile settings key now).Reaches asked p) :
    t.Spends ((s.runsOf t).map s.bracketOf) (s.metricsOf t) u := by
  refine made.spends (fun {w units b failures} shown view => ?_) fun {e m} looked mem => ?_
  · obtain ⟨ns, selector, found, listed, mem, role⟩ := Transcript.mem_runs shown.found
    obtain ⟨rfl, rfl⟩ := concerns_of_reaches reached read listed nofun
    have listed : s.listWorkloads t.metadata.ns t.ownSelector = .ok found := (seen _ listed).1.symm
    have answered : s.listUnits (some w.metadata.ns) w.selector = .ok units :=
      (seen _ (List.mem_of_head? shown.last)).1.symm
    have shows : Bracket.ofUnits units = b := by
      unfold Workload.view at view
      dsimp only at view
      split at view
      · cases view
      · cases view
        rfl
    refine List.mem_map.mpr ⟨w, ?_, ?_⟩
    · rw [Store.runsOf, listed]
      exact List.mem_filter.mpr ⟨mem, by simp [role]⟩
    · rw [Store.bracketOf, answered]
      exact shows
  · obtain ⟨k, looked⟩ := Transcript.mem_experiment? looked
    have named : t.experimentKey = .ok k := concerns_of_reaches reached read looked nofun
    have answer : .ok e = s.getExperiment k := (seen _ looked).1
    have there := Store.getExperiment_eq_ok.mp answer.symm
    rw [Store.metricsOf, named]
    simp only [Except.toOption, Option.bind_some, there, Option.map_some, Option.getD_some, List.mem_dedup]
    exact List.mem_map.mpr ⟨m, mem, rfl⟩

/-- Whether a pass has changed the stored trial and does not ask for a delay. -/
def advances (key : ObjectKey) (s s' : Store) : Outcome → Bool
  | .ok (.requeueAfter _) => false
  | _ => s'.trials.get? key != s.trials.get? key

theorem advances_of_same (same : s'.trials.get? key = s.trials.get? key) : advances key s s' outcome = false := by
  unfold advances
  split
  · rfl
  · rw [same, bne_self_eq_false]

theorem workLeft_of_commit (s' : Store) {p : Plan Outcome} (made : Transition settings now t asked u action)
    (live : t.isLive = true) (seen : asked.SeenIn s) (read : asked.trial? = some t)
    (reached : (reconcile settings key now).Reaches asked p) (result : outcome = .ok action) :
    (advances key s s' outcome).toNat + u.workLeft ((s.runsOf t).map s.bracketOf) (s.metricsOf t) ≤ s.workLeft t := by
  rcases made.ends with rfl | ⟨delay, rfl⟩
  · have less := (made.spends_in seen read reached).workLeft live made.keeps
    have one := Bool.toNat_le (advances key s s' outcome)
    unfold Store.workLeft
    omega
  · have unadvanced : advances key s s' outcome = false := by rw [result]; rfl
    rw [unadvanced, Bool.toNat_false, Nat.zero_add]
    exact made.keeps.workLeft live

/-- What a pass has made of a trial. It has taken from the work that is left if it has advanced the trial, and
added to it only where it has created a run workload. -/
structure Worked (key : ObjectKey) (s : Store) (t : Trial) (outcome : Outcome) (s' : Store) (v : Trial) : Prop where
  stored : s'.trials.get? key = some v
  identity : ∃ n, v.metadata = { t.metadata with version := n }
  experiments : s'.experiments = s.experiments
  left : (advances key s s' outcome).toNat + s'.workLeft v + 2 * (s.runsOf t).length ≤
    s.workLeft t + 2 * (s'.runsOf v).length

theorem worked_of_same (there : s.trials.get? key = some t) (same : s' = s) : Worked key s t outcome s' t := by
  subst same
  refine ⟨there, ⟨t.metadata.version, rfl⟩, rfl, ?_⟩
  rw [advances_of_same rfl, Bool.toNat_false]
  omega

theorem worked_of_lone (there : s.trials.get? key = some t) (here : t.key = key)
    (lone : Lone settings now key s told outcome s') : ∃ v, Worked key s t outcome s' v := by
  cases lone with
  | idle same => exact ⟨t, worked_of_same there same⟩
  | @commit x u action asked r read live made seen told_read reached tells reply result =>
    obtain rfl : x = t := Option.some.inj (read.symm.trans there)
    have same : u.syncPhase.metadata = x.metadata := made.metadata_eq
    have committed := committed_of_there there here same reply
    obtain ⟨workloads, experiments, units⟩ := committed.beside
    have ended : outcome = .ok action := by
      cases committed with
      | changed there differs => exact result _ rfl
      | kept there agrees => exact result _ rfl
      | refused gone => exact absurd there gone
    rcases committed.stored here with same | ⟨-, -, stored⟩
    · exact ⟨x, worked_of_same there same⟩
    · have identity := Part.metadata_merge made.metadata_eq (.toUpdate x.spec u) (s.version + 1)
      have left := workLeft_of_commit s' made live seen told_read reached ended
      refine ⟨_, stored, ⟨_, identity⟩, experiments, ?_⟩
      rw [Store.workLeft, Store.runsOf_congr identity workloads, Store.metricsOf_congr identity experiments,
        Store.bracketOf_congr units, Part.workLeft_merge made.metadata_eq]
      omega
  | @create x found r read listed unrun reply =>
    obtain rfl : x = t := Option.some.inj (read.symm.trans there)
    have none_before : s.runsOf x = [] := by rw [Store.runsOf, listed]; exact unrun
    rcases s.taking_createWorkload (x.runWorkload settings.workload) with ⟨absent, taken⟩ | ⟨present, taken⟩
    · have stored : s' = _ := congrArg Prod.snd (reply.trans taken)
      have trials : s'.trials = s.trials := by rw [stored]; rfl
      have experiments : s'.experiments = s.experiments := by rw [stored]; rfl
      refine ⟨x, by rw [trials, there], ⟨x.metadata.version, rfl⟩, experiments, ?_⟩
      have more := x.workLeft_le ((s'.runsOf x).map s'.bracketOf) (s.metricsOf x)
      rw [advances_of_same (by rw [trials]), Store.workLeft,
        Store.metricsOf_congr (n := x.metadata.version) rfl experiments, Store.workLeft, none_before]
      simp only [List.length_map, List.map_nil, List.length_nil, Bool.toNat_false] at more ⊢
      omega
    · exact ⟨x, worked_of_same there (congrArg Prod.snd (reply.trans taken))⟩

/-! ## Series of passes -/

/-- Passes of a trial, one after the other, with the number of those that have advanced it. -/
inductive Series (key : ObjectKey) (s : Store) : Nat → Store → Prop where
  | start : Series key s 0 s
  | pass {n : Nat} {u v : Store} {settings : Settings} {now : Instant} {outcome : Outcome} (series : Series key s n u)
      (run : (reconcile settings key now).Runs u outcome v) : Series key s (n + (advances key u v outcome).toNat) v

theorem Series.built {u : Store} (series : Series key s n u) (built : s.Built m) : ∃ k, u.Built k := by
  induction series with
  | start => exact ⟨m, built⟩
  | pass series run ih =>
    obtain ⟨k, built⟩ := ih
    obtain ⟨told, tells⟩ := run.tells []
    exact tells.built built

/-- The work that is left and the transitions made so far are no more than what there was to do at first, with
two times for each run workload there is by now. -/
theorem Series.workLeft {u : Store} (series : Series key s n u) (built : s.Built m)
    (there : s.trials.get? key = some t) :
    ∃ v k, u.trials.get? key = some v ∧ v.metadata = { t.metadata with version := k } ∧
      u.experiments = s.experiments ∧ n + u.workLeft v ≤ t.workLeft [] (s.metricsOf t) + 2 * (u.runsOf v).length := by
  induction series with
  | start =>
    refine ⟨t, t.metadata.version, there, rfl, rfl, ?_⟩
    have most := t.workLeft_le ((s.runsOf t).map s.bracketOf) (s.metricsOf t)
    rw [List.length_map] at most
    unfold Store.workLeft
    omega
  | @pass n u w settings now outcome series run ih =>
    obtain ⟨v, k, here, identity, experiments, left⟩ := ih
    obtain ⟨b, built⟩ := series.built built
    obtain ⟨told, tells⟩ := run.tells []
    obtain ⟨x, stored, ⟨l, same⟩, kept, less⟩ := worked_of_lone here (built.keyed key v here) (lone_of_tells tells)
    refine ⟨x, l, stored, ?_, kept.trans experiments, by omega⟩
    rw [same, identity]

/-- Passes of a trial go on one after the other, at whatever times, with whatever settings, and however probes
and captures come out. Those that change the trial and do not ask for a delay are no more than its waiting
patches, the attempts left at the metrics of its experiment, two for each run workload that it finds in the
end, and three. -/
theorem advances_are_few {u : Store} (built : s.Built m) (there : s.trials.get? key = some t)
    (series : Series key s n u) :
    n ≤ t.waitingPatches + 2 * (u.runsOf t).length + s.attemptsLeft t + 3 := by
  obtain ⟨v, k, stored, identity, experiments, left⟩ := series.workLeft built there
  rw [Store.runsOf_congr identity rfl] at left
  have most := t.workLeft_nil_le (s.metricsOf t)
  unfold Store.attemptsLeft
  omega

def plays (key : ObjectKey) (settings : Settings) (p : Nat × Cast) (times : List Instant) : Nat × Cast :=
  times.foldl
    (fun p now =>
      let (outcome, c) := p.2.perform (reconcile settings key now)
      (p.1 + (advances key p.2.stage.store c.stage.store outcome).toNat, c))
    p

theorem plays_series (settings : Settings) (times : List Instant) {p : Nat × Cast} (still : p.2.Still)
    (series : Series key s p.1 p.2.stage.store) {q : Nat × Cast} (played : plays key settings p times = q) :
    Series key s q.1 q.2.stage.store := by
  induction times generalizing p with
  | nil => exact played ▸ series
  | cons now times ih =>
    obtain ⟨run, after⟩ := Cast.perform_runs still (reconcile settings key now)
    exact ih after (series.pass run) played

/-- A trial becomes stable, its run workload is absorbed, and the attempts at its metric are used up. -/
theorem six_advances_until_failure :
    let key : ObjectKey := ⟨"ns", "t1"⟩
    let ws := Chronicle.setting { Metric.named "m" .computed with query := "unknown" }
    let c : Cast := (Play.start ws).cast
    ∃ m t u, c.stage.store.Built m ∧ c.stage.store.trials.get? key = some t ∧ Series key c.stage.store 6 u ∧
      6 ≤ t.waitingPatches + 2 * (u.runsOf t).length + c.stage.store.attemptsLeft t + 3 := by
  intro key ws c
  let times := [0, 5, 6, 7, 8, 9, 10].map fun n => shifted default (some (.ofSeconds n))
  obtain ⟨m, -, built⟩ := Store.Built.empty.writes ws
  have stored : c.stage.store.trials.get? key =
      some (((Draft.named "ns" "t1" default).experiment "e1").build.withVersion 1) := by
    decide +kernel
  have six : (plays key .standard (0, c) times).1 = 6 := by decide +kernel
  generalize played : plays key .standard (0, c) times = q at six
  have still : c.Still := ⟨rfl, trivial, trivial⟩
  have begun : Series key c.stage.store (0, c).1 c.stage.store := .start
  have series := plays_series .standard times still begun played
  rw [six] at series
  exact ⟨m, _, _, built, stored, series, advances_are_few built stored series⟩

end Pass

end TrialControl
