import TrialControl.Proofs.Brackets
import TrialControl.Proofs.ConditionTimes

/-!
# Units of a setup

A run workload selects its units by the label of the trial, which units of a setup carry as well. So they
count as its units: not among the workloads of a trial, but in what a run workload shows. They make no
difference as long as none of them has failed and the run takes longer at both ends.
-/

namespace TrialControl

open Store (Write)
open Rehearsal (Cast)

namespace ExecutionUnit

def isSetup (u : ExecutionUnit) : Bool := u.metadata.label? Label.role == some Label.setupRole

def runOnly (units : List ExecutionUnit) : List ExecutionUnit := units.filter fun u => !u.isSetup

/-- No unit of a setup has failed, and none starts before the others or finishes after them. -/
structure Hidden (units : List ExecutionUnit) : Prop where
  unfailed : ∀ u ∈ units, u.phase = .failed → u.isSetup = false
  start : ∀ x ∈ starts units, ∃ y ∈ starts (runOnly units), y ≤ x
  finish : ∀ x ∈ finishes units, ∃ y ∈ finishes (runOnly units), x ≤ y

variable {units : List ExecutionUnit}

theorem shown_runOnly {g : ContainerState → Option Instant} :
    ((runOnly units).flatMap (·.containers)).filterMap g ⊆ (units.flatMap (·.containers)).filterMap g := by
  intro x mem
  obtain ⟨c, mem, shown⟩ := List.mem_filterMap.mp mem
  obtain ⟨u, mem, container⟩ := List.mem_flatMap.mp mem
  exact List.mem_filterMap.mpr ⟨c, List.mem_flatMap.mpr ⟨u, (List.mem_filter.mp mem).1, container⟩, shown⟩

theorem started_runOnly_iff : (Bracket.ofUnits units).started = (Bracket.ofUnits (runOnly units)).started ↔
    ∀ x ∈ starts units, ∃ y ∈ starts (runOnly units), y ≤ x :=
  Extreme.eq_iff Instant.le_trans (fun _ _ => Instant.le_antisymm) shown_runOnly (Bracket.extreme_started units)
    (Bracket.extreme_started (runOnly units))

theorem finished_runOnly_iff : (Bracket.ofUnits units).finished = (Bracket.ofUnits (runOnly units)).finished ↔
    ∀ x ∈ finishes units, ∃ y ∈ finishes (runOnly units), x ≤ y :=
  Extreme.eq_iff Instant.ge_trans (fun _ _ h h' => Instant.le_antisymm h' h) shown_runOnly
    (Bracket.extreme_finished units) (Bracket.extreme_finished (runOnly units))

theorem Hidden.bracket (hidden : Hidden units) : Bracket.ofUnits units = Bracket.ofUnits (runOnly units) := by
  have started := started_runOnly_iff.mpr hidden.start
  have finished := finished_runOnly_iff.mpr hidden.finish
  calc Bracket.ofUnits units = ⟨(Bracket.ofUnits units).started, (Bracket.ofUnits units).finished⟩ := rfl
    _ = ⟨(Bracket.ofUnits (runOnly units)).started, (Bracket.ofUnits (runOnly units)).finished⟩ := by
      rw [started, finished]

end ExecutionUnit

open ExecutionUnit (runOnly Hidden)

namespace Workload

variable {w : Workload} {units : List ExecutionUnit}

theorem failures_runOnly_iff :
    w.failures units = w.failures (runOnly units) ↔ ∀ u ∈ units, u.phase = .failed → u.isSetup = false := by
  have swap : (runOnly units).filter (·.phase == .failed) = (units.filter (·.phase == .failed)).filter (!·.isSetup) := by
    simp only [runOnly, List.filter_filter, Bool.and_comm]
  unfold failures
  rw [List.append_right_inj, swap]
  constructor
  · intro same u mem failed
    have length := congrArg List.length same
    rw [List.length_map, List.length_map] at length
    have all := (List.filter_sublist (p := fun u : ExecutionUnit => !u.isSetup)).eq_of_length length.symm
    have passed := List.filter_eq_self.mp all u (List.mem_filter.mpr ⟨mem, by simp [failed]⟩)
    simpa using passed
  · intro unfailed
    refine congrArg (List.map _) (List.filter_eq_self.mpr fun u mem => ?_).symm
    obtain ⟨mem, failed⟩ := List.mem_filter.mp mem
    simp [unfailed u mem (by simpa using failed)]

theorem view_of_visible (visible : w.view units ≠ .lagging) :
    w.view units = .consistent (Bracket.ofUnits units) (w.failures units) := by
  unfold view at visible ⊢
  dsimp only at visible ⊢
  split at visible
  · exact absurd rfl visible
  · next shown => rw [if_neg shown]

theorem lagging_runOnly (behind : w.view units = .lagging) : w.view (runOnly units) = .lagging := by
  have none_of_none {before : Instant → Instant → Prop} {xs ys : List Instant} {a b : Option Instant}
      (fewer : ys ⊆ xs) (h : Extreme before xs a) (h' : Extreme before ys b) (gone : a.isNone = true) :
      b.isNone = true := by
    obtain rfl := Option.isNone_iff_eq_none.mp gone
    obtain rfl : xs = [] := h
    cases b with
    | none => rfl
    | some y => cases fewer h'.1
  have started := none_of_none ExecutionUnit.shown_runOnly (Bracket.extreme_started units)
    (Bracket.extreme_started (runOnly units))
  have finished := none_of_none ExecutionUnit.shown_runOnly (Bracket.extreme_finished units)
    (Bracket.extreme_finished (runOnly units))
  unfold view at behind ⊢
  dsimp only at behind ⊢
  split at behind
  · next ahead =>
    rw [if_pos]
    simp only [Bool.or_eq_true, Bool.and_eq_true] at ahead ⊢
    exact ahead.imp (.imp_left started) (.imp_left finished)
  · cases behind

theorem view_runOnly_iff : w.view units = w.view (runOnly units) ↔ w.view units = .lagging ∨ Hidden units := by
  constructor
  · intro same
    by_cases behind : w.view units = .lagging
    · exact .inl behind
    · right
      have visible : w.view (runOnly units) ≠ .lagging := same ▸ behind
      rw [view_of_visible behind, view_of_visible visible] at same
      injection same with bracket failures
      refine ⟨failures_runOnly_iff.mp failures, ?_, ?_⟩
      · exact ExecutionUnit.started_runOnly_iff.mp (congrArg Bracket.started bracket)
      · exact ExecutionUnit.finished_runOnly_iff.mp (congrArg Bracket.finished bracket)
  · rintro (behind | hidden)
    · rw [behind, lagging_runOnly behind]
    · unfold view
      rw [hidden.bracket, failures_runOnly_iff.mpr hidden.unfailed]

end Workload

/-! ## Listings of units -/

theorem Table.filter_congr {κ ν : Type} [Ord κ] [Std.TransOrd κ] [Std.LawfulEqOrd κ] {s t : Table κ ν} {p : κ × ν → Bool}
    (same : ∀ k v, p (k, v) = true → (s.get? k = some v ↔ t.get? k = some v)) :
    s.entries.filter p = t.entries.filter p := by
  let kept (t : Table κ ν) : Table κ ν := ⟨t.entries.filter p, t.ascending.filter _⟩
  have found (t : Table κ ν) (k : κ) (v : ν) : (kept t).get? k = some v ↔ t.get? k = some v ∧ p (k, v) = true := by
    rw [Table.get?_eq_some_iff, Table.get?_eq_some_iff, List.mem_filter]
  have equal : kept s = kept t := by
    refine Table.ext_get? fun k => Option.ext fun v => ?_
    rw [found, found]
    exact and_congr_left (same k v)
  exact congrArg Table.entries equal

namespace Store

variable {s s' : Store} {ns : String} {selector : Selector} {units units' : List ExecutionUnit}

theorem runOnly_listUnits (same : ∀ k u, u.isSetup = false → (s.units.get? k = some u ↔ s'.units.get? k = some u))
    (listed : s.listUnits (some ns) selector = .ok units) (listed' : s'.listUnits (some ns) selector = .ok units') :
    runOnly units = runOnly units' := by
  rw [listUnits, select_within] at listed listed'
  cases valid : selector.validate with
  | error e =>
    rw [valid] at listed
    cases listed
  | ok _ =>
    rw [valid] at listed listed'
    cases listed
    cases listed'
    unfold runOnly
    rw [List.filter_map, List.filter_map, List.filter_filter, List.filter_filter]
    refine congrArg (List.map _) (Table.filter_congr fun k u accepted => same k u ?_)
    simp only [Function.comp_apply, Bool.and_eq_true, Bool.not_eq_true'] at accepted
    exact accepted.1

theorem listUnits_own (s : Store) (t : Trial) : ∃ units, s.listUnits (some t.metadata.ns) t.ownSelector = .ok units := by
  rw [listUnits, select_within]
  exact ⟨_, rfl⟩

end Store

/-- The units of a run workload are all units of the trial's namespace with the label of the trial, whatever their
role. Without the units of setups it would show the same exactly when it lags behind, or when no unit of a setup
has failed and none starts before or finishes after the others; then it shows the same whatever else is done with
units of setups. -/
theorem setup_units_count_unless_hidden (t : Trial) (d : WorkloadDefaults) (status : WorkloadStatus) {s s' : Store}
    (same : ∀ k u, u.isSetup = false → (s.units.get? k = some u ↔ s'.units.get? k = some u)) :
    let w : Workload := { t.runWorkload d with status }
    ∃ units units', s.listUnits (some w.metadata.ns) w.selector = .ok units ∧
      s'.listUnits (some w.metadata.ns) w.selector = .ok units' ∧
      (∀ u, u ∈ units ↔ ∃ key, s.units.get? key = some u ∧ key.ns = t.metadata.ns ∧
        u.metadata.labels.get? Label.trial = some t.metadata.name) ∧
      (w.view units = w.view (runOnly units) ↔ w.view units = .lagging ∨ Hidden units) ∧
      (w.view units = w.view (runOnly units) → w.view units' = w.view (runOnly units') →
        w.view units = w.view units') := by
  intro w
  obtain ⟨units, listed⟩ := s.listUnits_own t
  obtain ⟨units', listed'⟩ := s'.listUnits_own t
  refine ⟨units, units', listed, listed', fun u => ?_, Workload.view_runOnly_iff, fun shown shown' => ?_⟩
  · simp only [Store.mem_select_within listed u, Selector.accepts_own]
  · rw [shown, shown', Store.runOnly_listUnits same listed listed']

theorem units_get?_putUnit (s : Store) (u : ExecutionUnit) (key : ObjectKey) :
    (s.after (.putUnit u)).units.get? key =
      if key = u.key then some { u with metadata.version := s.version + 1 } else s.units.get? key :=
  Table.get?_insert ..

theorem same_after_putUnit {s : Store} {u : ExecutionUnit} (setup : u.isSetup = true) (new : s.units.get? u.key = none)
    (key : ObjectKey) (v : ExecutionUnit) (run : v.isSetup = false) :
    s.units.get? key = some v ↔ (s.after (.putUnit u)).units.get? key = some v := by
  rw [units_get?_putUnit]
  by_cases here : key = u.key
  · subst here
    rw [if_pos rfl, new]
    constructor
    · nofun
    · rintro ⟨⟩
      exact Bool.noConfusion (run.symm.trans setup)
  · rw [if_neg here]

/-- A unit of a setup that ran while the run was underway. -/
theorem setup_during_run_is_hidden :
    let at_ (n : UInt64) : Instant := shifted default (some (.ofSeconds n))
    let t := (Draft.named "ns" "t1" default).build
    let unit (name role : String) (start finish : UInt64) : ExecutionUnit :=
      { ExecutionUnit.pending { Metadata.named "ns" name with
          labels := ((∅ : Labels).insert Label.trial "t1").insert Label.role role } with
        phase := .succeeded, containers := [.terminated (at_ start) (at_ finish) 0 ""] }
    let s := Store.empty.after (.putUnit (unit "run" Label.runRole 1 9))
    let s' := s.after (.putUnit (unit "setup" Label.setupRole 2 5))
    let w := t.runWorkload .standard
    ∃ units units', s.listUnits (some "ns") w.selector = .ok units ∧ s'.listUnits (some "ns") w.selector = .ok units' ∧
      units'.length = units.length + 1 ∧ w.view units = w.view units' := by
  intro at_ t unit s s' w
  have same := same_after_putUnit (s := s) (u := unit "setup" Label.setupRole 2 5) (by decide +kernel) (by decide +kernel)
  obtain ⟨units, units', listed, listed', -, -, alike⟩ :=
    @setup_units_count_unless_hidden t .standard .empty s s' same
  have found : s.listUnits (some "ns") w.selector =
      .ok [{ unit "run" Label.runRole 1 9 with metadata.version := 1 }] := by
    rw [Store.listUnits, Store.select_within]
    exact eq_ok_of_toOption (by decide +kernel)
  have found' : s'.listUnits (some "ns") w.selector =
      .ok [{ unit "run" Label.runRole 1 9 with metadata.version := 1 },
        { unit "setup" Label.setupRole 2 5 with metadata.version := 2 }] := by
    rw [Store.listUnits, Store.select_within]
    exact eq_ok_of_toOption (by decide +kernel)
  obtain rfl : units = _ := Except.ok.inj (listed.symm.trans found)
  obtain rfl : units' = _ := Except.ok.inj (listed'.symm.trans found')
  refine ⟨_, _, found, found', rfl, alike ?_ ?_⟩
  all_goals decide +kernel

/-- A trial whose run has not begun fails by a unit of a setup, with its times. -/
theorem setup_unit_fails_trial :
    let key : ObjectKey := ⟨"ns", "t1"⟩
    let at_ (n : UInt64) : Instant := shifted default (some (.ofSeconds n))
    let t := ((Draft.named "ns" "t1" default).build.record .stable (.plain .true) default).syncPhase
    let unit : ExecutionUnit :=
      { ExecutionUnit.pending { Metadata.named "ns" "prepare" with
          labels := ((∅ : Labels).insert Label.trial "t1").insert Label.role Label.setupRole } with
        phase := .failed, reason := "SetupFailed", containers := [.terminated (at_ 1) (at_ 2) 1 ""] }
    let s := [Write.createTrial t, .createWorkload (t.runWorkload .standard)].foldl Store.after .empty
    let s' := s.after (.putUnit unit)
    let summary (t : Trial) := (t.status.phase, t.status.startTime, t.status.completionTime)
    (∀ k u, u.isSetup = false → (s.units.get? k = some u ↔ s'.units.get? k = some u)) ∧
      (∃ told outcome r, (reconcile .standard key (at_ 5)).Tells [] s told outcome r ∧ r = s) ∧
      ∃ told outcome r, (reconcile .standard key (at_ 5)).Tells [] s' told outcome r ∧
        (r.trials.get? key).map summary = some ("Failed", some (at_ 1), some (at_ 2)) := by
  intro key at_ t unit s s' summary
  have same := same_after_putUnit (s := s) (u := unit) (by decide +kernel) (by decide +kernel)
  obtain ⟨tells, -⟩ := Cast.attend_tells (c := ⟨⟨s, [], ∅⟩, .rollouts .zero, .computed, [], []⟩)
    ⟨rfl, trivial, trivial⟩ [] (reconcile .standard key (at_ 5))
  obtain ⟨tells', -⟩ := Cast.attend_tells (c := ⟨⟨s', [], ∅⟩, .rollouts .zero, .computed, [], []⟩)
    ⟨rfl, trivial, trivial⟩ [] (reconcile .standard key (at_ 5))
  refine ⟨same, ⟨_, _, _, tells, ?_⟩, _, _, _, tells', ?_⟩
  all_goals decide +kernel

end TrialControl
