import Mathlib.Data.List.Forall2
import TrialControl.Proofs.Brackets

/-!
# Views of a run

What a workload and its units show is told from the containers that have started and from those that have
terminated, wherever these stand. So the order of units and of containers is of no account, except for the order
in which failed units are reported.
-/

namespace TrialControl

/-! ## Times of containers -/

def StartedAt (units : List ExecutionUnit) (x : Instant) : Prop :=
  ∃ u ∈ units, .running x ∈ u.containers ∨ ∃ finished code reason, .terminated x finished code reason ∈ u.containers

def FinishedAt (units : List ExecutionUnit) (x : Instant) : Prop :=
  ∃ u ∈ units, ∃ started code reason, .terminated started x code reason ∈ u.containers

/-- The time of a kind that has its place before all others of it, or none where there is no such time. -/
def First (before : Instant → Instant → Prop) (P : Instant → Prop) : Option Instant → Prop
  | none => ∀ x, ¬ P x
  | some x => P x ∧ ∀ y, P y → before x y

section
variable {before : Instant → Instant → Prop} {P : Instant → Prop} {xs : List Instant} {a b : Option Instant}
variable {units : List ExecutionUnit} {x : Instant}

theorem Extreme.first (h : Extreme before xs a) (mem : ∀ x, x ∈ xs ↔ P x) : First before P a := by
  cases a with
  | none =>
    obtain rfl : xs = [] := h
    intro x holds
    cases (mem x).mpr holds
  | some x => exact ⟨(mem x).mp h.1, fun y holds => h.2 y ((mem y).mpr holds)⟩

theorem First.isNone_iff (h : First before P a) : a.isNone = true ↔ ∀ x, ¬ P x := by
  cases a with
  | none => exact ⟨fun _ => h, fun _ => rfl⟩
  | some x =>
    constructor
    · intro gone
      cases gone
    · intro never
      exact absurd h.1 (never x)

theorem First.unique (antisymm : ∀ x y, before x y → before y x → x = y) (h : First before P a)
    (h' : First before P b) : a = b := by
  cases a with
  | none =>
    cases b with
    | none => rfl
    | some y => exact absurd h'.1 (h y)
  | some x =>
    cases b with
    | none => exact absurd h.1 (h' x)
    | some y => rw [antisymm x y (h.2 y h'.1) (h'.2 x h.1)]

theorem mem_starts : x ∈ starts units ↔ StartedAt units x := by
  unfold starts
  rw [List.mem_filterMap]
  constructor
  · rintro ⟨c, mem, shown⟩
    obtain ⟨u, here, mem⟩ := List.mem_flatMap.mp mem
    refine ⟨u, here, ?_⟩
    cases c with
    | waiting reason => cases shown
    | running started =>
      cases shown
      exact .inl mem
    | terminated started finished code reason =>
      cases shown
      exact .inr ⟨finished, code, reason, mem⟩
  · rintro ⟨u, here, mem | ⟨finished, code, reason, mem⟩⟩
    · exact ⟨_, List.mem_flatMap.mpr ⟨u, here, mem⟩, rfl⟩
    · exact ⟨_, List.mem_flatMap.mpr ⟨u, here, mem⟩, rfl⟩

theorem mem_finishes : x ∈ finishes units ↔ FinishedAt units x := by
  unfold finishes
  rw [List.mem_filterMap]
  constructor
  · rintro ⟨c, mem, shown⟩
    obtain ⟨u, here, mem⟩ := List.mem_flatMap.mp mem
    refine ⟨u, here, ?_⟩
    cases c with
    | waiting reason => cases shown
    | running started => cases shown
    | terminated started finished code reason =>
      cases shown
      exact ⟨started, code, reason, mem⟩
  · rintro ⟨u, here, started, code, reason, mem⟩
    exact ⟨_, List.mem_flatMap.mpr ⟨u, here, mem⟩, rfl⟩

theorem Bracket.first_started (units : List ExecutionUnit) :
    First (· ≤ ·) (StartedAt units) (ofUnits units).started :=
  (extreme_started units).first fun _ => mem_starts

theorem Bracket.first_finished (units : List ExecutionUnit) :
    First (· ≥ ·) (FinishedAt units) (ofUnits units).finished :=
  (extreme_finished units).first fun _ => mem_finishes

end

/-! ## Views -/

def WorkloadCondition.GaveUp (c : WorkloadCondition) : Prop := c.kind = .failed ∧ c.standing.status = .true

/-- One report for each unit that failed, in the order of the units. -/
def unitFailures (units : List ExecutionUnit) : List Failure :=
  (units.filter (·.phase == .failed)).map fun u => ⟨u.reason, u.message⟩

namespace Workload

inductive OwnFailure (w : Workload) : List Failure → Prop where
  | none (never : ∀ c ∈ w.status.conditions, ¬ c.GaveUp) : OwnFailure w []
  | first {before after : List WorkloadCondition} {c : WorkloadCondition}
      (conditions : w.status.conditions = before ++ c :: after) (gaveUp : c.GaveUp)
      (earlier : ∀ x ∈ before, ¬ x.GaveUp) : OwnFailure w [⟨c.standing.reason, c.standing.message⟩]

def IsAhead (w : Workload) (units : List ExecutionUnit) : Prop :=
  (∀ x, ¬ StartedAt units x) ∧ w.status.startTime ≠ none ∨ (∀ x, ¬ FinishedAt units x) ∧ w.status.completionTime ≠ none

/-- What is to be seen of a workload with its units. -/
inductive Appears (w : Workload) (units : List ExecutionUnit) : RunView → Prop where
  | lagging (ahead : w.IsAhead units) : Appears w units .lagging
  | consistent {b : Bracket} {own : List Failure} (abreast : ¬ w.IsAhead units)
      (started : First (· ≤ ·) (StartedAt units) b.started) (finished : First (· ≥ ·) (FinishedAt units) b.finished)
      (failed : w.OwnFailure own) : Appears w units (.consistent b (own ++ unitFailures units))

variable {w : Workload} {units units' : List ExecutionUnit} {own own' : List Failure} {v v' : RunView}

theorem gaveUp_iff {c : WorkloadCondition} : (c.kind == .failed && c.standing.status == .true) = true ↔ c.GaveUp := by
  simp [WorkloadCondition.GaveUp]

theorem ownFailure_iff :
    w.OwnFailure own ↔ own = w.failure?.toList.map fun c => ⟨c.standing.reason, c.standing.message⟩ := by
  unfold failure?
  constructor
  · intro failed
    cases failed with
    | none never =>
      have absent := List.find?_eq_none.mpr fun c mem => mt gaveUp_iff.mp (never c mem)
      rw [absent]
      rfl
    | @first before after c conditions gaveUp earlier =>
      have found : w.status.conditions.find? (fun c => c.kind == .failed && c.standing.status == .true) = some c := by
        rw [List.find?_eq_some_iff_append]
        refine ⟨gaveUp_iff.mpr gaveUp, before, after, conditions, fun x mem => ?_⟩
        rw [Bool.not_eq_true', ← Bool.not_eq_true]
        exact mt gaveUp_iff.mp (earlier x mem)
      rw [found]
      rfl
  · rintro rfl
    cases found : w.status.conditions.find? (fun c => c.kind == .failed && c.standing.status == .true) with
    | none => exact .none fun c mem => mt gaveUp_iff.mpr (List.find?_eq_none.mp found c mem)
    | some c =>
      obtain ⟨gaveUp, before, after, conditions, earlier⟩ := List.find?_eq_some_iff_append.mp found
      refine .first conditions (gaveUp_iff.mp gaveUp) fun x mem => ?_
      have kept := earlier x mem
      rw [Bool.not_eq_true', ← Bool.not_eq_true] at kept
      exact mt gaveUp_iff.mpr kept

theorem failures_eq (failed : w.OwnFailure own) : w.failures units = own ++ unitFailures units := by
  rw [ownFailure_iff.mp failed]
  simp [failures, unitFailures]

theorem isAhead_iff : ((Bracket.ofUnits units).started.isNone && w.status.startTime.isSome ||
    (Bracket.ofUnits units).finished.isNone && w.status.completionTime.isSome) = true ↔ w.IsAhead units := by
  simp only [IsAhead, Bool.or_eq_true, Bool.and_eq_true, (Bracket.first_started units).isNone_iff,
    (Bracket.first_finished units).isNone_iff, Option.isSome_iff_ne_none]

theorem view_of_ahead (ahead : w.IsAhead units) : w.view units = .lagging := by
  unfold view
  simp only [isAhead_iff.mpr ahead, if_true]

theorem view_of_abreast (abreast : ¬ w.IsAhead units) (failed : w.OwnFailure own) :
    w.view units = .consistent (Bracket.ofUnits units) (own ++ unitFailures units) := by
  rw [← isAhead_iff] at abreast
  unfold view
  dsimp only
  rw [if_neg abreast, failures_eq failed]

theorem appears_view (w : Workload) (units : List ExecutionUnit) : w.Appears units (w.view units) := by
  by_cases ahead : w.IsAhead units
  · rw [view_of_ahead ahead]
    exact .lagging ahead
  · have failed : w.OwnFailure _ := ownFailure_iff.mpr rfl
    rw [view_of_abreast ahead failed]
    exact .consistent ahead (Bracket.first_started units) (Bracket.first_finished units) failed

theorem Appears.unique (h : w.Appears units v) (h' : w.Appears units v') : v = v' := by
  cases h with
  | lagging ahead =>
    cases h' with
    | lagging => rfl
    | consistent abreast => exact absurd ahead abreast
  | @consistent b own abreast started finished failed =>
    cases h' with
    | lagging ahead => exact absurd ahead abreast
    | @consistent b' own' _ started' finished' failed' =>
      have same_start := started.unique (fun _ _ => Instant.le_antisymm) started'
      have same_finish := finished.unique (fun _ _ later earlier => Instant.le_antisymm earlier later) finished'
      have same : b = b' := by
        cases b
        cases b'
        simp_all
      rw [same, ownFailure_iff.mp failed, ownFailure_iff.mp failed']

end Workload

/-! ## Other orders -/

def ExecutionUnit.Restacked (u v : ExecutionUnit) : Prop :=
  ∃ containers, u.containers.Perm containers ∧ v = { u with containers }

/-- Units in another order, each with its containers in another order. -/
def Rearranged (units units' : List ExecutionUnit) : Prop :=
  ∃ mid, units.Perm mid ∧ List.Forall₂ ExecutionUnit.Restacked mid units'

section
variable {w : Workload} {units units' : List ExecutionUnit}

theorem containers_restacked (restacked : List.Forall₂ ExecutionUnit.Restacked units units') :
    (units.flatMap (·.containers)).Perm (units'.flatMap (·.containers)) := by
  induction restacked with
  | nil => exact .refl _
  | cons head tail ih =>
    obtain ⟨containers, perm, rfl⟩ := head
    exact perm.append ih

theorem unitFailures_restacked (restacked : List.Forall₂ ExecutionUnit.Restacked units units') :
    unitFailures units = unitFailures units' := by
  induction restacked with
  | nil => rfl
  | @cons u v us vs head tail ih =>
    obtain ⟨containers, perm, rfl⟩ := head
    unfold unitFailures at ih ⊢
    by_cases failed : u.phase = .failed
    · simp [failed, ih]
    · simp [failed, ih]

/-- The bracket is told from the containers alone, in any order. -/
theorem bracket_of_containers (perm : (units.flatMap (·.containers)).Perm (units'.flatMap (·.containers))) :
    Bracket.ofUnits units = Bracket.ofUnits units' := by
  have started := Extreme.of_perm Instant.le_trans Instant.le_refl (fun _ _ => Instant.le_antisymm)
    (perm.filterMap _) (Bracket.extreme_started units) (Bracket.extreme_started units')
  have finished := Extreme.of_perm Instant.ge_trans Instant.le_refl
    (fun _ _ later earlier => Instant.le_antisymm earlier later)
    (perm.filterMap _) (Bracket.extreme_finished units) (Bracket.extreme_finished units')
  calc Bracket.ofUnits units = ⟨(Bracket.ofUnits units).started, (Bracket.ofUnits units).finished⟩ := rfl
    _ = Bracket.ofUnits units' := by rw [started, finished]

theorem Rearranged.containers (rearranged : Rearranged units units') :
    (units.flatMap (·.containers)).Perm (units'.flatMap (·.containers)) := by
  obtain ⟨mid, perm, restacked⟩ := rearranged
  exact (perm.flatMap_right _).trans (containers_restacked restacked)

theorem Rearranged.unitFailures (rearranged : Rearranged units units') :
    (unitFailures units).Perm (unitFailures units') := by
  obtain ⟨mid, perm, restacked⟩ := rearranged
  rw [← unitFailures_restacked restacked]
  exact (perm.filter _).map _

end

/-- What a workload shows with its units is given by the least start of all containers that run or have terminated
and by the last finish of all that have terminated, with the workload's own failure before those of its units. The
order of containers makes no difference, and the order of units only that of their failures. -/
theorem view_tells_extreme_times (w : Workload) (units : List ExecutionUnit) :
    (∀ v, w.view units = v ↔ w.Appears units v) ∧
      ∀ units', (List.Forall₂ ExecutionUnit.Restacked units units' → w.view units' = w.view units) ∧
        (Rearranged units units' → (unitFailures units).Perm (unitFailures units') ∧
          (w.view units = .lagging ∧ w.view units' = .lagging ∨
            ∃ b own, w.OwnFailure own ∧ w.view units = .consistent b (own ++ unitFailures units) ∧
              w.view units' = .consistent b (own ++ unitFailures units'))) := by
  refine ⟨fun v => ⟨?_, fun appears => (w.appears_view units).unique appears⟩, fun units' => ⟨?_, ?_⟩⟩
  · rintro rfl
    exact w.appears_view units
  · intro restacked
    have failed : w.OwnFailure _ := Workload.ownFailure_iff.mpr rfl
    unfold Workload.view
    rw [bracket_of_containers (containers_restacked restacked), Workload.failures_eq failed,
      Workload.failures_eq failed, unitFailures_restacked restacked]
  · intro rearranged
    refine ⟨rearranged.unitFailures, ?_⟩
    have bracket := bracket_of_containers rearranged.containers
    by_cases ahead : w.IsAhead units
    · have ahead' : w.IsAhead units' := by rwa [← Workload.isAhead_iff, ← bracket, Workload.isAhead_iff]
      exact .inl ⟨Workload.view_of_ahead ahead, Workload.view_of_ahead ahead'⟩
    · have abreast : ¬ w.IsAhead units' := by rwa [← Workload.isAhead_iff, ← bracket, Workload.isAhead_iff]
      have failed : w.OwnFailure _ := Workload.ownFailure_iff.mpr rfl
      refine .inr ⟨_, _, failed, Workload.view_of_abreast ahead failed, ?_⟩
      rw [bracket]
      exact Workload.view_of_abreast abreast failed

/-- Two failed units change places, and the containers of one of them. -/
theorem failed_units_change_places :
    let at_ (n : UInt64) : Instant := shifted default (some (.ofSeconds n))
    let unit (name : String) (containers : List ContainerState) : ExecutionUnit :=
      { ExecutionUnit.pending (.named "ns" name) with phase := .failed, reason := name, containers }
    let w := (default : Workload)
    let ran := ContainerState.terminated (at_ 2) (at_ 4) 1 ""
    let units := [unit "a" [.running (at_ 3), ran], unit "b" [ran, .waiting ""]]
    let units' := [unit "b" [ran, .waiting ""], unit "a" [ran, .running (at_ 3)]]
    let b : Bracket := ⟨some (at_ 2), some (at_ 4)⟩
    Rearranged units units' ∧ w.Appears units (.consistent b [⟨"a", ""⟩, ⟨"b", ""⟩]) ∧
      w.view units' = .consistent b [⟨"b", ""⟩, ⟨"a", ""⟩] := by
  intro at_ unit w ran units units' b
  have rearranged : Rearranged units units' :=
    ⟨_, .swap .., .cons ⟨_, .refl _, rfl⟩ (.cons ⟨_, .swap .., rfl⟩ .nil)⟩
  obtain ⟨appears, others⟩ := view_tells_extreme_times w units
  have shown : w.view units = .consistent b [⟨"a", ""⟩, ⟨"b", ""⟩] := by decide +kernel
  refine ⟨rearranged, (appears _).mp shown, ?_⟩
  obtain ⟨-, ⟨behind, -⟩ | ⟨b', own, failed, here, there⟩⟩ := (others units').2 rearranged
  · rw [behind] at shown
    cases shown
  · obtain rfl : own = [] := Workload.ownFailure_iff.mp failed
    rw [here] at shown
    cases shown
    exact there

end TrialControl
