import TrialControl.Proofs.CommitPaths
import TrialControl.Proofs.OwnWorkloads

/-!
# Isolation

A pass reads its own trial and the run workloads of it, and else what no pass writes: experiments, units and
services. It leaves a mark in the store, which is its trial or a workload under its key. So the passes of two
trials do not notice each other, and which of them went first shows only in the versions given out and in the
order of the changes.
-/

namespace TrialControl

open Store (Write)

def Workload.withVersion (w : Workload) (v : UInt64) : Workload := { w with metadata.version := v }

def Change.withVersion : Change → UInt64 → Change
  | .trial key, _ => .trial key
  | .workload w, v => .workload (w.withVersion v)

structure Helpers where
  probe : Patch → Except Unsettled Unit
  capture : Metric → Trial → MetricTarget → Except CaptureFailure Captured
  walk : (services : Table ObjectKey ServiceEndpoint) → services.Walk

def Helpers.answer (h : Helpers) (c : Call) (s : Store) : c.Answer × Store :=
  match c with
  | .getTrial key => (s.getTrial key, s)
  | .updateTrial t part => s.taking (s.replaceTrial t part)
  | .getExperiment key => (s.getExperiment key, s)
  | .listWorkloads ns selector => (s.listWorkloads ns selector, s)
  | .createWorkload w => s.taking (s.createWorkload w)
  | .listUnits ns selector => (s.listUnits (some ns) selector, s)
  | .listServices selector => (s.listServices none selector (h.walk s.services), s)
  | .probe p => (h.probe p, s)
  | .capture m t target => (h.capture m t target, s)

theorem Helpers.answer_replies (h : Helpers) (c : Call) (s : Store) : s.Replies c (h.answer c s).1 (h.answer c s).2 := by
  cases c <;> first | rfl | exact ⟨rfl, rfl⟩ | exact ⟨⟨_, rfl⟩, rfl⟩

theorem Helpers.runs (h : Helpers) {α : Type} (p : Plan α) (s : Store) :
    p.Runs s (p.run h.answer s).1 (p.run h.answer s).2 := by
  induction p generalizing s with
  | done a => exact .done a s
  | ask c next ih => exact .ask (h.answer_replies c s) (ih _ _)

/-! ## Marks -/

/-- What a pass leaves in a store: nothing, or the update of a trial, or a new workload. -/
inductive Mark where
  | nothing
  | trial (trial : Trial)
  | workload (workload : Workload)

namespace Mark

def trialAt? (key : ObjectKey) : Mark → Option Trial
  | .trial t => if key = t.key then some t else none
  | _ => none

def workloadAt? (key : ObjectKey) : Mark → Option Workload
  | .workload w => if key = w.key then some w else none
  | _ => none

def change? : Mark → Option Change
  | .nothing => none
  | .trial t => some (.trial t.key)
  | .workload w => some (.workload w)

def commits : Mark → Nat
  | .trial _ => 1
  | _ => 0

inductive Fits (s : Store) (key : ObjectKey) : Mark → Prop where
  | nothing : Fits s key .nothing
  | trial {t : Trial} (here : t.key = key) : Fits s key (.trial t)
  | workload {t : Trial} (d : WorkloadDefaults) (here : t.key = key) (free : s.workloads.get? key = none) :
      Fits s key (.workload (t.runWorkload d))

variable {s : Store} {key k : ObjectKey} {m : Mark}

theorem Fits.trialAt? (fits : m.Fits s key) (other : k ≠ key) : m.trialAt? k = none := by
  cases fits with
  | trial here => exact if_neg fun same => other (same.trans here)
  | _ => rfl

theorem Fits.workloadAt? (fits : m.Fits s key) (other : k ≠ key) : m.workloadAt? k = none := by
  cases fits with
  | workload d here free => exact if_neg fun same => other (same.trans here)
  | _ => rfl

end Mark

namespace Store

variable (s : Store) (m : Mark)

def leave : Mark → Store
  | .nothing => s
  | .trial t => { (s.putTrial t).2 with commits := s.commits + 1 }
  | .workload w => (s.placeWorkload w).2

theorem trials_leave (k : ObjectKey) : (s.leave m).trials.get? k =
    ((m.trialAt? k).map (·.withVersion (s.version + 1))).or (s.trials.get? k) := by
  cases m with
  | trial t =>
    show (s.trials.insert t.key _).get? k = _
    rw [Table.get?_insert, Mark.trialAt?]
    split <;> rfl
  | _ => rfl

theorem workloads_leave (k : ObjectKey) : (s.leave m).workloads.get? k =
    ((m.workloadAt? k).map (·.withVersion (s.version + 1))).or (s.workloads.get? k) := by
  cases m with
  | workload w =>
    show (s.workloads.insert w.key _).get? k = _
    rw [Table.get?_insert, Mark.workloadAt?]
    split <;> rfl
  | _ => rfl

theorem log_leave : (s.leave m).log = (m.change?.map (·.withVersion (s.version + 1))).toList ++ s.log := by
  cases m <;> rfl

theorem commits_leave : (s.leave m).commits = s.commits + m.commits := by
  cases m <;> rfl

@[simp] theorem experiments_leave : (s.leave m).experiments = s.experiments := by
  cases m <;> rfl

@[simp] theorem units_leave : (s.leave m).units = s.units := by
  cases m <;> rfl

@[simp] theorem services_leave : (s.leave m).services = s.services := by
  cases m <;> rfl

@[simp] theorem rollouts_leave : (s.leave m).rollouts = s.rollouts := by
  cases m <;> rfl

theorem version_leave : (s.leave m).version = if m.change?.isSome then s.version + 1 else s.version := by
  cases m <;> rfl

/-! ## Stores that are alike for a trial -/

structure AlikeFor (key : ObjectKey) (s s' : Store) : Prop where
  trial : s'.trials.get? key = s.trials.get? key
  runs : ∀ t : Trial, t.key = key →
    s'.listWorkloads t.metadata.ns t.ownSelector = s.listWorkloads t.metadata.ns t.ownSelector
  place : s'.workloads.get? key = s.workloads.get? key
  experiments : s'.experiments = s.experiments
  units : s'.units = s.units
  services : s'.services = s.services

variable {s m} {key key' : ObjectKey}

theorem AlikeFor.refl (key : ObjectKey) (s : Store) : s.AlikeFor key s :=
  ⟨rfl, fun _ _ => rfl, rfl, rfl, rfl, rfl⟩

theorem listWorkloads_leave (fits : m.Fits s key) {t : Trial} (apart : t.key ≠ key) :
    (s.leave m).listWorkloads t.metadata.ns t.ownSelector = s.listWorkloads t.metadata.ns t.ownSelector := by
  cases fits with
  | nothing => rfl
  | trial here => rfl
  | @workload x d here free =>
    rw [listWorkloads, listWorkloads, select_within, select_within]
    refine congrArg (Except.map · t.ownSelector.validate) (funext fun _ => congrArg (List.map _) ?_)
    refine Table.filter_congr fun k w accepted => ?_
    rw [workloads_leave]
    by_cases new : k = key
    · subst new
      have placed : (Mark.workload (x.runWorkload d)).workloadAt? k = some (x.runWorkload d) := if_pos here.symm
      rw [free, placed]
      refine iff_of_false ?_ (Option.some_ne_none w).symm
      rintro ⟨⟩
      -- the new workload would have to run both trials
      have own := x.runWorkload_runsFor d (s.version + 1) .empty
      rw [Bool.and_eq_true, Selector.accepts_own] at accepted
      have ns : t.metadata.ns = k.ns := eq_of_beq accepted.1
      have other : Workload.RunsFor ((x.runWorkload d).withVersion (s.version + 1)) t :=
        ⟨(congrArg ObjectKey.ns here).trans ns.symm, accepted.2, own.run⟩
      exact apart ((other.same_key own).trans here)
    · rw [Mark.workloadAt?, if_neg fun same => new (same.trans here)]
      rfl

theorem alike_leave (fits : m.Fits s key) (apart : key' ≠ key) : s.AlikeFor key' (s.leave m) := by
  refine ⟨?_, fun t here => listWorkloads_leave fits (here ▸ apart), ?_, s.experiments_leave m, s.units_leave m,
    s.services_leave m⟩
  · rw [trials_leave, fits.trialAt? apart]
    rfl
  · rw [workloads_leave, fits.workloadAt? apart]
    rfl

end Store

/-! ## Passes -/

namespace Pass

variable {settings : Settings} {now : Instant} {t u : Trial} {asked : Transcript} {p : Plan Outcome} {action : Action}
variable {h : Helpers} {s s' : Store} {key : ObjectKey}

def Leaves (h : Helpers) (s : Store) (key : ObjectKey) (p : Plan Outcome) : Prop :=
  ∃ outcome, ∃ m : Mark, m.Fits s key ∧ ∀ s', s.AlikeFor key s' → p.run h.answer s' = (outcome, s'.leave m)

theorem leaves_done (outcome : Outcome) : Leaves h s key (.done outcome) :=
  ⟨outcome, .nothing, .nothing, fun _ _ => rfl⟩

theorem leaves_ask {c : Call} {next : c.Answer → Plan Outcome} (r : c.Answer)
    (answers : ∀ s', s.AlikeFor key s' → h.answer c s' = (r, s')) (rest : Leaves h s key (next r)) :
    Leaves h s key (.ask c next) := by
  obtain ⟨outcome, m, fits, ends⟩ := rest
  refine ⟨outcome, m, fits, fun s' alike => ?_⟩
  rw [Plan.run_ask, answers s' alike]
  exact ends s' alike

theorem answer_of_looks {c : Call} (looks : c.looks = true) (concerns : c.Concerns t) (alike : s.AlikeFor t.key s') :
    h.answer c s' = ((h.answer c s).1, s') := by
  cases c with
  | getTrial key => cases looks
  | updateTrial u part => cases looks
  | createWorkload w => cases looks
  | getExperiment key => simp only [Helpers.answer, Store.getExperiment, alike.experiments]
  | listWorkloads ns selector =>
    obtain ⟨rfl, rfl⟩ := concerns
    simp only [Helpers.answer, alike.runs t rfl]
  | listUnits ns selector =>
    simp only [Helpers.answer, Store.listUnits]
    rw [alike.units]
  | listServices selector =>
    simp only [Helpers.answer, Store.listServices]
    rw [alike.services]
  | probe p => rfl
  | capture m u target => rfl

theorem leaves_commit (made : Transition settings now t asked u action) (there : s.trials.get? t.key = some t) :
    Leaves h s t.key (commit t.spec u action) := by
  have update {s' : Store} (alike : s.AlikeFor t.key s') :=
    update_of_made made (alike.trial.trans there) rfl (.toUpdate t.spec u)
  cases agrees : (Part.toUpdate t.spec u).agrees t u.syncPhase with
  | true =>
    refine ⟨.ok action, .nothing, .nothing, fun s' alike => ?_⟩
    simp only [commit, Plan.run_ask, Helpers.answer, update alike, agrees]
    rfl
  | false =>
    refine ⟨.ok action, .trial _, .trial (Part.key_merge (.toUpdate t.spec u) t u.syncPhase), fun s' alike => ?_⟩
    simp only [commit, Plan.run_ask, Helpers.answer, update alike, agrees]
    rfl

theorem leaves_create : Leaves h s t.key (createRun settings t) := by
  have creates (s' : Store) := s'.taking_createWorkload (t.runWorkload settings.workload)
  cases free : s.workloads.get? t.key with
  | none =>
    refine ⟨.ok .done, .workload _, .workload settings.workload rfl free, fun s' alike => ?_⟩
    rcases creates s' with ⟨-, created⟩ | ⟨taken, -⟩
    · simp only [createRun, Plan.run_ask, Helpers.answer, created]
      rfl
    · exact absurd (alike.place.trans free) taken
  | some v =>
    refine ⟨.ok .requeue, .nothing, .nothing, fun s' alike => ?_⟩
    rcases creates s' with ⟨free', -⟩ | ⟨-, refused⟩
    · cases free'.symm.trans (alike.place.trans free)
    · simp only [createRun, Plan.run_ask, Helpers.answer, refused]
      rfl

theorem leaves_of_rest (rest : Rest settings now t asked p)
    (concerned : p.Ensures (·.Concerns t) (fun _ _ => True) asked) (there : s.trials.get? t.key = some t) :
    Leaves h s t.key p := by
  induction rest with
  | stop outcome deferred => exact leaves_done outcome
  | look looks rest ih =>
    exact leaves_ask _ (fun s' alike => answer_of_looks looks concerned.1 alike) (ih _ (concerned.2 _))
  | commit made => exact leaves_commit made there
  | create ready listed unrun => exact leaves_create

/-- What a pass of one trial does depends only on what is alike for that trial. -/
theorem leaves_pass (h : Helpers) (settings : Settings) (key : ObjectKey) (now : Instant) (keyed : s.Keyed) :
    Leaves h s key (reconcile settings key now) := by
  refine leaves_ask (s.getTrial key) (fun s' alike => ?_) ?_
  · simp only [Helpers.answer, Store.getTrial, alike.trial]
  · cases got : s.getTrial key with
    | error e => exact leaves_done _
    | ok t =>
      have there := Store.getTrial_eq_ok.mp got
      obtain rfl := keyed key t there
      dsimp only
      split
      · exact leaves_done _
      · exact leaves_of_rest (rest_proceed t t.key) (concerned_proceed settings t now _) there

end Pass

/-! ## Two orders -/

namespace Store

def Renumbered {α : Type} (withVersion : α → UInt64 → α) (new : List UInt64) (a b : Table ObjectKey α) : Prop :=
  ∀ k, a.get? k = b.get? k ∨
    ∃ x, ∃ v ∈ new, ∃ w ∈ new, a.get? k = some (withVersion x v) ∧ b.get? k = some (withVersion x w)

def nextTwo (s : Store) : List UInt64 := [s.version + 1, s.version + 1 + 1]

/-- Two stores that came from one by the same changes, of which there are two at most, in either order. -/
structure Reordered (s a b : Store) : Prop where
  trials : Renumbered Trial.withVersion s.nextTwo a.trials b.trials
  workloads : Renumbered Workload.withVersion s.nextTwo a.workloads b.workloads
  log : ∃ first second : Option Change, ∃ v ∈ s.nextTwo, ∃ w ∈ s.nextTwo, ∃ v' ∈ s.nextTwo, ∃ w' ∈ s.nextTwo,
    a.log = (second.map (·.withVersion w)).toList ++ ((first.map (·.withVersion v)).toList ++ s.log) ∧
      b.log = (first.map (·.withVersion v')).toList ++ ((second.map (·.withVersion w')).toList ++ s.log)
  experiments : a.experiments = b.experiments
  units : a.units = b.units
  services : a.services = b.services
  rollouts : a.rollouts = b.rollouts
  version : a.version = b.version
  commits : a.commits = b.commits

theorem renumbered_of_marks {α : Type} {withVersion : α → UInt64 → α} {new : List UInt64}
    (base : Table ObjectKey α) {a b : Table ObjectKey α} {first second : ObjectKey → Option α} {v w v' w' : UInt64}
    (mem : v ∈ new ∧ w ∈ new ∧ v' ∈ new ∧ w' ∈ new) (apart : ∀ k, first k = none ∨ second k = none)
    (ha : ∀ k, a.get? k = ((second k).map (withVersion · w)).or (((first k).map (withVersion · v)).or (base.get? k)))
    (hb : ∀ k, b.get? k = ((first k).map (withVersion · v')).or (((second k).map (withVersion · w')).or (base.get? k))) :
    Renumbered withVersion new a b := by
  intro k
  rw [ha, hb]
  rcases apart k with unmarked | unmarked
  · rw [unmarked]
    cases second k with
    | none => exact .inl rfl
    | some x => exact .inr ⟨x, w, mem.2.1, w', mem.2.2.2, rfl, rfl⟩
  · rw [unmarked]
    cases first k with
    | none => exact .inl rfl
    | some x => exact .inr ⟨x, v, mem.1, v', mem.2.2.1, rfl, rfl⟩

theorem next_of_leave (s : Store) (m : Mark) : (s.leave m).version + 1 ∈ s.nextTwo := by
  rw [version_leave, nextTwo]
  split <;> simp

theorem reordered_leave {s : Store} {m m' : Mark} {key key' : ObjectKey} (fits : m.Fits s key) (fits' : m'.Fits s key')
    (apart : key ≠ key') : s.Reordered ((s.leave m).leave m') ((s.leave m').leave m) := by
  have elsewhere (k : ObjectKey) : k ≠ key ∨ k ≠ key' := by
    by_cases h : k = key
    · exact .inr fun h' => apart (h.symm.trans h')
    · exact .inl h
  have first : s.version + 1 ∈ s.nextTwo := List.mem_cons_self ..
  have mem : s.version + 1 ∈ s.nextTwo ∧ (s.leave m).version + 1 ∈ s.nextTwo ∧ (s.leave m').version + 1 ∈ s.nextTwo ∧
      s.version + 1 ∈ s.nextTwo := ⟨first, s.next_of_leave m, s.next_of_leave m', first⟩
  constructor
  case trials =>
    refine renumbered_of_marks s.trials mem (fun k => (elsewhere k).imp fits.trialAt? fits'.trialAt?) ?_ ?_
    · exact fun k => by rw [trials_leave, trials_leave]
    · exact fun k => by rw [trials_leave, trials_leave]
  case workloads =>
    refine renumbered_of_marks s.workloads mem (fun k => (elsewhere k).imp fits.workloadAt? fits'.workloadAt?) ?_ ?_
    · exact fun k => by rw [workloads_leave, workloads_leave]
    · exact fun k => by rw [workloads_leave, workloads_leave]
  case log =>
    refine ⟨m.change?, m'.change?, _, mem.1, _, mem.2.1, _, mem.2.2.1, _, mem.2.2.2, ?_, ?_⟩
    · rw [log_leave, log_leave]
    · rw [log_leave, log_leave]
  case version =>
    simp only [version_leave]
    cases m.change?.isSome <;> cases m'.change?.isSome <;> simp
  case commits =>
    simp only [commits_leave]
    omega
  all_goals simp

end Store

/-- Passes of two trials end in the same way in either order, and lead to the same store up to the versions of what
they have written, which are the next two, and up to the order in which that is reported. -/
theorem passes_commute {s : Store} {n : Nat} {key key' : ObjectKey} (built : s.Built n) (apart : key ≠ key')
    (h : Helpers) (settings : Settings) (now now' : Instant) :
    let pass := (reconcile settings key now).run h.answer
    let pass' := (reconcile settings key' now').run h.answer
    (pass (pass' s).2).1 = (pass s).1 ∧ (pass' (pass s).2).1 = (pass' s).1 ∧
      s.Reordered (pass' (pass s).2).2 (pass (pass' s).2).2 := by
  intro pass pass'
  obtain ⟨outcome, m, fits, ends⟩ := Pass.leaves_pass h settings key now built.keyed
  obtain ⟨outcome', m', fits', ends'⟩ := Pass.leaves_pass h settings key' now' built.keyed
  have alone : pass s = (outcome, s.leave m) := ends s (.refl key s)
  have alone' : pass' s = (outcome', s.leave m') := ends' s (.refl key' s)
  have last : pass (s.leave m') = (outcome, (s.leave m').leave m) := ends _ (Store.alike_leave fits' apart)
  have last' : pass' (s.leave m) = (outcome', (s.leave m).leave m') := ends' _ (Store.alike_leave fits apart.symm)
  rw [alone, alone', last, last']
  exact ⟨rfl, rfl, Store.reordered_leave fits fits' apart⟩

/-- One trial becomes stable while a run workload is created for its namesake in another namespace. -/
theorem namesakes_commute :
    let key : ObjectKey := ⟨"ns", "t1"⟩
    let key' : ObjectKey := ⟨"other", "t1"⟩
    let namesake := ((Draft.named "other" "t1" default).build.record .stable (.plain .true) default).syncPhase
    let s := [Write.createTrial (Draft.named "ns" "t1" default).build, .createTrial namesake].foldl Store.after .empty
    let h : Helpers := ⟨fun _ => .ok (), fun m t _ => m.compute t, Table.inOrder⟩
    let now := shifted default (some (.ofSeconds 5))
    let pass := (reconcile .standard key now).run h.answer
    let pass' := (reconcile .standard key' now).run h.answer
    let a := (pass' (pass s).2).2
    let b := (pass (pass' s).2).2
    s.Reordered a b ∧ (pass (pass' s).2).1 = .ok .done ∧
      a.version? (.trial key) = some 3 ∧ a.version? (.workload key') = some 4 ∧
      b.version? (.trial key) = some 4 ∧ b.version? (.workload key') = some 3 := by
  intro key key' namesake s h now pass pass' a b
  obtain ⟨n, -, built⟩ := Store.Built.empty.writes
    [.createTrial (Draft.named "ns" "t1" default).build, .createTrial namesake]
  obtain ⟨result, -, reordered⟩ := passes_commute built (show key ≠ key' by decide) h .standard now now
  refine ⟨reordered, result.trans ?_, ?_⟩
  · decide +kernel
  · decide +kernel

end TrialControl
