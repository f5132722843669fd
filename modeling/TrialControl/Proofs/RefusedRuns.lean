import TrialControl.Proofs.OwnWorkloads
import TrialControl.Proofs.Performances

/-!
# Refused run workloads

A pass that is told that its run workload exists asks to be repeated at once. A workload is refused by its key and
found by its labels, so the passes that follow find a run workload if one is stored by then; otherwise they are
refused themselves, one after the other, and as long as nothing else changes the store there is no end to it.
-/

namespace TrialControl

open Store (Write)
open Rehearsal (Cast)

def Store.HasRun (s : Store) (t : Trial) : Prop := ∃ k w, s.workloads.get? k = some w ∧ w.RunsFor t

theorem Store.Housed.hasRun_iff {s : Store} (housed : s.Housed) {t : Trial} {found : List Workload}
    (listed : s.listWorkloads t.metadata.ns t.ownSelector = .ok found) :
    s.HasRun t ↔ (found.filter fun w => !w.isSetup) ≠ [] := by
  constructor
  · rintro ⟨k, w, stored, runs⟩
    obtain ⟨mem, role⟩ := (housed.listed listed w).mpr ⟨⟨k, stored⟩, runs⟩
    exact List.ne_nil_of_mem (List.mem_filter.mpr ⟨mem, by simp [role]⟩)
  · intro run
    obtain ⟨w, mem⟩ := List.exists_mem_of_ne_nil _ run
    obtain ⟨mem, role⟩ := List.mem_filter.mp mem
    obtain ⟨⟨k, stored⟩, runs⟩ := (housed.listed listed w).mp ⟨mem, by simpa using role⟩
    exact ⟨k, w, stored, runs⟩

namespace Pass

variable {settings : Settings} {now : Instant} {t : Trial} {told : Transcript}
variable {s s' : Store} {key : ObjectKey} {outcome : Outcome}

theorem inGrace_later {grace : Duration} {since later : Instant} (past : inGrace grace since now = false)
    (h : now ≤ later) : inGrace grace since later = false := by
  unfold inGrace at past ⊢
  cases ending : since.later? grace with
  | none => rw [ending] at past; cases past
  | some e =>
    rw [ending, Option.all_some, decide_eq_false_iff_not] at past
    rw [Option.all_some, decide_eq_false_iff_not]
    intro early
    exact past (Int.lt_of_le_of_lt (b := later.rank) h early)

theorem Ready.later {later : Instant} (ready : Ready settings now t) (h : now ≤ later) : Ready settings later t := by
  refine ⟨ready.still, ready.stable, ?_, ready.patched⟩
  have graced := ready.graced
  cases found : t.status.conditions.find? .stable with
  | none => rfl
  | some c =>
    rw [found] at graced
    exact inGrace_later graced h

theorem runs_ne_nil_iff (housed : s.Housed) (there : s.trials.get? key = some t)
    (tells : (reconcile settings key now).Tells [] s told outcome s') (looks : told.LooksForRuns) :
    told.runs ≠ [] ↔ s.HasRun t := by
  constructor
  · intro found
    obtain ⟨w, mem⟩ := List.exists_mem_of_ne_nil _ found
    obtain ⟨-, t', k, there', stored, runs⟩ := (mem_runs_of_tells housed tells w).mp mem
    obtain rfl := Option.some.inj (there.symm.trans there')
    exact ⟨k, w, stored, runs⟩
  · rintro ⟨k, w, stored, runs⟩
    exact List.ne_nil_of_mem ((mem_runs_of_tells housed tells w).mpr ⟨looks, t, k, there, stored, runs⟩)

theorem refused_of_taken {asked : Transcript} (tells : (createRun settings t).Tells asked s told outcome s')
    (taken : s.workloads.get? t.key ≠ none) :
    told = ⟨.createWorkload (t.runWorkload settings.workload), .error (.alreadyExists .workload t.key.text)⟩ :: asked ∧
      outcome = .ok .requeue ∧ s' = s := by
  cases tells with
  | @ask _ _ _ _ _ _ _ r _ reply tells =>
    have answer : (r, _) = s.taking (s.createWorkload (t.runWorkload settings.workload)) := reply
    rcases s.taking_createWorkload (t.runWorkload settings.workload) with ⟨free, -⟩ | ⟨-, refused⟩
    · exact absurd free taken
    · rw [refused] at answer
      cases answer
      cases tells
      exact ⟨rfl, rfl, rfl⟩

theorem refused_of_hidden (housed : s.Housed) (there : s.trials.get? key = some t) (own : t.key = key)
    (live : t.isLive = true) (ready : Ready settings now t) (taken : s.workloads.get? key ≠ none)
    (hidden : ¬ s.HasRun t) (tells : (reconcile settings key now).Tells [] s told outcome s') :
    ⟨.createWorkload (t.runWorkload settings.workload), .error (.alreadyExists .workload key.text)⟩ ∈ told ∧
      outcome = .ok .requeue ∧ s' = s := by
  have proceeding := proceed_of_tells there live tells
  rw [proceed_of_ready ready] at proceeding
  cases proceeding with
  | @ask _ _ _ _ _ _ _ r _ reply discovering =>
    obtain ⟨answered, same⟩ := reply
    subst answered
    rw [same] at discovering
    obtain ⟨found, listed⟩ : ∃ found, s.listWorkloads t.metadata.ns t.ownSelector = .ok found := Store.select_own ..
    have unrun : (found.filter fun w => !w.isSetup) = [] := not_not.mp (mt (housed.hasRun_iff listed).mpr hidden)
    simp only [listed, unrun] at discovering
    obtain ⟨told, result, same⟩ := refused_of_taken discovering (own ▸ taken)
    rw [told, own]
    exact ⟨List.mem_cons_self .., result, same⟩

inductive Alone (settings : Settings) (key : ObjectKey) (s : Store) : List (Instant × Outcome) → Store → Prop where
  | start : Alone settings key s [] s
  | pass {passes : List (Instant × Outcome)} {u v : Store} {now : Instant} {outcome : Outcome}
      (alone : Alone settings key s passes u) (run : (reconcile settings key now).Runs u outcome v) :
      Alone settings key s ((now, outcome) :: passes) v

theorem Alone.refused {passes : List (Instant × Outcome)} (alone : Alone settings key s passes s') (housed : s.Housed)
    (there : s.trials.get? key = some t) (own : t.key = key) (live : t.isLive = true) (ready : Ready settings now t)
    (taken : s.workloads.get? key ≠ none) (hidden : ¬ s.HasRun t) (late : ∀ p ∈ passes, now ≤ p.1) :
    s' = s ∧ ∀ p ∈ passes, p.2 = .ok .requeue := by
  induction alone with
  | start => exact ⟨rfl, by simp⟩
  | @pass passes u v now' outcome alone run ih =>
    obtain ⟨here, before⟩ := List.forall_mem_cons.mp late
    obtain ⟨rfl, again⟩ := ih before
    obtain ⟨told, tells⟩ := run.tells []
    obtain ⟨-, result, same⟩ := refused_of_hidden housed there own live (ready.later here) taken hidden tells
    exact ⟨same, List.forall_mem_cons.mpr ⟨result, again⟩⟩

end Pass

namespace Chronicle

open Pass

variable {may : Store → Write → Prop} {key : ObjectKey} {c : Chronicle} {s : Store} {n m : Nat}

/-- A pass that is refused a run workload, because its key is taken, has listed none before, and asks to be repeated.
While the trial stays as it was read, the passes that follow look for run workloads. They find some if there are any by
now, whoever has stored them; if there are none, every following pass is refused too and nothing changes. -/
theorem refusals_end_iff_run_is_found (built : s.Built m) (run : Run key may ⟨s, [], []⟩ n c) {j : Journey}
    (hj : j ∈ c.passes) {w : Workload} {next : Except Error Workload → Plan Outcome}
    (asks : j.plan = .ask (.createWorkload w) next) {e : Error} {u : Store}
    (refused : c.store.Replies (.createWorkload w) (.error e) u) :
    u = c.store ∧ next (.error e) = .done (.ok .requeue) ∧ c.store.workloads.get? key ≠ none ∧
    ∃ settings now t, (reconcile settings key now).Reaches j.asked j.plan ∧ j.asked.trial? = some t ∧
      (∃ k l b, Run key may ⟨s, [], []⟩ k b ∧ Run key may b l c ∧ ¬ b.store.HasRun t) ∧
      (c.store.trials.get? key = some t →
        (∀ later, now ≤ later → ∀ told outcome s', (reconcile settings key later).Tells [] c.store told outcome s' →
          told.LooksForRuns ∧ (told.runs ≠ [] ↔ c.store.HasRun t)) ∧
        (¬ c.store.HasRun t → ∀ passes s', Alone settings key c.store passes s' → (∀ p ∈ passes, now ≤ p.1) →
          s' = c.store ∧ ∀ p ∈ passes, p.2 = .ok .requeue)) := by
  obtain ⟨settings, now, reached⟩ := run.reached j hj
  have asking := reached
  rw [asks] at asking
  obtain ⟨t, found, live, read, ready, listed, unrun, creates⟩ := create_of_reaches asking
  have own : t.key = key := run.read_key built hj read
  have own_key : w.key = key := by
    cases creates
    exact own
  obtain ⟨i, built_now⟩ := run.built built
  obtain ⟨before, split⟩ := List.head?_eq_some_iff.mp listed
  -- the store as it was when the pass listed workloads
  obtain ⟨k, l, b, u', next', first, rest, -, answer, -⟩ := run.told j hj [] _ before split
  obtain ⟨i', built_then⟩ := first.built built
  have answer : b.store.listWorkloads t.metadata.ns t.ownSelector = .ok found := answer.symm
  have none_then : ¬ b.store.HasRun t := by
    rw [built_then.housed.hasRun_iff answer, not_not]
    rwa [split] at unrun
  have same : u = c.store ∧ next (.error e) = .done (.ok .requeue) ∧ c.store.workloads.get? key ≠ none := by
    rcases createRun_replies creates refused with ⟨-, -, created⟩ | ⟨taken, same, again⟩
    · cases creates
      cases e <;> cases created
    · exact ⟨same, again, own_key ▸ taken⟩
  refine ⟨same.1, same.2.1, same.2.2, settings, now, t, reached, read, ⟨k, l, b, first, rest, none_then⟩, ?_⟩
  intro there
  refine ⟨?_, ?_⟩
  · intro later late told outcome s' tells
    have looks := looks_of_ready there live (ready.later late) tells
    exact ⟨looks, runs_ne_nil_iff built_now.housed there tells looks⟩
  · intro hidden passes s' alone late
    exact alone.refused built_now.housed there own live ready same.2.2 hidden late

/-- A run workload that is put under the trial's key between the listing and the creation is found afterwards. -/
theorem labelled_run_ends_refusals :
    let key : ObjectKey := ⟨"ns", "t1"⟩
    let t := (Trial.named "ns" "t1").withVersion 1
    let s := Store.empty.after (.createTrial (.named "ns" "t1"))
    let w := t.runWorkload .standard
    let v := s.after (.putWorkload w)
    let creating : Journey :=
      ⟨[⟨.listWorkloads "ns" t.ownSelector, .ok []⟩, ⟨.getTrial key, .ok t⟩], createRun .standard t⟩
    (∃ m n, s.Built m ∧ Run key (fun _ _ => True) ⟨s, [], []⟩ n ⟨v, [creating], []⟩) ∧
      v.Replies (.createWorkload w) (.error (.alreadyExists .workload key.text)) v ∧
      ∃ settings now told outcome s', (reconcile settings key now).Tells [] v told outcome s' ∧ told.runs ≠ [] := by
  intro key t s w v creating
  have built := Store.Built.empty.write (.createTrial (.named "ns" "t1"))
  have stored : s.trials.get? key = some t := by decide +kernel
  have live : t.isLive = true := by decide +kernel
  have listed : s.listWorkloads "ns" t.ownSelector = .ok [] := eq_ok_of_toOption (by decide +kernel)
  obtain ⟨_, listing⟩ : ∃ n, Run key (fun _ _ => True) ⟨s, [], []⟩ n ⟨s, [creating], []⟩ :=
    list_at_once .standard default stored live rfl rfl listed rfl
  have put : Step key (fun _ _ => True) ⟨s, [creating], []⟩ ⟨v, [creating], []⟩ := by
    have silent : (Chronicle.mk s [creating] []).noted key (.work (.putWorkload w)) v = [] := noted_of_same rfl
    have step := @Step.work key (fun _ _ => True) ⟨s, [creating], []⟩ (.putWorkload w) trivial
    rwa [silent] at step
  have run := listing.step put
  have refused : v.Replies (.createWorkload w) (.error (.alreadyExists .workload key.text)) v := by
    rcases v.taking_createWorkload w with ⟨free, -⟩ | ⟨-, taken⟩
    · exact absurd free (by decide +kernel)
    · exact taken.symm
  obtain ⟨-, -, -, settings, now, t', -, read, -, found⟩ :=
    refusals_end_iff_run_is_found built run (List.mem_cons_self ..) (w := w) rfl refused
  obtain rfl : t = t' := Option.some.inj read
  have there : v.HasRun t := ⟨key, _, Table.get?_insert_self .., t.runWorkload_runsFor .standard _ _⟩
  have pass := (Cast.attend_tells (c := ⟨⟨v, [], ∅⟩, .rollouts .zero, .computed, [], []⟩) ⟨rfl, trivial, trivial⟩ []
    (reconcile settings key now)).1
  exact ⟨⟨_, _, built, run⟩, refused, settings, now, _, _, _, pass,
    ((found stored).1 now now.le_refl _ _ _ pass).2.mpr there⟩

/-- A run workload that has lost the label of its trial: passes do not find it, and are refused a second one. -/
theorem relabelled_run_blocks_trial :
    let key : ObjectKey := ⟨"ns", "t1"⟩
    let t := ((Draft.named "ns" "t1" default).build.record .stable (.plain .true) default).syncPhase.withVersion 1
    let w := t.runWorkload .standard
    let s := [Write.createTrial t, .createWorkload w,
      .putWorkload { w with metadata.labels := w.metadata.labels.erase Label.trial }].foldl Store.after .empty
    ∃ n now told later told', s.Built n ∧ now ≤ later ∧ (reconcile .standard key now).Tells [] s told (.ok .requeue) s ∧
      ⟨.createWorkload w, .error (.alreadyExists .workload key.text)⟩ ∈ told ∧
      (reconcile .standard key later).Tells [] s told' (.ok .requeue) s ∧ told'.LooksForRuns ∧ told'.runs = [] := by
  intro key t w s
  obtain ⟨n, -, built⟩ := Store.Built.empty.writes [Write.createTrial t, .createWorkload w,
    .putWorkload { w with metadata.labels := w.metadata.labels.erase Label.trial }]
  have there : s.trials.get? key = some t := by decide +kernel
  have live : t.isLive = true := by decide +kernel
  have listed : s.listWorkloads "ns" t.ownSelector = .ok [] := eq_ok_of_toOption (by decide +kernel)
  have hidden : ¬ s.HasRun t := mt (built.housed.hasRun_iff listed).mp (not_not.mpr rfl)
  let now := shifted default (some (.ofSeconds 6))
  let later := shifted default (some (.ofSeconds 7))
  have ready : Ready .standard now t := by constructor <;> decide +kernel
  have late : now ≤ later := by decide +kernel
  have pass (at_ : Instant) := (Cast.attend_tells (c := ⟨⟨s, [], ∅⟩, .rollouts .zero, .computed, [], []⟩)
    ⟨rfl, trivial, trivial⟩ [] (reconcile .standard key at_)).1
  have refusal (at_ : Instant) (ready : Ready .standard at_ t) :=
    refused_of_hidden built.housed there rfl live ready (by decide +kernel) hidden (pass at_)
  have first := pass now
  have second := pass later
  obtain ⟨told, outcome, same⟩ := refusal now ready
  obtain ⟨-, outcome', same'⟩ := refusal later (ready.later late)
  have looks := looks_of_ready there live (ready.later late) second
  rw [outcome, same] at first
  have unfound := mt (runs_ne_nil_iff built.housed there second looks).mp hidden
  rw [outcome', same'] at second
  exact ⟨n, now, _, later, _, built, late, first, told, second, looks, not_not.mp unfound⟩

end Chronicle

end TrialControl
