import TrialControl.Proofs.Chronicles
import TrialControl.Proofs.Commits
import TrialControl.Proofs.Questions
import TrialControl.Proofs.StoredWorkloads

/-!
# Run workloads

A pass finds the run workloads of its trial by their label, and creates one when it finds none. Two
passes may both find none; the key of the workload decides then, and only one of them creates it.
-/

namespace TrialControl

/-- A workload in the namespace of a trial that carries the trial's label and is no setup. -/
structure Workload.RunsFor (w : Workload) (t : Trial) : Prop where
  ns : w.metadata.ns = t.metadata.ns
  label : w.metadata.label? Label.trial = some t.metadata.name
  run : w.isSetup = false

theorem Store.Housed.listed {s : Store} (housed : s.Housed) {t : Trial} {found : List Workload}
    (h : s.listWorkloads t.metadata.ns t.ownSelector = .ok found) (w : Workload) :
    w ∈ found ∧ w.isSetup = false ↔ (∃ k, s.workloads.get? k = some w) ∧ w.RunsFor t := by
  rw [Store.mem_listWorkloads h]
  constructor
  · rintro ⟨⟨k, there, here, accepted⟩, run⟩
    refine ⟨⟨k, there⟩, ?_, (Selector.accepts_own _).mp accepted, run⟩
    rw [← here, ← housed k w there]
    rfl
  · rintro ⟨⟨k, there⟩, runs⟩
    refine ⟨⟨k, there, ?_, (Selector.accepts_own _).mpr runs.label⟩, runs.run⟩
    rw [← runs.ns, ← housed k w there]
    rfl

structure Pass.Due (settings : Settings) (now : Instant) (t : Trial) : Prop where
  unfinished : t.isFinished = false
  undeleted : t.metadata.isDeleted = false
  still : t.hasWaitingPatches = false
  stable : ∀ c, t.status.conditions.find? .stable = some c →
    c.standing.status = .true ∧ ∃ ending, c.since.later? settings.grace = some ending ∧ ending ≤ now
  patched : t.status.conditions.holds .patched .unknown = false

theorem Pass.Ready.due {settings : Settings} {now : Instant} {t : Trial} (ready : Ready settings now t)
    (live : t.isLive = true) : Due settings now t := by
  simp only [Trial.isLive, Bool.and_eq_true, Bool.not_eq_true'] at live
  refine ⟨live.1, live.2, ready.still, fun c found => ?_, ready.patched⟩
  have stable := ready.stable
  have graced := ready.graced
  rw [Ledger.compare?, found] at stable
  rw [found, Option.any_some, inGrace] at graced
  refine ⟨by simpa using stable, ?_⟩
  cases h : c.since.later? settings.grace with
  | none => simp [h] at graced
  | some ending =>
    rw [h, Option.all_some, decide_eq_false_iff_not] at graced
    exact ⟨ending, rfl, Int.not_lt.mp graced⟩

def Exchange.creates : Exchange → Bool
  | ⟨.createWorkload _, .ok _⟩ => true
  | _ => false

namespace Chronicle

open Pass

variable {may : Store → Store.Write → Prop} {key : ObjectKey} {c d : Chronicle} {s : Store} {n m : Nat}

theorem Run.read_key (run : Run key may ⟨s, [], []⟩ n c) (built : s.Built m) {j : Journey} (hj : j ∈ c.passes)
    {t : Trial} (read : j.asked.trial? = some t) : t.key = key := by
  obtain ⟨settings, now, reached⟩ := run.reached j hj
  obtain ⟨later, split, -⟩ := asked_of_reaches reached read
  obtain ⟨k, l, b, u, next, first, rest, -, answer, -⟩ := run.told j hj _ _ _ split
  obtain ⟨k, built⟩ := first.built built
  exact built.keyed key t (Store.getTrial_eq_ok.mp answer.symm)

theorem Run.discovered (run : Run key may ⟨s, [], []⟩ n c) (built : s.Built m) {j : Journey} (hj : j ∈ c.passes)
    {t : Trial} (read : j.asked.trial? = some t) {w : Workload} (found : w ∈ j.asked.runs) : w.RunsFor t := by
  obtain ⟨settings, now, reached⟩ := run.reached j hj
  obtain ⟨ns, selector, listed, mem, here, role⟩ := Transcript.mem_runs found
  obtain ⟨rfl, rfl⟩ := concerns_of_reaches reached read mem nofun
  obtain ⟨before, after, cut⟩ := List.append_of_mem mem
  obtain ⟨k, l, b, u, next, first, rest, -, answer, -⟩ := run.told j hj _ _ _ cut
  obtain ⟨k, built⟩ := first.built built
  exact ((built.housed.listed answer.symm w).mp ⟨here, role⟩).2

/-! ## Creation -/

def creations (c : Chronicle) : Nat := (c.passes.flatMap (·.asked)).countP Exchange.creates

theorem Run.asks_own (run : Run key may ⟨s, [], []⟩ n c) (built : s.Built m) {j : Journey} (hj : j ∈ c.passes)
    {w : Workload} {next : Except Error Workload → Plan Outcome} (asks : j.plan = .ask (.createWorkload w) next) :
    w.key = key := by
  obtain ⟨settings, now, reached⟩ := run.reached j hj
  rw [asks] at reached
  obtain ⟨t, found, live, read, ready, listed, unrun, creates⟩ := create_of_reaches reached
  cases creates
  exact run.read_key built hj read

theorem creations_answer {before after : List Journey} {asked : Transcript} {call : Call}
    {next : call.Answer → Plan Outcome} {p : Plan Outcome} {history : List Entry} {u : Store} {r : call.Answer}
    (asking : c.passes = before ++ ⟨asked, .ask call next⟩ :: after) :
    (Chronicle.mk u (before ++ ⟨⟨call, r⟩ :: asked, p⟩ :: after) history).creations =
      c.creations + if Exchange.creates ⟨call, r⟩ then 1 else 0 := by
  simp only [creations, asking, List.flatMap_append, List.flatMap_cons, List.countP_append, List.countP_cons]
  omega

theorem Run.creations (run : Run key may ⟨s, [], []⟩ n c) (built : s.Built m) :
    c.creations = 0 ∨ c.creations = 1 ∧ c.store.workloads.get? key ≠ none := by
  induction run with
  | start => exact .inl rfl
  | @step n d e run step ih =>
    have kept (present : d.store.workloads.get? key ≠ none) : e.store.workloads.get? key ≠ none := by
      rcases step.crowd.store with same | ⟨w, wrote⟩
      · change e.store = d.store at same
        rwa [same]
      · change e.store = d.store.after w at wrote
        rw [wrote]
        exact Store.workload_present_after present w
    cases step with
    | work allowed => exact ih.imp_right fun h => ⟨h.1, kept h.2⟩
    | pass step =>
      cases step with
      | begin settings now => exact ih
      | @answer before after asked call next r u asking reply =>
        rw [creations_answer asking]
        cases new : Exchange.creates ⟨call, r⟩ with
        | false => exact ih.imp_right fun h => ⟨h.1, kept h.2⟩
        | true =>
          cases call <;> cases r <;> cases new
          rename_i w v
          have own : w.key = key := run.asks_own built (j := ⟨asked, .ask _ next⟩) (by simp [asking]) rfl
          rcases d.store.taking_createWorkload w with ⟨absent, taken⟩ | ⟨present, taken⟩
          · cases reply.trans taken
            rw [own] at absent
            have none_before : d.creations = 0 := ih.resolve_right fun h => h.2 absent
            exact .inr ⟨by rw [none_before]; rfl, own ▸ d.store.placeWorkload_present w⟩
          · cases reply.trans taken

theorem createRun_replies {settings : Settings} {t : Trial} {w : Workload}
    {next : Except Error Workload → Plan Outcome} (creates : .ask (.createWorkload w) next = createRun settings t)
    {u : Store} {r : Except Error Workload} (reply : s.Replies (.createWorkload w) r u) :
    (s.workloads.get? w.key = none ∧ u = (s.placeWorkload w).2 ∧ next r = .done (.ok .done)) ∨
      s.workloads.get? w.key ≠ none ∧ u = s ∧ next r = .done (.ok .requeue) := by
  cases creates
  rcases s.taking_createWorkload (t.runWorkload settings.workload) with ⟨absent, taken⟩ | ⟨present, taken⟩
  · cases reply.trans taken
    exact .inl ⟨absent, rfl, rfl⟩
  · cases reply.trans taken
    exact .inr ⟨present, rfl, rfl⟩

/-- In every order of passes and of other writes, whatever these may be: a pass asks for a workload only
where its trial is due and when it found no run workload, and asks for the trial's own one. The workload is
created if its key is free by then, and the pass asks to be repeated if it is not. Passes create one
workload at the most. -/
theorem run_created_when_due_and_once (built : s.Built m) (run : Run key may ⟨s, [], []⟩ n c) :
    (∀ j ∈ c.passes, ∀ {w : Workload} {next : Except Error Workload → Plan Outcome},
      j.plan = .ask (.createWorkload w) next →
        ∃ settings now t, (reconcile settings key now).Reaches j.asked j.plan ∧ j.asked.trial? = some t ∧
          Due settings now t ∧ w = t.runWorkload settings.workload ∧ t.key = key ∧ w.key = key ∧
          (∃ k l b found before next, Run key may ⟨s, [], []⟩ k b ∧ Run key may b l c ∧
            j.asked = ⟨.listWorkloads t.metadata.ns t.ownSelector, .ok found⟩ :: before ∧
            ⟨before, .ask (.listWorkloads t.metadata.ns t.ownSelector) next⟩ ∈ b.passes ∧
            b.store.listWorkloads t.metadata.ns t.ownSelector = .ok found ∧
            ∀ k x, b.store.workloads.get? k = some x → ¬ x.RunsFor t) ∧
          ∀ {r : Except Error Workload} {u : Store}, c.store.Replies (.createWorkload w) r u →
            (c.store.workloads.get? key = none ∧ u = (c.store.placeWorkload w).2 ∧ next r = .done (.ok .done)) ∨
              c.store.workloads.get? key ≠ none ∧ u = c.store ∧ next r = .done (.ok .requeue)) ∧
    c.creations ≤ 1 := by
  constructor
  · intro j hj w next asks
    obtain ⟨settings, now, reached⟩ := run.reached j hj
    have reached_ask := reached
    rw [asks] at reached_ask
    obtain ⟨t, found, live, read, ready, listed, unrun, creates⟩ := create_of_reaches reached_ask
    have here : t.key = key := run.read_key built hj read
    have own : w = t.runWorkload settings.workload := by
      cases creates
      rfl
    have own_key : w.key = key := by rw [own]; exact here
    obtain ⟨before, split⟩ := List.head?_eq_some_iff.mp listed
    obtain ⟨k, l, b, u, next', first, rest, stood, answer, -⟩ := run.told j hj [] _ before split
    obtain ⟨i, housed⟩ := first.built built
    have answer : b.store.listWorkloads t.metadata.ns t.ownSelector = .ok found := answer.symm
    refine ⟨settings, now, t, reached, read, ready.due live, own, here, own_key, ?_, fun reply => ?_⟩
    · refine ⟨k, l, b, found, before, next', first, rest, split, stood, answer, fun k x there runs => ?_⟩
      obtain ⟨mem, role⟩ := (housed.housed.listed answer x).mpr ⟨⟨k, there⟩, runs⟩
      -- what was listed and is no setup would have been found
      have found_run : x ∈ j.asked.runs := by
        rw [split]
        exact List.mem_filter.mpr ⟨mem, by simp [role]⟩
      rw [unrun] at found_run
      cases found_run
    · rw [← own_key]
      exact createRun_replies creates reply
  · rcases run.creations built with h | ⟨h, -⟩ <;> omega

theorem list_at_once (settings : Settings) (now : Instant) {t : Trial} {found : List Workload}
    (there : c.store.trials.get? key = some t) (live : t.isLive = true) (patches : t.spec.patches = [])
    (conditions : t.status.conditions = .empty)
    (listed : c.store.listWorkloads t.metadata.ns t.ownSelector = .ok found)
    {next : Except Error (List Workload) → Plan Outcome}
    (asks : discover settings t.spec t now = .ask (.listWorkloads t.metadata.ns t.ownSelector) next) :
    ∃ n, Run key may c n
      ⟨c.store,
        ⟨[⟨.listWorkloads t.metadata.ns t.ownSelector, .ok found⟩, ⟨.getTrial key, .ok t⟩], next (.ok found)⟩ ::
          c.passes,
        c.history⟩ := by
  have proceeds : proceed settings t now = .ask (.listWorkloads t.metadata.ns t.ownSelector) next := by
    have unscanned : t.scan now = .done .idle := by rw [Trial.scan, patches]; rfl
    rw [← asks, proceed, unscanned]
    show advance settings t now = _
    rw [advance, conditions]
    rfl
  have goes_on : (if (t.isFinished || t.metadata.isDeleted) = true then Plan.done (.ok .done)
      else proceed settings t now) = .ask (.listWorkloads t.metadata.ns t.ownSelector) next :=
    (if_neg (Trial.not_over_of_live live)).trans proceeds
  have read : PassStep key ⟨c.store, ⟨[], reconcile settings key now⟩ :: c.passes, c.history⟩
      ⟨c.store, ⟨[⟨.getTrial key, .ok t⟩], if (t.isFinished || t.metadata.isDeleted) = true then .done (.ok .done)
        else proceed settings t now⟩ :: c.passes, c.history⟩ :=
    @PassStep.look key ⟨c.store, ⟨[], reconcile settings key now⟩ :: c.passes, c.history⟩ [] c.passes [] (.getTrial key)
      _ (Except.ok t) rfl ⟨(Store.getTrial_eq_ok.mpr there).symm, rfl⟩
  rw [goes_on] at read
  refine ⟨_, .step (.step (.step .start (.pass (.begin settings now))) (.pass read)) (.pass ?_)⟩
  exact @PassStep.look key
    ⟨c.store, ⟨[⟨.getTrial key, .ok t⟩], .ask (.listWorkloads t.metadata.ns t.ownSelector) next⟩ :: c.passes, c.history⟩
    [] c.passes _ (.listWorkloads t.metadata.ns t.ownSelector) next (Except.ok found) rfl ⟨listed.symm, rfl⟩

/-- Two passes find no run workload; one creates it, and the other is told that it exists. -/
theorem second_creation_is_refused :
    let key : ObjectKey := ⟨"ns", "t1"⟩
    let t := (Trial.named "ns" "t1").withVersion 1
    let s := Store.empty.after (.createTrial (.named "ns" "t1"))
    let w := t.runWorkload .standard
    let found : Transcript := [⟨.listWorkloads "ns" t.ownSelector, .ok []⟩, ⟨.getTrial key, .ok t⟩]
    let creating : Journey := ⟨found, createRun .standard t⟩
    let c : Chronicle :=
      ⟨(s.placeWorkload w).2,
        [creating, ⟨⟨.createWorkload w, .ok (s.placeWorkload w).1⟩ :: found, .done (.ok .done)⟩], []⟩
    (∃ m n, s.Built m ∧ Run key (fun _ _ => True) ⟨s, [], []⟩ n c) ∧ c.creations = 1 ∧ c.creations ≤ 1 ∧
      ∀ {next}, creating.plan = .ask (.createWorkload w) next → ∀ {r u}, c.store.Replies (.createWorkload w) r u →
        u = c.store ∧ next r = .done (.ok .requeue) := by
  intro key t s w found creating c
  have built := Store.Built.empty.write (.createTrial (.named "ns" "t1"))
  have stored : s.trials.get? key = some t := by decide +kernel
  have listed : s.listWorkloads "ns" t.ownSelector = .ok [] := eq_ok_of_toOption (by decide +kernel)
  have live : t.isLive = true := by decide +kernel
  obtain ⟨_, one⟩ : ∃ n, Run key (fun _ _ => True) ⟨s, [], []⟩ n ⟨s, [creating], []⟩ :=
    list_at_once .standard default stored live rfl rfl listed rfl
  obtain ⟨_, two⟩ : ∃ n, Run key (fun _ _ => True) ⟨s, [creating], []⟩ n ⟨s, [creating, creating], []⟩ :=
    @list_at_once (fun _ _ => True) key ⟨s, [creating], []⟩ .standard default t [] stored live rfl rfl listed _ rfl
  have created : PassStep key ⟨s, [creating, creating], []⟩ c := by
    have silent : (Chronicle.mk s [creating, creating] []).noted key (.pass found) (s.placeWorkload w).2 = [] :=
      noted_of_same rfl
    have step := @PassStep.answer key ⟨s, [creating, creating], []⟩ [creating] [] found (.createWorkload w) _
      (Except.ok (s.placeWorkload w).1) (s.placeWorkload w).2 rfl rfl
    rwa [silent] at step
  have run := (one.append two).step (.pass created)
  have result := run_created_when_due_and_once built run
  refine ⟨⟨_, _, built, run⟩, rfl, result.2, fun {next} asks r u reply => ?_⟩
  obtain ⟨settings, now, t', -, -, -, -, -, -, -, replies⟩ := result.1 creating (List.mem_cons_self ..) asks
  rcases replies reply with ⟨absent, -⟩ | ⟨-, refused⟩
  · exact absurd absent (by decide +kernel)
  · exact refused

/-! ## Wakeups -/

/-- A change of a run workload that a pass has found concerns the trial of the first managing owner, if the
workload has one, and otherwise the trial of the pass. In the latter case, and where that owner is the trial
itself, every change of the workload's status wakes the trial. -/
theorem found_run_wakes_owner_or_finder (built : s.Built m) (run : Run key may ⟨s, [], []⟩ n c) :
    ∀ j ∈ c.passes, ∀ t, j.asked.trial? = some t → t.metadata.name ≠ "" → ∀ w ∈ j.asked.runs,
      w.trialKey? = some ⟨t.metadata.ns, ((w.metadata.managingOwner? "Trial").map (·.name)).getD t.metadata.name⟩ ∧
      ((∀ o, w.metadata.managingOwner? "Trial" = some o → o.name = t.metadata.name) →
        w.trialKey? = some t.key ∧ ∀ b x status, b.workloads.get? w.key = some x → x.metadata.ns = w.metadata.ns →
          x.metadata.labels = w.metadata.labels → x.metadata.owners = w.metadata.owners →
            ∃ b', b.updateWorkloadStatus w.key status = .ok b' ∧ Woken t.key b b') := by
  intro j hj t read named w found
  have runs := run.discovered built hj read found
  have wakes : w.trialKey? =
      some ⟨t.metadata.ns, ((w.metadata.managingOwner? "Trial").map (·.name)).getD t.metadata.name⟩ := by
    unfold Workload.trialKey?
    rw [runs.label, runs.ns]
    cases w.metadata.managingOwner? "Trial" with
    | some o => rfl
    | none => simp [Option.filter, named]
  refine ⟨wakes, fun own => ?_⟩
  have here : w.trialKey? = some t.key := by
    rw [wakes]
    cases owner : w.metadata.managingOwner? "Trial" with
    | some o =>
      rw [Option.map_some, Option.getD_some, own o owner]
      rfl
    | none => rfl
  refine ⟨here, fun b x status there ns labels owners => ?_⟩
  refine ⟨(b.placeWorkload { x with status }).2, ?_, _, rfl, ?_⟩
  · rw [Store.updateWorkloadStatus, there]
  · rw [← here]
    show Workload.trialKey? _ = _
    simp only [Workload.trialKey?, Metadata.managingOwner?, Metadata.label?, ns, labels, owners]

/-- A workload that a trial finds by its label, without an owner: its changes wake the trial. -/
theorem labelled_run_wakes_finder :
    let key : ObjectKey := ⟨"ns", "t1"⟩
    let t := (Trial.named "ns" "t1").withVersion 1
    let w : Workload :=
      { metadata := { Metadata.named "ns" "load" with labels := t.runLabels },
        selector := t.ownSelector, template := .blank, status := .empty }
    let s := (Store.empty.after (.createTrial (.named "ns" "t1"))).after (.putWorkload w)
    let v : Workload := { w with metadata.version := 2 }
    (∃ m n c, s.Built m ∧ Run key (fun _ _ => True) ⟨s, [], []⟩ n c ∧
      ∃ j ∈ c.passes, j.asked.trial? = some t ∧ v ∈ j.asked.runs) ∧ t.metadata.name ≠ "" ∧
      v.trialKey? = some t.key ∧ ∃ s', s.updateWorkloadStatus v.key .empty = .ok s' ∧ Woken t.key s s' := by
  intro key t w s v
  have built := (Store.Built.empty.write (.createTrial (.named "ns" "t1"))).write (.putWorkload w)
  have stored : s.trials.get? key = some t := by decide +kernel
  have listed : s.listWorkloads "ns" t.ownSelector = .ok [v] := eq_ok_of_toOption (by decide +kernel)
  have live : t.isLive = true := by decide +kernel
  obtain ⟨_, run⟩ :=
    @list_at_once (fun _ _ => True) key ⟨s, [], []⟩ .standard default t [v] stored live rfl rfl listed _ rfl
  have found : v ∈ Transcript.runs [⟨.listWorkloads t.metadata.ns t.ownSelector, .ok [v]⟩, ⟨.getTrial key, .ok t⟩] := by
    decide +kernel
  have named : t.metadata.name ≠ "" := by decide
  obtain ⟨here, wakes⟩ := (found_run_wakes_owner_or_finder built run _ (List.mem_cons_self ..) t rfl named v found).2
    fun o owner => by cases owner
  exact ⟨⟨_, _, _, built, run, _, List.mem_cons_self .., rfl, found⟩, named, here,
    wakes s v .empty (by decide +kernel) rfl rfl rfl⟩

/-- A workload that a trial finds by its label while another trial manages it: its changes wake only the
other one. -/
theorem managed_run_wakes_owner :
    let key : ObjectKey := ⟨"ns", "t1"⟩
    let t := (Trial.named "ns" "t1").withVersion 1
    let w : Workload := { metadata := { Metadata.named "ns" "load" with
                                        labels := t.runLabels
                                        owners := [⟨"Trial", "other", true⟩] }
                          selector := t.ownSelector, template := .blank, status := .empty }
    let s := (Store.empty.after (.createTrial (.named "ns" "t1"))).after (.putWorkload w)
    let v : Workload := { w with metadata.version := 2 }
    (∃ m n c, s.Built m ∧ Run key (fun _ _ => True) ⟨s, [], []⟩ n c ∧
      ∃ j ∈ c.passes, j.asked.trial? = some t ∧ v ∈ j.asked.runs) ∧ v.RunsFor t ∧ t.metadata.name ≠ "" ∧
      v.trialKey? = some ⟨"ns", "other"⟩ ∧ v.trialKey? ≠ some t.key := by
  intro key t w s v
  have built := (Store.Built.empty.write (.createTrial (.named "ns" "t1"))).write (.putWorkload w)
  have stored : s.trials.get? key = some t := by decide +kernel
  have listed : s.listWorkloads "ns" t.ownSelector = .ok [v] := eq_ok_of_toOption (by decide +kernel)
  have live : t.isLive = true := by decide +kernel
  obtain ⟨_, run⟩ :=
    @list_at_once (fun _ _ => True) key ⟨s, [], []⟩ .standard default t [v] stored live rfl rfl listed _ rfl
  have found : v ∈ Transcript.runs [⟨.listWorkloads t.metadata.ns t.ownSelector, .ok [v]⟩, ⟨.getTrial key, .ok t⟩] := by
    decide +kernel
  exact ⟨⟨_, _, _, built, run, _, List.mem_cons_self .., rfl, found⟩,
    run.discovered built (List.mem_cons_self ..) rfl found, by decide, by decide +kernel, by decide +kernel⟩

end Chronicle

end TrialControl
