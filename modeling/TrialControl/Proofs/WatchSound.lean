import TrialControl.Proofs.RequestSound
import TrialControl.Proofs.StoredWorkloads
import TrialControl.Queue.Watch

/-!
# No change is missed

A trial is wanted when a change that concerns it was reported after its last pass was started, or when it
was stored before the loop subscribed and no pass of it was started since. What is wanted is awaited: a
change that concerns it is still to be taken in, or the trials are still to be listed, or its pass is still
to be asked for, or it was asked for and is covered by the work queue.
-/

namespace TrialControl

/-! ## The feed -/

/-- A feed gives every change in the order of the reports, or tells first that some are lost. -/
structure Feed (listen : Store → Nat → News × Nat) : Prop where
  change : ∀ {s heard c next}, listen s heard = (.change c, next) → next = heard + 1 ∧ s.log.reverse[heard]? = some c
  lost : ∀ {s heard next}, listen s heard = (.lost, next) → heard ≤ next ∧ next ≤ s.log.length
  nothing : ∀ {s heard next}, listen s heard = (.nothing, next) → next = heard ∧ s.log.length ≤ heard

theorem Store.listen_cases (s : Store) (heard : Nat) :
    (s.log.length ≤ heard ∧ s.listen heard = (.nothing, heard)) ∨
      (feedCapacity < s.log.length - heard ∧ s.listen heard = (.lost, s.log.length - feedCapacity)) ∨
      ∃ c, s.log.reverse[heard]? = some c ∧ s.listen heard = (.change c, heard + 1) := by
  unfold listen
  by_cases none_left : s.log.length - heard = 0
  · exact .inl ⟨by omega, if_pos none_left⟩
  · right
    dsimp only
    rw [if_neg none_left]
    by_cases late : feedCapacity < s.log.length - heard
    · exact .inl ⟨late, if_pos late⟩
    · have within : heard < s.log.length := by omega
      have place : s.log.length - heard - 1 = s.log.length - 1 - heard := by omega
      rw [if_neg late, List.getElem?_reverse within, place]
      cases there : s.log[s.log.length - 1 - heard]? with
      | none =>
        have outside := List.getElem?_eq_none_iff.mp there
        omega
      | some c => exact .inr ⟨c, rfl, rfl⟩

theorem Store.listen_feed : Feed Store.listen := by
  refine ⟨fun {s heard c next} h => ?_, fun {s heard next} h => ?_, fun {s heard next} h => ?_⟩ <;>
    rcases s.listen_cases heard with ⟨all, found⟩ | ⟨late, found⟩ | ⟨d, there, found⟩ <;>
    obtain ⟨news, place⟩ := Prod.mk.inj (h.symm.trans found) <;> cases news
  · exact ⟨place, there⟩
  · omega
  · exact ⟨place, all⟩

namespace Store

variable {s : Store} {key : ObjectKey}

theorem log_after (s : Store) (w : Write) : (s.after w).log = s.log ∨ ∃ c, (s.after w).log = c :: s.log := by
  cases wrote_after s w with
  | nothing same => exact .inl (by rw [same])
  | trial puts stored => exact .inr ⟨_, by rw [stored]; rfl⟩
  | workload stored => exact .inr ⟨_, by rw [stored]; rfl⟩
  | other trials workloads log => exact .inl log

theorem reported_of_created {w : Write} (absent : s.trials.get? key = none)
    (stored : (s.after w).trials.get? key ≠ none) : (s.after w).log = .trial key :: s.log := by
  cases wrote_after s w with
  | nothing same =>
    rw [same] at stored
    exact absurd absent stored
  | @trial t commits puts put =>
    have placed : (s.after w).trials = s.trials.insert t.key (t.withVersion (s.version + 1)) := by rw [put]; rfl
    rw [placed, Table.get?_insert] at stored
    split at stored
    · next here =>
      rw [put, here]
      rfl
    · exact absurd absent stored
  | workload put =>
    rw [put] at stored
    exact absurd absent stored
  | other trials workloads log =>
    rw [trials] at stored
    exact absurd absent stored

theorem listed_of_stored (keyed : s.Keyed) (stored : s.trials.get? key ≠ none) (walk : s.trials.Walk) :
    key ∈ (s.listTrials walk).map (·.key) := by
  cases there : s.trials.get? key with
  | none => exact absurd there stored
  | some t =>
    have met : (key, t) ∈ walk.met := walk.perm.mem_iff.mpr (Table.get?_eq_some_iff.mp there)
    have mem : t ∈ s.listTrials walk := List.mem_map.mpr ⟨(key, t), met, rfl⟩
    exact List.mem_map.mpr ⟨t, mem, keyed key t there⟩

end Store

namespace Watch

open Dispatch (Covered Orderly)

/-- Whether a trial is wanted, in moments with the newest first: a change that concerns it was reported, or it
was stored when the loop subscribed, and no pass of it was started since. -/
def Wanted (key : ObjectKey) : List Moment → Prop
  | [] => False
  | .sent c :: h => c.trialKey? = some key ∨ Wanted key h
  | .subscribed s :: h => s.trials.get? key ≠ none ∨ Wanted key h
  | .started l :: h => l ≠ key ∧ Wanted key h

/-- The changes that were reported and that the loop has not taken in, the newest first. -/
def unheard (w : Watch) : List Change := w.store.log.take (w.store.log.length - w.heard)

/-- Why a pass of a trial is still to come. -/
inductive Awaited (listen : Store → Nat → News × Nat) (w : Watch) (key : ObjectKey) : Prop where
  /-- The trials are to be listed, at the start or after a loss. -/
  | listing (due : w.stage = .listing)
  | asking {rest : List ObjectKey} (stage : w.stage = .asking rest) (mem : key ∈ rest)
  /-- A change that concerns the trial is kept for the loop. -/
  | kept {c : Change} (mem : c ∈ w.unheard) (concerns : c.trialKey? = some key)
      (whole : (listen w.store w.heard).1 ≠ .lost)
  /-- The loop will be told that changes are lost. -/
  | lost (lost : (listen w.store w.heard).1 = .lost)
  /-- The trial is queued, or its pass is marked, or a delayed request of it stands out. -/
  | covered (covered : w.dispatch.Covered key)

/-- The same, whether or not the changes that are not taken in are all kept. -/
inductive Pending (w : Watch) (key : ObjectKey) : Prop where
  | listing (due : w.stage = .listing)
  | asking {rest : List ObjectKey} (stage : w.stage = .asking rest) (mem : key ∈ rest)
  | unheard {c : Change} (mem : c ∈ w.unheard) (concerns : c.trialKey? = some key)
  | covered (covered : w.dispatch.Covered key)

structure Sound (w : Watch) : Prop where
  ordered : w.dispatch.Orderly
  keyed : w.store.Keyed
  within : w.heard ≤ w.store.log.length

variable {listen : Store → Nat → News × Nat} {settings : Settings} {w v : Watch} {h moments : List Moment}
variable {key : ObjectKey}

theorem Pending.awaited (pending : Pending w key) (listen : Store → Nat → News × Nat) : Awaited listen w key := by
  cases pending with
  | listing due => exact .listing due
  | asking stage mem => exact .asking stage mem
  | unheard mem concerns =>
    by_cases lost : (listen w.store w.heard).1 = .lost
    · exact .lost lost
    · exact .kept mem concerns lost
  | covered covered => exact .covered covered

/-! ## Steps -/

inductive Heard (w : Watch) : Watch → Prop where
  | nothing : Heard w w
  | aside {c : Change} (next : w.store.log.reverse[w.heard]? = some c) (unrelated : c.trialKey? = none) :
      Heard w { w with heard := w.heard + 1 }
  | request {c : Change} {key : ObjectKey} (next : w.store.log.reverse[w.heard]? = some c)
      (concerns : c.trialKey? = some key) :
      Heard w { w with heard := w.heard + 1, dispatch := w.dispatch.request key }
  | lost {next : Nat} (within : next ≤ w.store.log.length) : Heard w { w with heard := next, stage := .listing }

theorem heard_of_feed (feed : Feed listen) (w : Watch) : Heard w (w.hear listen) := by
  unfold Watch.hear
  generalize told : listen w.store w.heard = answer
  obtain ⟨news, next⟩ := answer
  cases news with
  | nothing =>
    obtain ⟨rfl, -⟩ := feed.nothing told
    exact .nothing
  | change c =>
    obtain ⟨rfl, there⟩ := feed.change told
    cases concerns : c.trialKey? with
    | none => simpa [concerns] using Heard.aside there concerns
    | some key => simpa [concerns] using Heard.request there concerns
  | lost => exact .lost (feed.lost told).2

theorem within_of_next {c : Change} (next : w.store.log.reverse[w.heard]? = some c) :
    w.heard + 1 ≤ w.store.log.length := by
  have within : w.heard < w.store.log.reverse.length := (List.getElem?_eq_some_iff.mp next).1
  rwa [List.length_reverse] at within

theorem Sound.step (sound : Sound w) (feed : Feed listen) (step : Step listen settings w moments v) : Sound v := by
  obtain ⟨ordered, keyed, within⟩ := sound
  cases step with
  | write change =>
    refine ⟨ordered, keyed.after change, ?_⟩
    rcases w.store.log_after change with same | ⟨c, more⟩
    · simpa [same] using within
    · simp only [more, List.length_cons]
      omega
  | subscribe fresh => exact ⟨ordered, keyed, Nat.le_refl _⟩
  | list due => exact ⟨ordered, keyed, within⟩
  | @ask key rest next => exact ⟨ordered.request key, keyed, within⟩
  | serve all => exact ⟨ordered, keyed, within⟩
  | hear serves =>
    have heard := heard_of_feed feed w
    generalize w.hear listen = v at heard ⊢
    cases heard with
    | nothing => exact ⟨ordered, keyed, within⟩
    | aside next unrelated => exact ⟨ordered, keyed, within_of_next next⟩
    | @request c key next concerns => exact ⟨ordered.request key, keyed, within_of_next next⟩
    | lost within => exact ⟨ordered, keyed, within⟩
  | dispatch step serves => exact ⟨ordered.step step, keyed, within⟩
  | leave serves => exact ⟨ordered, keyed, within⟩

theorem Run.sound (run : Run listen settings h w) (feed : Feed listen) : Sound w := by
  induction run with
  | empty =>
    refine ⟨Dispatch.orderly_empty, fun key t there => ?_, Nat.le_refl _⟩
    cases there
  | step run step ih => exact ih.step feed step

theorem unheard_of_next {c : Change} (next : w.store.log.reverse[w.heard]? = some c) :
    w.unheard = w.store.log.take (w.store.log.length - (w.heard + 1)) ++ [c] := by
  have within := within_of_next next
  have count : w.store.log.length - w.heard = w.store.log.length - (w.heard + 1) + 1 := by omega
  have place : w.store.log.length - (w.heard + 1) = w.store.log.length - 1 - w.heard := by omega
  rw [List.getElem?_reverse (by omega), ← place] at next
  rw [unheard, count, List.take_add_one, next]
  rfl

theorem unheard_write (within : w.heard ≤ w.store.log.length) (change : Store.Write) :
    ({ w with store := w.store.after change } : Watch).unheard =
      reported w.store (w.store.after change) ++ w.unheard := by
  rcases w.store.log_after change with same | ⟨c, more⟩
  · simp [unheard, reported, same]
  · have count : (w.store.log.length + 1) - w.heard = w.store.log.length - w.heard + 1 := by omega
    simp [unheard, reported, more, count]

theorem wanted_sent {changes : List Change} : Wanted key (changes.map .sent ++ h) ↔
    (∃ c ∈ changes, c.trialKey? = some key) ∨ Wanted key h := by
  induction changes with
  | nil => simp
  | cons c changes ih =>
    simp only [List.map_cons, List.cons_append, Wanted, ih, List.mem_cons, exists_eq_or_imp, or_assoc]

/-! ## What is pending -/

theorem Pending.carry (pending : Pending w key) (stage : v.stage = w.stage)
    (told : ∀ c ∈ w.unheard, c.trialKey? = some key → c ∈ v.unheard ∨ v.dispatch.Covered key)
    (covered : w.dispatch.Covered key → v.dispatch.Covered key) : Pending v key := by
  cases pending with
  | listing due => exact .listing (stage.trans due)
  | asking here mem => exact .asking (stage.trans here) mem
  | unheard mem concerns =>
    rcases told _ mem concerns with mem | now
    · exact .unheard mem concerns
    · exact .covered now
  | covered before => exact .covered (covered before)

theorem Pending.hear (pending : Pending w key) (sound : Sound w) (feed : Feed listen) :
    Pending (w.hear listen) key := by
  have heard := heard_of_feed feed w
  generalize w.hear listen = v at heard ⊢
  cases heard with
  | nothing => exact pending
  | lost within => exact .listing rfl
  | @aside c next unrelated =>
    refine pending.carry rfl (fun d mem concerns => ?_) id
    rw [unheard_of_next next] at mem
    rcases List.mem_append.mp mem with mem | mem
    · exact .inl mem
    · obtain rfl := List.mem_singleton.mp mem
      rw [unrelated] at concerns
      cases concerns
  | @request c l next concerned =>
    refine pending.carry rfl (fun d mem concerns => ?_) fun covered => covered.request sound.ordered l
    rw [unheard_of_next next] at mem
    rcases List.mem_append.mp mem with mem | mem
    · exact .inl mem
    · -- the change is taken in, and its trial is asked for
      obtain rfl := List.mem_singleton.mp mem
      obtain rfl : key = l := Option.some.inj (concerns.symm.trans concerned)
      exact .inr (sound.ordered.covered_request key)

theorem Pending.step (pending : Pending w key) (sound : Sound w) (feed : Feed listen)
    (step : Step listen settings w moments v) (stored : v.store.trials.get? key ≠ none)
    (stays : v.stage ≠ .left) (other : Moment.started key ∉ moments) : Pending v key := by
  cases step with
  | write change =>
    refine pending.carry rfl (fun c mem _ => .inl ?_) id
    rw [unheard_write sound.within]
    exact List.mem_append_right _ mem
  | subscribe fresh => exact .listing rfl
  | list due walk => exact .asking rfl (Store.listed_of_stored sound.keyed stored walk)
  | @ask l rest next =>
    cases pending with
    | listing due => rw [due] at next; cases next
    | asking stage mem =>
      rw [stage] at next
      cases next
      rcases List.mem_cons.mp mem with rfl | mem
      · exact .covered (sound.ordered.covered_request key)
      · exact .asking rfl mem
    | unheard mem concerns => exact .unheard mem concerns
    | covered covered => exact .covered (covered.request sound.ordered l)
  | serve all =>
    cases pending with
    | listing due => rw [due] at all; cases all
    | asking stage mem =>
      rw [stage] at all
      cases all
      cases mem
    | unheard mem concerns => exact .unheard mem concerns
    | covered covered => exact .covered covered
  | hear serves => exact pending.hear sound feed
  | @dispatch e u step serves =>
    refine pending.carry rfl (fun c mem _ => .inl mem) fun covered => ?_
    refine covered.step sound.ordered step fun starts => other ?_
    rw [starts]
    exact List.mem_singleton.mpr rfl
  | leave serves => exact absurd rfl stays

/-! ## Runs -/

theorem hear_store (listen : Store → Nat → News × Nat) (w : Watch) : (w.hear listen).store = w.store := by
  unfold hear
  generalize listen w.store w.heard = answer
  obtain ⟨news, next⟩ := answer
  cases news <;> rfl

/-- A step by which a stored trial comes to be wanted, or a wanted one stored, leaves a change of it or has all
trials listed. -/
theorem pending_of_wanted (sound : Sound w) (step : Step listen settings w moments v)
    (subscribed : v.stage ≠ .unsubscribed) (stored : v.store.trials.get? key ≠ none)
    (wanted : Wanted key (moments ++ h)) :
    Pending v key ∨ w.stage ≠ .unsubscribed ∧ w.store.trials.get? key ≠ none ∧ Wanted key h ∧
      Moment.started key ∉ moments := by
  cases step with
  | write change =>
    by_cases absent : w.store.trials.get? key = none
    · have told := Store.reported_of_created absent stored
      refine .inl (.unheard (c := .trial key) ?_ rfl)
      rw [unheard_write sound.within]
      simp [reported, told]
    · rcases wanted_sent.mp wanted with ⟨c, mem, concerns⟩ | wanted
      · refine .inl (.unheard ?_ concerns)
        rw [unheard_write sound.within]
        exact List.mem_append_left _ mem
      · exact .inr ⟨subscribed, absent, wanted, by simp⟩
  | subscribe fresh => exact .inl (.listing rfl)
  | list due walk => exact .inl (.asking rfl (Store.listed_of_stored sound.keyed stored walk))
  | ask next => exact .inr ⟨by rw [next]; nofun, stored, wanted, nofun⟩
  | serve all => exact .inr ⟨by rw [all]; nofun, stored, wanted, nofun⟩
  | hear serves => exact .inr ⟨by rw [serves]; nofun, hear_store listen w ▸ stored, wanted, nofun⟩
  | @dispatch e u step serves =>
    cases e with
    | start l =>
      refine .inr ⟨subscribed, stored, wanted.2, fun mem => wanted.1 ?_⟩
      exact (Moment.started.inj (List.mem_singleton.mp mem)).symm
    | _ => exact .inr ⟨subscribed, stored, wanted, nofun⟩
  | leave serves => exact .inr ⟨by rw [serves]; nofun, stored, wanted, nofun⟩

theorem Step.left (step : Step listen settings w moments v) (left : w.stage = .left) : v.stage = .left := by
  cases step with
  | write change => exact left
  | dispatch step serves => exact left
  | subscribe fresh => rw [fresh] at left; cases left
  | list due => rw [due] at left; cases left
  | ask next => rw [next] at left; cases left
  | serve all => rw [all] at left; cases left
  | hear serves => rw [serves] at left; cases left
  | leave serves => rfl

theorem Run.pending (run : Run listen settings h w) (feed : Feed listen) (subscribed : w.stage ≠ .unsubscribed)
    (stays : w.stage ≠ .left) (stored : w.store.trials.get? key ≠ none) (wanted : Wanted key h) : Pending w key := by
  induction run with
  | empty => exact wanted.elim
  | @step h moments w v run step ih =>
    have sound := run.sound feed
    rcases pending_of_wanted sound step subscribed stored wanted with pending | ⟨before, present, wanted, other⟩
    · exact pending
    · have stayed : w.stage ≠ .left := fun left => stays (step.left left)
      exact (ih before stayed present wanted).step sound feed step stored stays other

/-- Whatever writes to the store and whatever comes in between, and with every feed that gives the changes in
their order or tells that some are lost: from the subscription until the loop leaves, a stored trial that is
wanted is awaited. The trials are still to be listed or its pass is still to be asked for, at the start or
after a loss; or a change that concerns it is kept for the loop, or the loop will be told of a loss; or the
trial is queued, or its pass is marked, or a delayed request of it stands out. -/
theorem wanted_is_awaited (run : Run listen settings h w) (feed : Feed listen) (subscribed : w.stage ≠ .unsubscribed)
    (stays : w.stage ≠ .left) (stored : w.store.trials.get? key ≠ none) (wanted : Wanted key h) :
    Awaited listen w key :=
  (run.pending feed subscribed stays stored wanted).awaited listen

/-- A trial that was stored before the loop subscribed is changed while its pass is running. -/
theorem change_during_pass_is_awaited :
    let key : ObjectKey := ⟨"ns", "t1"⟩
    let s := Store.empty.after (.createTrial (.named "ns" "t1"))
    let changed := s.after (.markDeleted key default)
    let started := (Dispatch.empty.request key).receive.start key
    let w : Watch := ⟨changed, started.request key, .serving, 2⟩
    let h : List Moment := [.sent (.trial key), .started key, .subscribed s, .sent (.trial key)]
    Run Store.listen .standard h w ∧ Wanted key h ∧ w.dispatch.state? key = some (.running true) ∧
      Awaited Store.listen w key := by
  intro key s changed started w h
  have created : reported .empty s = [.trial key] := by decide +kernel
  have listed : s.listTrials.map (·.key) = [key] := by decide +kernel
  have marked : reported s changed = [.trial key] := by decide +kernel
  have taken : (⟨changed, started, .serving, 1⟩ : Watch).hear Store.listen = w := by decide +kernel
  have asking : Run Store.listen .standard [.subscribed s, .sent (.trial key)] ⟨s, .empty, .asking [key], 1⟩ := by
    have fresh : Run Store.listen .standard ([.trial key].map .sent) ⟨s, .empty, .unsubscribed, 0⟩ :=
      created ▸ .step .empty (.write (.createTrial (.named "ns" "t1")))
    have subscribed := (fresh.step (.subscribe rfl)).step (.list rfl s.trials.inOrder)
    simp only [listed] at subscribed
    exact subscribed
  have serving : Run Store.listen .standard [.started key, .subscribed s, .sent (.trial key)]
      ⟨s, started, .serving, 1⟩ := by
    have asked := (asking.step (.ask rfl)).step (.serve rfl)
    have next : (Dispatch.empty.request key).queue.channel.head? = some key := by decide +kernel
    have received := asked.step (.dispatch (.receive next) fun _ => rfl)
    exact received.step (.dispatch (.start (by decide +kernel)) fun _ => rfl)
  have run : Run Store.listen .standard h w := by
    have written := serving.step (.write (.markDeleted key default))
    rw [marked] at written
    exact taken ▸ written.step (.hear rfl)
  have wanted : Wanted key h := .inl rfl
  have awaited : Awaited Store.listen w key :=
    wanted_is_awaited run Store.listen_feed nofun nofun (by decide +kernel) wanted
  exact ⟨run, wanted, by decide +kernel, awaited⟩

end Watch

end TrialControl
