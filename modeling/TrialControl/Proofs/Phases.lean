import TrialControl.Proofs.Budgets
import TrialControl.Proofs.Touches

/-!
# Phases go forward

The phase of a trial follows from its conditions, its times and the patches that wait. It goes forward
because times are not lost, a finished trial is left alone, and Stable is taken back only while patches
wait, when it is not true yet.
-/

namespace TrialControl

open Store (Write)

/-! ## The order of phases -/

namespace Phase

/-- How far a phase is along. A trial ends in one of the two last phases. -/
def stage : Phase → Nat
  | .new => 0
  | .stabilizing => 1
  | .stable => 2
  | .running => 3
  | .observing => 4
  | .failed | .completed => 5

def Leads (p q : Phase) : Prop := p = q ∨ p.stage < q.stage

instance : DecidableRel Leads := fun p q => inferInstanceAs (Decidable (p = q ∨ p.stage < q.stage))

variable {p q r : Phase}

theorem Leads.refl (p : Phase) : p.Leads p := .inl rfl

theorem Leads.trans (first : p.Leads q) (second : q.Leads r) : p.Leads r := by
  rcases first with rfl | first
  · exact second
  · rcases second with rfl | second
    · exact .inr first
    · exact .inr (Nat.lt_trans first second)

theorem stage_le_five (p : Phase) : p.stage ≤ 5 := by
  cases p <;> decide

theorem Leads.last (leads : p.Leads q) (last : p = .failed ∨ p = .completed) : q = p := by
  rcases leads with same | further
  · exact same.symm
  · have bound := q.stage_le_five
    rcases last with rfl | rfl
    · exact absurd further (Nat.not_lt_of_le bound)
    · exact absurd further (Nat.not_lt_of_le bound)

def between (ended started stable : Bool) : Phase :=
  if ended then .observing else if started then .running else if stable then .stable else .stabilizing

theorem between_stage (ended started stable : Bool) : (between ended started stable).stage < 5 := by
  revert ended started stable
  decide

theorem between_leads : ∀ {e s h e' s' h' : Bool}, (e = true → e' = true) → (s = true → s' = true) →
    (h = true → h' = true) → (between e s h).Leads (between e' s' h') := by
  decide

end Phase

/-! ## The phase of a trial -/

namespace Trial

variable {t u : Trial}

theorem phase_congr (conditions : u.status.conditions = t.status.conditions)
    (start : u.status.startTime = t.status.startTime) (finish : u.status.completionTime = t.status.completionTime)
    (waits : u.hasWaitingPatches = t.hasWaitingPatches) : u.phase = t.phase := by
  unfold phase
  rw [conditions, start, finish, waits]

theorem phase_of_failed (failed : t.status.conditions.holds .failed .true = true) : t.phase = .failed := by
  unfold phase
  exact if_pos failed

theorem phase_of_complete (unfailed : t.status.conditions.holds .failed .true = false)
    (complete : t.status.conditions.holds .complete .true = true) : t.phase = .completed := by
  simp [phase, unfailed, complete]

theorem phase_of_unfinished (unfailed : t.status.conditions.holds .failed .true = false)
    (incomplete : t.status.conditions.holds .complete .true = false)
    (known : (t.status.conditions.find? .stable).isSome = true) :
    t.phase = .between t.status.completionTime.isSome t.status.startTime.isSome
      (t.status.conditions.holds .stable .true) := by
  simp [phase, Phase.between, unfailed, incomplete, known]

theorem phase_ne_new (known : (t.status.conditions.find? .stable).isSome = true) : t.phase ≠ .new := by
  unfold phase
  simp only [known, Bool.or_true, if_true]
  split_ifs <;> decide

theorem phase_leads (live : t.isLive = true) (known : (t.status.conditions.find? .stable).isSome = true)
    (known' : (u.status.conditions.find? .stable).isSome = true) (narrows : t.status.Narrows u.status)
    (stable : t.status.conditions.holds .stable .true = true → u.status.conditions.holds .stable .true = true) :
    t.phase.Leads u.phase := by
  obtain ⟨incomplete, unfailed⟩ := t.unfinished_of_live live
  rw [phase_of_unfinished unfailed incomplete known]
  cases failed : u.status.conditions.holds .failed .true with
  | true =>
    rw [phase_of_failed failed]
    exact .inr (Phase.between_stage ..)
  | false =>
    cases complete : u.status.conditions.holds .complete .true with
    | true =>
      rw [phase_of_complete failed complete]
      exact .inr (Phase.between_stage ..)
    | false =>
      rw [phase_of_unfinished failed complete known']
      refine Phase.between_leads (fun ended => ?_) (fun started => ?_) stable
      · obtain ⟨x, there⟩ := Option.isSome_iff_exists.mp ended
        obtain ⟨y, kept, -⟩ := narrows.finish x there
        rw [kept]
        rfl
      · obtain ⟨x, there⟩ := Option.isSome_iff_exists.mp started
        obtain ⟨y, kept, -⟩ := narrows.start x there
        rw [kept]
        rfl

/-- The text of the phase is up to date, Stable is known, and while it is true no patch waits. -/
structure Phased (t : Trial) : Prop where
  text : t.status.phase = t.phase.text
  known : (t.status.conditions.find? .stable).isSome = true
  settled : t.status.conditions.holds .stable .true = true → t.hasWaitingPatches = false

theorem holds_awaiting_stable (messages : List String) (now : Instant)
    (stable : (t.awaiting messages now).status.conditions.holds .stable .true = true) :
    t.status.conditions.holds .stable .true = true := by
  induction messages generalizing t with
  | nil => exact stable
  | cons m messages ih =>
    have recorded : (t.recordWaiting m now).status.conditions.holds .stable .true = true := ih stable
    have unstable : (t.recordWaiting m now).status.conditions.holds .stable .true = false := by
      simp [recordWaiting, record, Ledger.holds_record]
    rw [unstable] at recorded
    cases recorded

theorem Touch.still (touch : t.Touch u) (still : t.hasWaitingPatches = false) : u.hasWaitingPatches = false := by
  have same (patches : u.spec.patches = t.spec.patches) : u.hasWaitingPatches = false := by
    unfold hasWaitingPatches at still ⊢
    rw [patches]
    exact still
  cases touch with
  | patch patches waits spec start finish => simp [hasWaitingPatches, patches, waits] at still
  | slot touched spec start finish => exact same (by rw [spec])
  | times spec narrows => exact same (by rw [spec])

theorem phased_of_made {d : Draft} (made : d.Made) (v : UInt64) : (d.build.withVersion v).Phased := by
  have found : (d.build.withVersion v).status.conditions.find? .stable = some ⟨.stable, .plain .unknown, d.createdAt⟩ := by
    show (d.trial.status.conditions.record .stable (.plain .unknown) d.createdAt).find? .stable = _
    rw [made.blank.2]
    rfl
  refine ⟨rfl, ?_, fun stable => ?_⟩
  · rw [found]
    rfl
  · simp [Ledger.holds, Ledger.compare?, found, Standing.plain] at stable

end Trial

namespace Part

variable {t u : Trial}

theorem phase_merge (t u : Trial) (n : UInt64) :
    (((toUpdate t.spec u).merge t u.syncPhase).withVersion n).phase = u.phase := by
  have status : (((toUpdate t.spec u).merge t u.syncPhase).withVersion n).status = u.syncPhase.status :=
    status_merge ..
  refine Trial.phase_congr ?_ ?_ ?_ (waits_merge t u n)
  · exact (congrArg TrialStatus.conditions status).trans rfl
  · exact (congrArg TrialStatus.startTime status).trans rfl
  · exact (congrArg TrialStatus.completionTime status).trans rfl

end Part

/-! ## Transitions -/

namespace Pass

variable {settings : Settings} {now : Instant} {t u : Trial} {asked : Transcript} {action : Action}

theorem Transition.stable (made : Transition settings now t asked u action) :
    t.hasWaitingPatches = true ∧ (u.status.conditions.holds .stable .true = true →
        t.status.conditions.holds .stable .true = true) ∨
      t.hasWaitingPatches = false ∧ (t.status.conditions.holds .stable .true = true →
        u.status.conditions.holds .stable .true = true) := by
  have beside {t : Trial} {kind : ConditionKind} (standing : Standing) (other : kind ≠ .stable) :
      (t.record kind standing now).status.conditions.holds .stable .true = t.status.conditions.holds .stable .true :=
    Ledger.holds_congr (Ledger.find?_record_of_ne kind standing now _ (Ne.symm other)) .true
  cases made with
  | settle early patches waits probed =>
    left
    refine ⟨by simp [Trial.hasWaitingPatches, patches, waits], fun stable => ?_⟩
    simp [Trial.recordSettled, Trial.record, Ledger.holds_record, Standing.plain] at stable
  | @failWaiting p e early waits probed final =>
    left
    refine ⟨waits, fun stable => ?_⟩
    have scanned : (t.awaiting asked.messages now).status.conditions.holds .stable .true = true := by
      rw [← stable]
      exact (beside _ (by decide)).symm
    exact Trial.holds_awaiting_stable _ _ scanned
  | wait early waits longest => exact .inl ⟨waits, Trial.holds_awaiting_stable _ _⟩
  | stabilize early still unstable =>
    right
    refine ⟨still, fun _ => ?_⟩
    simp [Trial.record, Ledger.holds_record, Standing.plain]
  | @absorb w units b failures early ready shown view changed =>
    right
    refine ⟨ready.still, fun stable => ?_⟩
    rw [absorb_eq]
    cases failures with
    | nil => exact stable
    | cons f rest => exact (beside _ (by decide)).trans stable
  | observe looked idle ready ended declared unobserved =>
    exact .inr ⟨ready.still, fun stable => (beside _ (by decide)).trans stable⟩
  | capture looked attempted ready ended observed next finite =>
    exact .inr ⟨ready.still, fun stable => (beside _ (by decide)).trans stable⟩
  | miss looked attempted final ready ended observed next =>
    right
    refine ⟨ready.still, fun stable => ?_⟩
    rw [Trial.recordMissed_eq]
    split
    · exact (beside _ (by decide)).trans stable
    · exact (beside _ (by decide)).trans stable
  | complete looked idle ready ended observed none_next =>
    right
    refine ⟨ready.still, fun stable => ?_⟩
    unfold Trial.recordComplete
    dsimp only
    split
    · exact (beside _ (by decide)).trans ((beside _ (by decide)).trans stable)
    · exact (beside _ (by decide)).trans stable

theorem Transition.known (made : Transition settings now t asked u action)
    (known : (t.status.conditions.find? .stable).isSome = true) :
    (u.status.conditions.find? .stable).isSome = true := by
  obtain ⟨c, found⟩ := Option.isSome_iff_exists.mp known
  obtain ⟨ms, last, said, recorded⟩ := made.recorded found
  rw [recorded]
  rfl

/-- What is stored after a transition of a live trial: its text is up to date, and its phase has not gone
back. -/
theorem Transition.phased (made : Transition settings now t asked u action) (live : t.isLive = true)
    (phased : t.Phased) (n : UInt64) :
    (((Part.toUpdate t.spec u).merge t u.syncPhase).withVersion n).Phased ∧
      t.phase.Leads (((Part.toUpdate t.spec u).merge t u.syncPhase).withVersion n).phase := by
  have known := made.known phased.known
  have conditions : (((Part.toUpdate t.spec u).merge t u.syncPhase).withVersion n).status.conditions =
      u.status.conditions := Part.conditions_merge t u _
  have text : (((Part.toUpdate t.spec u).merge t u.syncPhase).withVersion n).status.phase = u.phase.text :=
    congrArg TrialStatus.phase (Part.status_merge ..)
  rw [Part.phase_merge]
  refine ⟨⟨text.trans (congrArg Phase.text (Part.phase_merge t u n).symm), by rwa [conditions], fun stable => ?_⟩, ?_⟩
  · rw [conditions] at stable
    rw [Part.waits_merge]
    rcases made.stable with ⟨waits, kept⟩ | ⟨still, kept⟩
    · -- Stable was not true while patches waited, so it is not true now
      exact Bool.noConfusion (waits.symm.trans (phased.settled (kept stable)))
    · exact made.touch.still still
  · refine Trial.phase_leads live phased.known known made.touch.narrows fun stable => ?_
    rcases made.stable with ⟨waits, kept⟩ | ⟨still, kept⟩
    · exact Bool.noConfusion (waits.symm.trans (phased.settled stable))
    · exact kept stable

end Pass

/-! ## Histories -/

namespace Chronicle

open Pass
open Rehearsal (Play)

variable {key : ObjectKey} {c d : Chronicle} {s : Store} {start t : Trial} {m n : Nat}

/-- A write that leaves the trial alone, or marks it as deleted. -/
def Deletes (key : ObjectKey) (s : Store) (w : Write) : Prop := Spares key s w ∨ ∃ at_, w = .markDeleted key at_

def past (c : Chronicle) (start : Trial) : List Trial := c.history.map (·.stored) ++ [start]

/-- The stored trial is the last of a series whose phases go forward. -/
structure Forward (start : Trial) (key : ObjectKey) (c : Chronicle) (t : Trial) : Prop where
  stored : c.store.trials.get? key = some t
  latest : (c.past start).head? = some t
  phased : ∀ x ∈ c.past start, x.Phased
  ordered : (c.past start).Pairwise fun later earlier => earlier.phase.Leads later.phase

theorem Forward.next {u : Trial} {author : Author} (forward : Forward start key c t)
    (stored : d.store.trials.get? key = some u) (noted : d.history = ⟨author, u⟩ :: c.history) (phased : u.Phased)
    (leads : t.phase.Leads u.phase) : Forward start key d u := by
  have past : d.past start = u :: c.past start := by
    unfold Chronicle.past
    rw [noted]
    rfl
  obtain ⟨before, split⟩ := List.head?_eq_some_iff.mp forward.latest
  have ordered := forward.ordered
  refine ⟨stored, by rw [past]; rfl, ?_, ?_⟩
  · rw [past]
    exact List.forall_mem_cons.mpr ⟨phased, forward.phased⟩
  · rw [past, List.pairwise_cons]
    refine ⟨fun x mem => ?_, ordered⟩
    rw [split] at mem ordered
    rcases List.mem_cons.mp mem with rfl | mem
    · exact leads
    · exact ((List.pairwise_cons.mp ordered).1 x mem).trans leads

theorem Forward.same (forward : Forward start key c t) (same : d.store.trials.get? key = c.store.trials.get? key)
    (silent : d.history = c.history) : Forward start key d t := by
  have past : d.past start = c.past start := by
    unfold Chronicle.past
    rw [silent]
  refine ⟨same.trans forward.stored, ?_, ?_, ?_⟩
  · rw [past]
    exact forward.latest
  · rw [past]
    exact forward.phased
  · rw [past]
    exact forward.ordered

theorem Forward.delete (forward : Forward start key c t) (keyed : c.store.Keyed) (at_ : Instant) {passes : List Journey} :
    ∃ u, Forward start key
      ⟨c.store.after (.markDeleted key at_), passes,
        c.noted key (.work (.markDeleted key at_)) (c.store.after (.markDeleted key at_))⟩ u := by
  let u := { t with metadata.deletedAt := some at_ }.withVersion (c.store.version + 1)
  have here : { t with metadata.deletedAt := some at_ }.key = key := keyed key t forward.stored
  have stored : (c.store.after (.markDeleted key at_)).trials.get? key = some u := by
    simp only [Store.after, Store.write, Store.markDeleted_eq, forward.stored]
    show (c.store.trials.insert { t with metadata.deletedAt := some at_ }.key _).get? key = _
    rw [here, Table.get?_insert_self]
    rfl
  by_cases same : c.store.trials.get? key = some u
  · exact ⟨t, forward.same (stored.trans same.symm) (noted_of_same (stored.trans same.symm))⟩
  · have phased := forward.phased t (List.mem_of_head? forward.latest)
    exact ⟨u, forward.next stored (noted_of_new stored same) ⟨phased.text, phased.known, phased.settled⟩ (.refl _)⟩

theorem Forward.step (forward : Forward start key c t) (sound : c.Sound key) (step : Step key (Deletes key) c d)
    (fits : c.store.version.toNat + c.store.given d.store < UInt64.size) : ∃ u, Forward start key d u := by
  have progress (progress : Progress key c d) : ∃ u, Forward start key d u := by
    cases progress with
    | none same silent => exact ⟨t, forward.same same silent⟩
    | @transition settings now asked x v u action there live read reached made computed stored noted =>
      rw [forward.stored] at there
      cases there
      have phased := forward.phased t (List.mem_of_head? forward.latest)
      obtain ⟨after, leads⟩ := made.phased live phased (c.store.version + 1)
      rw [← computed] at after leads
      exact ⟨u, forward.next stored noted after leads⟩
  cases step with
  | pass step => exact progress (sound.progress step fits)
  | work allowed =>
    rcases allowed with spares | ⟨at_, rfl⟩
    · exact progress (.none spares (noted_of_same spares))
    · exact forward.delete sound.keyed at_

theorem Run.forward (run : Run key (Deletes key) c n d) (sound : c.Sound key)
    (fits : c.store.version.toNat + n < UInt64.size) (forward : Forward start key c t) :
    ∃ u, Forward start key d u := by
  induction run with
  | start => exact ⟨t, forward⟩
  | @step n d e run step ih =>
    obtain ⟨before, version⟩ := run.sound sound (by omega)
    obtain ⟨u, forward⟩ := ih (by omega)
    exact forward.step before step (by omega)

/-- From a new trial that only passes and a deletion write, in any order with other work: every trial that was
stored bears the text of its phase, which is never the phase of a trial without conditions, and phases go
forward from each stored trial to all later ones. -/
theorem phases_go_forward {draft : Draft} {v : UInt64} (made : draft.Made) (built : s.Built m)
    (drafted : s.trials.get? key = some (draft.build.withVersion v))
    (run : Run key (Deletes key) ⟨s, [], []⟩ n c) (fits : m + n < UInt64.size) :
    c.store.trials.get? key = (c.past (draft.build.withVersion v)).head? ∧
      (∀ x ∈ c.past (draft.build.withVersion v), x.status.phase = x.phase.text ∧ x.phase ≠ .new) ∧
      (c.past (draft.build.withVersion v)).Pairwise fun later earlier =>
        earlier.phase.Leads later.phase ∧
          (earlier.phase = .failed ∨ earlier.phase = .completed → later.phase = earlier.phase) := by
  have version := built.version (by omega)
  have phased := Trial.phased_of_made made v
  have start : Forward (draft.build.withVersion v) key ⟨s, [], []⟩ (draft.build.withVersion v) :=
    ⟨drafted, rfl, List.forall_mem_singleton.mpr phased, List.pairwise_singleton _ _⟩
  obtain ⟨t, forward⟩ := run.forward (sound_of_built built (by omega) key) (by simp only [version]; omega) start
  refine ⟨forward.stored.trans forward.latest.symm, fun x mem => ?_, ?_⟩
  · have phased := forward.phased x mem
    exact ⟨phased.text, Trial.phase_ne_new phased.known⟩
  · refine forward.ordered.imp fun leads => ⟨leads, leads.last⟩

/-- A trial of one metric, from its draft to its end. -/
theorem trial_goes_through_phases :
    let key : ObjectKey := ⟨"ns", "t1"⟩
    let start := ((Draft.named "ns" "t1" default).experiment "e1").build.withVersion 1
    let p := Play.start (setting (.named "m" .computed))
    let c := (p.passing key .standard ([0, 5, 6, 7, 8, 9].map fun n => shifted default (some (.ofSeconds n)))).chronicle
    (∃ m n, p.chronicle.store.Built m ∧ Run key (Deletes key) p.chronicle n c ∧ m + n < UInt64.size) ∧
      (c.past start).map (·.phase) = [.completed, .observing, .observing, .observing, .stable, .stabilizing] ∧
      (c.past start).Pairwise (fun later earlier => earlier.phase.Leads later.phase) ∧
      ∀ x ∈ c.past start, x.status.phase = x.phase.text := by
  intro key start p c
  have reached : ∃ m n, p.chronicle.store.Built m ∧ Run key (Deletes key) p.chronicle n c ∧ m + n < UInt64.size :=
    Play.reached_of_start .standard (setting (.named "m" .computed))
      ([0, 5, 6, 7, 8, 9].map fun n => shifted default (some (.ofSeconds n))) (by decide +kernel)
  have ⟨m, n, built, run, fits⟩ := reached
  have made : ((Draft.named "ns" "t1" default).experiment "e1").Made := .experiment (.named "ns" "t1" default) "e1"
  have drafted : p.chronicle.store.trials.get? key = some start := by decide +kernel
  obtain ⟨-, texts, ordered⟩ := phases_go_forward made built drafted run fits
  refine ⟨reached, by decide +kernel, ordered.imp (·.1), fun x mem => (texts x mem).1⟩

end Chronicle

end TrialControl
