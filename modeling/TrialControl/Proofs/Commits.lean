import TrialControl.Proofs.StoreSound
import TrialControl.Proofs.Transitions

/-!
# Commits change the trial

The store is silent about a replacement by the same content. A pass that waits for nothing after its
commit relies on being woken by it, so every transition that ends a pass for good leads to another
trial: to another condition, another time, another flag of a patch or another slot of a value.
-/

namespace TrialControl

/-! ## Slots -/

namespace Value

theorem find?_update (name other : String) {f : Value → Value} (named : ∀ v, (f v).name = v.name) (vs : List Value) :
    (update name f vs).find? (·.name == other) =
      if other = name then some (f (slot name vs)) else vs.find? (·.name == other) := by
  induction vs with
  | nil =>
    by_cases h : other = name
    · simp [update, slot, named, fresh, h]
    · simp [update, named, fresh, h, Ne.symm h]
  | cons v vs ih =>
    unfold update
    by_cases hv : v.name = name
    · by_cases h : other = name
      · simp [slot, named, hv, h]
      · simp [named, hv, h, Ne.symm h]
    · by_cases h : v.name = other
      · simp [← h, hv]
      · have same : slot name (v :: vs) = slot name vs := by simp [slot, hv]
        simp [hv, h, ih, same]

theorem slot_update (name : String) {f : Value → Value} (named : ∀ v, (f v).name = v.name) (vs : List Value) :
    slot name (update name f vs) = f (slot name vs) := by
  simp [slot, find?_update name name named]

theorem update_update (name : String) (f : Value → Value) (vs : List Value) :
    update name f (update name id vs) = update name f vs := by
  induction vs with
  | nil => simp [update, fresh]
  | cons v vs ih => by_cases h : v.name = name <;> simp [update, h, ih]

theorem update_ne (name : String) {f : Value → Value} (named : ∀ v, (f v).name = v.name) {vs : List Value}
    (h : (f (slot name vs)).attempts ≠ (slot name vs).attempts) : update name f vs ≠ vs := by
  intro same
  have kept := slot_update name named vs
  rw [same] at kept
  exact h (congrArg attempts kept).symm

theorem settle_attempts_ne {v : Value} (c : Captured) (h : v.isResolved = false) :
    (v.settle c).attempts ≠ v.attempts := by
  intro same
  simp [isResolved, ← same, settle] at h

theorem spend_attempts {v : Value} (h : v.isResolved = false) : v.spend.attempts.toNat + 1 = v.attempts.toNat := by
  have left : v.attempts ≠ 0 := by simpa [isResolved] using h
  have positive : 1 ≤ v.attempts.toNat := Nat.one_le_iff_ne_zero.mpr fun h => left (UInt32.toNat_inj.mp h)
  have less : (v.attempts - 1).toNat = v.attempts.toNat - 1 :=
    UInt32.toNat_sub_of_le _ _ (UInt32.le_iff_toNat_le.mpr positive)
  simp only [spend, if_neg left]
  omega

theorem spend_le (v : Value) : v.spend.attempts.toNat ≤ v.attempts.toNat := by
  cases h : v.isResolved with
  | false => exact Nat.le_of_lt (Nat.lt_of_succ_le (Nat.le_of_eq (spend_attempts h)))
  | true =>
    have spent : v.attempts = 0 := by simpa [isResolved] using h
    simp [spend, spent]

theorem spend_attempts_ne {v : Value} (h : v.isResolved = false) : v.spend.attempts ≠ v.attempts := by
  intro same
  have spent := spend_attempts h
  rw [same] at spent
  omega

end Value

theorem Trial.nextMetric?_unresolved {t : Trial} {metrics : List Metric} {m : Metric}
    (next : t.nextMetric? metrics = some m) : (Value.slot m.name t.spec.values).isResolved = false := by
  simpa [nextMetric?] using List.find?_some next

theorem Trial.recordMissed_eq (t : Trial) (name message : String) (now : Instant) :
    (t.updateValue name id).recordMissed name message now =
      if (Value.slot name t.spec.values).spend.isResolved then
        (t.updateValue name Value.spend).record .failed ⟨.true, "MetricFailed", message⟩ now
      else (t.updateValue name Value.spend).record .observed (.plain .false) now := by
  have spent := Value.slot_update (f := Value.spend) name (fun _ => rfl) t.spec.values
  simp only [recordMissed, updateValue, Value.update_update, spent]

/-! ## Content -/

theorem Patch.alikeAll_waits {ps qs : List Patch} (h : Patch.alikeAll ps qs = true) :
    ps.map (·.waits) = qs.map (·.waits) := by
  induction ps generalizing qs with
  | nil =>
    cases qs with
    | nil => rfl
    | cons q qs => cases h
  | cons p ps ih =>
    cases qs with
    | nil => cases h
    | cons q qs =>
      simp only [alikeAll, alike, Bool.and_eq_true, decide_eq_true_eq] at h
      rw [List.map_cons, List.map_cons, h.1.2, ih h.2]

theorem TrialSpec.alike_marks {s t : TrialSpec} (h : s.alike t = true) :
    s.patches.map (·.waits) = t.patches.map (·.waits) ∧ s.values = t.values := by
  simp only [alike, Bool.and_eq_true, decide_eq_true_eq] at h
  exact ⟨Patch.alikeAll_waits h.1, congrArg (·.values) h.2⟩

namespace Part

variable {t u : Trial}

theorem agrees_of_status (part : Part) (h : t.status ≠ u.status) : part.agrees t u = false := by
  cases part <;> simp [agrees, h]

/-- Where the flags or the values differ, the whole trial is replaced, by another one. -/
theorem agrees_of_marks
    (h : u.spec.patches.map (·.waits) ≠ t.spec.patches.map (·.waits) ∨ u.spec.values ≠ t.spec.values) :
    (toUpdate t.spec u).agrees t u.syncPhase = false := by
  have unlike : u.spec.alike t.spec = false := by
    rw [Bool.eq_false_iff]
    intro alike
    exact h.elim (· (TrialSpec.alike_marks alike).1) (· (TrialSpec.alike_marks alike).2)
  have unlike' : t.spec.alike u.spec = false := by
    rw [Bool.eq_false_iff]
    intro alike
    exact h.elim (· (TrialSpec.alike_marks alike).1.symm) (· (TrialSpec.alike_marks alike).2.symm)
  have same : u.syncPhase.spec = u.spec := rfl
  simp [toUpdate, unlike, agrees, same, unlike']

theorem marks_merge (t u : Trial) :
    ((toUpdate t.spec u).merge t u.syncPhase).spec.patches.map (·.waits) = u.spec.patches.map (·.waits) ∧
      ((toUpdate t.spec u).merge t u.syncPhase).spec.values = u.spec.values := by
  unfold toUpdate
  split
  · next alike =>
    obtain ⟨waits, values⟩ := TrialSpec.alike_marks alike
    exact ⟨waits.symm, values.symm⟩
  · exact ⟨rfl, rfl⟩

theorem waits_merge (t u : Trial) (n : UInt64) :
    (((toUpdate t.spec u).merge t u.syncPhase).withVersion n).hasWaitingPatches = u.hasWaitingPatches := by
  have found := congrArg (List.any · id) (marks_merge t u).1
  simpa [Trial.hasWaitingPatches, Trial.withVersion] using found

theorem conditions_merge (t u : Trial) (part : Part) :
    (part.merge t u.syncPhase).status.conditions = u.status.conditions := by
  rw [part.status_merge]
  rfl

end Part

/-! ## Transitions -/

namespace Pass

variable {settings : Settings} {now : Instant} {t u : Trial}

theorem absorb_changed {b : Bracket} {failures : List Failure} (h : (absorb t b failures now).2 = true) :
    (absorb t b failures now).1.status.conditions ≠ t.status.conditions ∨
      (absorb t b failures now).1.status.startTime ≠ t.status.startTime ∨
      (absorb t b failures now).1.status.completionTime ≠ t.status.completionTime := by
  unfold absorb at h ⊢
  cases hf : failures.head? with
  | none =>
    simp only [hf, Bool.false_or] at h ⊢
    exact .inr (TrialStatus.absorb_changed h)
  | some f =>
    simp only [hf, Bool.or_eq_true] at h ⊢
    rcases h with h | h
    · left
      intro same
      exact (Ledger.changes_iff ..).mp h ((Ledger.record_eq_self_iff ..).mp same)
    · exact .inr (TrialStatus.absorb_changed h)

theorem agrees_of_holds {part : Part} {kind : ConditionKind} {status : Truth}
    (before : t.status.conditions.holds kind status = false) (after : u.status.conditions.holds kind status = true) :
    part.agrees t u.syncPhase = false := by
  refine part.agrees_of_status fun same => ?_
  have : u.status.conditions = t.status.conditions := (congrArg TrialStatus.conditions same).symm
  rw [this, before] at after
  cases after

theorem Transition.differs {asked : Transcript} (made : Transition settings now t asked u .done)
    (live : t.isLive = true) : (Part.toUpdate t.spec u).agrees t u.syncPhase = false := by
  obtain ⟨incomplete, unfailed⟩ := t.unfinished_of_live live
  cases made with
  | settle early patches waits probed =>
    refine Part.agrees_of_marks (.inl ?_)
    simp [Trial.recordSettled, Trial.record, patches, waits]
  | failWaiting early waits probed final =>
    refine agrees_of_holds unfailed ?_
    simp [Trial.recordWaitFailed, Trial.record, Ledger.holds_record]
  | stabilize early still unstable =>
    have before : t.status.conditions.holds .stable .true = false := by simp [Ledger.holds, unstable]
    refine agrees_of_holds before ?_
    simp [Trial.record, Ledger.holds_record, Standing.plain]
  | absorb early ready shown view changed =>
    refine Part.agrees_of_status _ fun same => ?_
    rcases absorb_changed changed with h | h | h
    · exact h (congrArg TrialStatus.conditions same).symm
    · exact h (congrArg TrialStatus.startTime same).symm
    · exact h (congrArg TrialStatus.completionTime same).symm
  | observe looked idle ready ended declared unobserved =>
    have before : t.status.conditions.holds .observed .unknown = false := by
      simp [Ledger.holds, Ledger.compare?, unobserved]
    refine agrees_of_holds before ?_
    simp [Trial.record, Ledger.holds_record, Standing.plain]
  | @capture e m c looked attempted ready ended observed next finite =>
    have unresolved := Trial.nextMetric?_unresolved next
    have settled := Value.update_ne (f := (·.settle c)) m.name (fun _ => rfl) (Value.settle_attempts_ne c unresolved)
    refine Part.agrees_of_marks (.inr ?_)
    simp only [Trial.recordCaptured, Trial.record, Trial.updateValue, Value.update_update]
    exact settled
  | @miss e m f looked attempted final ready ended observed next =>
    have unresolved := Trial.nextMetric?_unresolved next
    refine Part.agrees_of_marks (.inr ?_)
    have spent := Value.update_ne (f := Value.spend) m.name (fun _ => rfl) (Value.spend_attempts_ne unresolved)
    rw [Trial.recordMissed_eq]
    split <;> exact spent
  | complete looked idle ready ended observed none_next =>
    refine agrees_of_holds incomplete ?_
    unfold Trial.recordComplete
    dsimp only
    split <;> simp [Trial.record, Ledger.holds_record, Standing.plain]

variable {s s' : Store} {key : ObjectKey}

/-! ## Passes of a trial -/

section
variable {told : Transcript} {outcome : Outcome}

theorem proceed_of_tells (there : s.trials.get? key = some t) (live : t.isLive = true)
    (tells : (reconcile settings key now).Tells [] s told outcome s') :
    (proceed settings t now).Tells [⟨.getTrial key, .ok t⟩] s told outcome s' := by
  cases tells with
  | @ask _ _ _ _ _ s' _ r _ reply tells =>
    obtain ⟨rfl, rfl⟩ := reply
    simp only [Store.getTrial, there, if_neg (Trial.not_over_of_live live)] at tells
    exact tells

theorem reconcile_tells_iff (there : s.trials.get? key = some t) (live : t.isLive = true) :
    (reconcile settings key now).Tells [] s told outcome s' ↔
      (proceed settings t now).Tells [⟨.getTrial key, .ok t⟩] s told outcome s' := by
  refine ⟨proceed_of_tells there live, fun tells => ?_⟩
  have reply : s.Replies (.getTrial key) (.ok t) s := ⟨(Store.getTrial_eq_ok.mpr there).symm, rfl⟩
  refine .ask reply ?_
  dsimp only
  rwa [if_neg (Trial.not_over_of_live live)]

theorem closed_or_proceeds (tells : (reconcile settings key now).Tells [] s told outcome s') :
    (s' = s ∧ outcome = .ok .done ∧ ∀ t, s.trials.get? key = some t → t.isLive = false) ∨
      ∃ t, s.trials.get? key = some t ∧ t.isLive = true ∧
        (proceed settings t now).Tells [⟨.getTrial key, .ok t⟩] s told outcome s' := by
  cases there : s.trials.get? key with
  | none =>
    left
    cases tells with
    | ask reply tells =>
      obtain ⟨rfl, rfl⟩ := reply
      simp only [Store.getTrial, there] at tells
      obtain ⟨-, result, same⟩ := Plan.tells_done.mp tells
      exact ⟨same, result, fun t found => by cases found⟩
  | some t =>
    cases live : t.isLive with
    | true => exact .inr ⟨t, rfl, live, proceed_of_tells there live tells⟩
    | false =>
      left
      cases tells with
      | ask reply tells =>
        obtain ⟨rfl, rfl⟩ := reply
        have shut : (t.isFinished || t.metadata.isDeleted) = true := by
          rwa [Trial.isLive_eq, Bool.not_eq_false'] at live
        simp only [Store.getTrial, there, if_pos shut] at tells
        obtain ⟨-, result, same⟩ := Plan.tells_done.mp tells
        exact ⟨same, result, fun u found => Option.some.inj found ▸ live⟩

end

/-! ## Writes -/

/-- Between two stores one change was reported, which concerns a trial. -/
def Woken (key : ObjectKey) (s s' : Store) : Prop :=
  ∃ change : Change, s'.log = change :: s.log ∧ change.trialKey? = some key

theorem commit_wakes {asked : Transcript} {action : Action} (keyed : s.Keyed)
    (there : s.trials.get? key = some t) (live : t.isLive = true) (made : Transition settings now t asked u action)
    (run : (commit t.spec u action).Runs s (.ok .done) s') : Woken key s s' := by
  obtain ⟨r, v, reply, rest⟩ := Plan.runs_ask.mp run
  have here : s.trials.get? u.syncPhase.key = some t := by
    rw [← there, ← keyed key t there]
    exact congrArg (fun m => s.trials.get? m.key) made.metadata_eq
  have fresh : t.metadata.version = u.syncPhase.metadata.version := (congrArg Metadata.version made.metadata_eq).symm
  cases r with
  | error error =>
    obtain ⟨result, -⟩ := Plan.runs_done.mp rest
    cases h : error.isConflict <;> simp [h] at result
  | ok stored =>
    obtain ⟨result, rfl⟩ := Plan.runs_done.mp rest
    cases result
    have reply : (.ok stored, s') = s.taking (s.replaceTrial u.syncPhase (.toUpdate t.spec u)) := reply
    rw [s.replaceTrial_of_differs here fresh (made.differs live)] at reply
    obtain rfl := congrArg Prod.snd reply
    refine ⟨.trial key, ?_, rfl⟩
    show Change.trial (Part.merge ..).key :: s.log = _
    rw [Part.key_merge, keyed key t there]

theorem trialKey?_runWorkload (t : Trial) (d : WorkloadDefaults) (v : UInt64) :
    ({ t.runWorkload d with metadata.version := v } : Workload).trialKey? = some t.key := rfl

theorem createRun_wakes (run : (createRun settings t).Runs s (.ok .done) s') : Woken t.key s s' := by
  obtain ⟨r, v, reply, rest⟩ := Plan.runs_ask.mp run
  cases r with
  | error error => cases error <;> cases (Plan.runs_done.mp rest).1
  | ok stored =>
    obtain ⟨-, rfl⟩ := Plan.runs_done.mp rest
    have reply : (.ok stored, s') = s.taking (s.createWorkload (t.runWorkload settings.workload)) := reply
    unfold Store.createWorkload at reply
    split at reply
    · cases reply
    · obtain rfl := congrArg Prod.snd reply
      exact ⟨.workload _, rfl, trialKey?_runWorkload t settings.workload (s.version + 1)⟩

end Pass

end TrialControl
