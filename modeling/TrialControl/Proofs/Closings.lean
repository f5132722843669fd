import TrialControl.Proofs.Commits

/-!
# What closes a trial

A transition leaves Failed and Complete alone, or it records one of the two: a patch or a run workload
has failed, the attempts at a metric are used up, or nothing is left to do.
-/

namespace TrialControl

namespace Trial

variable {t u : Trial}

def isTorn (t : Trial) : Bool :=
  t.status.conditions.holds .failed .true && t.status.conditions.holds .complete .true

def FailedBy (t : Trial) (reason : String) : Prop :=
  ∃ message, t.status.conditions.standing? .failed = some ⟨.true, reason, message⟩

theorem not_failedBy_of_live {reason : String} (live : t.isLive = true)
    (same : u.status.conditions.find? .failed = t.status.conditions.find? .failed) : ¬ u.FailedBy reason := by
  rintro ⟨message, failed⟩
  have unfailed := (t.unfinished_of_live live).2
  rw [Ledger.standing?, same] at failed
  simp [Ledger.holds_eq, Ledger.standing?, failed] at unfailed

theorem find?_recordComplete (t : Trial) (now : Instant) {kind : ConditionKind} (unobserved : kind ≠ .observed)
    (incomplete : kind ≠ .complete) :
    (t.recordComplete now).status.conditions.find? kind = t.status.conditions.find? kind := by
  unfold recordComplete
  dsimp only
  split
  · exact (Ledger.find?_record_of_ne _ _ now _ incomplete).trans (Ledger.find?_record_of_ne _ _ now _ unobserved)
  · exact Ledger.find?_record_of_ne _ _ now _ incomplete

end Trial

/-- The trial has the failure of a run workload that was seen last. -/
def Transcript.Adopts (asked : Transcript) (t : Trial) (reason : String) : Prop :=
  ∃ w units f rest, asked.Shows w units ∧ w.failures units = f :: rest ∧ f.reason = reason ∧
    t.status.conditions.standing? .failed = some ⟨.true, f.reason, f.message⟩

namespace Pass

variable {settings : Settings} {now : Instant} {t u : Trial} {asked : Transcript} {action : Action}

structure Completion (settings : Settings) (now : Instant) (t : Trial) (asked : Transcript) (u : Trial)
    (e : Experiment) : Prop where
  looked : asked.experiment? = some e
  ready : Ready settings now t
  ended : t.status.completionTime.isSome = true
  observed : e.metrics = [] ∨ (t.status.conditions.find? .observed).isSome = true
  none_next : t.nextMetric? e.metrics = none
  recorded : u = t.recordComplete now

inductive Closing (settings : Settings) (now : Instant) (t : Trial) (asked : Transcript) (u : Trial) : Prop where
  | spare (unfailed : u.status.conditions.find? .failed = t.status.conditions.find? .failed)
      (incomplete : u.status.conditions.find? .complete = t.status.conditions.find? .complete)
  | patch {message : String} (stands : u.status.conditions.standing? .failed = some ⟨.true, "WaitFailed", message⟩)
      (incomplete : u.status.conditions.find? .complete = t.status.conditions.find? .complete)
  | run (reason : String) (adopts : asked.Adopts u reason)
      (incomplete : u.status.conditions.find? .complete = t.status.conditions.find? .complete)
  | metric {name : String} {f : CaptureFailure} (attempted : asked.attempt? = some (name, .error f))
      (final : f.retryDelay? = none) (unresolved : (Value.slot name t.spec.values).isResolved = false)
      (exhausted : (Value.slot name t.spec.values).spend.isResolved = true)
      (stands : u.status.conditions.standing? .failed = some ⟨.true, "MetricFailed", f.message⟩)
      (incomplete : u.status.conditions.find? .complete = t.status.conditions.find? .complete)
  | complete {e : Experiment} (completion : Completion settings now t asked u e)
      (unfailed : u.status.conditions.find? .failed = t.status.conditions.find? .failed)

theorem Transition.closing (made : Transition settings now t asked u action) : Closing settings now t asked u := by
  have recorded (l : Ledger) (standing : Standing) :
      (l.record .failed standing now).standing? .failed = some standing :=
    (Ledger.standing?_record _ _ now l .failed).trans (if_pos rfl)
  have unfailed (l : Ledger) {kind : ConditionKind} (other : .failed ≠ kind) (standing : Standing) :
      (l.record kind standing now).find? .failed = l.find? .failed := Ledger.find?_record_of_ne _ _ now l other
  have incomplete (l : Ledger) {kind : ConditionKind} (other : .complete ≠ kind) (standing : Standing) :
      (l.record kind standing now).find? .complete = l.find? .complete := Ledger.find?_record_of_ne _ _ now l other
  cases made with
  | settle early patches waits probed =>
    exact .spare ((unfailed _ (by decide) _).trans (t.find?_awaiting _ now (by decide)))
      ((incomplete _ (by decide) _).trans (t.find?_awaiting _ now (by decide)))
  | failWaiting early waits probed final =>
    exact .patch (recorded _ _) ((incomplete _ (by decide) _).trans (t.find?_awaiting _ now (by decide)))
  | wait early waits longest =>
    exact .spare (t.find?_awaiting _ now (by decide)) (t.find?_awaiting _ now (by decide))
  | stabilize early still unstable => exact .spare (unfailed _ (by decide) _) (incomplete _ (by decide) _)
  | @absorb w units b failures early ready shown view changed =>
    have same : w.failures units = failures := by
      unfold Workload.view at view
      dsimp only at view
      split at view
      · cases view
      · cases view
        rfl
    cases failures with
    | nil => exact .spare rfl rfl
    | cons f rest =>
      exact .run f.reason ⟨w, units, f, rest, shown, same, rfl, recorded _ _⟩ (incomplete _ (by decide) _)
  | observe looked idle ready ended declared unobserved =>
    exact .spare (unfailed _ (by decide) _) (incomplete _ (by decide) _)
  | capture looked attempted ready ended observed next finite =>
    exact .spare (unfailed _ (by decide) _) (incomplete _ (by decide) _)
  | @miss e m f looked attempted final ready ended observed next =>
    rw [Trial.recordMissed_eq]
    split
    · next exhausted =>
      have unresolved := Trial.nextMetric?_unresolved next
      exact .metric attempted final unresolved exhausted (recorded _ _) (incomplete _ (by decide) _)
    · exact .spare (unfailed _ (by decide) _) (incomplete _ (by decide) _)
  | @complete e looked idle ready ended observed none_next =>
    have completion : Completion settings now t asked (t.recordComplete now) e :=
      ⟨looked, ready, ended, observed, none_next, rfl⟩
    exact .complete completion (t.find?_recordComplete now (by decide) (by decide))

theorem Transition.untorn (made : Transition settings now t asked u action) (live : t.isLive = true) :
    u.isTorn = false := by
  obtain ⟨incomplete, unfailed⟩ := t.unfinished_of_live live
  unfold Trial.isTorn
  rw [Bool.and_eq_false_iff]
  cases made.closing with
  | spare failed complete => exact .inl ((Ledger.holds_congr failed .true).trans unfailed)
  | patch stands complete => exact .inr ((Ledger.holds_congr complete .true).trans incomplete)
  | run reason adopts complete => exact .inr ((Ledger.holds_congr complete .true).trans incomplete)
  | metric attempted final unresolved exhausted stands complete =>
    exact .inr ((Ledger.holds_congr complete .true).trans incomplete)
  | complete completion failed => exact .inl ((Ledger.holds_congr failed .true).trans unfailed)

/-- A trial that fails for want of a metric has used up the attempts at it, or says so in the words of a
run workload. -/
theorem Transition.blame (made : Transition settings now t asked u action) (live : t.isLive = true)
    (failed : u.FailedBy "MetricFailed") :
    (∃ name f, asked.attempt? = some (name, .error f) ∧ f.retryDelay? = none ∧
      (Value.slot name t.spec.values).isResolved = false ∧ (Value.slot name t.spec.values).spend.isResolved = true) ∨
      asked.Adopts u "MetricFailed" := by
  cases made.closing with
  | spare same => exact absurd failed (Trial.not_failedBy_of_live live same)
  | complete completion same => exact absurd failed (Trial.not_failedBy_of_live live same)
  | patch stands =>
    obtain ⟨message, failed⟩ := failed
    simp [stands] at failed
  | run reason adopts =>
    have ⟨w, units, f, rest, shown, failures, same, stands⟩ := adopts
    obtain ⟨message, failed⟩ := failed
    rw [stands] at failed
    obtain rfl : reason = "MetricFailed" := same.symm.trans (congrArg Standing.reason (Option.some.inj failed))
    exact .inr adopts
  | @metric name f attempted final unresolved exhausted => exact .inl ⟨name, f, attempted, final, unresolved, exhausted⟩

theorem Transition.completion (made : Transition settings now t asked u action) (live : t.isLive = true)
    (complete : u.status.conditions.holds .complete .true = true) : ∃ e, Completion settings now t asked u e := by
  have open_ (same : u.status.conditions.find? .complete = t.status.conditions.find? .complete) : False := by
    have incomplete := (Ledger.holds_congr same .true).trans (t.unfinished_of_live live).1
    exact Bool.noConfusion (incomplete.symm.trans complete)
  cases made.closing with
  | spare unfailed incomplete => exact (open_ incomplete).elim
  | patch stands incomplete => exact (open_ incomplete).elim
  | run reason adopts incomplete => exact (open_ incomplete).elim
  | metric attempted final unresolved exhausted stands incomplete => exact (open_ incomplete).elim
  | @complete e completion => exact ⟨e, completion⟩

end Pass

end TrialControl
