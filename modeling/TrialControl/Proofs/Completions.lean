import TrialControl.Proofs.Budgets

/-!
# Complete means measured

A trial is completed by a pass that has found nothing left to do: nothing waits, the trial is stable, its
run has ended, and every metric of the experiment has a closed slot. Since a metric without attempts left
fails the trial, what closed the slots are captures.
-/

namespace TrialControl

/-! ## Texts of values -/

theorem Decimal.positional_ne_nil (d : Decimal) : d.positional ≠ [] := by
  have digits : d.digitChars ≠ [] := Nat.toDigits_ne_nil
  unfold positional
  dsimp only
  split
  · simp [digits]
  · split <;> simp

theorem Binary64.text_ne_empty (x : Binary64) : x.text ≠ "" := by
  have ofList_ne {cs : List Char} (h : cs ≠ []) : String.ofList cs ≠ "" := fun e => h (String.ofList_inj.mp e)
  cases x with
  | nan => decide
  | infinite negative => exact ofList_ne (by simp)
  | finite x =>
    refine ofList_ne ?_
    split
    · simp
    · simp [x.shortest.positional_ne_nil]

/-! ## Completed trials -/

namespace Trial

theorem spec_recordComplete (t : Trial) (now : Instant) : (t.recordComplete now).spec = t.spec := by
  unfold recordComplete
  dsimp only
  split <;> rfl

theorem completionTime_recordComplete (t : Trial) (now : Instant) :
    (t.recordComplete now).status.completionTime = t.status.completionTime := by
  unfold recordComplete
  dsimp only
  split <;> rfl

theorem observed_recordComplete (t : Trial) (now : Instant) :
    (t.recordComplete now).status.conditions.holds .observed .true = true ∨
      (t.recordComplete now).status.conditions.find? .observed = none ∧ t.status.conditions.find? .observed = none := by
  unfold recordComplete
  dsimp only
  split
  · next unobserved =>
    left
    simp [record, Ledger.holds_record, Standing.plain]
  · next observed =>
    have same : ((t.record .complete (.plain .true) now).status.conditions.find? .observed) =
        t.status.conditions.find? .observed := Ledger.find?_record_of_ne _ _ now _ (by decide)
    rw [Ledger.holds, Ledger.compare?, same]
    unfold Ledger.compare? at observed
    cases found : t.status.conditions.find? .observed with
    | none => exact .inr ⟨rfl, rfl⟩
    | some c =>
      left
      simpa [found] using observed

theorem unwaiting_of_marks {t u : Trial} (still : t.hasWaitingPatches = false)
    (marks : u.spec.patches.map (·.waits) = t.spec.patches.map (·.waits)) : ∀ p ∈ u.spec.patches, p.waits = false := by
  intro p hp
  have mem : p.waits ∈ t.spec.patches.map (·.waits) := marks ▸ List.mem_map_of_mem hp
  obtain ⟨q, hq, same⟩ := List.mem_map.mp mem
  rw [← same]
  simpa using List.any_eq_false.mp still q hq

end Trial

namespace Chronicle

open Pass
open Store (Write)
open Rehearsal (Play)

/-- The trial that a pass has completed after a history of other trials. -/
structure Measured (t : Trial) (asked : Transcript) (earlier : List Entry) (e : Experiment) : Prop where
  looked : asked.experiment? = some e
  settled : ∀ p ∈ t.spec.patches, p.waits = false
  stable : t.status.conditions.holds .stable .true = true
  ended : t.status.completionTime.isSome = true
  values : ∀ m ∈ e.metrics, ∃ v c, t.value? m.name = some v ∧ v.attempts = 0 ∧ v.value ≠ "" ∧
    v.value = c.value.text ∧ c.value.isFinite = true ∧ c.deviation.isFinite = true ∧
    ∃ x ∈ earlier, x.attempt? = some (m.name, .ok c)
  observed : t.status.conditions.holds .observed .true = true ∨
    t.status.conditions.find? .observed = none ∧ e.metrics = []

structure Sincere (key : ObjectKey) (c : Chronicle) (t : Trial) : Prop where
  balanced : Balanced key c t
  dated : (t.status.conditions.find? .stable).isSome = true
  measured : t.status.conditions.holds .complete .true = true →
    ∃ asked earlier e, c.history = ⟨.pass asked, t⟩ :: earlier ∧ Measured t asked earlier e

variable {key : ObjectKey} {c d : Chronicle} {s : Store} {t u v : Trial} {m n : Nat}
variable {settings : Settings} {now : Instant} {asked : Transcript} {e : Experiment}

theorem captured_of_none_next (balanced : Balanced key c t) (live : t.isLive = true)
    (none_next : t.nextMetric? e.metrics = none) {m : Metric} (mem : m ∈ e.metrics) :
    ∃ v c', t.value? m.name = some v ∧ v.attempts = 0 ∧ v.value ≠ "" ∧ v.value = c'.value.text ∧
      c'.value.isFinite = true ∧ c'.deviation.isFinite = true ∧ ∃ x ∈ c.history, x.attempt? = some (m.name, .ok c') := by
  have resolved : (Value.slot m.name t.spec.values).isResolved = true := by
    have unwanted := List.find?_eq_none.mp none_next m mem
    simpa using unwanted
  have account := balanced.accounts m.name
  have unspent : missed m.name c.history ≠ 3 := fun h => Trial.not_failedBy_of_live live rfl (balanced.exhausted m.name h)
  unfold Value.slot at resolved
  unfold Trial.value? at account ⊢
  generalize t.spec.values.find? (·.name == m.name) = slot at account resolved ⊢
  cases account with
  | untouched uncaptured unmissed => cases resolved
  | @charged v uncaptured left =>
    have none_left : v.attempts = 0 := by simpa [Value.isResolved] using resolved
    rw [none_left] at left
    exact absurd (by simpa using left) unspent
  | @closed v c' captured finite text left =>
    refine ⟨v, c', rfl, left, ?_, text, finite.1, finite.2, captured⟩
    rw [text]
    exact c'.value.text_ne_empty

theorem measured_of_completion (balanced : Balanced key c t) (live : t.isLive = true)
    (dated : (t.status.conditions.find? .stable).isSome = true) (completion : Completion settings now t asked v e)
    (marks : u.spec.patches.map (·.waits) = v.spec.patches.map (·.waits) ∧ u.spec.values = v.spec.values)
    (status : u.status = v.syncPhase.status) : Measured u asked c.history e := by
  obtain ⟨looked, ready, ended, observed, none_next, rfl⟩ := completion
  rw [t.spec_recordComplete] at marks
  have conditions : u.status.conditions = (t.recordComplete now).status.conditions := by
    rw [status]
    rfl
  refine ⟨looked, Trial.unwaiting_of_marks ready.still marks.1, ?_, ?_, fun m hm => ?_, ?_⟩
  · obtain ⟨condition, found⟩ := Option.isSome_iff_exists.mp dated
    have stable : condition.standing.status = .true := by
      have said := ready.stable
      simpa [Ledger.compare?, found] using said
    rw [Ledger.holds, Ledger.compare?, conditions, t.find?_recordComplete now (by decide) (by decide), found]
    simp [stable]
  · rw [status]
    exact (congrArg Option.isSome (t.completionTime_recordComplete now)).trans ended
  · have captured := captured_of_none_next balanced live none_next hm
    rwa [Trial.value?, ← marks.2] at captured
  · rw [conditions]
    exact (t.observed_recordComplete now).imp_right fun absent => ⟨absent.1, by simpa [absent.2] using observed⟩

/-! ## Steps -/

theorem Sincere.progress (sincere : Sincere key c t) (progress : Progress key c d) : ∃ u, Sincere key d u := by
  obtain ⟨balanced, dated, measured⟩ := sincere
  obtain ⟨u, after, -⟩ := balanced.progress progress
  cases progress with
  | none same silent =>
    obtain rfl : t = u := Option.some.inj (balanced.stored.symm.trans (same.symm.trans after.stored))
    exact ⟨t, after, dated, silent ▸ measured⟩
  | @transition settings now asked t' v u' action there live read reached made computed stored noted =>
    obtain rfl : t = t' := Option.some.inj (balanced.stored.symm.trans there)
    obtain rfl : u' = u := Option.some.inj (stored.symm.trans after.stored)
    have status : u'.status = v.syncPhase.status := by
      rw [computed]
      exact Part.status_merge (.toUpdate t.spec v) t v.syncPhase
    have conditions : u'.status.conditions = v.status.conditions := by
      rw [status]
      rfl
    refine ⟨u', after, ?_, fun complete => ?_⟩
    · obtain ⟨condition, found⟩ := Option.isSome_iff_exists.mp dated
      obtain ⟨ms, last, -, recorded⟩ := made.recorded found
      rw [conditions, recorded]
      rfl
    · rw [conditions] at complete
      obtain ⟨e, completion⟩ := made.completion live complete
      have marks := Part.marks_merge t v
      refine ⟨asked, c.history, e, noted, measured_of_completion balanced live dated completion ?_ status⟩
      rw [computed]
      exact marks

theorem sincere_of_made {d : Draft} {v : UInt64} (made : d.Made)
    (drafted : s.trials.get? key = some (d.build.withVersion v)) : Sincere key ⟨s, [], []⟩ (d.build.withVersion v) := by
  have conditions : (d.build.withVersion v).status.conditions =
      Ledger.empty.record .stable (.plain .unknown) d.createdAt := by
    show d.trial.status.conditions.record .stable (.plain .unknown) d.createdAt = _
    rw [made.blank.2]
    rfl
  refine ⟨balanced_of_made made drafted, ?_, fun complete => ?_⟩
  · rw [conditions]
    rfl
  · rw [conditions] at complete
    cases complete

/-- From a new trial that only passes write, in any order of passes and of other changes: when the trial
is complete, then by the pass that stored it last, which found that nothing waited and that the trial was
stable, ended and observed, and every metric of the experiment that it had looked up has a closed slot
with the text of a finite result that an earlier pass had captured and committed. -/
theorem complete_is_measured {d : Draft} {v : UInt64} (made : d.Made) (built : s.Built m)
    (drafted : s.trials.get? key = some (d.build.withVersion v)) (run : Run key (Spares key) ⟨s, [], []⟩ n c)
    (fits : m + n < UInt64.size) (there : c.store.trials.get? key = some t)
    (complete : t.status.conditions.holds .complete .true = true) :
    ∃ asked earlier e, c.history = ⟨.pass asked, t⟩ :: earlier ∧ Measured t asked earlier e := by
  have start := sound_of_built built (by omega) key
  have version := built.version (by omega)
  have kept := run.keeps (P := fun c => ∃ t, Sincere key c t) start (by simp only [version]; omega)
    (fun progress ⟨t, sincere⟩ => sincere.progress progress) ⟨_, sincere_of_made made drafted⟩
  obtain ⟨u, sincere⟩ := kept
  obtain rfl : t = u := Option.some.inj (there.symm.trans sincere.balanced.stored)
  exact sincere.measured complete

/-- The duration of a run is measured before its trial is complete. -/
theorem duration_is_measured :
    let key : ObjectKey := ⟨"ns", "t1"⟩
    let p := Play.start (setting (.named "duration" .computed))
    let c := (p.passing key .standard ([0, 5, 6, 7, 8].map fun n => shifted default (some (.ofSeconds n)))).chronicle
    (∃ m n, p.chronicle.store.Built m ∧ Run key (Spares key) p.chronicle n c ∧ m + n < UInt64.size) ∧
      ∃ t asked earlier e, c.store.trials.get? key = some t ∧ t.status.conditions.holds .complete .true = true ∧
        c.history = ⟨.pass asked, t⟩ :: earlier ∧ Measured t asked earlier e := by
  intro key p c
  have reached : ∃ m n, p.chronicle.store.Built m ∧ Run key (Spares key) p.chronicle n c ∧ m + n < UInt64.size :=
    Play.reached_of_start .standard (setting (.named "duration" .computed))
      ([0, 5, 6, 7, 8].map fun n => shifted default (some (.ofSeconds n))) (by decide +kernel)
  have ⟨m, n, built, run, fits⟩ := reached
  have made : ((Draft.named "ns" "t1" default).experiment "e1").Made := .experiment (.named "ns" "t1" default) "e1"
  have drafted : p.chronicle.store.trials.get? key =
      some (((Draft.named "ns" "t1" default).experiment "e1").build.withVersion 1) := by
    decide +kernel
  have completed : (c.store.trials.get? key).map (·.status.conditions.holds .complete .true) = some true := by
    decide +kernel
  obtain ⟨t, there, complete⟩ := Option.map_eq_some_iff.mp completed
  obtain ⟨asked, earlier, e, noted, measured⟩ := complete_is_measured made built drafted run fits there complete
  exact ⟨reached, t, asked, earlier, e, there, complete, noted, measured⟩

end Chronicle

end TrialControl
