import TrialControl.Proofs.Chronicles
import TrialControl.Proofs.Closings
import TrialControl.Proofs.Performances
import TrialControl.Trial.Draft

/-!
# Attempts add up

A metric has three attempts. A committed pass whose attempt failed for good uses one up; a committed
capture closes the slot for ever. The attempts left in the stored trial and the failures in its history
add up to three, and the trial fails when the three of a metric are used up.
-/

namespace TrialControl

namespace Draft

/-- Drafts as they are made, call by call. -/
inductive Made : Draft → Prop where
  | named (ns name : String) (createdAt : Instant) : Made (.named ns name createdAt)
  | label {d : Draft} (made : Made d) (key value : String) : Made (d.label key value)
  | experiment {d : Draft} (made : Made d) (name : String) : Made (d.experiment name)
  | patch {d : Draft} (made : Made d) (p : Patch) : Made (d.patch p)
  | startOffset {d : Draft} (made : Made d) (offset : Duration) : Made (d.startOffset offset)
  | targetNs {d : Draft} (made : Made d) (ns : String) : Made (d.targetNs ns)
  | template {d : Draft} (made : Made d) (t : Template) : Made (d.template t)
  | created {d : Draft} (made : Made d) (at_ : Instant) : Made (d.created at_)

theorem Made.blank {d : Draft} (made : d.Made) : d.trial.spec.values = [] ∧ d.trial.status = .empty := by
  induction made with
  | named ns name createdAt => exact ⟨rfl, rfl⟩
  | label made key value ih => exact ih
  | experiment made name ih => exact ih
  | patch made p ih => exact ih
  | startOffset made offset ih => exact ih
  | targetNs made ns ih => exact ih
  | template made t ih => exact ih
  | created made at_ ih => exact ih

end Draft

/-! ## What a transition does to slots -/

namespace Pass

inductive Tally (t : Trial) (asked : Transcript) (u : Trial) : Prop where
  | keep (idle : asked.attempt? = none) (kept : u.spec.values = t.spec.values)
  | capture {name : String} {c : Captured} (attempted : asked.attempt? = some (name, .ok c))
      (finite : c.value.isFinite = true ∧ c.deviation.isFinite = true)
      (unresolved : (Value.slot name t.spec.values).isResolved = false)
      (settled : u.spec.values = Value.update name (·.settle c) t.spec.values)
  | miss {name : String} {f : CaptureFailure} (attempted : asked.attempt? = some (name, .error f))
      (final : f.retryDelay? = none) (unresolved : (Value.slot name t.spec.values).isResolved = false)
      (spent : u.spec.values = Value.update name Value.spend t.spec.values)
      (failed : (Value.slot name t.spec.values).spend.isResolved = true → u.FailedBy "MetricFailed")

variable {settings : Settings} {now : Instant} {t u : Trial} {asked : Transcript} {action : Action}

theorem Transition.tally (made : Transition settings now t asked u action) : Tally t asked u := by
  cases made with
  | settle early patches waits probed =>
    refine .keep (Transcript.attempt?_of_early early) ?_
    rw [Trial.awaiting_eq]
    rfl
  | failWaiting early waits probed final =>
    refine .keep (Transcript.attempt?_of_early early) ?_
    rw [Trial.awaiting_eq]
    rfl
  | wait early waits longest =>
    refine .keep (Transcript.attempt?_of_early early) ?_
    rw [Trial.awaiting_eq]
  | stabilize early still unstable => exact .keep (Transcript.attempt?_of_early early) rfl
  | absorb early ready shown view changed => exact .keep (Transcript.attempt?_of_early early) rfl
  | observe looked idle ready ended declared unobserved => exact .keep idle rfl
  | @capture e m c looked attempted ready ended observed next finite =>
    refine .capture attempted finite (Trial.nextMetric?_unresolved next) ?_
    simp only [Trial.recordCaptured, Trial.record, Trial.updateValue, Value.update_update]
  | @miss e m f looked attempted final ready ended observed next =>
    refine .miss attempted final (Trial.nextMetric?_unresolved next) ?_ fun exhausted => ⟨f.message, ?_⟩
    · rw [Trial.recordMissed_eq]
      split <;> rfl
    · rw [Trial.recordMissed_eq, if_pos exhausted]
      exact (Ledger.standing?_record _ _ now _ _).trans (if_pos rfl)
  | complete looked idle ready ended observed none_next =>
    refine .keep idle ?_
    unfold Trial.recordComplete
    dsimp only
    split <;> rfl

theorem Tally.values_ne (tally : Tally t asked u) (attempted : asked.attempt? ≠ none) :
    u.spec.values ≠ t.spec.values := by
  cases tally with
  | keep idle kept => exact absurd idle attempted
  | @capture name c captured finite unresolved settled =>
    rw [settled]
    exact Value.update_ne (f := (·.settle c)) name (fun _ => rfl) (Value.settle_attempts_ne c unresolved)
  | @miss name f missed final unresolved spent failed =>
    rw [spent]
    exact Value.update_ne (f := Value.spend) name (fun _ => rfl) (Value.spend_attempts_ne unresolved)

theorem Tally.final (tally : Tally t asked u) {name : String} {f : CaptureFailure}
    (attempted : asked.attempt? = some (name, .error f)) : f.retryDelay? = none := by
  cases tally with
  | keep idle kept =>
    rw [idle] at attempted
    cases attempted
  | capture captured finite unresolved settled =>
    rw [captured] at attempted
    cases attempted
  | miss missed final unresolved spent failed =>
    rw [missed] at attempted
    cases attempted
    exact final

end Pass

namespace Entry

def attempt? (e : Entry) : Option (String × Except CaptureFailure Captured) :=
  match e.author with
  | .pass asked => asked.attempt?
  | .work _ => none

def misses (name : String) (e : Entry) : Bool :=
  match e.attempt? with
  | some (m, .error f) => m == name && f.retryDelay?.isNone
  | _ => false

@[simp] theorem attempt?_pass (asked : Transcript) (t : Trial) : (Entry.mk (.pass asked) t).attempt? = asked.attempt? :=
  rfl

variable {e : Entry} {name other : String}

theorem misses_of_idle (idle : e.attempt? = none) : e.misses name = false := by simp [misses, idle]

theorem misses_of_capture {c : Captured} (attempted : e.attempt? = some (other, .ok c)) : e.misses name = false := by
  simp [misses, attempted]

theorem misses_of_miss {f : CaptureFailure} (attempted : e.attempt? = some (other, .error f))
    (final : f.retryDelay? = none) : e.misses name = (other == name) := by
  simp [misses, attempted, final]

end Entry

namespace Chronicle

open Pass
open Store (Write)
open Rehearsal (Play)

/-! ## Accounts -/

def missed (name : String) (history : List Entry) : Nat := history.countP (·.misses name)

/-- The slot of a metric after a history. -/
inductive Account (name : String) (history : List Entry) : Option Value → Prop where
  | untouched (uncaptured : ∀ e ∈ history, ∀ c, e.attempt? ≠ some (name, .ok c)) (unmissed : missed name history = 0) :
      Account name history none
  | charged {v : Value} (uncaptured : ∀ e ∈ history, ∀ c, e.attempt? ≠ some (name, .ok c))
      (left : v.attempts.toNat + missed name history = 3) : Account name history (some v)
  | closed {v : Value} {c : Captured} (captured : ∃ e ∈ history, e.attempt? = some (name, .ok c))
      (finite : c.value.isFinite = true ∧ c.deviation.isFinite = true) (text : v.value = c.value.text)
      (left : v.attempts = 0) : Account name history (some v)

section
variable {name : String} {history : List Entry} {e : Entry} {v : Option Value} {vs : List Value} {f : CaptureFailure}

theorem missed_cons : missed name (e :: history) = missed name history + if e.misses name then 1 else 0 :=
  List.countP_cons ..

theorem Account.beside (account : Account name history v) (unmissed : e.misses name = false)
    (uncaptured : ∀ c, e.attempt? ≠ some (name, .ok c)) : Account name (e :: history) v := by
  have same : missed name (e :: history) = missed name history := by simp [missed_cons, unmissed]
  cases account with
  | untouched none_captured unmissed =>
    exact .untouched (List.forall_mem_cons.mpr ⟨uncaptured, none_captured⟩) (same.trans unmissed)
  | charged none_captured left =>
    exact .charged (List.forall_mem_cons.mpr ⟨uncaptured, none_captured⟩) (by rw [same, left])
  | closed captured finite text left =>
    obtain ⟨x, hx, captured⟩ := captured
    exact .closed ⟨x, List.mem_cons_of_mem e hx, captured⟩ finite text left

theorem missed_cons_of_miss (attempted : e.attempt? = some (name, .error f)) (final : f.retryDelay? = none) :
    missed name (e :: history) = missed name history + 1 := by
  simp [missed_cons, Entry.misses_of_miss attempted final]

section
variable (account : Account name history (vs.find? (·.name == name)))
  (unresolved : (Value.slot name vs).isResolved = false)
include account unresolved

theorem Account.of_open : (∀ e ∈ history, ∀ c, e.attempt? ≠ some (name, .ok c)) ∧
    (Value.slot name vs).attempts.toNat + missed name history = 3 := by
  unfold Value.slot at unresolved ⊢
  generalize vs.find? (·.name == name) = o at account unresolved ⊢
  cases account with
  | untouched uncaptured unmissed =>
    rw [unmissed]
    exact ⟨uncaptured, rfl⟩
  | charged uncaptured left => exact ⟨uncaptured, left⟩
  | closed captured finite text left => simp [Value.isResolved, left] at unresolved

theorem Account.miss (attempted : e.attempt? = some (name, .error f)) (final : f.retryDelay? = none) :
    Account name (e :: history) (some (Value.slot name vs).spend) := by
  obtain ⟨none_captured, left⟩ := account.of_open unresolved
  have uncaptured : ∀ c, e.attempt? ≠ some (name, .ok c) := by simp [attempted]
  refine .charged (List.forall_mem_cons.mpr ⟨uncaptured, none_captured⟩) ?_
  rw [missed_cons_of_miss attempted final, ← left, ← Value.spend_attempts unresolved]
  omega

theorem Account.exhausted_iff : (Value.slot name vs).spend.isResolved = true ↔ missed name history = 2 := by
  have left := (account.of_open unresolved).2
  have spent := Value.spend_attempts unresolved
  have none_left : (Value.slot name vs).spend.attempts = 0 ↔ (Value.slot name vs).spend.attempts.toNat = 0 :=
    UInt32.toNat_inj.symm
  rw [Value.isResolved, beq_iff_eq, none_left]
  omega

end

theorem accounts_of_tally {asked : Transcript} {t u v : Trial} (tally : Tally t asked v)
    (values : u.spec.values = v.spec.values) (accounts : ∀ name, Account name history (t.value? name)) (name : String) :
    Account name (⟨.pass asked, u⟩ :: history) (u.value? name) := by
  let e : Entry := ⟨.pass asked, u⟩
  cases tally with
  | keep idle kept =>
    have account := (accounts name).beside (e := e) (Entry.misses_of_idle idle) (by simp [e, idle])
    simpa [Trial.value?, values, kept] using account
  | @capture captured c attempted finite unresolved settled =>
    rw [Trial.value?, values, settled, Value.find?_update (f := (·.settle c)) captured name fun _ => rfl]
    by_cases h : name = captured
    · subst h
      rw [if_pos rfl]
      exact .closed ⟨e, List.mem_cons_self .., attempted⟩ finite rfl rfl
    · rw [if_neg h]
      exact (accounts name).beside (Entry.misses_of_capture attempted) (by simp [attempted, Ne.symm h])
  | @miss missing f attempted final unresolved spent failed =>
    rw [Trial.value?, values, spent, Value.find?_update (f := Value.spend) missing name fun _ => rfl]
    by_cases h : name = missing
    · subst h
      rw [if_pos rfl]
      exact (accounts name).miss unresolved attempted final
    · rw [if_neg h]
      have unmissed : e.misses name = false := by
        rw [Entry.misses_of_miss (e := e) attempted final]
        simpa using Ne.symm h
      exact (accounts name).beside unmissed (by simp [attempted])

end

/-! ## Balances -/

structure Balanced (key : ObjectKey) (c : Chronicle) (t : Trial) : Prop where
  stored : c.store.trials.get? key = some t
  accounts : ∀ name, Account name c.history (t.value? name)
  exhausted : ∀ name, missed name c.history = 3 → t.FailedBy "MetricFailed"
  blamed : t.FailedBy "MetricFailed" → ∃ asked earlier, c.history = ⟨.pass asked, t⟩ :: earlier ∧
    ((∃ name, missed name earlier = 2 ∧ missed name c.history = 3) ∨ asked.Adopts t "MetricFailed")

variable {key : ObjectKey} {c d : Chronicle} {t : Trial}

theorem Balanced.of_transition {settings : Settings} {now : Instant} {asked : Transcript} {u v : Trial} {action : Action}
    (balanced : Balanced key c t) (live : t.isLive = true) (made : Transition settings now t asked v action)
    (values : u.spec.values = v.spec.values) (conditions : u.status.conditions = v.status.conditions)
    (stored : d.store.trials.get? key = some u) (noted : d.history = ⟨.pass asked, u⟩ :: c.history) :
    Balanced key d u := by
  have tally := made.tally
  refine ⟨stored, ?_, fun name used => ?_, fun failed => ?_⟩
  · rw [noted]
    exact accounts_of_tally tally values balanced.accounts
  · -- the third miss is the one just noted, as a live trial has no metric with three
    have before : missed name c.history ≠ 3 := fun h =>
      Trial.not_failedBy_of_live live rfl (balanced.exhausted name h)
    rw [noted, missed_cons] at used
    cases tally with
    | keep idle kept =>
      rw [Entry.misses_of_idle (e := ⟨.pass asked, u⟩) idle] at used
      exact absurd used before
    | capture attempted finite unresolved settled =>
      rw [Entry.misses_of_capture (e := ⟨.pass asked, u⟩) attempted] at used
      exact absurd used before
    | @miss missing f attempted final unresolved spent failed =>
      rw [Entry.misses_of_miss (e := ⟨.pass asked, u⟩) attempted final] at used
      by_cases h : missing = name
      · subst h
        have twice : missed missing c.history = 2 := by simpa using used
        obtain ⟨message, failed⟩ := failed (((balanced.accounts missing).exhausted_iff unresolved).mpr twice)
        exact ⟨message, conditions ▸ failed⟩
      · have same : missed name c.history = 3 := by simpa [h] using used
        exact absurd same before
  · obtain ⟨message, failed⟩ := failed
    refine ⟨asked, c.history, noted, ?_⟩
    rcases made.blame live ⟨message, conditions ▸ failed⟩ with ⟨name, f, attempted, final, unresolved, spent⟩ | adopts
    · have twice := ((balanced.accounts name).exhausted_iff unresolved).mp spent
      refine .inl ⟨name, twice, ?_⟩
      rw [noted, missed_cons_of_miss (e := ⟨.pass asked, u⟩) attempted final, twice]
    · obtain ⟨w, units, f, rest, shown, failures, reason, stands⟩ := adopts
      exact .inr ⟨w, units, f, rest, shown, failures, reason, conditions ▸ stands⟩

theorem value?_of_tally {asked : Transcript} {u v : Trial} (tally : Tally t asked v)
    (values : u.spec.values = v.spec.values) {name : String} {x : Value} (there : t.value? name = some x)
    (left : x.attempts = 0) : u.value? name = some x := by
  have resolved : (Value.slot name t.spec.values).isResolved = true := by
    unfold Trial.value? at there
    simp [Value.slot, there, Value.isResolved, left]
  have other {changed : String} (unresolved : (Value.slot changed t.spec.values).isResolved = false) :
      name ≠ changed := by
    rintro rfl
    rw [resolved] at unresolved
    cases unresolved
  cases tally with
  | keep idle kept => rwa [Trial.value?, values, kept]
  | @capture captured c attempted finite unresolved settled =>
    rwa [Trial.value?, values, settled, Value.find?_update (f := (·.settle c)) captured name fun _ => rfl,
      if_neg (other unresolved)]
  | @miss missing f attempted final unresolved spent failed =>
    rwa [Trial.value?, values, spent, Value.find?_update (f := Value.spend) missing name fun _ => rfl,
      if_neg (other unresolved)]

theorem Balanced.progress (balanced : Balanced key c t) (progress : Progress key c d) :
    ∃ u, Balanced key d u ∧ ∀ name x, t.value? name = some x → x.attempts = 0 → u.value? name = some x := by
  cases progress with
  | none same silent =>
    obtain ⟨stored, accounts, exhausted, blamed⟩ := balanced
    rw [← silent] at accounts exhausted blamed
    exact ⟨t, ⟨same.trans stored, accounts, exhausted, blamed⟩, fun name x there left => there⟩
  | @transition settings now asked t' v u action there live read reached made computed stored noted =>
    rw [balanced.stored] at there
    cases there
    have values : u.spec.values = v.spec.values := computed ▸ (Part.marks_merge t v).2
    have conditions : u.status.conditions = v.status.conditions := computed ▸ Part.conditions_merge t v _
    exact ⟨u, balanced.of_transition live made values conditions stored noted,
      fun name x there left => value?_of_tally made.tally values there left⟩

theorem balanced_of_made {d : Draft} {s : Store} {v : UInt64} (made : d.Made)
    (drafted : s.trials.get? key = some (d.build.withVersion v)) :
    Balanced key ⟨s, [], []⟩ (d.build.withVersion v) := by
  obtain ⟨values, status⟩ := made.blank
  refine ⟨drafted, fun name => ?_, (fun name used => by cases used), ?_⟩
  · have absent : (d.build.withVersion v).value? name = none := by
      show d.trial.spec.values.find? (·.name == name) = none
      rw [values]
      rfl
    rw [absent]
    exact .untouched (fun e he => by cases he) rfl
  · rintro ⟨message, failed⟩
    have unfailed : (d.build.withVersion v).status.conditions.standing? .failed = none := by
      show (d.trial.status.conditions.record .stable (.plain .unknown) d.createdAt).standing? .failed = none
      rw [status]
      rfl
    rw [unfailed] at failed
    cases failed

/-! ## Runs -/

variable {e : Chronicle} {s : Store} {m n k : Nat}

theorem Run.balanced (run : Run key (Spares key) c n d) (sound : c.Sound key)
    (fits : c.store.version.toNat + n < UInt64.size) (balanced : Balanced key c t) :
    ∃ u, Balanced key d u ∧ ∀ name x, t.value? name = some x → x.attempts = 0 → u.value? name = some x := by
  refine run.keeps (P := fun d => ∃ u, Balanced key d u ∧
    ∀ name x, t.value? name = some x → x.attempts = 0 → u.value? name = some x) sound fits ?_
    ⟨t, balanced, fun name x there left => there⟩
  rintro c d progress ⟨u, balanced, kept⟩
  obtain ⟨w, after, keeps⟩ := balanced.progress progress
  exact ⟨w, after, fun name x there left => keeps name x (kept name x there left) left⟩

/-- A pass that has come to its commit with an attempt, which was not a transient failure: the commit is
noted, or refused and changes nothing. -/
theorem Sound.attempt_noted {j : Journey} {v : Trial} {part : Part} {next : Except Error Trial → Plan Outcome}
    (sound : c.Sound key) (mem : j ∈ c.passes) (asks : j.plan = .ask (.updateTrial v part) next) :
    (∀ name f, j.asked.attempt? = some (name, .error f) → f.retryDelay? = none) ∧
      ∀ {r : Except Error Trial} {u : Store}, c.store.Replies (.updateTrial v part) r u →
        (∀ x, r = .ok x → j.asked.attempt? ≠ none → c.noted key (.pass j.asked) u = ⟨.pass j.asked, x⟩ :: c.history) ∧
          ∀ e, r = .error e → u = c.store := by
  have under := sound.passes j mem
  obtain ⟨settings, now, reached⟩ := under.reached
  rw [asks] at reached
  obtain ⟨t, w, action, live, read, made, commits⟩ := commit_of_reaches reached
  have snapshot := under.read t read
  cases commits
  have same : w.syncPhase.metadata = t.metadata := made.metadata_eq
  refine ⟨fun name f => made.tally.final, fun {r u} reply => ?_⟩
  have committed := Crowd.committed_of_read snapshot same reply
  cases committed with
  | changed there differs =>
    refine ⟨fun x result attempted => ?_, fun e result => by cases result⟩
    cases result
    refine noted_of_new (Crowd.get?_putTrial_merge snapshot.here w.syncPhase (.toUpdate t.spec w)) ?_
    rw [there]
    intro h
    have values := congrArg (·.spec.values) (Option.some.inj h)
    exact made.tally.values_ne attempted ((Part.marks_merge t w).2.symm.trans values.symm)
  | kept there agrees =>
    refine ⟨fun x result attempted => ?_, fun e result => by cases result⟩
    -- an attempt changes a slot, so the store cannot have found the trial as it was
    have differs := Part.agrees_of_marks (t := t) (.inr (made.tally.values_ne attempted))
    rw [agrees] at differs
    cases differs
  | refused gone => exact ⟨(fun x result => by cases result), fun e result => rfl⟩

/-- From a new trial that only passes write, whatever else changes and however captures end: the attempts
left, the failures and the captures of every metric add up in every stored trial; a slot without attempts
left is never changed; and the trial fails with `MetricFailed` by the commit of the third failure of a
metric, and otherwise only in the words of a run workload. What is counted are the commits of attempts: a
transient failure has none, a refused one changes nothing, and every other one is noted. -/
theorem attempts_add_up {d : Draft} {v : UInt64} (made : d.Made) (built : s.Built m)
    (drafted : s.trials.get? key = some (d.build.withVersion v)) (run : Run key (Spares key) ⟨s, [], []⟩ n c)
    (fits : m + n < UInt64.size) :
    ∃ t, Balanced key c t ∧
      (∀ {k : Nat} {e : Chronicle}, Run key (Spares key) c k e → m + n + k < UInt64.size →
        ∃ u, e.store.trials.get? key = some u ∧
          ∀ name x, t.value? name = some x → x.attempts = 0 → u.value? name = some x) ∧
      ∀ j ∈ c.passes, ∀ {v : Trial} {part : Part} {next : Except Error Trial → Plan Outcome},
        j.plan = .ask (.updateTrial v part) next →
          (∀ name f, j.asked.attempt? = some (name, .error f) → f.retryDelay? = none) ∧
          ∀ {r : Except Error Trial} {u : Store}, c.store.Replies (.updateTrial v part) r u →
            (∀ x, r = .ok x → j.asked.attempt? ≠ none →
              c.noted key (.pass j.asked) u = ⟨.pass j.asked, x⟩ :: c.history) ∧
            ∀ e, r = .error e → u = c.store := by
  have start := sound_of_built built (by omega) key
  have version := built.version (by omega)
  have fits' : s.version.toNat + n < UInt64.size := by omega
  obtain ⟨sound, counted⟩ := run.sound start fits'
  obtain ⟨t, balanced, -⟩ := run.balanced start fits' (balanced_of_made made drafted)
  refine ⟨t, balanced, fun {k e} later fits'' => ?_, fun j mem v part next asks => sound.attempt_noted mem asks⟩
  obtain ⟨u, after, kept⟩ := later.balanced sound (by simp only [counted, version]; omega) balanced
  exact ⟨u, after.stored, kept⟩

/-- What leads to a trial of one metric whose run took a second. -/
def setting (metric : Metric) : List Write :=
  let d := (Draft.named "ns" "t1" default).experiment "e1"
  let ran := ContainerState.terminated default (shifted default (some (.ofSeconds 1))) 0 ""
  let labelled := { Metadata.named "ns" "u1" with labels := d.build.runLabels }
  [.createTrial d.build, .putExperiment ((Experiment.named "ns" "e1").metric metric),
    .createWorkload (d.build.runWorkload .standard), .putUnit { ExecutionUnit.pending labelled with containers := [ran] }]

theorem third_miss_fails_trial :
    let key : ObjectKey := ⟨"ns", "t1"⟩
    let p := Play.start (setting { Metric.named "m" .computed with query := "unknown" })
    let c := (p.passing key .standard ([0, 5, 6, 7, 8, 9].map fun n => shifted default (some (.ofSeconds n)))).chronicle
    (∃ m n, p.chronicle.store.Built m ∧ Run key (Spares key) p.chronicle n c ∧ m + n < UInt64.size) ∧
      ∃ t, Balanced key c t ∧ missed "m" c.history = 3 ∧ t.FailedBy "MetricFailed" := by
  intro key p c
  have reached : ∃ m n, p.chronicle.store.Built m ∧ Run key (Spares key) p.chronicle n c ∧ m + n < UInt64.size :=
    Play.reached_of_start .standard (setting { Metric.named "m" .computed with query := "unknown" })
      ([0, 5, 6, 7, 8, 9].map fun n => shifted default (some (.ofSeconds n))) (by decide +kernel)
  have ⟨m, n, built, run, fits⟩ := reached
  have made : ((Draft.named "ns" "t1" default).experiment "e1").Made := .experiment (.named "ns" "t1" default) "e1"
  have drafted : p.chronicle.store.trials.get? key =
      some (((Draft.named "ns" "t1" default).experiment "e1").build.withVersion 1) := by
    decide +kernel
  have thrice : missed "m" c.history = 3 := by decide +kernel
  obtain ⟨t, balanced, -⟩ := attempts_add_up made built drafted run fits
  exact ⟨reached, t, balanced, thrice, balanced.exhausted "m" thrice⟩

/-- The run workload of a trial without metrics reports a failure in the words of a missed metric. -/
theorem run_fails_in_words_of_metric :
    let key : ObjectKey := ⟨"ns", "t1"⟩
    let d := Draft.named "ns" "t1" default
    let failed : WorkloadStatus := ⟨none, none, [⟨.failed, ⟨.true, "MetricFailed", "gave up"⟩⟩]⟩
    let p := Play.start [.createTrial d.build, .putWorkload { d.build.runWorkload .standard with status := failed }]
    let c := (p.passing key .standard [default, shifted default (some (.ofSeconds 5))]).chronicle
    d.Made ∧ p.chronicle.store.trials.get? key = some (d.build.withVersion 1) ∧
      (∃ m n, p.chronicle.store.Built m ∧ Run key (Spares key) p.chronicle n c ∧ m + n < UInt64.size) ∧
      ∃ t, c.store.trials.get? key = some t ∧ t.FailedBy "MetricFailed" ∧ ∀ name, missed name c.history = 0 := by
  intro key d failed p c
  have reached : ∃ m n, p.chronicle.store.Built m ∧ Run key (Spares key) p.chronicle n c ∧ m + n < UInt64.size :=
    Play.reached_of_start .standard
      [.createTrial d.build, .putWorkload { d.build.runWorkload .standard with status := failed }]
      [default, shifted default (some (.ofSeconds 5))] (by decide +kernel)
  have standing : (c.store.trials.get? key).bind (·.status.conditions.standing? .failed) =
      some ⟨.true, "MetricFailed", "gave up"⟩ := by
    decide +kernel
  have idle : ∀ e ∈ c.history, e.attempt?.isNone := by decide +kernel
  obtain ⟨t, there, failed⟩ := Option.bind_eq_some_iff.mp standing
  refine ⟨.named .., by decide +kernel, reached, t, there, ⟨"gave up", failed⟩, fun name => ?_⟩
  refine List.countP_eq_zero.mpr fun e he => ?_
  simp [Entry.misses_of_idle (Option.isNone_iff_eq_none.mp (idle e he))]

end Chronicle

end TrialControl
