import Mathlib.Algebra.Group.Action.Defs
import Mathlib.Algebra.Order.BigOperators.Group.List
import Mathlib.Algebra.Order.Ring.Nat
import TrialControl.Proofs.Commits

/-!
# Work that is left

What is left to do for a trial is counted: patches that wait, a condition Stable that is not true, times
that its run workloads still narrow, attempts at metrics, a condition Observed that is not there, and the
end. A transition takes nothing back, and one that does not ask for a delay does something of it.
-/

namespace TrialControl

/-! ## What is left to do -/

namespace Trial

variable {t u : Trial} {brackets : List Bracket} {metrics : List String}

def waitingPatches (t : Trial) : Nat := t.spec.patches.countP (·.waits)

def isUnstable (t : Trial) : Bool := t.hasWaitingPatches || t.status.conditions.compare? .stable .true == some false

def openTimes (t : Trial) (b : Bracket) : Nat :=
  (latest t.status.startTime b.started none).2.toNat + (earliest t.status.completionTime b.finished).2.toNat

def attemptsLeft (t : Trial) (metric : String) : Nat := (Value.slot metric t.spec.values).attempts.toNat

def isUnobserved (t : Trial) : Bool := (t.status.conditions.find? .observed).isNone

def workLeft (t : Trial) (brackets : List Bracket) (metrics : List String) : Nat :=
  t.waitingPatches + t.isUnstable.toNat + (brackets.map t.openTimes).sum + (metrics.map t.attemptsLeft).sum +
    t.isUnobserved.toNat + t.isLive.toNat

theorem openTimes_le_two (t : Trial) (b : Bracket) : t.openTimes b ≤ 2 := by
  have start := Bool.toNat_le (latest t.status.startTime b.started none).2
  have finish := Bool.toNat_le (earliest t.status.completionTime b.finished).2
  unfold openTimes
  omega

theorem workLeft_le (t : Trial) (brackets : List Bracket) (metrics : List String) :
    t.workLeft brackets metrics ≤ t.workLeft [] metrics + 2 * brackets.length := by
  have times : (brackets.map t.openTimes).sum ≤ (brackets.map t.openTimes).length • 2 :=
    List.sum_le_card_nsmul _ 2 fun x hx => by
      obtain ⟨b, -, rfl⟩ := List.mem_map.mp hx
      exact t.openTimes_le_two b
  rw [List.length_map, smul_eq_mul] at times
  simp only [workLeft, List.map_nil, List.sum_nil]
  omega

theorem workLeft_nil_le (t : Trial) (metrics : List String) :
    t.workLeft [] metrics ≤ t.waitingPatches + (metrics.map t.attemptsLeft).sum + 3 := by
  have unstable := Bool.toNat_le t.isUnstable
  have unobserved := Bool.toNat_le t.isUnobserved
  have live := Bool.toNat_le t.isLive
  simp only [workLeft, List.map_nil, List.sum_nil]
  omega

structure Keeps (t u : Trial) : Prop where
  patches : u.waitingPatches ≤ t.waitingPatches
  stable : u.isUnstable.toNat ≤ t.isUnstable.toNat
  times : ∀ b, u.openTimes b ≤ t.openTimes b
  attempts : ∀ m, u.attemptsLeft m ≤ t.attemptsLeft m
  observed : u.isUnobserved.toNat ≤ t.isUnobserved.toNat

inductive Spends (t : Trial) (brackets : List Bracket) (metrics : List String) (u : Trial) : Prop where
  | patch (fewer : u.waitingPatches < t.waitingPatches)
  | stable (before : t.isUnstable = true) (after : u.isUnstable = false)
  | time {b : Bracket} (mem : b ∈ brackets) (fewer : u.openTimes b < t.openTimes b)
  | attempt {m : String} (mem : m ∈ metrics) (fewer : u.attemptsLeft m < t.attemptsLeft m)
  | observed (before : t.isUnobserved = true) (after : u.isUnobserved = false)
  | closed (after : u.isLive = false)

section
variable (live : t.isLive = true) (keeps : Keeps t u)
include live keeps

theorem Keeps.workLeft : u.workLeft brackets metrics ≤ t.workLeft brackets metrics := by
  have times : (brackets.map u.openTimes).sum ≤ (brackets.map t.openTimes).sum :=
    List.sum_le_sum fun b _ => keeps.times b
  have attempts : (metrics.map u.attemptsLeft).sum ≤ (metrics.map t.attemptsLeft).sum :=
    List.sum_le_sum fun m _ => keeps.attempts m
  have lives : u.isLive.toNat ≤ 1 := Bool.toNat_le _
  obtain ⟨patches, stable, -, -, observed⟩ := keeps
  unfold Trial.workLeft
  rw [live, Bool.toNat_true]
  omega

theorem Spends.workLeft (spends : Spends t brackets metrics u) :
    u.workLeft brackets metrics < t.workLeft brackets metrics := by
  have times : (brackets.map u.openTimes).sum ≤ (brackets.map t.openTimes).sum :=
    List.sum_le_sum fun b _ => keeps.times b
  have attempts : (metrics.map u.attemptsLeft).sum ≤ (metrics.map t.attemptsLeft).sum :=
    List.sum_le_sum fun m _ => keeps.attempts m
  have lives : u.isLive.toNat ≤ 1 := Bool.toNat_le _
  obtain ⟨patches, stable, times_each, attempts_each, observed⟩ := keeps
  unfold Trial.workLeft
  rw [live, Bool.toNat_true]
  cases spends with
  | patch fewer => omega
  | stable before after =>
    rw [before, after, Bool.toNat_true, Bool.toNat_false]
    omega
  | time mem fewer =>
    have less := List.sum_lt_sum u.openTimes t.openTimes (fun b _ => times_each b) ⟨_, mem, fewer⟩
    omega
  | attempt mem fewer =>
    have less := List.sum_lt_sum u.attemptsLeft t.attemptsLeft (fun m _ => attempts_each m) ⟨_, mem, fewer⟩
    omega
  | observed before after =>
    rw [before, after, Bool.toNat_true, Bool.toNat_false]
    omega
  | closed after =>
    rw [after, Bool.toNat_false]
    omega

end

/-! ## Records -/

theorem Keeps.refl (t : Trial) : Keeps t t :=
  ⟨Nat.le_refl _, Nat.le_refl _, fun _ => Nat.le_refl _, fun _ => Nat.le_refl _, Nat.le_refl _⟩

theorem Keeps.trans {v : Trial} (first : Keeps t u) (second : Keeps u v) : Keeps t v :=
  ⟨second.patches.trans first.patches, second.stable.trans first.stable,
    fun b => (second.times b).trans (first.times b), fun m => (second.attempts m).trans (first.attempts m), second.observed.trans first.observed⟩

theorem isUnobserved_record (t : Trial) (kind : ConditionKind) (standing : Standing) (now : Instant) :
    (t.record kind standing now).isUnobserved = (t.isUnobserved && kind != .observed) := by
  unfold isUnobserved record
  by_cases h : kind = .observed
  · subst h
    simp [Ledger.find?_record_self]
  · simp [Ledger.find?_record_of_ne kind standing now _ (Ne.symm h), h]

theorem isUnstable_record (t : Trial) {kind : ConditionKind} (standing : Standing) (now : Instant)
    (h : kind ≠ .stable) : (t.record kind standing now).isUnstable = t.isUnstable := by
  have same : (t.status.conditions.record kind standing now).find? .stable = t.status.conditions.find? .stable :=
    Ledger.find?_record_of_ne kind standing now _ (Ne.symm h)
  simp only [isUnstable, hasWaitingPatches, record, Ledger.compare?, same]

theorem keeps_record (t : Trial) (kind : ConditionKind) (standing : Standing) (now : Instant)
    (stable : kind = .stable → t.isUnstable = true) : Keeps t (t.record kind standing now) := by
  refine ⟨Nat.le_refl _, ?_, fun _ => Nat.le_refl _, fun _ => Nat.le_refl _, ?_⟩
  · by_cases h : kind = .stable
    · rw [stable h]
      exact Bool.toNat_le _
    · rw [t.isUnstable_record standing now h]
  · rw [isUnobserved_record]
    cases t.isUnobserved with
    | false => exact Nat.le_refl _
    | true => exact Bool.toNat_le _

theorem keeps_record_of_ne (t : Trial) {kind : ConditionKind} (standing : Standing) (now : Instant)
    (h : kind ≠ .stable) : Keeps t (t.record kind standing now) :=
  t.keeps_record kind standing now fun same => absurd same h

theorem isUnstable_of_waits (waits : t.hasWaitingPatches = true) : t.isUnstable = true := by
  rw [isUnstable, waits, Bool.true_or]

theorem keeps_awaiting (messages : List String) (now : Instant) (waits : t.hasWaitingPatches = true) :
    Keeps t (t.awaiting messages now) := by
  induction messages generalizing t with
  | nil => exact .refl t
  | cons m messages ih =>
    have recorded : Keeps t (t.recordWaiting m now) := t.keeps_record _ _ now fun _ => isUnstable_of_waits waits
    exact recorded.trans (ih waits)

theorem attemptsLeft_updateValue (t : Trial) (name : String) {f : Value → Value} (named : ∀ v, (f v).name = v.name) :
    (t.updateValue name f).attemptsLeft name = (f (Value.slot name t.spec.values)).attempts.toNat := by
  unfold attemptsLeft updateValue
  rw [Value.slot_update name named]

theorem keeps_updateValue (t : Trial) (name : String) {f : Value → Value} (named : ∀ v, (f v).name = v.name)
    (fewer : ∀ v, (f v).attempts.toNat ≤ v.attempts.toNat) : Keeps t (t.updateValue name f) := by
  refine ⟨Nat.le_refl _, Nat.le_refl _, fun _ => Nat.le_refl _, fun m => ?_, Nat.le_refl _⟩
  by_cases h : m = name
  · subst h
    rw [t.attemptsLeft_updateValue m named]
    exact fewer _
  · unfold attemptsLeft updateValue
    rw [Value.slot, Value.find?_update name m named, if_neg h]
    exact Nat.le_refl _

def narrowed (t : Trial) (b : Bracket) : Trial := { t with status := (t.status.absorb b t.spec.startOffset).1 }

theorem keeps_narrowed (t : Trial) (b : Bracket) : Keeps t (t.narrowed b) := by
  refine ⟨Nat.le_refl _, Nat.le_refl _, fun other => ?_, fun _ => Nat.le_refl _, Nat.le_refl _⟩
  have start : (latest (latest t.status.startTime b.started t.spec.startOffset).1 other.started none).2 = true →
      (latest t.status.startTime other.started none).2 = true := latest_antitone
  have finish : (earliest (earliest t.status.completionTime b.finished).1 other.finished).2 = true →
      (earliest t.status.completionTime other.finished).2 = true := earliest_antitone
  exact Nat.add_le_add (Bool.toNat_le_toNat (Bool.le_iff_imp.mpr start))
    (Bool.toNat_le_toNat (Bool.le_iff_imp.mpr finish))

theorem openTimes_narrowed (t : Trial) {b : Bracket} (moved : (t.status.absorb b t.spec.startOffset).2 = true) :
    (t.narrowed b).openTimes b = 0 ∧ 0 < t.openTimes b := by
  constructor
  · have start : (latest (t.narrowed b).status.startTime b.started none).2 = false := latest_settles ..
    have finish : (earliest (t.narrowed b).status.completionTime b.finished).2 = false := earliest_settles ..
    rw [openTimes, start, finish]
    rfl
  · simp only [TrialStatus.absorb, Bool.or_eq_true, latest_flag _ _ _ none] at moved
    unfold openTimes
    rcases moved with start | finish
    · rw [start, Bool.toNat_true]
      omega
    · rw [finish, Bool.toNat_true]
      omega

theorem not_live_record (t : Trial) {kind : ConditionKind} (reason message : String) (now : Instant)
    (closes : kind = .failed ∨ kind = .complete) : (t.record kind ⟨.true, reason, message⟩ now).isLive = false := by
  have holds : (t.record kind ⟨.true, reason, message⟩ now).status.conditions.holds kind .true = true := by
    simp [record, Ledger.holds_record]
  rcases closes with rfl | rfl <;> simp [isLive, isFinished, holds]

theorem waitingPatches_settled {seen rest : List Patch} {p : Patch} (patches : t.spec.patches = seen ++ p :: rest)
    (waits : p.waits = true) (now : Instant) :
    (t.recordSettled (seen ++ { p with waits := false } :: rest) now).waitingPatches < t.waitingPatches := by
  simp [waitingPatches, recordSettled, record, patches, waits]

theorem keeps_settled {seen rest : List Patch} {p : Patch} (patches : t.spec.patches = seen ++ p :: rest)
    (waits : p.waits = true) (now : Instant) :
    Keeps t (t.recordSettled (seen ++ { p with waits := false } :: rest) now) := by
  have unstable : t.isUnstable = true := isUnstable_of_waits (by simp [hasWaitingPatches, patches, waits])
  have fewer := Nat.le_of_lt (waitingPatches_settled patches waits now)
  refine ⟨fewer, ?_, fun _ => Nat.le_refl _, fun _ => Nat.le_refl _, ?_⟩
  · rw [unstable]
    exact Bool.toNat_le _
  · exact (t.keeps_record .stable (.plain .false) now fun _ => unstable).observed

end Trial

namespace Pass

variable {settings : Settings} {now : Instant} {t u : Trial} {asked : Transcript} {action : Action}
variable {brackets : List Bracket} {metrics : List String}

/-! ## Transitions -/

theorem absorb_eq (t : Trial) (b : Bracket) (failures : List Failure) (now : Instant) :
    (absorb t b failures now).1 =
      (failures.head?.elim t fun f => t.record .failed ⟨.true, f.reason, f.message⟩ now).narrowed b := by
  cases failures <;> rfl

theorem Transition.keeps (made : Transition settings now t asked u action) : t.Keeps u := by
  cases made with
  | @settle seen rest p early patches waits probed =>
    have waiting : t.hasWaitingPatches = true := by simp [Trial.hasWaitingPatches, patches, waits]
    have same : (t.awaiting asked.messages now).spec.patches = seen ++ p :: rest := by rw [Trial.awaiting_eq, patches]
    exact (Trial.keeps_awaiting asked.messages now waiting).trans (Trial.keeps_settled same waits now)
  | failWaiting early waits probed final =>
    exact (Trial.keeps_awaiting asked.messages now waits).trans (Trial.keeps_record_of_ne _ _ now (by decide))
  | wait early waits longest => exact Trial.keeps_awaiting asked.messages now waits
  | stabilize early still unstable =>
    refine t.keeps_record .stable _ now fun _ => ?_
    simp [Trial.isUnstable, unstable]
  | @absorb w units b failures early ready shown view changed =>
    rw [absorb_eq]
    cases failures with
    | nil => exact t.keeps_narrowed b
    | cons f rest => exact (t.keeps_record_of_ne _ now (by decide)).trans (Trial.keeps_narrowed _ b)
  | observe looked idle ready ended declared unobserved => exact t.keeps_record_of_ne _ now (by decide)
  | @capture e m c looked attempted ready ended observed next finite =>
    have settled := t.keeps_updateValue (f := (·.settle c)) m.name (fun _ => rfl) fun v => Nat.zero_le _
    simp only [Trial.recordCaptured, Trial.updateValue, Value.update_update]
    exact settled.trans (Trial.keeps_record_of_ne _ _ now (by decide))
  | @miss e m f looked attempted final ready ended observed next =>
    have spent := t.keeps_updateValue (f := Value.spend) m.name (fun _ => rfl) Value.spend_le
    rw [Trial.recordMissed_eq]
    split
    · exact spent.trans (Trial.keeps_record_of_ne _ _ now (by decide))
    · exact spent.trans (Trial.keeps_record_of_ne _ _ now (by decide))
  | complete looked idle ready ended observed none_next =>
    unfold Trial.recordComplete
    dsimp only
    split
    · exact (t.keeps_record_of_ne _ now (by decide)).trans (Trial.keeps_record_of_ne _ _ now (by decide))
    · exact t.keeps_record_of_ne _ now (by decide)

/-- A transition after which no delay is asked for uses something up. -/
theorem Transition.spends (made : Transition settings now t asked u .done)
    (shows : ∀ {w units b failures}, asked.Shows w units → w.view units = .consistent b failures → b ∈ brackets)
    (declares : ∀ {e m}, asked.experiment? = some e → m ∈ e.metrics → m.name ∈ metrics) :
    t.Spends brackets metrics u := by
  cases made with
  | @settle seen rest p early patches waits probed =>
    have same : (t.awaiting asked.messages now).spec.patches = seen ++ p :: rest := by rw [Trial.awaiting_eq, patches]
    have fewer := Trial.waitingPatches_settled same waits now
    refine .patch (fewer.trans_eq ?_)
    rw [Trial.awaiting_eq]
    rfl
  | failWaiting early waits probed final => exact .closed (Trial.not_live_record _ _ _ now (.inl rfl))
  | stabilize early still unstable =>
    refine .stable (by simp [Trial.isUnstable, unstable]) ?_
    have stable : (t.record .stable (.plain .true) now).status.conditions.compare? .stable .true = some true := by
      simp [Ledger.compare?_eq, Trial.record, Ledger.standing?_record, Standing.plain]
    have patches : (t.record .stable (.plain .true) now).hasWaitingPatches = false := still
    rw [Trial.isUnstable, stable, patches]
    rfl
  | @absorb w units b failures early ready shown view changed =>
    rw [absorb_eq]
    cases failures with
    | nil =>
      have moved : (t.status.absorb b t.spec.startOffset).2 = true := by simpa [Pass.absorb] using changed
      obtain ⟨none_left, some_open⟩ := t.openTimes_narrowed moved
      exact .time (shows shown view) (none_left ▸ some_open)
    | cons f rest =>
      exact .closed (t.not_live_record f.reason f.message now (.inl rfl))
  | observe looked idle ready ended declared unobserved =>
    refine .observed (by rw [Trial.isUnobserved, unobserved]; rfl) ?_
    rw [Trial.isUnobserved_record, Bool.and_eq_false_iff]
    exact .inr rfl
  | @capture e m c looked attempted ready ended observed next finite =>
    have spent := Value.spend_attempts (Trial.nextMetric?_unresolved next)
    refine .attempt (declares looked (List.mem_of_find?_eq_some next)) ?_
    simp only [Trial.recordCaptured, Trial.updateValue, Value.update_update]
    show (t.updateValue m.name (·.settle c)).attemptsLeft m.name < _
    rw [t.attemptsLeft_updateValue (f := (·.settle c)) m.name fun _ => rfl]
    exact Nat.lt_of_le_of_lt (Nat.zero_le _) (Nat.lt_of_succ_le (Nat.le_of_eq spent))
  | @miss e m f looked attempted final ready ended observed next =>
    have spent := Value.spend_attempts (Trial.nextMetric?_unresolved next)
    have fewer : (t.updateValue m.name Value.spend).attemptsLeft m.name < t.attemptsLeft m.name := by
      rw [t.attemptsLeft_updateValue (f := Value.spend) m.name fun _ => rfl]
      exact Nat.lt_of_succ_le (Nat.le_of_eq spent)
    refine .attempt (declares looked (List.mem_of_find?_eq_some next)) ?_
    rw [Trial.recordMissed_eq]
    split <;> exact fewer
  | complete looked idle ready ended observed none_next =>
    exact .closed (Trial.not_live_record _ _ _ now (.inr rfl))

end Pass

/-! ## What a commit stores -/

namespace Part

variable {t u : Trial}

theorem metadata_merge (same : u.metadata = t.metadata) (part : Part) (n : UInt64) :
    ((part.merge t u.syncPhase).withVersion n).metadata = { t.metadata with version := n } := by
  have labels : u.syncPhase.metadata.labels = t.metadata.labels := congrArg Metadata.labels same
  cases part with
  | whole => simp only [merge, Trial.withVersion, labels]
  | status => rfl

theorem workLeft_merge (same : u.metadata = t.metadata) (n : UInt64) (brackets : List Bracket) (metrics : List String) :
    (((toUpdate t.spec u).merge t u.syncPhase).withVersion n).workLeft brackets metrics =
      u.workLeft brackets metrics := by
  generalize stored : ((toUpdate t.spec u).merge t u.syncPhase).withVersion n = v
  have marks : v.spec.patches.map (·.waits) = u.spec.patches.map (·.waits) := by
    rw [← stored]
    exact (marks_merge t u).1
  have values : v.spec.values = u.spec.values := by rw [← stored]; exact (marks_merge t u).2
  have status : v.status = u.syncPhase.status := by rw [← stored]; exact status_merge ..
  have deleted : v.metadata.deletedAt = u.metadata.deletedAt := by rw [← stored, metadata_merge same, same]
  have waiting : v.waitingPatches = u.waitingPatches := by
    have counted := congrArg (List.countP id) marks
    rwa [List.countP_map, List.countP_map] at counted
  have waits : v.hasWaitingPatches = u.hasWaitingPatches := by rw [← stored]; exact waits_merge t u n
  simp only [Trial.workLeft, Trial.isUnstable, Trial.isUnobserved, Trial.isLive, Trial.isFinished, Metadata.isDeleted,
    waiting, waits, deleted, status]
  have times : v.openTimes = u.openTimes := by
    funext b
    rw [Trial.openTimes, status]
    rfl
  have attempts : v.attemptsLeft = u.attemptsLeft := by
    funext m
    rw [Trial.attemptsLeft, values]
    rfl
  rw [times, attempts]
  rfl

end Part

end TrialControl
