import TrialControl.Pass.Reconcile
import TrialControl.Proofs.Brackets
import TrialControl.Proofs.Ledgers
import TrialControl.Proofs.Plans

/-!
# What a pass can do

A pass that goes on with a trial is a tree of looks at its surroundings. It ends without a write, or
with the commit of one transition of the trial, or with the creation of its run workload; nothing is
asked after a write. `Rest` is the shape of the tree and `Transition` lists the transitions, each with
what was found out before it.
-/

namespace TrialControl

def Standing.waiting (message : String) : Standing := ⟨.false, "Waiting", message⟩

namespace Trial

def isLive (t : Trial) : Bool := !t.isFinished && !t.metadata.isDeleted

theorem isLive_eq (t : Trial) : t.isLive = !(t.isFinished || t.metadata.isDeleted) := (Bool.not_or ..).symm

theorem not_over_of_live {t : Trial} (live : t.isLive = true) : ¬ (t.isFinished || t.metadata.isDeleted) = true := by
  rw [isLive_eq] at live
  simpa using live

theorem unfinished_of_live (t : Trial) (live : t.isLive = true) :
    t.status.conditions.holds .complete .true = false ∧ t.status.conditions.holds .failed .true = false := by
  simp only [isLive, isFinished, Bool.and_eq_true, Bool.not_eq_true', Bool.or_eq_false_iff] at live
  exact live.1

def awaiting (t : Trial) (messages : List String) (now : Instant) : Trial :=
  messages.foldl (fun t m => t.recordWaiting m now) t

theorem awaiting_concat (t : Trial) (messages : List String) (m : String) (now : Instant) :
    t.awaiting (messages ++ [m]) now = (t.awaiting messages now).recordWaiting m now := by
  simp [awaiting]

theorem awaiting_eq (t : Trial) (messages : List String) (now : Instant) :
    t.awaiting messages now =
      { t with
        status.conditions :=
          messages.foldl (fun l m => l.record .stable (.waiting m) now) t.status.conditions } := by
  induction messages generalizing t with
  | nil => rfl
  | cons m messages ih => exact ih _

theorem find?_awaiting (t : Trial) (messages : List String) (now : Instant) {kind : ConditionKind}
    (h : kind ≠ .stable) :
    (t.awaiting messages now).status.conditions.find? kind = t.status.conditions.find? kind := by
  induction messages generalizing t with
  | nil => rfl
  | cons m messages ih => exact (ih _).trans (Ledger.find?_record_of_ne _ _ now _ h)

theorem holds_awaiting (t : Trial) (messages : List String) (now : Instant) {kind : ConditionKind}
    (h : kind ≠ .stable) (status : Truth) :
    (t.awaiting messages now).status.conditions.holds kind status = t.status.conditions.holds kind status := by
  simp only [Ledger.holds, Ledger.compare?, t.find?_awaiting messages now h]

theorem find?_awaiting_stable (t : Trial) (messages : List String) (now : Instant) {c : Condition}
    (found : t.status.conditions.find? .stable = some c) :
    (t.awaiting messages now).status.conditions.find? .stable =
      some ((messages.map Standing.waiting).foldl (Condition.taking now) c) := by
  induction messages generalizing t c with
  | nil => exact found
  | cons m messages ih =>
    refine ih (t.recordWaiting m now) ?_
    exact (Ledger.find?_record_self .stable (.waiting m) now _).trans (by rw [found]; rfl)

end Trial

namespace Pass

/-- No patch of the trial waits, it has been stable for long enough, and its patches are evaluated. -/
structure Ready (settings : Settings) (now : Instant) (t : Trial) : Prop where
  still : t.hasWaitingPatches = false
  stable : t.status.conditions.compare? .stable .true ≠ some false
  graced : ((t.status.conditions.find? .stable).any fun c => inGrace settings.grace c.since now) = false
  patched : t.status.conditions.holds .patched .unknown = false

/-- The transitions of a trial in a pass, with the trial to commit and the action of the pass, after
what was asked. -/
inductive Transition (settings : Settings) (now : Instant) (t : Trial) (asked : Transcript) :
    Trial → Action → Prop where
  | settle {seen rest : List Patch} {p : Patch} (early : asked.experiment? = none)
      (patches : t.spec.patches = seen ++ p :: rest) (waits : p.waits = true)
      (probed : asked.head? = some ⟨.probe p, .ok ()⟩) :
      Transition settings now t asked
        ((t.awaiting asked.messages now).recordSettled (seen ++ { p with waits := false } :: rest) now) .done
  | failWaiting {p : Patch} {e : Unsettled} (early : asked.experiment? = none) (waits : t.hasWaitingPatches = true)
      (probed : asked.head? = some ⟨.probe p, .error e⟩) (final : e.retryDelay? = none) :
      Transition settings now t asked ((t.awaiting asked.messages now).recordWaitFailed e.message now) .done
  | wait {delay : Duration} (early : asked.experiment? = none) (waits : t.hasWaitingPatches = true)
      (longest : asked.longest? = some delay) :
      Transition settings now t asked (t.awaiting asked.messages now) (.requeueAfter delay)
  | stabilize (early : asked.experiment? = none) (still : t.hasWaitingPatches = false)
      (unstable : t.status.conditions.compare? .stable .true = some false) :
      Transition settings now t asked (t.record .stable (.plain .true) now) .done
  | absorb {w : Workload} {units : List ExecutionUnit} {b : Bracket} {failures : List Failure}
      (early : asked.experiment? = none) (ready : Ready settings now t) (shown : asked.Shows w units)
      (view : w.view units = .consistent b failures) (changed : (absorb t b failures now).2 = true) :
      Transition settings now t asked (absorb t b failures now).1 .done
  | observe {e : Experiment} (looked : asked.experiment? = some e) (idle : asked.attempt? = none)
      (ready : Ready settings now t) (ended : t.status.completionTime.isSome = true)
      (declared : e.metrics ≠ []) (unobserved : t.status.conditions.find? .observed = none) :
      Transition settings now t asked (t.record .observed (.plain .unknown) now) .done
  | capture {e : Experiment} {m : Metric} {c : Captured} (looked : asked.experiment? = some e)
      (attempted : asked.attempt? = some (m.name, .ok c)) (ready : Ready settings now t)
      (ended : t.status.completionTime.isSome = true)
      (observed : (t.status.conditions.find? .observed).isSome = true) (next : t.nextMetric? e.metrics = some m)
      (finite : c.value.isFinite = true ∧ c.deviation.isFinite = true) :
      Transition settings now t asked ((t.updateValue m.name id).recordCaptured m.name c now) .done
  | miss {e : Experiment} {m : Metric} {f : CaptureFailure} (looked : asked.experiment? = some e)
      (attempted : asked.attempt? = some (m.name, .error f)) (final : f.retryDelay? = none)
      (ready : Ready settings now t) (ended : t.status.completionTime.isSome = true)
      (observed : (t.status.conditions.find? .observed).isSome = true) (next : t.nextMetric? e.metrics = some m) :
      Transition settings now t asked ((t.updateValue m.name id).recordMissed m.name f.message now) .done
  | complete {e : Experiment} (looked : asked.experiment? = some e) (idle : asked.attempt? = none)
      (ready : Ready settings now t) (ended : t.status.completionTime.isSome = true)
      (observed : e.metrics = [] ∨ (t.status.conditions.find? .observed).isSome = true)
      (none_next : t.nextMetric? e.metrics = none) :
      Transition settings now t asked (t.recordComplete now) .done

inductive Deferred (settings : Settings) (now : Instant) (t : Trial) (asked : Transcript) : Duration → Prop where
  | grace (still : t.hasWaitingPatches = false)
      (graced : ((t.status.conditions.find? .stable).any fun c => inGrace settings.grace c.since now) = true) :
      Deferred settings now t asked settings.grace
  | capture {name : String} {f : CaptureFailure} {delay : Duration} (ready : Ready settings now t)
      (attempted : asked.attempt? = some (name, .error f)) (transient : f.retryDelay? = some delay) :
      Deferred settings now t asked delay

/-- The plans that a pass may go on with once it has read a live trial, after what was asked. -/
inductive Rest (settings : Settings) (now : Instant) (t : Trial) : Transcript → Plan Outcome → Prop where
  | stop {asked : Transcript} (outcome : Outcome)
      (deferred : ∀ delay, outcome = .ok (.requeueAfter delay) → Deferred settings now t asked delay) :
      Rest settings now t asked (.done outcome)
  | look {asked : Transcript} {c : Call} {next : c.Answer → Plan Outcome} (looks : c.looks = true)
      (rest : ∀ r, Rest settings now t (⟨c, r⟩ :: asked) (next r)) : Rest settings now t asked (.ask c next)
  | commit {asked : Transcript} {u : Trial} {action : Action} (made : Transition settings now t asked u action) :
      Rest settings now t asked (commit t.spec u action)
  | create {asked : Transcript} {found : List Workload} (ready : Ready settings now t)
      (listed : asked.head? = some ⟨.listWorkloads t.metadata.ns t.ownSelector, .ok found⟩)
      (unrun : asked.runs = []) : Rest settings now t asked (createRun settings t)

variable {settings : Settings} {now : Instant} {t : Trial} {asked : Transcript}

theorem Transition.metadata_eq {u : Trial} {action : Action} (made : Transition settings now t asked u action) :
    u.metadata = t.metadata := by
  cases made with
  | settle early patches waits probed => rw [Trial.awaiting_eq]; rfl
  | failWaiting early waits probed final => rw [Trial.awaiting_eq]; rfl
  | wait early waits longest => rw [Trial.awaiting_eq]
  | stabilize early still unstable => rfl
  | absorb early ready shown view changed => rfl
  | observe looked idle ready ended declared unobserved => rfl
  | capture looked attempted ready ended observed next finite => rfl
  | miss looked attempted final ready ended observed next =>
    unfold Trial.recordMissed
    dsimp only
    split <;> rfl
  | complete looked idle ready ended observed none_next =>
    unfold Trial.recordComplete
    dsimp only
    split <;> rfl

theorem Transition.ends {u : Trial} {action : Action} (made : Transition settings now t asked u action) :
    action = .done ∨ ∃ delay, action = .requeueAfter delay := by
  cases made with
  | wait early waits longest => exact .inr ⟨_, rfl⟩
  | _ => exact .inl rfl

/-- How a condition follows from the one before: by what the scan has recorded, which concerns Stable,
and by one more record at the most. -/
theorem Transition.recorded {u : Trial} {action : Action} (made : Transition settings now t asked u action)
    {kind : ConditionKind} {c : Condition} (found : t.status.conditions.find? kind = some c) :
    ∃ (ms : List String) (last : Option Standing), (∀ m ∈ ms, kind = .stable ∧ m ∈ asked.messages) ∧
      u.status.conditions.find? kind =
        some ((ms.map Standing.waiting ++ last.toList).foldl (Condition.taking now) c) := by
  have scanned : ∃ ms : List String, (∀ m ∈ ms, kind = .stable ∧ m ∈ asked.messages) ∧
      (t.awaiting asked.messages now).status.conditions.find? kind =
        some ((ms.map Standing.waiting).foldl (Condition.taking now) c) := by
    by_cases h : kind = .stable
    · subst h
      exact ⟨asked.messages, fun m hm => ⟨rfl, hm⟩, t.find?_awaiting_stable asked.messages now found⟩
    · exact ⟨[], (fun m hm => by cases hm), (t.find?_awaiting asked.messages now h).trans found⟩
  have once (other : ConditionKind) (standing : Standing) : ∃ (ms : List String) (last : Option Standing),
      (∀ m ∈ ms, kind = .stable ∧ m ∈ asked.messages) ∧ (t.status.conditions.record other standing now).find? kind =
        some ((ms.map Standing.waiting ++ last.toList).foldl (Condition.taking now) c) := by
    obtain ⟨last, recorded⟩ := Ledger.find?_record_of_some other standing now _ found
    exact ⟨[], last, (fun m hm => by cases hm), recorded⟩
  cases made with
  | settle early patches waits probed =>
    obtain ⟨ms, mem, scanned⟩ := scanned
    obtain ⟨last, recorded⟩ := Ledger.find?_record_of_some .stable (.plain .false) now _ scanned
    exact ⟨ms, last, mem, by rw [List.foldl_append]; exact recorded⟩
  | @failWaiting p e early waits probed final =>
    obtain ⟨ms, mem, scanned⟩ := scanned
    obtain ⟨last, recorded⟩ := Ledger.find?_record_of_some .failed ⟨.true, "WaitFailed", e.message⟩ now _ scanned
    exact ⟨ms, last, mem, by rw [List.foldl_append]; exact recorded⟩
  | wait early waits longest =>
    obtain ⟨ms, mem, scanned⟩ := scanned
    exact ⟨ms, none, mem, by simpa using scanned⟩
  | stabilize early still unstable => exact once .stable _
  | @absorb w units b failures early ready shown view changed =>
    cases failures with
    | nil => exact ⟨[], none, (fun m hm => by cases hm), found⟩
    | cons f rest => exact once .failed _
  | observe looked idle ready ended declared unobserved => exact once .observed _
  | capture looked attempted ready ended observed next finite => exact once .observed _
  | miss looked attempted final ready ended observed next =>
    unfold Trial.recordMissed
    dsimp only
    split
    · exact once .failed _
    · exact once .observed _
  | complete looked idle ready ended observed none_next =>
    unfold Trial.recordComplete
    dsimp only
    split
    · -- the two records concern different kinds
      by_cases h : kind = .complete
      · subst h
        have kept : (t.status.conditions.record .observed (.plain .true) now).find? .complete = some c :=
          (Ledger.find?_record_of_ne _ _ now _ (by decide)).trans found
        obtain ⟨last, recorded⟩ := Ledger.find?_record_of_some .complete (.plain .true) now _ kept
        exact ⟨[], last, (fun m hm => by cases hm), recorded⟩
      · obtain ⟨ms, last, mem, recorded⟩ := once .observed (.plain .true)
        exact ⟨ms, last, mem, (Ledger.find?_record_of_ne _ _ now _ h).trans recorded⟩
    · exact once .complete _

theorem Rest.bind {α : Type} {Q : Transcript → α → Prop} {f : α → Plan Outcome} {p : Plan α}
    (h : p.Ensures (·.looks = true) Q asked) (hf : ∀ told a, Q told a → Rest settings now t told (f a)) :
    Rest settings now t asked (p.bind f) := by
  induction p generalizing asked with
  | done a => exact hf asked a h
  | ask c next ih => exact .look h.1 fun r => ih r (h.2 r)

/-! ## The scan -/

def Scanned (settings : Settings) (now : Instant) (t : Trial) (asked : Transcript) : Scan → Prop
  | .idle => asked.trial? = some t ∧ asked.experiment? = none ∧ t.hasWaitingPatches = false
  | .changed u => Transition settings now t asked u .done
  | .waiting u delay => Transition settings now t asked u (.requeueAfter delay)

structure Scanning (now : Instant) (t u : Trial) (asked : Transcript) (seen : List Patch) : Prop where
  read : asked.trial? = some t
  early : asked.experiment? = none
  recorded : u = t.awaiting asked.messages now
  waits : t.hasWaitingPatches = true ∨ asked.longest? = none
  passed : seen.any (·.waits) = false ∨ asked.longest? ≠ none

section
variable {u : Trial} {seen : List Patch} {p : Patch} {e : Unsettled} {d : Duration}

theorem Scanning.pass (scan : Scanning now t u asked seen) (still : p.waits = false) :
    Scanning now t u asked (seen ++ [p]) := by
  refine ⟨scan.read, scan.early, scan.recorded, scan.waits, scan.passed.imp_left fun h => ?_⟩
  simp [h, still]

theorem Scanning.ask (scan : Scanning now t u asked seen) (waits : t.hasWaitingPatches = true)
    (pending : e.retryDelay? = some d) (longer : asked.longest?.all (· < d) = true) :
    Scanning now t (u.recordWaiting e.message now) (⟨.probe p, .error e⟩ :: asked) (seen ++ [p]) := by
  refine ⟨scan.read, scan.early, ?_, .inl waits, .inr ?_⟩
  · rw [scan.recorded, (Transcript.messages_cons_pending p pending).trans (if_pos longer)]
    exact (t.awaiting_concat asked.messages e.message now).symm
  · rw [(Transcript.longest?_cons_pending p pending).trans (if_pos longer)]
    simp

/-- A patch that asks for a delay no longer than an earlier one leaves only its place behind. -/
theorem Scanning.defer (scan : Scanning now t u asked seen) (pending : e.retryDelay? = some d)
    (longer : ¬ asked.longest?.all (· < d) = true) :
    Scanning now t u (⟨.probe p, .error e⟩ :: asked) (seen ++ [p]) := by
  have longest : Transcript.longest? (⟨.probe p, .error e⟩ :: asked) = asked.longest? :=
    (Transcript.longest?_cons_pending p pending).trans (if_neg longer)
  refine ⟨scan.read, scan.early, ?_, ?_, .inr ?_⟩
  · rw [scan.recorded, (Transcript.messages_cons_pending p pending).trans (if_neg longer)]
  · rw [longest]
    exact scan.waits
  · rw [longest]
    intro h
    exact longer (by simp [h])

end

theorem scanFrom_ensures (ps : List Patch) {u : Trial} {seen : List Patch} (patches : t.spec.patches = seen ++ ps)
    (scan : Scanning now t u asked seen) :
    (Trial.scanFrom now u asked.longest? seen ps).Ensures (·.looks = true) (Scanned settings now t) asked := by
  induction ps generalizing u asked seen with
  | nil =>
    obtain ⟨read, early, rfl, waits, passed⟩ := scan
    unfold Trial.scanFrom
    cases longest : asked.longest? with
    | none =>
      have h := passed.resolve_right (not_not_intro longest)
      exact ⟨read, early, by simpa [Trial.hasWaitingPatches, patches] using h⟩
    | some d => exact .wait early (waits.resolve_right (by simp [longest])) longest
  | cons p ps ih =>
    have rest : t.spec.patches = (seen ++ [p]) ++ ps := by simp [patches]
    unfold Trial.scanFrom
    by_cases hw : p.waits = true
    · have waits : t.hasWaitingPatches = true := by simp [Trial.hasWaitingPatches, patches, hw]
      rw [if_pos hw]
      refine ⟨rfl, fun r => ?_⟩
      rcases r with e | _
      · dsimp only
        cases pending : e.retryDelay? with
        | none =>
          have final : Unsettled.request? (.error e) = none := by simp [Unsettled.request?, pending]
          rw [scan.recorded, ← Transcript.messages_cons_final p final]
          exact .failWaiting scan.early waits rfl pending
        | some d =>
          dsimp only
          by_cases longer : asked.longest?.all (· < d) = true
          · rw [if_pos longer, ← (Transcript.longest?_cons_pending p pending).trans (if_pos longer)]
            exact ih rest (scan.ask waits pending longer)
          · rw [if_neg longer, ← (Transcript.longest?_cons_pending p pending).trans (if_neg longer)]
            exact ih rest (scan.defer pending longer)
      · have final : Unsettled.request? (.ok ()) = none := rfl
        rw [scan.recorded, ← Transcript.messages_cons_final p final]
        exact .settle scan.early patches hw rfl
    · rw [if_neg hw]
      exact ih rest (scan.pass (by simpa using hw))

theorem scan_ensures (settings : Settings) (t : Trial) (key : ObjectKey) :
    (t.scan now).Ensures (·.looks = true) (Scanned settings now t) [⟨.getTrial key, .ok t⟩] := by
  have start : Scanning now t t [⟨.getTrial key, .ok t⟩] [] := ⟨rfl, rfl, rfl, .inr rfl, .inl rfl⟩
  exact scanFrom_ensures _ rfl start

/-! ## Collecting -/

def Collected (settings : Settings) (now : Instant) (t : Trial) (asked : Transcript) : Collection → Prop
  | .changed u => Transition settings now t asked u .done
  | .delayed delay => Deferred settings now t asked delay

theorem Captured.finite_eq_ok {name : String} {c d : Captured} (h : c.finite name = .ok d) :
    d.value.isFinite = true ∧ d.deviation.isFinite = true := by
  unfold Captured.finite at h
  split at h
  · next finite =>
    cases h
    simpa using finite
  · cases h

/-- The attempt at the metric whose turn it is can be read off the transcript. -/
theorem attempt_ensures {e : Experiment} {m : Metric} (read : asked.trial? = some t)
    (looked : asked.experiment? = some e) (next : t.nextMetric? e.metrics = some m) (u : Trial) :
    (m.attempt u).Ensures (·.looks = true)
      (fun told r => told.experiment? = some e ∧ told.attempt? = some (m.name, r) ∧
        ∀ c, r = .ok c → c.value.isFinite = true ∧ c.deviation.isFinite = true) asked := by
  have resolved : (m.resolve u.targetNs).Ensures (·.looks = true)
      (fun told r => told.experiment? = some e ∧ told.trial? = some t ∧
        ∀ f, r = .error f → told.attempt? = some (m.name, .error (.ofError f))) asked := by
    unfold Metric.resolve
    cases m.kind.scope with
    | nothing => exact ⟨looked, read, nofun⟩
    | unitsOfNamespace =>
      refine ⟨rfl, fun r => ⟨looked, read, fun f h => ?_⟩⟩
      cases r with
      | ok units => cases h
      | error e =>
        cases h
        exact Transcript.attempt?_cons read looked next
    | servicesOfCluster =>
      refine ⟨rfl, fun r => ⟨looked, read, fun f h => ?_⟩⟩
      cases r with
      | ok services => cases h
      | error e =>
        cases h
        exact Transcript.attempt?_cons read looked next
  refine resolved.bind fun told target ⟨looked, read, failed⟩ => ?_
  cases target with
  | error f =>
    refine ⟨looked, failed f rfl, fun c h => ?_⟩
    cases h
  | ok target =>
    refine ⟨rfl, fun r => ⟨looked, Transcript.attempt?_cons read looked next, fun c h => ?_⟩⟩
    cases r with
    | error f => cases h
    | ok d => exact Captured.finite_eq_ok h

theorem collect_ensures {e : Experiment} (read : asked.trial? = some t) (looked : asked.experiment? = some e)
    (idle : asked.attempt? = none) (ready : Ready settings now t) (ended : t.status.completionTime.isSome = true) :
    (t.collect e.metrics now).Ensures (·.looks = true) (Collected settings now t) asked := by
  unfold Trial.collect
  by_cases first : (!e.metrics.isEmpty && (t.status.conditions.find? .observed).isNone) = true
  · rw [if_pos first]
    simp only [Bool.and_eq_true, Bool.not_eq_true', List.isEmpty_eq_false_iff, Option.isNone_iff_eq_none] at first
    exact .observe looked idle ready ended first.1 first.2
  · rw [if_neg first]
    have observed : e.metrics = [] ∨ (t.status.conditions.find? .observed).isSome = true := by
      cases hm : e.metrics <;> cases ho : t.status.conditions.find? .observed <;> simp_all
    cases next : t.nextMetric? e.metrics with
    | none => exact .complete looked idle ready ended observed next
    | some m =>
      have observed := observed.resolve_left fun h => by simp [h, Trial.nextMetric?] at next
      refine (attempt_ensures read looked next _).bind fun told r ⟨looked, attempted, finite⟩ => ?_
      cases r with
      | ok c => exact .capture looked attempted ready ended observed next (finite c rfl)
      | error f =>
        dsimp only
        cases final : f.retryDelay? with
        | some d => exact .capture ready attempted final
        | none => exact .miss looked attempted final ready ended observed next

/-! ## The pass -/

theorem rest_measure (read : asked.trial? = some t) (early : asked.experiment? = none)
    (ready : Ready settings now t) : Rest settings now t asked (measure t.spec t now) := by
  unfold measure
  by_cases unended : t.status.completionTime.isNone = true
  · rw [if_pos unended]; exact .stop _ nofun
  · rw [if_neg unended]
    have ended : t.status.completionTime.isSome = true := by
      cases h : t.status.completionTime <;> simp_all
    cases named : t.experimentKey with
    | error e => exact .stop _ nofun
    | ok key =>
      refine .look rfl fun r => ?_
      cases r with
      | error e => exact .stop _ nofun
      | ok e =>
        have idle := Transcript.attempt?_cons_of_early (x := ⟨.getExperiment key, .ok e⟩) early
        refine Rest.bind (collect_ensures read rfl idle ready ended) fun told c collected => ?_
        cases c with
        | changed u => exact .commit collected
        | delayed d =>
          refine .stop _ fun delay after => ?_
          cases after
          exact collected

theorem absorb_unchanged {b : Bracket} {failures : List Failure} (h : (absorb t b failures now).2 = false) :
    (absorb t b failures now).1 = t := by
  unfold absorb at h ⊢
  cases hf : failures.head? with
  | none =>
    simp only [hf, Bool.false_or] at h ⊢
    rw [TrialStatus.absorb_unchanged h]
  | some f =>
    simp only [hf, Bool.or_eq_false_iff] at h ⊢
    have same : t.status.conditions.record .failed ⟨.true, f.reason, f.message⟩ now = t.status.conditions := by
      rw [Ledger.record_eq_self_iff]
      exact Decidable.not_not.mp fun n => by simp [(Ledger.changes_iff ..).mpr n] at h
    rw [same] at h ⊢
    rw [TrialStatus.absorb_unchanged h.2]

theorem rest_follow (asked : Transcript) (read : asked.trial? = some t) (early : asked.experiment? = none)
    (ready : Ready settings now t) (ws : List Workload) (found : ∀ w ∈ ws, w ∈ asked.runs) :
    Rest settings now t asked (follow t.spec t now ws) := by
  induction ws generalizing asked with
  | nil => exact rest_measure read early ready
  | cons w ws ih =>
    refine .look rfl fun r => ?_
    cases r with
    | error e => exact .stop _ nofun
    | ok units =>
      dsimp only
      cases view : w.view units with
      | lagging => exact .stop _ nofun
      | consistent b failures =>
        dsimp only
        cases changed : (absorb t b failures now).2 with
        | true => exact .commit (.absorb early ready ⟨found w (List.mem_cons_self ..), rfl⟩ view changed)
        | false =>
          rw [absorb_unchanged changed]
          exact ih _ read early fun w hw => found w (List.mem_cons_of_mem _ hw)

theorem rest_proceed (t : Trial) (key : ObjectKey) :
    Rest settings now t [⟨.getTrial key, .ok t⟩] (proceed settings t now) := by
  refine Rest.bind (scan_ensures settings t key) fun told scan scanned => ?_
  cases scan with
  | changed u => exact .commit scanned
  | waiting u delay => exact .commit scanned
  | idle =>
    obtain ⟨read, early, still⟩ := scanned
    dsimp only
    unfold advance
    by_cases unstable : t.status.conditions.compare? .stable .true = some false
    · rw [if_pos unstable]; exact .commit (.stabilize early still unstable)
    · rw [if_neg unstable]
      split
      · next graced =>
        refine .stop _ fun delay after => ?_
        cases after
        exact .grace still graced
      · next graced =>
        split
        · exact .stop _ nofun
        · next patched =>
          have ready : Ready settings now t :=
            ⟨still, unstable, by simpa using graced, by simpa using patched⟩
          refine .look rfl fun r => ?_
          cases r with
          | error e => exact .stop _ nofun
          | ok found =>
            dsimp only
            split
            · next unrun => exact .create ready rfl unrun
            · exact rest_follow (⟨.listWorkloads t.metadata.ns t.ownSelector, .ok found⟩ :: told) read early ready _
                fun w hw => hw

/-- Where a pass can be: it has asked nothing yet, or goes on with the live trial that it read, or has
ended. -/
inductive Stage (settings : Settings) (key : ObjectKey) (now : Instant) : Transcript → Plan Outcome → Prop where
  | unread : Stage settings key now [] (reconcile settings key now)
  | going {t : Trial} {asked : Transcript} {p : Plan Outcome} (live : t.isLive = true)
      (read : asked.trial? = some t) (rest : Rest settings now t asked p) : Stage settings key now asked p
  | ended (asked : Transcript) (outcome : Outcome) : Stage settings key now asked (.done outcome)

theorem stage_of_reaches {key : ObjectKey} {p : Plan Outcome}
    (reaches : (reconcile settings key now).Reaches asked p) : Stage settings key now asked p := by
  induction reaches with
  | start => exact .unread
  | @answer asked c next reaches r ih =>
    generalize hp : Plan.ask c next = p at ih
    cases ih with
    | unread =>
      cases hp
      cases r with
      | error e => exact .ended _ _
      | ok t =>
        dsimp only
        split
        · exact .ended _ _
        · next live => exact .going (by simp [Trial.isLive_eq, live]) rfl (rest_proceed t key)
    | going live read rest =>
      cases rest with
      | stop outcome => cases hp
      | look looks rest =>
        cases hp
        exact .going live ((Transcript.trial?_cons_of_looks looks).trans read) (rest r)
      | commit made =>
        cases hp
        cases r <;> exact .ended _ _
      | create ready =>
        cases hp
        cases r with
        | ok w => exact .ended _ _
        | error e => cases e <;> exact .ended _ _
    | ended asked outcome => cases hp

theorem commit_of_reaches {key : ObjectKey} {v : Trial} {part : Part} {next : Except Error Trial → Plan Outcome}
    (reaches : (reconcile settings key now).Reaches asked (.ask (.updateTrial v part) next)) :
    ∃ t u action, t.isLive = true ∧ asked.trial? = some t ∧ Transition settings now t asked u action ∧
      .ask (.updateTrial v part) next = commit t.spec u action := by
  have stage := stage_of_reaches reaches
  generalize hp : Plan.ask (.updateTrial v part) next = p at stage
  cases stage with
  | unread => cases hp
  | @going t _ _ live read rest =>
    cases rest with
    | stop outcome => cases hp
    | look looks rest =>
      cases hp
      cases looks
    | @commit _ u action made => exact ⟨t, u, action, live, read, made, rfl⟩
    | create ready => cases hp
  | ended asked outcome => cases hp

theorem create_of_reaches {key : ObjectKey} {w : Workload} {next : Except Error Workload → Plan Outcome}
    (reaches : (reconcile settings key now).Reaches asked (.ask (.createWorkload w) next)) :
    ∃ t found, t.isLive = true ∧ asked.trial? = some t ∧ Ready settings now t ∧
      asked.head? = some ⟨.listWorkloads t.metadata.ns t.ownSelector, .ok found⟩ ∧ asked.runs = [] ∧
      .ask (.createWorkload w) next = createRun settings t := by
  have stage := stage_of_reaches reaches
  generalize hp : Plan.ask (.createWorkload w) next = p at stage
  cases stage with
  | unread => cases hp
  | @going t _ _ live read rest =>
    cases rest with
    | stop outcome => cases hp
    | look looks rest =>
      cases hp
      cases looks
    | commit made => cases hp
    | @create _ found ready listed unrun => exact ⟨t, found, live, read, ready, listed, unrun, rfl⟩
  | ended asked outcome => cases hp

end Pass

end TrialControl
