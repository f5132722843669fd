import TrialControl.Proofs.StoredWorkloads

/-!
# Versions

One counter numbers the writes of a store. A write is refused, or finds nothing to change, or stores one
object; if that object has a version, it gets the next one, and if it is a trial or a workload, that is
reported. So versions tell objects apart, a version of a trial stands for its content, and versions and
reports tell the same story.
-/

namespace TrialControl

inductive Place where
  | trial (key : ObjectKey)
  | experiment (key : ObjectKey)
  | workload (key : ObjectKey)
  | unit (key : ObjectKey)
deriving DecidableEq

namespace Place

def key : Place → ObjectKey
  | .trial key | .experiment key | .workload key | .unit key => key

def isReported : Place → Bool
  | .trial _ | .workload _ => true
  | .experiment _ | .unit _ => false

end Place

def Change.place : Change → Place
  | .trial key => .trial key
  | .workload w => .workload w.key

theorem Part.merge_ne {part : Part} {stored t : Trial} (differs : part.agrees stored t = false) (v : UInt64) :
    (part.merge stored t).withVersion v ≠ stored := by
  intro same
  have kept : ((part.merge stored t).withVersion v).status = stored.status := congrArg Trial.status same
  have status : t.status = stored.status := (part.status_merge stored t).symm.trans kept
  cases part with
  | status => simp [agrees, status] at differs
  | whole =>
    have spec : t.spec = stored.spec := (congrArg Trial.spec same :)
    have labels : t.metadata.labels = stored.metadata.labels := (congrArg (·.metadata.labels) same :)
    simp [agrees, status, spec, labels] at differs

namespace Store

variable {s u : Store} {w : Write} {n : Nat}

def metadata? (s : Store) : Place → Option Metadata
  | .trial key => (s.trials.get? key).map (·.metadata)
  | .experiment key => (s.experiments.get? key).map (·.metadata)
  | .workload key => (s.workloads.get? key).map (·.metadata)
  | .unit key => (s.units.get? key).map (·.metadata)

def version? (s : Store) (p : Place) : Option UInt64 := (s.metadata? p).map (·.version)

/-! ## What becomes of a write -/

inductive Refuses (s : Store) : Write → Error → Prop where
  | trialTaken {t : Trial} (taken : s.trials.get? t.key ≠ none) :
      Refuses s (.createTrial t) (.alreadyExists .trial t.key.text)
  | trialToDelete {key : ObjectKey} {at_ : Instant} (missing : s.trials.get? key = none) :
      Refuses s (.markDeleted key at_) (.notFound .trial key.text)
  | trialToUpdate {t : Trial} {part : Part} (missing : s.trials.get? t.key = none) :
      Refuses s (.updateTrial t part) (.notFound .trial t.key.text)
  | stale {t stored : Trial} {part : Part} (there : s.trials.get? t.key = some stored)
      (other : stored.metadata.version ≠ t.metadata.version) :
      Refuses s (.updateTrial t part) (.conflict .trial t.key.text)
  | workloadTaken {v : Workload} (taken : s.workloads.get? v.key ≠ none) :
      Refuses s (.createWorkload v) (.alreadyExists .workload v.key.text)
  | workloadToUpdate {key : ObjectKey} {status : WorkloadStatus} (missing : s.workloads.get? key = none) :
      Refuses s (.updateWorkloadStatus key status) (.notFound .workload key.text)

inductive Idle (s : Store) : Write → Prop where
  | update {t stored : Trial} {part : Part} (there : s.trials.get? t.key = some stored)
      (fresh : stored.metadata.version = t.metadata.version) (agrees : part.agrees stored t = true) :
      Idle s (.updateTrial t part)

def Write.updated? : Write → Option ObjectKey
  | .updateTrial t _ => some t.key
  | _ => none

inductive Written (s : Store) : Write → Except Error Store → Prop where
  | refused {w : Write} {e : Error} (refuses : s.Refuses w e) : Written s w (.error e)
  | idle {w : Write} (idle : s.Idle w) : Written s w (.ok s)
  | trial {w : Write} {t : Trial} (puts : s.Puts w t) :
      Written s w (.ok { (s.putTrial t).2 with commits := s.commits + w.updated?.toList.length })
  | workload {w : Write} (v : Workload) (aside : w.updated? = none) : Written s w (.ok (s.placeWorkload v).2)
  | experiment (e : Experiment) : Written s (.putExperiment e) (.ok (s.putExperiment e))
  | unit (v : ExecutionUnit) : Written s (.putUnit v) (.ok (s.putUnit v))
  | service (e : ServiceEndpoint) : Written s (.putService e) (.ok (s.putService e))
  | rollout (target : Target) (r : RolloutStatus) : Written s (.setRollout target r) (.ok (s.setRollout target r))

theorem written (s : Store) (w : Write) : s.Written w (s.write w) := by
  cases w with
  | createTrial t =>
    simp only [write, createTrial]
    cases there : s.trials.contains t.key with
    | true => exact .refused (.trialTaken (by simpa [Table.contains, Option.isSome_iff_ne_none] using there))
    | false => exact .trial (.create (by simpa [Table.contains] using there))
  | markDeleted key at_ =>
    simp only [write, markDeleted_eq]
    cases there : s.trials.get? key with
    | none => exact .refused (.trialToDelete there)
    | some t => exact .trial (.delete there)
  | updateTrial t part =>
    simp only [write, replaceTrial_eq]
    cases there : s.trials.get? t.key with
    | none => exact .refused (.trialToUpdate there)
    | some stored =>
      dsimp only
      by_cases fresh : stored.metadata.version = t.metadata.version
      · rw [if_neg (not_not_intro fresh)]
        cases agrees : part.agrees stored t with
        | true => exact .idle (.update there fresh agrees)
        | false => exact .trial (.replace there fresh agrees)
      · rw [if_pos fresh]
        exact .refused (.stale there fresh)
  | createWorkload v =>
    simp only [write, createWorkload]
    cases there : s.workloads.contains v.key with
    | true => exact .refused (.workloadTaken (by simpa [Table.contains, Option.isSome_iff_ne_none] using there))
    | false => exact .workload v rfl
  | updateWorkloadStatus key status =>
    simp only [write, updateWorkloadStatus]
    cases there : s.workloads.get? key with
    | none => exact .refused (.workloadToUpdate there)
    | some v => exact .workload { v with status } rfl
  | putWorkload v => exact .workload v rfl
  | putExperiment e => exact .experiment e
  | putUnit v => exact .unit v
  | putService e => exact .service e
  | setRollout target r => exact .rollout target r

theorem write_of_refuses {e : Error} (refuses : s.Refuses w e) : s.write w = .error e := by
  cases refuses with
  | trialTaken taken => simp [write, createTrial, Table.contains, Option.isSome_iff_ne_none.mpr taken, Except.map]
  | trialToDelete missing => simp [write, markDeleted_eq, missing]
  | trialToUpdate missing => simp [write, replaceTrial_eq, missing, Except.map]
  | stale there other => simp [write, s.replaceTrial_conflict there other, Except.map]
  | workloadTaken taken =>
    simp [write, createWorkload, Table.contains, Option.isSome_iff_ne_none.mpr taken, Except.map]
  | workloadToUpdate missing => simp [write, updateWorkloadStatus, missing]

theorem write_eq_error_iff {e : Error} : s.write w = .error e ↔ s.Refuses w e := by
  refine ⟨fun failed => ?_, write_of_refuses⟩
  have written := s.written w
  rw [failed] at written
  cases written with
  | refused refuses => exact refuses

theorem write_of_idle (idle : s.Idle w) : s.write w = .ok s := by
  cases idle with
  | update there fresh agrees => simp [write, replaceTrial_eq, there, fresh, agrees, Except.map]

/-! ## Numbers -/

/-- What a write does to the objects with versions, to the counter and to the log: nothing, or one object
is stored as the next version, and reported if it is a trial or a workload. -/
inductive Numbers (s u : Store) : Prop where
  | aside (objects : ∀ p, u.metadata? p = s.metadata? p) (version : u.version = s.version) (log : u.log = s.log)
  | stores {p : Place} {m : Metadata} (report : Option Change) (named : m.key = p.key)
      (next : m.version = s.version + 1) (objects : ∀ q, u.metadata? q = if q = p then some m else s.metadata? q)
      (version : u.version = s.version + 1) (log : u.log = report.toList ++ s.log)
      (reports : report.map Change.place = if p.isReported then some p else none)
      (snapshot : ∀ v, report = some (.workload v) → u.workloads.get? v.key = some v)

theorem map_get?_insert {α β γ : Type} [DecidableEq γ] (table : Table ObjectKey α) (view : α → β)
    {place : ObjectKey → γ} (apart : Function.Injective place) (key k : ObjectKey) (a : α) :
    ((table.insert key a).get? k).map view =
      if place k = place key then some (view a) else (table.get? k).map view := by
  rw [Table.get?_insert]
  by_cases here : k = key
  · rw [if_pos here, if_pos (congrArg place here)]
    rfl
  · rw [if_neg here, if_neg fun h => here (apart h)]

theorem numbers_putTrial (s : Store) (t : Trial) (commits : Nat) : s.Numbers { (s.putTrial t).2 with commits } := by
  refine .stores (p := .trial t.key) (m := (t.withVersion (s.version + 1)).metadata) (some (.trial t.key))
    rfl rfl (fun q => ?_) rfl rfl rfl fun v h => by cases h
  cases q with
  | trial k => exact map_get?_insert _ _ (fun _ _ h => Place.trial.inj h) ..
  | experiment k => rfl
  | workload k => rfl
  | unit k => rfl

theorem numbers_placeWorkload (s : Store) (w : Workload) : s.Numbers (s.placeWorkload w).2 := by
  refine .stores (p := .workload w.key) (m := (s.placeWorkload w).1.metadata)
    (some (.workload (s.placeWorkload w).1)) rfl rfl (fun q => ?_) rfl rfl rfl ?_
  · cases q with
    | workload k => exact map_get?_insert _ _ (fun _ _ h => Place.workload.inj h) ..
    | trial k => rfl
    | experiment k => rfl
    | unit k => rfl
  · rintro v ⟨⟩
    exact Table.get?_insert_self ..

theorem numbers_putExperiment (s : Store) (e : Experiment) : s.Numbers (s.putExperiment e) := by
  refine .stores (p := .experiment e.key) (m := { e.metadata with version := s.version + 1 }) none
    rfl rfl (fun q => ?_) rfl rfl rfl fun v h => by cases h
  cases q with
  | experiment k => exact map_get?_insert _ _ (fun _ _ h => Place.experiment.inj h) ..
  | trial k => rfl
  | workload k => rfl
  | unit k => rfl

theorem numbers_putUnit (s : Store) (v : ExecutionUnit) : s.Numbers (s.putUnit v) := by
  refine .stores (p := .unit v.key) (m := { v.metadata with version := s.version + 1 }) none
    rfl rfl (fun q => ?_) rfl rfl rfl fun v h => by cases h
  cases q with
  | unit k => exact map_get?_insert _ _ (fun _ _ h => Place.unit.inj h) ..
  | trial k => rfl
  | experiment k => rfl
  | workload k => rfl

theorem numbers_refl (s : Store) : s.Numbers s := .aside (fun _ => rfl) rfl rfl

theorem numbers_after (s : Store) (w : Write) : s.Numbers (s.after w) := by
  have written := s.written w
  unfold after
  generalize s.write w = r at written
  cases written with
  | refused refuses => exact s.numbers_refl
  | idle idle => exact s.numbers_refl
  | trial puts => exact s.numbers_putTrial _ _
  | workload v aside => exact s.numbers_placeWorkload v
  | experiment e => exact s.numbers_putExperiment e
  | unit v => exact s.numbers_putUnit v
  | service e => exact .aside (fun p => by cases p <;> rfl) rfl rfl
  | rollout target r => exact .aside (fun p => by cases p <;> rfl) rfl rfl

theorem services_after (s : Store) (w : Write) :
    (s.after w).services = s.services ∨ ∃ e, (s.after w).services = s.services.insert e.key e := by
  have written := s.written w
  unfold after
  generalize s.write w = r at written
  cases written with
  | service e => exact .inr ⟨e, rfl⟩
  | _ => exact .inl rfl

theorem version_after_le (s : Store) (w : Write) : (s.after w).version.toNat ≤ s.version.toNat + 1 := by
  rcases (after_effect s w).version with same | next
  · rw [same]
    exact Nat.le_succ _
  · rw [next, UInt64.toNat_add]
    exact Nat.mod_le ..

theorem lt_next (fits : s.version.toNat + 1 < UInt64.size) {v : UInt64} (given : v ≤ s.version) : v < s.version + 1 := by
  have next : (s.version + 1).toNat = s.version.toNat + 1 := by
    rw [UInt64.toNat_add]
    exact Nat.mod_eq_of_lt fits
  rw [UInt64.lt_iff_toNat_lt, next]
  exact Nat.lt_succ_of_le (UInt64.le_iff_toNat_le.mp given)

theorem version?_of_objects {p : Place} {m : Metadata}
    (objects : ∀ q, u.metadata? q = if q = p then some m else s.metadata? q) (q : Place) :
    u.version? q = if q = p then some m.version else s.version? q := by
  unfold version?
  rw [objects]
  split <;> rfl

theorem version?_trial {key : ObjectKey} {t : Trial} (there : s.trials.get? key = some t) :
    s.version? (.trial key) = some t.metadata.version := by
  rw [version?, metadata?, there]
  rfl

theorem trial_of_version? {key : ObjectKey} {v : UInt64} (found : s.version? (.trial key) = some v) :
    ∃ t, s.trials.get? key = some t ∧ t.metadata.version = v := by
  obtain ⟨m, found, version⟩ := Option.map_eq_some_iff.mp found
  obtain ⟨t, there, rfl⟩ := Option.map_eq_some_iff.mp found
  exact ⟨t, there, version⟩

/-! ## Versions at one time -/

structure Filed (s : Store) : Prop where
  objects : ∀ p m, s.metadata? p = some m → m.key = p.key
  services : ∀ key e, s.services.get? key = some e → e.key = key

theorem metadata?_empty (p : Place) : Store.empty.metadata? p = none := by
  cases p <;> rfl

theorem filed_empty : Filed .empty := by
  refine ⟨fun p m found => ?_, fun key e found => ?_⟩
  · rw [metadata?_empty] at found
    cases found
  · cases found

theorem Filed.after (filed : s.Filed) (w : Write) : (s.after w).Filed := by
  constructor
  · intro q x
    cases s.numbers_after w with
    | aside objects version log =>
      rw [objects]
      exact filed.objects q x
    | @stores p m report named next objects version log reports snapshot =>
      rw [objects]
      split
      · next here =>
        rintro ⟨⟩
        rw [named, here]
      · exact filed.objects q x
  · intro key e
    rcases services_after s w with same | ⟨new, stored⟩
    · rw [same]
      exact filed.services key e
    · rw [stored, Table.get?_insert]
      split
      · next here =>
        rintro ⟨⟩
        exact here.symm
      · exact filed.services key e

theorem Built.filed (built : Built n s) : s.Filed := by
  induction built with
  | empty => exact filed_empty
  | write built w ih => exact ih.after w

structure Numbered (s : Store) : Prop where
  filed : s.Filed
  distinct : ∀ p q v, s.version? p = some v → s.version? q = some v → p = q
  given : ∀ p v, s.version? p = some v → v ≤ s.version

theorem numbered_empty : Numbered .empty := by
  refine ⟨filed_empty, fun p q v found => ?_, fun p v found => ?_⟩
  · rw [version?, metadata?_empty] at found
    cases found
  · rw [version?, metadata?_empty] at found
    cases found

theorem Numbered.after (numbered : s.Numbered) (fits : s.version.toNat + 1 < UInt64.size) (w : Write) :
    (s.after w).Numbered := by
  have filed := numbered.filed.after w
  have numbers := s.numbers_after w
  generalize s.after w = u at filed numbers ⊢
  cases numbers with
  | aside objects version log =>
    have versions (p : Place) : u.version? p = s.version? p := congrArg (Option.map _) (objects p)
    refine ⟨filed, fun p q v => ?_, fun p v => ?_⟩
    · rw [versions, versions]
      exact numbered.distinct p q v
    · rw [versions, version]
      exact numbered.given p v
  | @stores p m report named next objects version log reports snapshot =>
    have versions := version?_of_objects objects
    have older {q : Place} {v : UInt64} (found : s.version? q = some v) : v < m.version := by
      rw [next]
      exact lt_next fits (numbered.given q v found)
    refine ⟨filed, fun q r v => ?_, fun q v => ?_⟩
    · rw [versions, versions]
      split <;> split
      · next here there => exact fun _ _ => here.trans there.symm
      · rintro ⟨⟩ found
        exact absurd (older found) (UInt64.lt_irrefl _)
      · rintro found ⟨⟩
        exact absurd (older found) (UInt64.lt_irrefl _)
      · exact numbered.distinct q r v
    · rw [versions, version, ← next]
      split
      · rintro ⟨⟩
        exact UInt64.le_refl _
      · exact fun found => UInt64.le_of_lt (older found)

/-! ## Versions at two times -/

/-- Objects stay, their versions only grow, and a trial with the same version is the same trial. -/
structure Precedes (s u : Store) : Prop where
  grows : ∀ p v, s.version? p = some v → ∃ v', u.version? p = some v' ∧ v ≤ v'
  same : ∀ key t t', s.trials.get? key = some t → u.trials.get? key = some t' →
    t.metadata.version = t'.metadata.version → t = t'

theorem Precedes.refl (s : Store) : s.Precedes s := by
  refine ⟨fun p v found => ⟨v, found, UInt64.le_refl v⟩, fun key t t' found found' _ => ?_⟩
  exact Option.some.inj (found.symm.trans found')

theorem Precedes.trans {r : Store} (first : s.Precedes r) (second : r.Precedes u) : s.Precedes u := by
  constructor
  · intro p v found
    obtain ⟨v', found, le⟩ := first.grows p v found
    obtain ⟨v'', found, le'⟩ := second.grows p v' found
    exact ⟨v'', found, UInt64.le_trans le le'⟩
  · intro key t t' found found' same
    -- the trial in between has a version between two equal ones
    obtain ⟨v, between, le⟩ := first.grows _ _ (version?_trial found)
    obtain ⟨v', last, le'⟩ := second.grows _ v between
    obtain ⟨x, there, rfl⟩ := trial_of_version? between
    have final : v' = t.metadata.version := (Option.some.inj (last.symm.trans (version?_trial found'))).trans same.symm
    have equal : t.metadata.version = x.metadata.version := UInt64.le_antisymm le (final ▸ le')
    exact (first.same key t x found there equal).trans (second.same key x t' there found' (equal.symm.trans same))

theorem precedes_after (numbered : s.Numbered) (fits : s.version.toNat + 1 < UInt64.size) (w : Write) :
    s.Precedes (s.after w) := by
  constructor
  · intro p v found
    cases s.numbers_after w with
    | aside objects version log =>
      refine ⟨v, ?_, UInt64.le_refl v⟩
      rw [version?, objects]
      exact found
    | @stores q m report named next objects version log reports snapshot =>
      rw [version?_of_objects objects]
      split
      · refine ⟨_, rfl, ?_⟩
        rw [next]
        exact UInt64.le_of_lt (lt_next fits (numbered.given p v found))
      · exact ⟨v, found, UInt64.le_refl v⟩
  · intro key t t' found found' same
    have unchanged (trials : (s.after w).trials.get? key = s.trials.get? key) : t = t' := by
      rw [trials] at found'
      exact Option.some.inj (found.symm.trans found')
    rcases after_effect s w with ⟨trials, -⟩ | ⟨puts, trials, -⟩
    · exact unchanged (by rw [trials])
    · rw [trials, Table.get?_insert] at found' unchanged
      split at found'
      · cases found'
        have old := numbered.given _ _ (version?_trial found)
        exact absurd same (UInt64.ne_of_lt (lt_next fits old))
      · next other => exact unchanged (if_neg other)

/-! ## Calls -/

def reports (s : Store) (w : Write) : List Change := (s.after w).log.take ((s.after w).log.length - s.log.length)

structure Accounts (s : Store) (w : Write) : Prop where
  log : (s.after w).log = s.reports w ++ s.log
  once : (s.reports w).length ≤ 1
  reported : ∀ p, p.isReported = true →
    ((s.after w).version? p ≠ s.version? p ↔ (s.reports w).countP (·.place = p) = 1)
  snapshot : ∀ v, .workload v ∈ s.reports w → (s.after w).workloads.get? v.key = some v
  refused : ∀ e, s.write w = .error e ↔ s.Refuses w e
  unwritten : ∀ e, s.Refuses w e → s.after w = s
  idle : s.Idle w → s.write w = .ok s

theorem reported_iff {p q : Place} {report : Option Change}
    (reports : report.map Change.place = if p.isReported then some p else none) (reported : q.isReported = true) :
    q = p ↔ report.toList.countP (·.place = q) = 1 := by
  cases report with
  | none =>
    have other : q ≠ p := by
      rintro rfl
      rw [if_pos reported] at reports
      cases reports
    simp [other]
  | some c =>
    have here : c.place = p := by
      split at reports
      · exact Option.some.inj reports
      · cases reports
    simp [here, eq_comm]

theorem accounts (numbered : s.Numbered) (fits : s.version.toNat + 1 < UInt64.size) (w : Write) : s.Accounts w := by
  have cut {new : List Change} (log : (s.after w).log = new ++ s.log) : s.reports w = new := by
    unfold reports
    rw [log]
    simp
  have unwritten (e : Error) (refuses : s.Refuses w e) : s.after w = s := by
    unfold after
    rw [write_of_refuses refuses]
  cases s.numbers_after w with
  | aside objects version log =>
    have silent : s.reports w = [] := cut log
    refine ⟨by rw [silent, log]; rfl, by simp [silent], fun p reported => ?_, fun v mem => ?_,
      fun e => write_eq_error_iff, unwritten, write_of_idle⟩
    · rw [silent, version?, version?, objects]
      simp
    · rw [silent] at mem
      cases mem
  | @stores p m report named next objects version log reports snapshot =>
    have told : s.reports w = report.toList := cut log
    refine ⟨by rw [told, log], by rw [told]; exact Option.length_toList_le, fun q reported => ?_, fun v mem => ?_,
      fun e => write_eq_error_iff, unwritten, write_of_idle⟩
    · have changed : (s.after w).version? q ≠ s.version? q ↔ q = p := by
        rw [version?_of_objects objects]
        split
        · next here =>
          refine iff_of_true (fun same => ?_) here
          have old := numbered.given q m.version same.symm
          rw [next] at old
          exact absurd (lt_next fits (UInt64.le_refl _)) (UInt64.not_lt.mpr old)
        · next other => exact iff_of_false (fun h => h rfl) other
      rw [changed, told]
      exact reported_iff reports reported
    · rw [told, Option.mem_toList] at mem
      exact snapshot v mem

/-! ## Counts of commits -/

def commitsBy (s : Store) (w : Write) : Bool :=
  w.updated?.any fun key => (s.after w).trials.get? key ≠ s.trials.get? key

def commitsIn : Store → List Write → Nat
  | _, [] => 0
  | s, w :: ws => (if s.commitsBy w then 1 else 0) + commitsIn (s.after w) ws

theorem commits_after (keyed : s.Keyed) (w : Write) :
    (s.after w).commits = s.commits + if s.commitsBy w then 1 else 0 := by
  have unchanged (same : s.after w = s) : (s.after w).commits = s.commits + if s.commitsBy w then 1 else 0 := by
    rw [commitsBy, same]
    cases w.updated? <;> simp
  have aside (other : w.updated? = none) (same : (s.after w).commits = s.commits) :
      (s.after w).commits = s.commits + if s.commitsBy w then 1 else 0 := by
    rw [commitsBy, other, same]
    rfl
  have written := s.written w
  unfold after at unchanged aside ⊢
  generalize outcome : s.write w = r at written unchanged aside ⊢
  cases written with
  | refused refuses => exact unchanged rfl
  | idle idle => exact unchanged rfl
  | trial puts =>
    cases puts with
    | create absent => exact aside rfl rfl
    | delete there => exact aside rfl rfl
    | @replace stored t part there fresh differs =>
      have here : (part.merge stored t).key = t.key := (part.key_merge stored t).trans (keyed _ _ there)
      have changed : s.commitsBy (.updateTrial t part) = true := by
        have now : (s.after (.updateTrial t part)).trials.get? t.key =
            some ((part.merge stored t).withVersion (s.version + 1)) := by
          rw [after, outcome, ← here]
          exact Table.get?_insert_self ..
        have new := Part.merge_ne differs (s.version + 1)
        simp only [commitsBy, Write.updated?, Option.any_some, now, there]
        simpa using new
      rw [changed]
      rfl
  | workload v other => exact aside other rfl
  | experiment e => exact aside rfl rfl
  | unit v => exact aside rfl rfl
  | service e => exact aside rfl rfl
  | rollout target r => exact aside rfl rfl

theorem commits_writes (keyed : s.Keyed) (ws : List Write) :
    (ws.foldl Store.after s).commits = s.commits + s.commitsIn ws := by
  induction ws generalizing s with
  | nil => rfl
  | cons w ws ih =>
    rw [List.foldl_cons, ih (keyed.after w), commits_after keyed, commitsIn]
    omega

/-! ## Histories -/

theorem Numbered.writes (numbered : s.Numbered) (ws : List Write)
    (few : s.version.toNat + ws.length < UInt64.size) :
    (ws.foldl Store.after s).Numbered ∧ s.Precedes (ws.foldl Store.after s) ∧
      (ws.foldl Store.after s).version.toNat ≤ s.version.toNat + ws.length := by
  induction ws generalizing s with
  | nil => exact ⟨numbered, .refl s, Nat.le_refl _⟩
  | cons w ws ih =>
    rw [List.length_cons] at few
    have counted := version_after_le s w
    have fits : s.version.toNat + 1 < UInt64.size := by omega
    obtain ⟨last, later, most⟩ := ih (numbered.after fits w) (by omega)
    refine ⟨last, (precedes_after numbered fits w).trans later, ?_⟩
    rw [List.foldl_cons, List.length_cons]
    omega

/-- In any history of fewer writes than there are versions: at any time every object is stored under its key, all
versions are distinct and were given out; later the objects are still there with versions that have only grown, and
a trial with the version of an earlier one is that trial. The commits are counted as the updates that changed a
trial. In every write exactly the trials and workloads whose versions change are reported, once, and a write that is
refused or has nothing to change leaves the store as it is. -/
theorem versions_tell_changes (ws later : List Write) (few : (ws ++ later).length < UInt64.size) :
    let s := ws.foldl Store.after .empty
    s.Numbered ∧ s.commits = commitsIn .empty ws ∧ s.Precedes (later.foldl Store.after s) ∧
      ∀ w ∈ later.head?, s.Accounts w := by
  intro s
  rw [List.length_append] at few
  have none_given : Store.empty.version.toNat = 0 := rfl
  have keyed : Store.empty.Keyed := Built.empty.keyed
  obtain ⟨numbered, -, most⟩ := numbered_empty.writes ws (by omega)
  have counted : s.commits = commitsIn .empty ws := (commits_writes keyed ws).trans (Nat.zero_add _)
  refine ⟨numbered, counted, (numbered.writes later (by omega)).2.1, fun w next => ?_⟩
  cases later with
  | nil => cases next
  | cons x later =>
    rw [List.length_cons] at few
    exact accounts numbered (by omega) w

/-- An update takes the next version and is reported; the same update again is stale. -/
theorem second_update_is_stale :
    let key : ObjectKey := ⟨"ns", "t1"⟩
    let t := Trial.named "ns" "t1"
    let ended := { t.withVersion 1 with status.completionTime := some default }
    let ws := [Write.createTrial t, .putWorkload (t.runWorkload .standard)]
    let update := Write.updateTrial ended .status
    let s := ws.foldl Store.after .empty
    (ws ++ [update, update]).length < UInt64.size ∧ s.version? (.trial key) = some 1 ∧
      (s.after update).version? (.trial key) = some 3 ∧ (s.reports update).countP (·.place = .trial key) = 1 ∧
      (s.after update).commits = 1 ∧ (s.after update).write update = .error (.conflict .trial key.text) ∧
      (s.after update).after update = s.after update := by
  intro key t ended ws update s
  have few : (ws ++ [update, update]).length < UInt64.size := by decide
  obtain ⟨-, -, -, first⟩ := versions_tell_changes ws [update, update] few
  obtain ⟨-, -, -, second⟩ := versions_tell_changes (ws ++ [update]) [update] few
  have old : s.version? (.trial key) = some 1 := by decide +kernel
  have new : (s.after update).version? (.trial key) = some 3 := by decide +kernel
  have stored : (s.after update).trials.get? key = some (ended.withVersion 3) := by decide +kernel
  have refused : (s.after update).Refuses update (.conflict .trial key.text) := .stale stored (by decide +kernel)
  have error := ((second update rfl).refused _).mpr refused
  refine ⟨few, old, new, ?_, by decide +kernel, error, (second update rfl).unwritten _ refused⟩
  exact ((first update rfl).reported (.trial key) rfl).mp (by rw [old, new]; decide)

end Store

end TrialControl
