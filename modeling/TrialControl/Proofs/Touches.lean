import TrialControl.Proofs.LonePasses
import TrialControl.Proofs.Performances
import TrialControl.Proofs.WorkLeft
import TrialControl.Trial.Draft

/-!
# What a pass touches

A transition moves one thing besides conditions: the flag of a patch that has settled, the slot of a
metric, or the times. Nothing else of the trial changes, and a pass writes at most once, so that one
pass of a trial leaves everything else in the store as it was.
-/

namespace TrialControl

open Store (Write)
open Crowd (committed_of_there get?_putTrial_merge)
open Rehearsal (Cast)

/-! ## Slots and times -/

namespace Value

/-- One slot has changed without gaining attempts, or one was appended. -/
inductive Touched (vs : List Value) : List Value → Prop where
  | changed (before after : List Value) {v w : Value} (slots : vs = before ++ v :: after) (named : w.name = v.name)
      (fewer : w.attempts ≤ v.attempts) : Touched vs (before ++ w :: after)
  | appended (w : Value) : Touched vs (vs ++ [w])

theorem touched_update (name : String) {f : Value → Value} (named : ∀ v, (f v).name = v.name)
    (fewer : ∀ v, (f v).attempts ≤ v.attempts) (vs : List Value) : Touched vs (update name f vs) := by
  induction vs with
  | nil => exact .appended (f (fresh name))
  | cons v vs ih =>
    unfold update
    by_cases here : v.name = name
    · rw [if_pos here]
      exact .changed [] vs rfl (named v) (fewer v)
    · rw [if_neg here]
      generalize update name f vs = us at ih
      cases ih with
      | @changed before after x w slots same less =>
        rw [slots]
        exact .changed (v :: before) after rfl same less
      | appended w => exact .appended w

theorem settle_attempts_le (v : Value) (c : Captured) : (v.settle c).attempts ≤ v.attempts :=
  UInt32.le_iff_toNat_le.mpr (Nat.zero_le _)

theorem spend_attempts_le (v : Value) : v.spend.attempts ≤ v.attempts := UInt32.le_iff_toNat_le.mpr v.spend_le

end Value

structure TrialStatus.Narrows (s s' : TrialStatus) : Prop where
  start : ∀ x, s.startTime = some x → ∃ y, s'.startTime = some y ∧ x ≤ y
  finish : ∀ x, s.completionTime = some x → ∃ y, s'.completionTime = some y ∧ y ≤ x

namespace TrialStatus

variable {s s' : TrialStatus}

theorem narrows_of_same (start : s'.startTime = s.startTime) (finish : s'.completionTime = s.completionTime) :
    s.Narrows s' := by
  constructor
  · intro x there
    exact ⟨x, start.trans there, Int.le_refl _⟩
  · intro x there
    exact ⟨x, finish.trans there, Int.le_refl _⟩

theorem narrows_absorb (s : TrialStatus) (b : Bracket) (offset : Option Duration) : s.Narrows (s.absorb b offset).1 :=
  ⟨fun _ there => latest_grows offset there, fun _ there => earliest_shrinks there⟩

end TrialStatus

/-! ## Trials -/

/-- What a transition does to a trial besides its conditions: it settles one patch, or changes one slot,
or narrows the times. -/
inductive Trial.Touch (t u : Trial) : Prop where
  | patch {seen rest : List Patch} {p : Patch} (patches : t.spec.patches = seen ++ p :: rest) (waits : p.waits = true)
      (spec : u.spec = { t.spec with patches := seen ++ { p with waits := false } :: rest })
      (start : u.status.startTime = t.status.startTime) (finish : u.status.completionTime = t.status.completionTime)
  | slot {vs : List Value} (touched : Value.Touched t.spec.values vs) (spec : u.spec = { t.spec with values := vs })
      (start : u.status.startTime = t.status.startTime) (finish : u.status.completionTime = t.status.completionTime)
  | times (spec : u.spec = t.spec) (narrows : t.status.Narrows u.status)

namespace Trial

variable {t u : Trial}

theorem touch_of_same (spec : u.spec = t.spec) (start : u.status.startTime = t.status.startTime)
    (finish : u.status.completionTime = t.status.completionTime) : t.Touch u :=
  .times spec (TrialStatus.narrows_of_same start finish)

theorem Touch.narrows (touch : t.Touch u) : t.status.Narrows u.status := by
  cases touch with
  | patch patches waits spec start finish => exact TrialStatus.narrows_of_same start finish
  | slot touched spec start finish => exact TrialStatus.narrows_of_same start finish
  | times spec narrows => exact narrows

theorem Touch.merge (touch : t.Touch u) (n : UInt64) :
    t.Touch (((Part.toUpdate t.spec u).merge t u.syncPhase).withVersion n) := by
  unfold Part.toUpdate
  split
  · exact .times rfl ⟨touch.narrows.start, touch.narrows.finish⟩
  · cases touch with
    | patch patches waits spec start finish => exact .patch patches waits spec start finish
    | slot touched spec start finish => exact .slot touched spec start finish
    | times spec narrows => exact .times spec ⟨narrows.start, narrows.finish⟩

end Trial

/-! ## Writes -/

def Transcript.writes (told : Transcript) : List Write := told.filterMap (·.call.write?)

theorem Plan.Tells.store {α : Type} {p : Plan α} {asked told : Transcript} {s u : Store} {a : α}
    (tells : p.Tells asked s told a u) :
    ∃ later, told.writes = later ++ asked.writes ∧ u = later.foldr (fun w s => s.after w) s := by
  induction tells with
  | done a asked s => exact ⟨[], rfl, rfl⟩
  | @ask c next asked told s u v r a reply tells ih =>
    obtain ⟨later, writes, rfl⟩ := ih
    obtain rfl := reply.store
    cases written : c.write? with
    | none =>
      refine ⟨later, ?_, rfl⟩
      rw [writes]
      simp [Transcript.writes, written]
    | some w =>
      refine ⟨later ++ [w], ?_, ?_⟩
      · rw [writes]
        simp [Transcript.writes, written]
      · simp

structure Store.SameBeside (key : ObjectKey) (s s' : Store) : Prop where
  trials : ∀ k, k ≠ key → s'.trials.get? k = s.trials.get? k
  workloads : ∀ k w, s.workloads.get? k = some w → s'.workloads.get? k = some w
  alone : s'.trials = s.trials ∨ s'.workloads = s.workloads
  experiments : s'.experiments = s.experiments
  units : s'.units = s.units
  services : s'.services = s.services
  rollouts : s'.rollouts = s.rollouts

namespace Store

variable {s s' : Store} {key : ObjectKey}

theorem SameBeside.refl (key : ObjectKey) (s : Store) : s.SameBeside key s :=
  ⟨fun _ _ => rfl, fun _ _ there => there, .inl rfl, rfl, rfl, rfl, rfl⟩

theorem beside_putTrial {t : Trial} (here : t.key = key) (s : Store) (commits : Nat) :
    s.SameBeside key { (s.putTrial t).2 with commits } := by
  refine ⟨fun k other => ?_, fun _ _ there => there, .inr rfl, rfl, rfl, rfl, rfl⟩
  show (s.trials.insert t.key _).get? k = _
  rw [Table.get?_insert, here, if_neg other]

theorem beside_createWorkload {w : Workload} {r : Except Error Workload}
    (reply : s.Replies (.createWorkload w) r s') (key : ObjectKey) : s.SameBeside key s' := by
  have answer : (r, s') = s.taking (s.createWorkload w) := reply
  rcases s.taking_createWorkload w with ⟨free, created⟩ | ⟨taken, refused⟩
  · rw [created] at answer
    cases answer
    refine ⟨fun _ _ => rfl, fun k v there => ?_, .inl rfl, rfl, rfl, rfl, rfl⟩
    show (s.workloads.insert w.key _).get? k = _
    rw [Table.get?_insert, if_neg, there]
    intro same
    rw [same, free] at there
    cases there
  · rw [refused] at answer
    cases answer
    exact .refl key s

end Store

/-! ## Transitions -/

namespace Pass

variable {settings : Settings} {now : Instant} {t u : Trial} {asked told : Transcript} {action : Action}
variable {s s' : Store} {key : ObjectKey} {outcome : Outcome} {n : Nat} {p : Plan Outcome}

theorem Transition.touch (made : Transition settings now t asked u action) : t.Touch u := by
  cases made with
  | settle early patches waits probed =>
    rw [Trial.awaiting_eq]
    exact .patch patches waits rfl rfl rfl
  | failWaiting early waits probed final =>
    rw [Trial.awaiting_eq]
    exact Trial.touch_of_same rfl rfl rfl
  | wait early waits longest =>
    rw [Trial.awaiting_eq]
    exact Trial.touch_of_same rfl rfl rfl
  | stabilize early still unstable => exact Trial.touch_of_same rfl rfl rfl
  | @absorb w units b failures early ready shown view changed =>
    rw [absorb_eq]
    cases failures with
    | nil => exact .times rfl (t.status.narrows_absorb b t.spec.startOffset)
    | cons f rest =>
      have narrows := (t.record .failed ⟨.true, f.reason, f.message⟩ now).status.narrows_absorb b t.spec.startOffset
      exact .times rfl ⟨narrows.start, narrows.finish⟩
  | observe looked idle ready ended declared unobserved => exact Trial.touch_of_same rfl rfl rfl
  | @capture e m c looked attempted ready ended observed next finite =>
    simp only [Trial.recordCaptured, Trial.updateValue, Value.update_update]
    have touched := Value.touched_update m.name (f := (·.settle c)) (fun _ => rfl) (·.settle_attempts_le c) t.spec.values
    exact .slot touched rfl rfl rfl
  | @miss e m f looked attempted final ready ended observed next =>
    have touched := Value.touched_update m.name (f := Value.spend) (fun _ => rfl) Value.spend_attempts_le t.spec.values
    rw [Trial.recordMissed_eq]
    split
    · exact .slot touched rfl rfl rfl
    · exact .slot touched rfl rfl rfl
  | complete looked idle ready ended observed none_next =>
    unfold Trial.recordComplete
    dsimp only
    split
    · exact Trial.touch_of_same rfl rfl rfl
    · exact Trial.touch_of_same rfl rfl rfl

/-! ## Passes -/

theorem commit_ends (read : TrialSpec) (u : Trial) (action : Action) {c : Call} {next : c.Answer → Plan Outcome}
    (commits : .ask c next = commit read u action) (r : c.Answer) : ∃ outcome, next r = .done outcome := by
  cases commits
  cases r <;> exact ⟨_, rfl⟩

theorem createRun_ends {c : Call} {next : c.Answer → Plan Outcome} (creates : .ask c next = createRun settings t)
    (r : c.Answer) : ∃ outcome, next r = .done outcome := by
  cases creates
  cases r with
  | ok w => exact ⟨_, rfl⟩
  | error e => cases e <;> exact ⟨_, rfl⟩

theorem writes_of_reaches (reaches : (reconcile settings key now).Reaches asked p) :
    asked.writes = [] ∨ asked.writes.length = 1 ∧ ∃ outcome, p = .done outcome := by
  induction reaches with
  | start => exact .inl rfl
  | @answer asked c next reaches r ih =>
    -- the plan still asks, so it has not written
    have unwritten : asked.writes = [] := by
      rcases ih with unwritten | ⟨-, outcome, ended⟩
      · exact unwritten
      · cases ended
    have looked (quiet : c.write? = none) : Transcript.writes (⟨c, r⟩ :: asked) = [] := by
      rw [← unwritten]
      exact List.filterMap_cons_none quiet
    have wrote {w : Write} (written : c.write? = some w) : (Transcript.writes (⟨c, r⟩ :: asked)).length = 1 := by
      have cons : Transcript.writes (⟨c, r⟩ :: asked) = w :: asked.writes := List.filterMap_cons_some written
      rw [cons, unwritten]
      rfl
    have stage := stage_of_reaches reaches
    generalize hp : Plan.ask c next = p at stage
    cases stage with
    | unread =>
      cases hp
      exact .inl (looked rfl)
    | going live read rest =>
      cases rest with
      | stop outcome => cases hp
      | look looks rest =>
        cases hp
        exact .inl (looked (Call.write?_of_looks looks))
      | commit made =>
        obtain ⟨outcome, ended⟩ := commit_ends _ _ _ hp r
        cases hp
        exact .inr ⟨wrote rfl, outcome, ended⟩
      | create ready =>
        obtain ⟨outcome, ended⟩ := createRun_ends hp r
        cases hp
        exact .inr ⟨wrote rfl, outcome, ended⟩
    | ended asked outcome => cases hp

theorem touched_of_lone (keyed : s.Keyed) (lone : Lone settings now key s told outcome s') :
    s.SameBeside key s' ∧ ∀ t, s.trials.get? key = some t →
      ∃ u, s'.trials.get? key = some u ∧ t.Touch u ∧ ∃ v, u.metadata = (t.withVersion v).metadata := by
  have unchanged (same : s'.trials = s.trials) (t : Trial) (there : s.trials.get? key = some t) :
      ∃ u, s'.trials.get? key = some u ∧ t.Touch u ∧ ∃ v, u.metadata = (t.withVersion v).metadata :=
    ⟨t, by rw [same, there], Trial.touch_of_same rfl rfl rfl, t.metadata.version, rfl⟩
  cases lone with
  | idle same =>
    subst same
    exact ⟨.refl key s', unchanged rfl⟩
  | @create x found r there listed unrun reply =>
    refine ⟨Store.beside_createWorkload reply key, unchanged ?_⟩
    rw [reply.store]
    exact s.trials_after_createWorkload _
  | @commit x u action asked r there live made seen read reached tells reply result =>
    have here := keyed key x there
    have same : u.syncPhase.metadata = x.metadata := made.metadata_eq
    cases committed_of_there there here same reply with
    | changed _ differs =>
      have merged : ((Part.toUpdate x.spec u).merge x u.syncPhase).key = key := by rw [Part.key_merge, here]
      refine ⟨Store.beside_putTrial merged s _, fun t found => ?_⟩
      obtain rfl : x = t := Option.some.inj (there.symm.trans found)
      exact ⟨_, get?_putTrial_merge here _ _, made.touch.merge _, _, Part.metadata_merge made.metadata_eq _ _⟩
    | kept _ agrees => exact ⟨.refl key s, unchanged rfl⟩
    | refused gone => exact absurd there gone

/-- A pass to which nobody else writes asks for at most one write, which is all that happens to the store. It
leaves other trials, all workloads that exist, experiments, units, services and rollouts as they are. When it
creates a workload it leaves the trial as well; otherwise it has settled one patch, changed one slot without
giving it attempts, appended one slot, or moved the start forward and the completion backward. -/
theorem pass_touches (built : s.Built n) (tells : (reconcile settings key now).Tells [] s told outcome s') :
    told.writes.length ≤ 1 ∧ s' = told.writes.foldr (fun w s => s.after w) s ∧ s.SameBeside key s' ∧
      (s.trials.get? key = none → s' = s) ∧
      ∀ t, s.trials.get? key = some t →
        ∃ u, s'.trials.get? key = some u ∧ t.Touch u ∧ ∃ v, u.metadata = (t.withVersion v).metadata := by
  have lone := lone_of_tells tells
  obtain ⟨beside, touched⟩ := touched_of_lone built.keyed lone
  obtain ⟨later, writes, stored⟩ := tells.store
  have all : told.writes = later := by rw [writes]; exact List.append_nil later
  refine ⟨?_, all ▸ stored, beside, fun missing => ?_, touched⟩
  · rcases writes_of_reaches (tells.reaches .start) with unwritten | ⟨one, -⟩
    · rw [unwritten]
      exact Nat.zero_le 1
    · exact Nat.le_of_eq one
  · cases lone with
    | idle same => exact same
    | commit there => cases missing.symm.trans there
    | create there => cases missing.symm.trans there

/-- One of two waiting patches settles; a second trial stays. -/
theorem settling_touches_one_patch :
    let key : ObjectKey := ⟨"ns", "t1"⟩
    let draft := ((Draft.named "ns" "t1" default).patch (.waiting ⟨"Deployment", "ns", "a"⟩)).patch
      (.waiting ⟨"Deployment", "ns", "b"⟩)
    let s := [Write.createTrial draft.build, .createTrial (Draft.named "ns" "t2" default).build,
      .setRollout ⟨"Deployment", "ns", "a"⟩ .blank].foldl Store.after .empty
    ∃ told outcome s', (reconcile .standard key default).Tells [] s told outcome s' ∧ outcome = .ok .done ∧ s' ≠ s ∧
      s.SameBeside key s' ∧ told.writes.length ≤ 1 ∧
      ∃ u, s'.trials.get? key = some u ∧ (draft.build.withVersion 1).Touch u := by
  intro key draft s
  obtain ⟨n, -, built⟩ := Store.Built.empty.writes [.createTrial draft.build,
    .createTrial (Draft.named "ns" "t2" default).build, .setRollout ⟨"Deployment", "ns", "a"⟩ .blank]
  have there : s.trials.get? key = some (draft.build.withVersion 1) := by decide +kernel
  obtain ⟨tells, -⟩ := Cast.attend_tells (c := ⟨⟨s, [], ∅⟩, .rollouts (.ofSeconds 5), .computed, [], []⟩)
    ⟨rfl, trivial, trivial⟩ [] (reconcile .standard key default)
  obtain ⟨few, -, beside, -, touched⟩ := pass_touches built tells
  obtain ⟨u, stored, touch, -⟩ := touched _ there
  refine ⟨_, _, _, tells, ?_, ?_, beside, few, u, stored, touch⟩
  all_goals decide +kernel

end Pass

end TrialControl
