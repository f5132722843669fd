import Mathlib.Control.Monad.Basic
import TrialControl.Proofs.Commits
import TrialControl.Proofs.LonePasses
import TrialControl.Proofs.Performances
import TrialControl.Trial.Draft

/-!
# Times of conditions

A condition keeps its time while its standing stays the same, except that the scan may record several
messages one after the other. When these differ, the time of Stable moves although the pass ends with the
standing that it has found, and a repeated pass writes what it would not have to write.
-/

namespace TrialControl

open Crowd (Committed committed_of_there)

namespace Trial

variable {t u : Trial} {messages : List String} {now later : Instant}

theorem standing?_awaiting (t : Trial) (now : Instant) (h : messages ≠ []) :
    (t.awaiting messages now).status.conditions.standing? .stable = some (.waiting (messages.getLast h)) := by
  have split := List.dropLast_concat_getLast h
  rw [← congrArg (t.awaiting · now) split, awaiting_concat]
  exact (Ledger.standing?_record _ _ now _ _).trans (if_pos rfl)

theorem awaiting_of_standing
    (said : ∀ m ∈ messages, t.status.conditions.standing? .stable = some (.waiting m)) :
    t.awaiting messages now = t := by
  induction messages with
  | nil => rfl
  | cons m messages ih =>
    have here := said m (List.mem_cons_self ..)
    have same := (Ledger.record_eq_self_iff .stable (.waiting m) now t.status.conditions).mpr here
    have recorded : t.recordWaiting m now = t := congrArg (fun l => { t with status.conditions := l }) same
    show (t.recordWaiting m now).awaiting messages now = t
    rw [recorded]
    exact ih fun x hx => said x (List.mem_cons_of_mem _ hx)

theorem since_awaiting (t : Trial) (now : Instant) {m m' : String} (hm : m ∈ messages) (hm' : m' ∈ messages)
    (differs : m ≠ m') :
    ∃ c, (t.awaiting messages now).status.conditions.find? .stable = some c ∧ c.since = now := by
  cases found : t.status.conditions.find? .stable with
  | some c =>
    refine ⟨_, t.find?_awaiting_stable messages now found, ?_⟩
    rw [(c.foldl_taking now _).2, if_neg]
    intro same
    have said := same _ (List.mem_map_of_mem hm)
    rw [← same _ (List.mem_map_of_mem hm')] at said
    exact differs (congrArg Standing.message said)
  | none =>
    cases messages with
    | nil => cases hm
    | cons x rest =>
      have first : (t.recordWaiting x now).status.conditions.find? .stable = some ⟨.stable, .waiting x, now⟩ :=
        (Ledger.find?_record_self .stable (.waiting x) now _).trans (by rw [found]; rfl)
      refine ⟨_, (t.recordWaiting x now).find?_awaiting_stable rest now first, ?_⟩
      rw [(Condition.foldl_taking now _ _).2]
      split <;> rfl

theorem toUpdate_awaiting (t : Trial) (messages : List String) (now : Instant) :
    Part.toUpdate t.spec (t.awaiting messages now) = .status := by
  rw [awaiting_eq]
  simp [Part.toUpdate]

/-- The time of a condition has moved only with its standing, or a message was recorded for Stable on the way
that the condition did not have. -/
def Timely (t : Trial) (messages : List String) (u : Trial) : Prop :=
  ∀ kind c, t.status.conditions.find? kind = some c →
    ∃ d, u.status.conditions.find? kind = some d ∧ (d.since ≠ c.since →
      d.standing ≠ c.standing ∨ kind = .stable ∧ ∃ m ∈ messages, Standing.waiting m ≠ c.standing)

theorem timely_self (t : Trial) (messages : List String) : t.Timely messages t :=
  fun _ c found => ⟨c, found, fun moved => absurd rfl moved⟩

structure Waited (t : Trial) (messages : List String) (now : Instant) (u : Trial) : Prop where
  spec : u.spec = t.spec
  status : u.status = (t.awaiting messages now).syncPhase.status
  deleted : u.metadata.deletedAt = t.metadata.deletedAt

namespace Waited

variable (waited : Waited t messages now u)
include waited

theorem conditions : u.status.conditions = (t.awaiting messages now).status.conditions := by
  rw [waited.status]
  rfl

theorem live (live : t.isLive = true) : u.isLive = true := by
  have same (kind : ConditionKind) (h : kind ≠ .stable) :
      u.status.conditions.holds kind .true = t.status.conditions.holds kind .true := by
    rw [waited.conditions]
    exact t.holds_awaiting messages now h .true
  rw [isLive, isFinished, same .complete (by decide), same .failed (by decide), Metadata.isDeleted, waited.deleted]
  exact live

theorem syncPhase_eq : u.syncPhase = u := by
  have spec : u.spec = (t.awaiting messages now).spec := by
    rw [waited.spec, awaiting_eq]
  have phase : u.phase = (t.awaiting messages now).phase := by
    unfold Trial.phase hasWaitingPatches
    rw [waited.status, spec]
    rfl
  have text : u.status.phase = u.phase.text := by
    rw [phase, waited.status]
    rfl
  rw [syncPhase, ← text]

/-- The same messages, said later, change nothing exactly when they are one message. -/
theorem agrees_iff (later_ne : later ≠ now) (some_said : messages ≠ []) :
    Part.agrees u (u.awaiting messages later).syncPhase .status = true ↔
      ∀ m ∈ messages, ∀ m' ∈ messages, m = m' := by
  have stands := waited.conditions ▸ t.standing?_awaiting now some_said
  rw [Part.agrees, decide_eq_true_eq]
  constructor
  · intro same m hm m' hm'
    -- two messages would leave the time of the pass in both trials
    refine Decidable.byContradiction fun differs => ?_
    obtain ⟨c, found, since⟩ := t.since_awaiting now hm hm' differs
    obtain ⟨d, found', since'⟩ := u.since_awaiting later hm hm' differs
    rw [← waited.conditions, congrArg TrialStatus.conditions same] at found
    have one : c = d := Option.some.inj (found.symm.trans found')
    exact later_ne (since'.symm.trans (one ▸ since))
  · intro one
    have said : ∀ m ∈ messages, u.status.conditions.standing? .stable = some (.waiting m) := by
      intro m hm
      rw [stands, one m hm _ (List.getLast_mem some_said)]
    rw [awaiting_of_standing said, waited.syncPhase_eq]

end Waited

end Trial

namespace Pass

open Store (Write)
open Rehearsal (Cast Cue Prober)

variable {settings : Settings} {now later : Instant} {t u : Trial} {asked told told' : Transcript} {action : Action}
variable {s s' v w : Store} {key : ObjectKey} {outcome outcome' : Outcome} {n k : Nat}

/-! ## Transitions -/

theorem Transition.timely (made : Transition settings now t asked u action) : t.Timely asked.messages u := by
  intro kind c found
  obtain ⟨ms, last, said, recorded⟩ := made.recorded found
  obtain ⟨stands, since⟩ := c.foldl_taking now (ms.map Standing.waiting ++ last.toList)
  refine ⟨_, recorded, fun moved => ?_⟩
  by_cases same : ∀ m ∈ ms, Standing.waiting m = c.standing
  · left
    intro unchanged
    refine moved (since.trans (if_pos fun x hx => ?_))
    rcases List.mem_append.mp hx with hx | hx
    · obtain ⟨m, hm, rfl⟩ := List.mem_map.mp hx
      exact same m hm
    · -- a last record is what stands in the end
      obtain rfl : last = some x := Option.mem_toList.mp hx
      rw [stands] at unchanged
      simpa using unchanged
  · right
    obtain ⟨m, unlike⟩ := Classical.not_forall.mp same
    obtain ⟨hm, differs⟩ := Classical.not_imp.mp unlike
    exact ⟨(said m hm).1, m, (said m hm).2, differs⟩

theorem Transition.final_verdict (made : Transition settings now t asked u .done) (waits : t.hasWaitingPatches = true) :
    ∃ r ∈ asked.verdicts, Unsettled.request? r = none := by
  have still (ready : t.hasWaitingPatches = false) : False := Bool.noConfusion (waits.symm.trans ready)
  cases made with
  | settle early patches waits probed => exact ⟨.ok (), Transcript.mem_verdicts_of_last probed, rfl⟩
  | @failWaiting p e early waits probed final =>
    exact ⟨.error e, Transcript.mem_verdicts_of_last probed, by simp [Unsettled.request?, final]⟩
  | stabilize early ready unstable => exact (still ready).elim
  | absorb early ready shown view changed => exact (still ready.still).elim
  | observe looked idle ready ended declared unobserved => exact (still ready.still).elim
  | capture looked attempted ready ended observed next finite => exact (still ready.still).elim
  | miss looked attempted final ready ended observed next => exact (still ready.still).elim
  | complete looked idle ready ended observed none_next => exact (still ready.still).elim

/-! ## Passes -/

theorem wait_of_tells (there : s.trials.get? key = some t) (live : t.isLive = true) (waits : t.hasWaitingPatches = true)
    (tells : (reconcile settings key now).Tells [] s told outcome s')
    (asks : ∀ r ∈ told.verdicts, (Unsettled.request? r).isSome = true) :
    ∃ delay r, told.longest? = some delay ∧
      s.Replies (.updateTrial (t.awaiting told.messages now).syncPhase .status) r s' ∧
      ∀ x, r = .ok x → outcome = .ok (.requeueAfter delay) := by
  obtain ⟨mid, scan, v, scanning, rest⟩ := Plan.tells_bind (proceed_of_tells there live tells)
  obtain ⟨rfl, scanned⟩ := (scan_ensures settings t key).tells scanning
  cases scan with
  | idle => exact Bool.noConfusion (waits.symm.trans scanned.2.2)
  | changed u =>
    obtain ⟨r, rfl, reply, result⟩ := commit_tells rest
    obtain ⟨verdict, mem, final⟩ := Transition.final_verdict scanned waits
    have some_asked := asks verdict mem
    rw [final] at some_asked
    cases some_asked
  | waiting u delay =>
    obtain ⟨r, rfl, reply, result⟩ := commit_tells rest
    cases scanned with
    | wait early waits longest =>
      refine ⟨delay, r, longest, ?_, result⟩
      rwa [t.toUpdate_awaiting mid.messages now] at reply

theorem waited_of_replies {messages : List String} {r : Except Error Trial} (keyed : s.Keyed)
    (there : s.trials.get? key = some t)
    (reply : s.Replies (.updateTrial (t.awaiting messages now).syncPhase .status) r s') :
    ∃ u, s'.trials.get? key = some u ∧ t.Waited messages now u := by
  have same : (t.awaiting messages now).syncPhase.metadata = t.metadata := by
    rw [Trial.awaiting_eq]
    rfl
  have here := keyed key t there
  cases committed_of_there there here same reply with
  | changed _ differs => exact ⟨_, Crowd.get?_putTrial_merge here _ .status, rfl, rfl, rfl⟩
  | kept _ agrees => exact ⟨t, there, rfl, by simpa [Part.agrees] using agrees, rfl⟩
  | refused gone => exact absurd there gone

theorem timely_of_tells (keyed : s.Keyed) (there : s.trials.get? key = some t)
    (tells : (reconcile settings key now).Tells [] s told outcome s') :
    ∃ u, s'.trials.get? key = some u ∧ t.Timely told.messages u := by
  cases lone_of_tells tells with
  | idle same => exact ⟨t, by rw [same, there], t.timely_self told.messages⟩
  | create read listed unrun reply =>
    refine ⟨t, ?_, t.timely_self told.messages⟩
    rw [reply.store, ← there]
    exact congrArg (·.get? key) (s.trials_after_createWorkload _)
  | @commit x u action mid r read live made seen told_read reached told_eq reply result =>
    subst told_eq
    obtain rfl : x = t := Option.some.inj (read.symm.trans there)
    have here := keyed key x there
    have same : u.syncPhase.metadata = x.metadata := made.metadata_eq
    cases committed_of_there there here same reply with
    | changed _ differs =>
      refine ⟨_, Crowd.get?_putTrial_merge here u.syncPhase (.toUpdate x.spec u), fun kind c found => ?_⟩
      obtain ⟨d, moved, since⟩ := made.timely kind c found
      exact ⟨d, (congrArg (·.find? kind) (Part.conditions_merge x u _)).trans moved, since⟩
    | kept _ agrees => exact ⟨x, there, x.timely_self _⟩
    | refused gone => exact absurd there gone

theorem repeated_wait (waited : t.Waited told.messages now u) (live : t.isLive = true)
    (waits : t.hasWaitingPatches = true) (asks : ∀ r ∈ told.verdicts, (Unsettled.request? r).isSome = true)
    (keyed : v.Keyed) (there : v.trials.get? key = some u) (later_ne : later ≠ now)
    (tells : (reconcile settings key later).Tells [] v told' outcome w) (same : told'.verdicts = told.verdicts) :
    (∃ delay, told.longest? = some delay ∧ outcome = .ok (.requeueAfter delay)) ∧
      (w = v ↔ ∀ m ∈ told.messages, ∀ m' ∈ told.messages, m = m') := by
  have still_waits : u.hasWaitingPatches = true := by rwa [Trial.hasWaitingPatches, waited.spec]
  obtain ⟨delay, r, longest, reply, result⟩ :=
    wait_of_tells there (waited.live live) still_waits tells (same ▸ asks)
  have requests := Transcript.requests_of_verdicts same
  have messages : told'.messages = told.messages := congrArg Transcript.messagesOf requests
  have delays : told'.longest? = told.longest? := congrArg Transcript.longestOf requests
  rw [messages] at reply
  rw [delays] at longest
  have some_said : told.messages ≠ [] := fun h => by
    rw [Transcript.messages_eq_nil.mp h] at longest
    cases longest
  have agrees_iff := waited.agrees_iff later_ne some_said
  have metadata : (u.awaiting told.messages later).syncPhase.metadata = u.metadata := by
    rw [Trial.awaiting_eq]
    rfl
  cases committed_of_there there (keyed key u there) metadata reply with
  | changed _ differs =>
    refine ⟨⟨delay, longest, result _ rfl⟩, fun h => ?_, fun one => ?_⟩
    · exact absurd (congrArg Store.log h) (List.cons_ne_self _ _)
    · rw [agrees_iff.mpr one] at differs
      cases differs
  | kept _ agrees => exact ⟨⟨delay, longest, result _ rfl⟩, fun _ => agrees_iff.mp agrees, fun _ => rfl⟩
  | refused gone => exact absurd there gone

/-- In a pass over any store, the time of a condition moves with its standing, or Stable was given another
message on the way. When all waiting patches ask for more time, the pass repeated at another time with the
same answers waits again, and it writes nothing exactly when all messages that the scan records are one:
with two of them it is repeated by its own notification. -/
theorem times_move_with_standings (built : s.Built n) (there : s.trials.get? key = some t)
    (tells : (reconcile settings key now).Tells [] s told outcome s') :
    ∃ u, s'.trials.get? key = some u ∧ t.Timely told.messages u ∧
      (t.isLive = true → t.hasWaitingPatches = true → (∀ r ∈ told.verdicts, (Unsettled.request? r).isSome = true) →
        ∀ {v w k later told' outcome'}, v.Built k → v.trials.get? key = some u → later ≠ now →
          (reconcile settings key later).Tells [] v told' outcome' w → told'.verdicts = told.verdicts →
            (∃ delay, told.longest? = some delay ∧ outcome' = .ok (.requeueAfter delay)) ∧
            (w = v ↔ ∀ m ∈ told.messages, ∀ m' ∈ told.messages, m = m')) := by
  have keyed := built.keyed
  obtain ⟨u, stored, timely⟩ := timely_of_tells keyed there tells
  refine ⟨u, stored, timely, fun live waits asks v w k later told' outcome' built' there' later_ne again same => ?_⟩
  obtain ⟨delay, r, longest, reply, -⟩ := wait_of_tells there live waits tells asks
  obtain ⟨x, found, waited⟩ := waited_of_replies keyed there reply
  obtain rfl : x = u := Option.some.inj (found.symm.trans stored)
  exact repeated_wait waited live waits asks built'.keyed there' later_ne again same

/-- A single patch that asks for more time: repeating the pass writes nothing. -/
theorem single_wait_is_quiet :
    let key : ObjectKey := ⟨"ns", "t1"⟩
    let target : Target := ⟨"Deployment", "ns", "web"⟩
    let later := shifted default (some (.ofSeconds 5))
    let s := [Write.createTrial ((Draft.named "ns" "t1" default).patch (.waiting target)).build,
      .setRollout target { RolloutStatus.blank with replicas := 2 }].foldl Store.after .empty
    ∃ told outcome s' told' outcome' s'', s' ≠ s ∧
      (reconcile .standard key default).Tells [] s told outcome s' ∧
      (reconcile .standard key later).Tells [] s' told' outcome' s'' ∧
      outcome' = .ok (.requeueAfter (.ofSeconds 5)) ∧ s'' = s' := by
  intro key target later s
  let draft := (Draft.named "ns" "t1" default).patch (.waiting target)
  obtain ⟨n, -, built⟩ := Store.Built.empty.writes
    [.createTrial draft.build, .setRollout target { RolloutStatus.blank with replicas := 2 }]
  have there : s.trials.get? key = some (draft.build.withVersion 1) := by decide +kernel
  obtain ⟨tells, still⟩ := Cast.attend_tells (c := ⟨⟨s, [], ∅⟩, .rollouts (.ofSeconds 5), .computed, [], []⟩)
    ⟨rfl, trivial, trivial⟩ [] (reconcile .standard key default)
  obtain ⟨again, -⟩ := Cast.attend_tells still [] (reconcile .standard key later)
  obtain ⟨u, stored, -, repeated⟩ := times_move_with_standings built there tells
  obtain ⟨k, built'⟩ := tells.built built
  have waits := repeated (by decide +kernel) (by decide +kernel) (by decide +kernel) built' stored (by decide +kernel)
    again (by decide +kernel)
  refine ⟨_, _, _, _, _, _, ?_, tells, again, ?_, waits.2.mpr ?_⟩
  all_goals decide +kernel

/-- Two patches that ask for more time, the second for the longer one: the repeated pass leaves the standing
that it has found, but it moves its time and reports a change. -/
theorem two_waits_are_restless :
    let key : ObjectKey := ⟨"ns", "t1"⟩
    let later := shifted default (some (.ofSeconds 5))
    let s := Store.empty.after (.createTrial (((Draft.named "ns" "t1" default).patch
      (.waiting ⟨"Deployment", "ns", "a"⟩)).patch (.waiting ⟨"Deployment", "ns", "b"⟩)).build)
    let stable (s : Store) := (s.trials.get? key).bind (·.status.conditions.find? .stable)
    ∃ told outcome s' told' outcome' s'',
      (reconcile .standard key default).Tells [] s told outcome s' ∧
      (reconcile .standard key later).Tells [] s' told' outcome' s'' ∧
      told.requests = [("b is behind", .ofSeconds 2), ("a is behind", .ofSeconds 1)] ∧
      told.verdicts.length = 2 ∧ told'.verdicts = told.verdicts ∧
      stable s' = some ⟨.stable, .waiting "b is behind", default⟩ ∧
      stable s'' = some ⟨.stable, .waiting "b is behind", later⟩ ∧ s''.log = .trial key :: s'.log := by
  intro key later s stable
  let ask (message : String) (seconds : UInt64) : Cue (Except Unsettled Unit) :=
    ⟨.error (.pending message (.ofSeconds seconds)), id⟩
  let scripts := [("a", [ask "a is behind" 1, ask "a is behind" 1]), ("b", [ask "b is behind" 2, ask "b is behind" 2])]
  have quiet : ∀ e ∈ scripts, ∀ cue ∈ e.2, cue.Still := by simp [scripts, ask, Cue.Still]
  obtain ⟨tells, still⟩ := Cast.attend_tells (c := ⟨⟨s, [], ∅⟩, .scripted ⟨scripts, by decide⟩, .computed, [], []⟩)
    ⟨rfl, fun name script found => quiet (name, script) (Table.mem_of_find found), trivial⟩ []
    (reconcile .standard key default)
  obtain ⟨again, -⟩ := Cast.attend_tells still [] (reconcile .standard key later)
  refine ⟨_, _, _, _, _, _, tells, again, ?_⟩
  decide +kernel

end Pass

end TrialControl
