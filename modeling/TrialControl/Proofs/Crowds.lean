import TrialControl.Proofs.StoreSound
import TrialControl.Proofs.Transitions

/-!
# Passes side by side

Any number of passes of one trial share a store with other work. Each pass stands at a question, and
between its question and the answer the others go on in any order. A pass that has read a trial keeps
what it read; its commit changes the stored trial only when that trial is still the one it read.
-/

namespace TrialControl

/-! ## Writes of a plan -/

def Call.write? : Call → Option Store.Write
  | .updateTrial t part => some (.updateTrial t part)
  | .createWorkload w => some (.createWorkload w)
  | _ => none

theorem Call.write?_of_looks {c : Call} (looks : c.looks = true) : c.write? = none := by
  cases c <;> first | rfl | cases looks

theorem Store.Replies.store {s u : Store} {c : Call} {r : c.Answer} (reply : s.Replies c r u) :
    u = (c.write?.map s.after).getD s := by
  cases c with
  | updateTrial t part =>
    have h : u = (s.taking (s.replaceTrial t part)).2 := congrArg Prod.snd reply
    rw [h]
    simp only [Call.write?, Option.map_some, Option.getD_some, after, write]
    cases s.replaceTrial t part <;> rfl
  | createWorkload w =>
    have h : u = (s.taking (s.createWorkload w)).2 := congrArg Prod.snd reply
    rw [h]
    simp only [Call.write?, Option.map_some, Option.getD_some, after, write]
    cases s.createWorkload w <;> rfl
  | getTrial key => exact reply.2
  | getExperiment key => exact reply.2
  | listWorkloads ns selector => exact reply.2
  | listUnits ns selector => exact reply.2
  | listServices selector => exact reply.2
  | probe p => exact reply
  | capture m t target => exact reply

theorem Plan.Tells.built {α : Type} {p : Plan α} {asked told : Transcript} {s u : Store} {a : α} {n : Nat}
    (tells : p.Tells asked s told a u) (built : s.Built n) : ∃ k, u.Built k := by
  induction tells generalizing n with
  | done a asked s => exact ⟨n, built⟩
  | @ask c next asked told s u v r a reply tells ih =>
    rw [reply.store] at ih
    cases h : c.write? with
    | none =>
      rw [h] at ih
      exact ih built
    | some w =>
      rw [h] at ih
      exact ih (built.write w)

structure Crowd where
  store : Store
  passes : List (Plan Pass.Outcome)

namespace Crowd

open Store (Write)
open Pass

/-- A step of a pass of a trial: it begins, or it gets an answer. Whatever the store does to answer is one
step, so a workload is looked for and put in without anything in between; the others go on between one
question and the next. -/
inductive PassStep (key : ObjectKey) (c : Crowd) : Crowd → Prop where
  | begin (settings : Settings) (now : Instant) :
      PassStep key c ⟨c.store, reconcile settings key now :: c.passes⟩
  | answer {before after : List (Plan Outcome)} {call : Call} {next : call.Answer → Plan Outcome}
      {r : call.Answer} {s : Store} (asking : c.passes = before ++ .ask call next :: after)
      (reply : c.store.Replies call r s) : PassStep key c ⟨s, before ++ next r :: after⟩

inductive Step (key : ObjectKey) (may : Store → Write → Prop) (c : Crowd) : Crowd → Prop where
  | pass {d : Crowd} (step : PassStep key c d) : Step key may c d
  | work {w : Write} (allowed : may c.store w) : Step key may c ⟨c.store.after w, c.passes⟩

inductive Run (key : ObjectKey) (may : Store → Write → Prop) (c : Crowd) : Nat → Crowd → Prop where
  | start : Run key may c 0 c
  | step {n : Nat} {d e : Crowd} (run : Run key may c n d) (step : Step key may d e) :
      Run key may c (n + d.store.given e.store) e

/-! ## Where a pass can be -/

/-- A pass underway: it has come where it is by what it was told, and what it was told of the trial was
so at some time. -/
structure Underway (s : Store) (key : ObjectKey) (asked : Transcript) (p : Plan Outcome) : Prop where
  reached : ∃ settings now, (reconcile settings key now).Reaches asked p
  read : ∀ t, asked.trial? = some t → s.Read key t

/-- What the answer to a pass may do to the stored trial: nothing, or the transition of the live trial
that the pass has read. -/
inductive Progress (s : Store) (key : ObjectKey) (u : Store) (asked : Transcript) : Prop where
  | none (same : u.trials.get? key = s.trials.get? key)
  | transition {settings : Settings} {now : Instant} {t v : Trial} {action : Action}
      (there : s.trials.get? key = some t) (live : t.isLive = true) (told : asked.trial? = some t)
      (made : Transition settings now t asked v action)
      (stored : u.trials.get? key =
        some (((Part.toUpdate t.spec v).merge t v.syncPhase).withVersion (s.version + 1)))

variable {s u : Store} {key : ObjectKey} {asked : Transcript} {p : Plan Outcome} {w : Write}

theorem Underway.begin (settings : Settings) (now : Instant) : Underway s key [] (reconcile settings key now) := by
  refine ⟨⟨settings, now, .start⟩, fun t told => ?_⟩
  cases told

theorem Underway.after (under : Underway s key asked p)
    (fits : s.version.toNat + s.given (s.after w) < UInt64.size) : Underway (s.after w) key asked p :=
  ⟨under.reached, fun t told => (under.read t told).after fits⟩

/-- What becomes of the commit of a trial that was read: it changes the stored trial, or finds nothing to
change, or it is refused because the stored trial is another one by now. -/
inductive Committed (s : Store) (key : ObjectKey) (t v : Trial) (part : Part) : Except Error Trial → Store → Prop where
  | changed (there : s.trials.get? key = some t) (differs : part.agrees t v = false) :
      Committed s key t v part (.ok (s.putTrial (part.merge t v)).1)
        { (s.putTrial (part.merge t v)).2 with commits := s.commits + 1 }
  | kept (there : s.trials.get? key = some t) (agrees : part.agrees t v = true) : Committed s key t v part (.ok t) s
  | refused (gone : s.trials.get? key ≠ some t) :
      Committed s key t v part (.error (.conflict .trial key.text)) s

theorem committed_of_there {t v : Trial} {part : Part} {r : Except Error Trial} (there : s.trials.get? key = some t)
    (here : t.key = key) (same : v.metadata = t.metadata) (reply : s.Replies (.updateTrial v part) r u) :
    Committed s key t v part r u := by
  have found : v.key = key := by rw [Trial.key, same]; exact here
  have answer : (r, u) = s.taking (s.replaceTrial v part) := reply
  rw [s.replaceTrial_eq v part, found, there] at answer
  dsimp only at answer
  rw [same, if_neg (not_not_intro rfl)] at answer
  cases agrees : part.agrees t v with
  | true =>
    rw [agrees] at answer
    cases answer
    exact .kept there agrees
  | false =>
    rw [agrees] at answer
    cases answer
    exact .changed there agrees

theorem committed_of_read {t v : Trial} {part : Part} {r : Except Error Trial} (read : s.Read key t)
    (same : v.metadata = t.metadata) (reply : s.Replies (.updateTrial v part) r u) :
    Committed s key t v part r u := by
  have here : v.key = key := by rw [Trial.key, same]; exact read.here
  cases there : s.trials.get? key with
  | none => exact absurd there read.present
  | some stored =>
    by_cases fresh : stored.metadata.version = t.metadata.version
    · obtain rfl := read.same stored there fresh
      exact committed_of_there there read.here same reply
    · have answer : (r, u) = s.taking (s.replaceTrial v part) := reply
      have stale : stored.metadata.version ≠ v.metadata.version := by rwa [same]
      rw [s.replaceTrial_conflict (here ▸ there) stale part, here] at answer
      cases answer
      refine .refused ?_
      rw [there]
      rintro ⟨⟩
      exact fresh rfl

theorem get?_putTrial_merge {t : Trial} (here : t.key = key) (v : Trial) (part : Part) :
    (s.putTrial (part.merge t v)).2.trials.get? key = some ((part.merge t v).withVersion (s.version + 1)) := by
  have merged : (part.merge t v).key = key := (part.key_merge t v).trans here
  show (s.trials.insert (part.merge t v).key _).get? key = _
  rw [merged, Table.get?_insert_self]
  rfl

theorem Committed.stored {t v : Trial} {part : Part} {r : Except Error Trial} (committed : Committed s key t v part r u)
    (here : t.key = key) :
    u = s ∨ s.trials.get? key = some t ∧ u.version = s.version + 1 ∧
      u.trials.get? key = some ((part.merge t v).withVersion (s.version + 1)) := by
  cases committed with
  | changed there differs => exact .inr ⟨there, rfl, get?_putTrial_merge here v part⟩
  | kept there agrees => exact .inl rfl
  | refused gone => exact .inl rfl

theorem Committed.beside {t v : Trial} {part : Part} {r : Except Error Trial}
    (committed : Committed s key t v part r u) :
    u.workloads = s.workloads ∧ u.experiments = s.experiments ∧ u.units = s.units := by
  cases committed <;> exact ⟨rfl, rfl, rfl⟩

theorem Underway.progress {call : Call} {next : call.Answer → Plan Outcome} {r : call.Answer}
    (under : Underway s key asked (.ask call next)) (reply : s.Replies call r u) : Progress s key u asked := by
  obtain ⟨settings, now, reaches⟩ := under.reached
  have stage := stage_of_reaches reaches
  generalize hp : Plan.ask call next = p at stage
  cases stage with
  | unread =>
    cases hp
    exact .none (congrArg (·.trials.get? key) reply.2)
  | @going t _ _ live told rest =>
    cases rest with
    | stop outcome => cases hp
    | look looks rest =>
      cases hp
      exact .none (congrArg (·.trials.get? key) (reply.of_looks looks))
    | @commit _ v action made =>
      cases hp
      have read := under.read t told
      have same : v.syncPhase.metadata = t.metadata := made.metadata_eq
      rcases (committed_of_read read same reply).stored read.here with unchanged | ⟨there, -, stored⟩
      · exact .none (congrArg (·.trials.get? key) unchanged)
      · exact .transition there live told made stored
    | create ready =>
      cases hp
      obtain rfl := reply.store
      exact .none (congrArg (·.get? key) (s.trials_after_createWorkload _))
  | ended asked outcome => cases hp

theorem Underway.answer {call : Call} {next : call.Answer → Plan Outcome} {r : call.Answer}
    (under : Underway s key asked (.ask call next)) (keyed : s.Keyed) (dated : s.Dated)
    (fits : s.version.toNat + s.given u < UInt64.size) (reply : s.Replies call r u) :
    Underway u key (⟨call, r⟩ :: asked) (next r) := by
  obtain ⟨settings, now, reaches⟩ := under.reached
  refine ⟨⟨settings, now, reaches.answer r⟩, fun t told => ?_⟩
  have stage := stage_of_reaches reaches
  generalize hp : Plan.ask call next = p at stage
  cases stage with
  | unread =>
    cases hp
    obtain ⟨rfl, rfl⟩ := reply
    cases read : u.getTrial key with
    | error e =>
      rw [read] at told
      cases told
    | ok v =>
      rw [read] at told
      cases told
      exact .of_get keyed dated (Store.getTrial_eq_ok.mp read)
  | going live read rest =>
    cases rest with
    | stop outcome => cases hp
    | look looks rest =>
      cases hp
      rw [Transcript.trial?_cons_of_looks looks] at told
      rw [reply.of_looks looks]
      exact under.read t told
    | commit made =>
      cases hp
      obtain rfl := reply.store
      exact (under.read t told).after fits
    | create ready =>
      cases hp
      obtain rfl := reply.store
      exact (under.read t told).after fits
  | ended asked outcome => cases hp

/-! ## Steps -/

structure Sound (key : ObjectKey) (c : Crowd) : Prop where
  keyed : c.store.Keyed
  dated : c.store.Dated
  passes : ∀ p ∈ c.passes, ∃ asked, Underway c.store key asked p

variable {may : Store → Write → Prop} {c d e : Crowd} {n : Nat}

theorem PassStep.store (step : PassStep key c d) : d.store = c.store ∨ ∃ w, d.store = c.store.after w := by
  cases step with
  | begin settings now => exact .inl rfl
  | @answer before after call next r s asking reply =>
    rw [reply.store]
    cases call.write? with
    | none => exact .inl rfl
    | some w => exact .inr ⟨w, rfl⟩

theorem Step.store (step : Step key may c d) : d.store = c.store ∨ ∃ w, d.store = c.store.after w := by
  cases step with
  | pass step => exact step.store
  | @work w allowed => exact .inr ⟨w, rfl⟩

theorem Step.version (step : Step key may c d) (fits : c.store.version.toNat + c.store.given d.store < UInt64.size) :
    d.store.version.toNat = c.store.version.toNat + c.store.given d.store := by
  rcases step.store with h | ⟨w, h⟩
  · simp [h, Store.given]
  · rw [h] at fits ⊢
    exact Store.version_after fits

theorem Sound.carry (sound : c.Sound key) (h : u = c.store ∨ ∃ w, u = c.store.after w)
    (fits : c.store.version.toNat + c.store.given u < UInt64.size) : (Crowd.mk u c.passes).Sound key := by
  rcases h with rfl | ⟨w, rfl⟩
  · exact sound
  · refine ⟨sound.keyed.after w, sound.dated.after fits, fun p hp => ?_⟩
    obtain ⟨asked, under⟩ := sound.passes p hp
    exact ⟨asked, under.after fits⟩

theorem Sound.progress (sound : c.Sound key) (step : PassStep key c d) :
    ∃ asked, Progress c.store key d.store asked := by
  cases step with
  | begin settings now => exact ⟨[], .none rfl⟩
  | @answer before after call next r s asking reply =>
    obtain ⟨asked, under⟩ := sound.passes (.ask call next) (by simp [asking])
    exact ⟨asked, under.progress reply⟩

theorem Sound.pass (sound : c.Sound key) (step : PassStep key c d)
    (fits : c.store.version.toNat + c.store.given d.store < UInt64.size) : d.Sound key := by
  have carried := sound.carry step.store fits
  refine ⟨carried.keyed, carried.dated, fun p hp => ?_⟩
  cases step with
  | begin settings now =>
    rcases List.mem_cons.mp hp with rfl | hp
    · exact ⟨[], .begin settings now⟩
    · exact sound.passes p hp
  | @answer before after call next r s asking reply =>
    rcases List.mem_append.mp hp with hp | hp
    · exact carried.passes p (by simp [asking, hp])
    · rcases List.mem_cons.mp hp with rfl | hp
      · obtain ⟨asked, under⟩ := sound.passes (.ask call next) (by simp [asking])
        exact ⟨_, under.answer sound.keyed sound.dated fits reply⟩
      · exact carried.passes p (by simp [asking, hp])

theorem Sound.step (sound : c.Sound key) (step : Step key may c d)
    (fits : c.store.version.toNat + c.store.given d.store < UInt64.size) : d.Sound key := by
  cases step with
  | pass step => exact sound.pass step fits
  | @work w allowed => exact sound.carry (.inr ⟨w, rfl⟩) fits

/-- A run keeps the crowd sound, and the counter counts, as long as it does not come round. -/
theorem Run.sound (run : Run key may c n d) (sound : c.Sound key) (fits : c.store.version.toNat + n < UInt64.size) :
    d.Sound key ∧ d.store.version.toNat = c.store.version.toNat + n := by
  induction run with
  | start => exact ⟨sound, rfl⟩
  | @step n d e run step ih =>
    obtain ⟨before, version⟩ := ih (by omega)
    refine ⟨before.step step (by omega), ?_⟩
    rw [step.version (by omega), version]
    omega

theorem sound_of_built {m : Nat} (built : s.Built m) (fits : m < UInt64.size) (key : ObjectKey) :
    (Crowd.mk s []).Sound key :=
  ⟨built.keyed, built.dated fits, fun p hp => by cases hp⟩

end Crowd

end TrialControl
