import TrialControl.Proofs.Crowds

/-!
# Chronicles

A chronicle is a crowd with its past: what every pass has asked so far, and every trial that was stored
under the key, with its author. A stored trial was written by others or by a pass, and then it was
computed from the trial stored before it, which is the one that the pass had read.
-/

namespace TrialControl

/-- A pass underway, and what it has asked so far. -/
structure Journey where
  asked : Transcript
  plan : Plan Pass.Outcome

inductive Author where
  /-- A pass, with what it had asked before its commit. -/
  | pass (asked : Transcript)
  | work (write : Store.Write)

structure Entry where
  author : Author
  stored : Trial

structure Chronicle where
  store : Store
  passes : List Journey
  /-- The trials that were stored, the latest first. -/
  history : List Entry

namespace Chronicle

open Store (Write)
open Pass
open Crowd (Underway committed_of_read)

/-- A write that leaves the trial alone. -/
def Spares (key : ObjectKey) (s : Store) (w : Write) : Prop := (s.after w).trials.get? key = s.trials.get? key

def noted (c : Chronicle) (key : ObjectKey) (author : Author) (s : Store) : List Entry :=
  match s.trials.get? key with
  | some t => if c.store.trials.get? key = some t then c.history else ⟨author, t⟩ :: c.history
  | none => c.history

/-- A step of a pass of a trial, as in a crowd: a question and its answer are one step, the creation of a
workload included, and the others go on only between one question and the next. -/
inductive PassStep (key : ObjectKey) (c : Chronicle) : Chronicle → Prop where
  | begin (settings : Settings) (now : Instant) :
      PassStep key c ⟨c.store, ⟨[], reconcile settings key now⟩ :: c.passes, c.history⟩
  | answer {before after : List Journey} {asked : Transcript} {call : Call} {next : call.Answer → Plan Outcome}
      {r : call.Answer} {s : Store} (asking : c.passes = before ++ ⟨asked, .ask call next⟩ :: after)
      (reply : c.store.Replies call r s) :
      PassStep key c ⟨s, before ++ ⟨⟨call, r⟩ :: asked, next r⟩ :: after, c.noted key (.pass asked) s⟩

inductive Step (key : ObjectKey) (may : Store → Write → Prop) (c : Chronicle) : Chronicle → Prop where
  | pass {d : Chronicle} (step : PassStep key c d) : Step key may c d
  | work {w : Write} (allowed : may c.store w) :
      Step key may c ⟨c.store.after w, c.passes, c.noted key (.work w) (c.store.after w)⟩

inductive Run (key : ObjectKey) (may : Store → Write → Prop) (c : Chronicle) : Nat → Chronicle → Prop where
  | start : Run key may c 0 c
  | step {n : Nat} {d e : Chronicle} (run : Run key may c n d) (step : Step key may d e) :
      Run key may c (n + d.store.given e.store) e

/-- How a stored trial follows the one before it. -/
inductive Turn (key : ObjectKey) : Option Trial → Entry → Prop where
  | work {s : Store} {w : Write} {t : Trial} (wrote : (s.after w).trials.get? key = some t) :
      Turn key (s.trials.get? key) ⟨.work w, t⟩
  /-- A pass that has read the trial before has come to the commit of another one. -/
  | pass {settings : Settings} {now : Instant} {asked : Transcript} {t v : Trial} {part : Part}
      {next : Except Error Trial → Plan Outcome} {version : UInt64} (read : asked.trial? = some t)
      (reached : (reconcile settings key now).Reaches asked (.ask (.updateTrial v part) next)) :
      Turn key (some t) ⟨.pass asked, (part.merge t v).withVersion version⟩

/-- A history in which every stored trial follows the one before it, from one trial to another. -/
inductive Story (key : ObjectKey) (start : Option Trial) : List Entry → Option Trial → Prop where
  | start : Story key start [] start
  | turn {history : List Entry} {t : Option Trial} {entry : Entry} (story : Story key start history t)
      (turn : Turn key t entry) : Story key start (entry :: history) (some entry.stored)

variable {may : Store → Write → Prop} {key : ObjectKey} {c d e : Chronicle} {s : Store} {n m : Nat}

theorem noted_of_same {author : Author} (same : s.trials.get? key = c.store.trials.get? key) :
    c.noted key author s = c.history := by
  unfold noted
  cases there : s.trials.get? key with
  | none => rfl
  | some t => exact if_pos (same.symm.trans there)

theorem noted_of_new {author : Author} {t : Trial} (there : s.trials.get? key = some t)
    (new : c.store.trials.get? key ≠ some t) : c.noted key author s = ⟨author, t⟩ :: c.history := by
  simp only [noted, there]
  exact if_neg new

theorem PassStep.look {before after : List Journey} {asked : Transcript} {call : Call}
    {next : call.Answer → Plan Outcome} {r : call.Answer} (asking : c.passes = before ++ ⟨asked, .ask call next⟩ :: after)
    (reply : c.store.Replies call r c.store) :
    PassStep key c ⟨c.store, before ++ ⟨⟨call, r⟩ :: asked, next r⟩ :: after, c.history⟩ := by
  have silent : c.noted key (.pass asked) c.store = c.history := noted_of_same rfl
  rw [← silent]
  exact .answer asking reply

theorem Step.write {w : Write} {t : Trial} (allowed : may c.store w)
    (there : (c.store.after w).trials.get? key = some t) (new : c.store.trials.get? key ≠ some t) :
    Step key may c ⟨c.store.after w, c.passes, ⟨.work w, t⟩ :: c.history⟩ := by
  rw [← noted_of_new there new]
  exact .work allowed

/-! ## The crowd -/

def crowd (c : Chronicle) : Crowd := ⟨c.store, c.passes.map (·.plan)⟩

theorem PassStep.crowd (step : PassStep key c d) : Crowd.PassStep key c.crowd d.crowd := by
  cases step with
  | begin settings now => exact .begin settings now
  | @answer before after asked call next r s asking reply =>
    have asks : c.crowd.passes = before.map (·.plan) ++ .ask call next :: after.map (·.plan) := by
      simp [Chronicle.crowd, asking]
    have step : Crowd.PassStep key c.crowd ⟨s, before.map (·.plan) ++ next r :: after.map (·.plan)⟩ :=
      .answer asks reply
    simpa [Chronicle.crowd] using step

theorem Step.crowd (step : Step key may c d) : Crowd.Step key may c.crowd d.crowd := by
  cases step with
  | pass step => exact .pass step.crowd
  | work allowed => exact .work allowed

/-! ## What passes were told -/

theorem Run.append (run : Run key may c n d) (later : Run key may d m e) : Run key may c (n + m) e := by
  induction later with
  | start => exact run
  | step later step ih => exact Nat.add_assoc .. ▸ .step ih step

theorem Run.reached (run : Run key may ⟨s, [], []⟩ n c) :
    ∀ j ∈ c.passes, ∃ settings now, (reconcile settings key now).Reaches j.asked j.plan := by
  induction run with
  | start => intro j hj; cases hj
  | @step n d e run step ih =>
    intro j hj
    cases step with
    | work allowed => exact ih j hj
    | pass step =>
      cases step with
      | begin settings now =>
        rcases List.mem_cons.mp hj with rfl | hj
        · exact ⟨settings, now, .start⟩
        · exact ih j hj
      | @answer before after asked call next r s asking reply =>
        simp only [List.mem_append, List.mem_cons] at hj
        rcases hj with hj | rfl | hj
        · exact ih j (by simp [asking, hj])
        · obtain ⟨settings, now, reached⟩ := ih ⟨asked, .ask call next⟩ (by simp [asking])
          exact ⟨settings, now, reached.answer r⟩
        · exact ih j (by simp [asking, hj])

theorem Run.told (run : Run key may ⟨s, [], []⟩ n c) :
    ∀ j ∈ c.passes, ∀ later x before, j.asked = later ++ x :: before → ∃ k l b u next,
      Run key may ⟨s, [], []⟩ k b ∧ Run key may b l c ∧ ⟨before, .ask x.call next⟩ ∈ b.passes ∧
        b.store.Replies x.call x.answer u := by
  induction run with
  | start => intro j hj; cases hj
  | @step n d e run step ih =>
    have earlier {later : Transcript} {x : Exchange} {before : Transcript}
        (old : ∃ j ∈ d.passes, j.asked = later ++ x :: before) : ∃ k l b u next,
          Run key may ⟨s, [], []⟩ k b ∧ Run key may b l e ∧ ⟨before, .ask x.call next⟩ ∈ b.passes ∧
            b.store.Replies x.call x.answer u := by
      obtain ⟨j, hj, split⟩ := old
      obtain ⟨k, l, b, u, next, first, rest, stood, reply⟩ := ih j hj later x before split
      exact ⟨k, _, b, u, next, first, .step rest step, stood, reply⟩
    intro j hj later x before split
    cases step with
    | work allowed => exact earlier ⟨j, hj, split⟩
    | pass step =>
      cases step with
      | begin settings now =>
        rcases List.mem_cons.mp hj with rfl | hj
        · cases later <;> cases split
        · exact earlier ⟨j, hj, split⟩
      | @answer front back asked call next r u asking reply =>
        simp only [List.mem_append, List.mem_cons] at hj
        rcases hj with hj | rfl | hj
        · exact earlier ⟨j, by simp [asking, hj], split⟩
        · cases later with
          | nil =>
            cases split
            exact ⟨n, _, d, u, next, run, .step .start (.pass (.answer asking reply)), by simp [asking], reply⟩
          | cons y later =>
            cases split
            exact earlier ⟨⟨later ++ x :: before, .ask call next⟩, by simp [asking], rfl⟩
        · exact earlier ⟨j, by simp [asking, hj], split⟩

theorem Run.built (run : Run key may c n d) (built : c.store.Built m) : ∃ k, d.store.Built k := by
  induction run with
  | start => exact ⟨m, built⟩
  | @step n d e run step ih =>
    obtain ⟨k, built⟩ := ih
    rcases step.crowd.store with same | ⟨w, wrote⟩
    · change e.store = d.store at same
      exact ⟨k, same ▸ built⟩
    · change e.store = d.store.after w at wrote
      exact ⟨_, wrote ▸ built.write w⟩

/-! ## Steps -/

structure Sound (key : ObjectKey) (c : Chronicle) : Prop where
  keyed : c.store.Keyed
  dated : c.store.Dated
  passes : ∀ j ∈ c.passes, Underway c.store key j.asked j.plan

theorem Sound.crowd (sound : c.Sound key) : c.crowd.Sound key := by
  refine ⟨sound.keyed, sound.dated, fun p hp => ?_⟩
  obtain ⟨j, hj, rfl⟩ := List.mem_map.mp hp
  exact ⟨j.asked, sound.passes j hj⟩

theorem Sound.carry (sound : c.Sound key) (h : s = c.store ∨ ∃ w, s = c.store.after w)
    (fits : c.store.version.toNat + c.store.given s < UInt64.size) :
    ∀ j ∈ c.passes, Underway s key j.asked j.plan := by
  intro j hj
  rcases h with rfl | ⟨w, rfl⟩
  · exact sound.passes j hj
  · exact (sound.passes j hj).after fits

theorem Sound.step (sound : c.Sound key) (step : Step key may c d)
    (fits : c.store.version.toNat + c.store.given d.store < UInt64.size) : d.Sound key := by
  have crowd := sound.crowd.step step.crowd fits
  refine ⟨crowd.keyed, crowd.dated, fun j hj => ?_⟩
  have carried := sound.carry step.crowd.store fits
  cases step with
  | work allowed => exact carried j hj
  | pass step =>
    cases step with
    | begin settings now =>
      rcases List.mem_cons.mp hj with rfl | hj
      · exact .begin settings now
      · exact carried j hj
    | @answer before after asked call next r s asking reply =>
      rcases List.mem_append.mp hj with hj | hj
      · exact carried j (by simp [asking, hj])
      · rcases List.mem_cons.mp hj with rfl | hj
        · have under := sound.passes ⟨asked, .ask call next⟩ (by simp [asking])
          exact under.answer sound.keyed sound.dated fits reply
        · exact carried j (by simp [asking, hj])

theorem Run.crowd (run : Run key may c n d) : Crowd.Run key may c.crowd n d.crowd := by
  induction run with
  | start => exact .start
  | @step n d e run step ih => exact Crowd.Run.step (d := d.crowd) (e := e.crowd) ih step.crowd

theorem Run.sound (run : Run key may c n d) (sound : c.Sound key)
    (fits : c.store.version.toNat + n < UInt64.size) :
    d.Sound key ∧ d.store.version.toNat = c.store.version.toNat + n := by
  refine ⟨?_, (run.crowd.sound sound.crowd fits).2⟩
  induction run with
  | start => exact sound
  | @step n d e run step ih =>
    have version := (run.crowd.sound sound.crowd (by simp only [Chronicle.crowd]; omega)).2
    simp only [Chronicle.crowd] at version
    exact (ih (by omega)).step step (by omega)

theorem sound_of_built (built : s.Built m) (fits : m < UInt64.size) (key : ObjectKey) :
    (Chronicle.mk s [] []).Sound key :=
  ⟨built.keyed, built.dated fits, fun j hj => by cases hj⟩

/-! ## The history -/

/-- What a step of a pass does to the trial: nothing, or the transition of the live trial that the pass
has read, which is noted. -/
inductive Progress (key : ObjectKey) (c d : Chronicle) : Prop where
  | none (same : d.store.trials.get? key = c.store.trials.get? key) (silent : d.history = c.history)
  | transition {settings : Settings} {now : Instant} {asked : Transcript} {t v u : Trial} {action : Action}
      (there : c.store.trials.get? key = some t) (live : t.isLive = true) (read : asked.trial? = some t)
      (reached : (reconcile settings key now).Reaches asked (commit t.spec v action))
      (made : Transition settings now t asked v action)
      (computed : u = ((Part.toUpdate t.spec v).merge t v.syncPhase).withVersion (c.store.version + 1))
      (stored : d.store.trials.get? key = some u) (noted : d.history = ⟨.pass asked, u⟩ :: c.history)

theorem new_version {t u : Trial} (dated : c.store.Dated) (there : c.store.trials.get? key = some t)
    (fits : c.store.version.toNat + 1 < UInt64.size) (h : u.metadata.version = c.store.version + 1) :
    c.store.trials.get? key ≠ some u := by
  rw [there]
  rintro ⟨⟩
  have old := UInt64.le_iff_toNat_le.mp (dated key t there)
  have count : (c.store.version + 1).toNat = c.store.version.toNat + 1 := by
    rw [UInt64.toNat_add]
    exact Nat.mod_eq_of_lt fits
  rw [h, count] at old
  omega

theorem Sound.progress (sound : c.Sound key) (step : PassStep key c d)
    (fits : c.store.version.toNat + c.store.given d.store < UInt64.size) : Progress key c d := by
  cases step with
  | begin settings now => exact .none rfl rfl
  | @answer before after asked call next r s asking reply =>
    have unchanged (same : s.trials.get? key = c.store.trials.get? key) :
        Progress key c ⟨s, before ++ ⟨⟨call, r⟩ :: asked, next r⟩ :: after, c.noted key (.pass asked) s⟩ :=
      .none same (noted_of_same same)
    have under : Underway c.store key asked (.ask call next) :=
      sound.passes ⟨asked, .ask call next⟩ (by simp [asking])
    cases call with
    | updateTrial v part =>
      obtain ⟨settings, now, reached⟩ := under.reached
      obtain ⟨t, u, action, live, read, made, commits⟩ := commit_of_reaches reached
      have snapshot := under.read t read
      cases commits
      have same : u.syncPhase.metadata = t.metadata := made.metadata_eq
      rcases (committed_of_read snapshot same reply).stored snapshot.here with rfl | ⟨there, version, stored⟩
      · exact unchanged rfl
      · have new := new_version sound.dated there (by rwa [Store.given_of_tick version] at fits)
          (u := ((Part.toUpdate t.spec u).merge t u.syncPhase).withVersion (c.store.version + 1)) rfl
        exact .transition there live read reached made rfl stored (noted_of_new stored new)
    | createWorkload w =>
      obtain rfl := reply.store
      exact unchanged (congrArg (·.get? key) (c.store.trials_after_createWorkload w))
    | getTrial k => exact unchanged (congrArg (·.trials.get? key) reply.2)
    | getExperiment k => exact unchanged (congrArg (·.trials.get? key) reply.2)
    | listWorkloads ns selector => exact unchanged (congrArg (·.trials.get? key) reply.2)
    | listUnits ns selector => exact unchanged (congrArg (·.trials.get? key) reply.2)
    | listServices selector => exact unchanged (congrArg (·.trials.get? key) reply.2)
    | probe p => exact unchanged (congrArg (·.trials.get? key) reply)
    | capture m t target => exact unchanged (congrArg (·.trials.get? key) reply)

theorem Sound.turn (sound : c.Sound key) (step : Step key may c d)
    (fits : c.store.version.toNat + c.store.given d.store < UInt64.size) :
    (d.store.trials.get? key = c.store.trials.get? key ∧ d.history = c.history) ∨
      ∃ entry, Turn key (c.store.trials.get? key) entry ∧ d.store.trials.get? key = some entry.stored ∧
        d.history = entry :: c.history := by
  cases step with
  | pass step =>
    cases sound.progress step fits with
    | none same silent => exact .inl ⟨same, silent⟩
    | @transition settings now asked t v u action there live read reached made computed stored noted =>
      refine .inr ⟨_, ?_, stored, noted⟩
      rw [there, computed]
      exact .pass read reached
  | @work w allowed =>
    by_cases same : (c.store.after w).trials.get? key = c.store.trials.get? key
    · exact .inl ⟨same, noted_of_same same⟩
    · right
      cases stored : (c.store.after w).trials.get? key with
      | none =>
        refine absurd ?_ same
        rw [stored]
        exact (Decidable.not_not.mp fun present => Store.present_after present w stored).symm
      | some t =>
        have new : c.store.trials.get? key ≠ some t := fun there => same (stored.trans there.symm)
        exact ⟨⟨.work w, t⟩, .work stored, rfl, noted_of_new stored new⟩

theorem Run.story (run : Run key may c n d) (sound : c.Sound key) (fits : c.store.version.toNat + n < UInt64.size)
    {start : Option Trial} (story : Story key start c.history (c.store.trials.get? key)) :
    Story key start d.history (d.store.trials.get? key) := by
  induction run with
  | start => exact story
  | @step n d e run step ih =>
    obtain ⟨before, version⟩ := run.sound sound (by omega)
    rcases before.turn step (by omega) with ⟨same, silent⟩ | ⟨entry, turn, stored, noted⟩
    · rw [same, silent]
      exact ih (by omega)
    · rw [stored, noted]
      exact .turn (ih (by omega)) turn

/-! ## A trial that only passes write -/

theorem Sound.progress_of_spared (sound : c.Sound key) (step : Step key (Spares key) c d)
    (fits : c.store.version.toNat + c.store.given d.store < UInt64.size) : Progress key c d := by
  cases step with
  | pass step => exact sound.progress step fits
  | work spared => exact .none spared (noted_of_same spared)

theorem Run.keeps {P : Chronicle → Prop} (run : Run key (Spares key) c n d) (sound : c.Sound key)
    (fits : c.store.version.toNat + n < UInt64.size) (keep : ∀ {c d}, Progress key c d → P c → P d) (start : P c) :
    P d := by
  induction run with
  | start => exact start
  | @step n d e run step ih =>
    obtain ⟨before, version⟩ := run.sound sound (by omega)
    exact keep (before.progress_of_spared step (by omega)) (ih (by omega))

end Chronicle

end TrialControl
