import TrialControl.Proofs.Crowds
import TrialControl.Proofs.Questions
import TrialControl.Proofs.StoredWorkloads

/-!
# Lone passes

While nobody else writes, a pass is a series of looks at one and the same store, and one write at the
end: the commit of a transition of the stored trial, or the creation of its run workload.
-/

namespace TrialControl

def Transcript.SeenIn (asked : Transcript) (s : Store) : Prop := ∀ x ∈ asked, s.Replies x.call x.answer s

theorem Transcript.SeenIn.cons {asked : Transcript} {s : Store} (seen : asked.SeenIn s) {c : Call} {r : c.Answer}
    (reply : s.Replies c r s) : SeenIn (⟨c, r⟩ :: asked) s :=
  List.forall_mem_cons.mpr ⟨reply, seen⟩

namespace Pass

variable {settings : Settings} {now : Instant} {t : Trial} {asked told : Transcript} {action : Action}
variable {s s' : Store} {key : ObjectKey} {outcome : Outcome}

/-- How a pass ends on a store to which nobody else writes. -/
inductive Lone (settings : Settings) (now : Instant) (key : ObjectKey) (s : Store) (told : Transcript)
    (outcome : Outcome) (s' : Store) : Prop where
  | idle (same : s' = s)
  | commit {t u : Trial} {action : Action} {asked : Transcript} {r : Except Error Trial}
      (there : s.trials.get? key = some t) (live : t.isLive = true) (made : Transition settings now t asked u action)
      (seen : asked.SeenIn s) (read : asked.trial? = some t)
      (reached : (reconcile settings key now).Reaches asked (commit t.spec u action))
      (tells : told = ⟨.updateTrial u.syncPhase (.toUpdate t.spec u), r⟩ :: asked)
      (reply : s.Replies (.updateTrial u.syncPhase (.toUpdate t.spec u)) r s')
      (result : ∀ x, r = .ok x → outcome = .ok action)
  | create {t : Trial} {found : List Workload} {r : Except Error Workload} (there : s.trials.get? key = some t)
      (listed : s.listWorkloads t.metadata.ns t.ownSelector = .ok found)
      (unrun : (found.filter fun w => !w.isSetup) = [])
      (reply : s.Replies (.createWorkload (t.runWorkload settings.workload)) r s')

theorem commit_tells {u : Trial} (tells : (commit t.spec u action).Tells asked s told outcome s') :
    ∃ r, told = ⟨.updateTrial u.syncPhase (.toUpdate t.spec u), r⟩ :: asked ∧
      s.Replies (.updateTrial u.syncPhase (.toUpdate t.spec u)) r s' ∧ ∀ x, r = .ok x → outcome = .ok action := by
  cases tells with
  | @ask _ _ _ _ _ _ _ r _ reply tells =>
    refine ⟨r, ?_, ?_, fun x stored => ?_⟩
    · cases r <;> cases tells <;> rfl
    · cases r <;> cases tells <;> exact reply
    · subst stored
      cases tells
      rfl

theorem createRun_tells (tells : (createRun settings t).Tells asked s told outcome s') :
    ∃ r, s.Replies (.createWorkload (t.runWorkload settings.workload)) r s' := by
  cases tells with
  | @ask _ _ _ _ _ _ _ r _ reply tells =>
    refine ⟨r, ?_⟩
    cases r with
    | ok w => cases tells; exact reply
    | error e => cases e <;> cases tells <;> exact reply

theorem there_of_seen {p : Plan Outcome} (reaches : (reconcile settings key now).Reaches asked p)
    (seen : asked.SeenIn s) (read : asked.trial? = some t) : s.trials.get? key = some t := by
  obtain ⟨later, rfl, -⟩ := asked_of_reaches reaches read
  exact Store.getTrial_eq_ok.mp (seen ⟨.getTrial key, .ok t⟩ (by simp)).1.symm

theorem lone_of_reaches {p : Plan Outcome} (tells : p.Tells asked s told outcome s') (seen : asked.SeenIn s)
    (reaches : (reconcile settings key now).Reaches asked p) : Lone settings now key s told outcome s' := by
  induction tells with
  | done outcome asked s => exact .idle rfl
  | @ask c next asked told s u s' r outcome reply tells ih =>
    have stage := stage_of_reaches reaches
    -- the stages say which plan it is, so the plan has to be a variable
    generalize hp : Plan.ask c next = p at stage
    cases stage with
    | unread =>
      cases hp
      obtain rfl := reply.2
      exact ih (seen.cons reply) (reaches.answer r)
    | @going t _ _ live read rest =>
      cases rest with
      | stop outcome => cases hp
      | look looks rest =>
        cases hp
        obtain rfl := reply.of_looks looks
        exact ih (seen.cons reply) (reaches.answer r)
      | @commit _ u action made =>
        have committing : (Pass.commit t.spec u action).Tells asked s told outcome s' := by
          rw [← hp]
          exact .ask reply tells
        obtain ⟨r, told, reply, result⟩ := commit_tells committing
        exact .commit (there_of_seen reaches seen read) live made seen read (hp ▸ reaches) told reply result
      | @create _ found ready listed unrun =>
        have creating : (createRun settings t).Tells asked s told outcome s' := by
          rw [← hp]
          exact .ask reply tells
        obtain ⟨r, reply⟩ := createRun_tells creating
        obtain ⟨before, rfl⟩ := List.head?_eq_some_iff.mp listed
        have listed : s.listWorkloads t.metadata.ns t.ownSelector = .ok found :=
          (seen _ (List.mem_cons_self ..)).1.symm
        exact .create (there_of_seen reaches seen read) listed unrun reply
    | ended asked outcome => cases hp

theorem lone_of_tells (tells : (reconcile settings key now).Tells [] s told outcome s') :
    Lone settings now key s told outcome s' :=
  lone_of_reaches tells (by simp [Transcript.SeenIn]) .start

end Pass

end TrialControl
