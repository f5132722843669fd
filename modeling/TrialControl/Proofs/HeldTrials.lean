import TrialControl.Proofs.Chronicles
import TrialControl.Proofs.Questions

/-!
# Trials in the hands of passes

A pass computes what it commits from the trial that it has read, and that one was stored at some time. So what every
commit keeps holds of the stored trial and of those that passes still work with, however old these may be.
-/

namespace TrialControl.Chronicle

open Pass

/-- A property of trials that commits keep: it holds of what is stored when it holds of the trial that was read and
of the one that is replaced. -/
def Handed (P : Trial → Prop) : Prop :=
  ∀ {settings : Settings} {now : Instant} {t u x : Trial} {asked : Transcript} {action : Action},
    Transition settings now t asked u action → P t → P x →
      ∀ (part : Part) (version : UInt64), P ((part.merge x u.syncPhase).withVersion version)

structure Held (P : Trial → Prop) (key : ObjectKey) (c : Chronicle) : Prop where
  stored : ∃ t, c.store.trials.get? key = some t ∧ P t
  read : ∀ j ∈ c.passes, ∀ t, j.asked.trial? = some t → P t

variable {may : Store → Store.Write → Prop} {P : Trial → Prop} {key : ObjectKey} {c : Chronicle} {s u : Store} {t : Trial} {n m : Nat}
variable {settings : Settings} {now : Instant} {asked : Transcript}

theorem Held.answered (held : Held P key c) (handed : Handed P) (keyed : c.store.Keyed) {call : Call}
    {next : call.Answer → Plan Outcome} {r : call.Answer}
    (reached : (reconcile settings key now).Reaches asked (.ask call next))
    (working : ∀ t, asked.trial? = some t → P t) (reply : c.store.Replies call r u) :
    ∃ t, u.trials.get? key = some t ∧ P t := by
  rw [reply.store]
  cases call with
  | updateTrial v part =>
    obtain ⟨t, w, action, -, read, made, commits⟩ := commit_of_reaches reached
    cases commits
    show ∃ t, (c.store.after (.updateTrial w.syncPhase (.toUpdate _ w))).trials.get? key = some t ∧ P t
    rcases c.store.after_effect (.updateTrial w.syncPhase (.toUpdate t.spec w)) with ⟨trials, -⟩ | ⟨puts, trials, -⟩
    · rw [trials]
      exact held.stored
    · cases puts with
      | @replace x _ _ there fresh differs =>
        rw [trials, Table.get?_insert]
        split
        · next here =>
          -- the trial that is replaced is the one under the key
          have same : w.syncPhase.key = key := by rw [here, Part.key_merge, keyed _ x there]
          obtain ⟨x', there', holds⟩ := held.stored
          obtain rfl : x = x' := Option.some.inj (there.symm.trans (same ▸ there'))
          exact ⟨_, rfl, handed made (working t read) holds _ _⟩
        · exact held.stored
  | createWorkload w =>
    show ∃ t, (c.store.after (.createWorkload w)).trials.get? key = some t ∧ P t
    rw [c.store.trials_after_createWorkload w]
    exact held.stored
  | _ => exact held.stored

theorem Held.reading (held : Held P key c) {x : Exchange} {p : Plan Outcome}
    (reached : (reconcile settings key now).Reaches (x :: asked) p) (working : ∀ t, asked.trial? = some t → P t)
    (reply : c.store.Replies x.call x.answer u) (read : Transcript.trial? (x :: asked) = some t) : P t := by
  obtain ⟨later, split, concern⟩ := asked_of_reaches reached read
  cases later with
  | nil =>
    -- the answer is the trial itself
    cases split
    obtain ⟨t', there, holds⟩ := held.stored
    have answer : c.store.getTrial key = .ok t := reply.1.symm
    obtain rfl : t' = t := Option.some.inj (there.symm.trans (Store.getTrial_eq_ok.mp answer))
    exact holds
  | cons y later =>
    cases split
    exact working t (trial?_append_read (fun x mem => concern x (List.mem_cons_of_mem _ mem)) key _)

theorem Run.held (run : Run key may ⟨s, [], []⟩ n c) (built : s.Built m) (handed : Handed P)
    (kept : ∀ {s w t}, may s w → s.trials.get? key = some t → P t → ∃ u, (s.after w).trials.get? key = some u ∧ P u)
    (start : ∃ t, s.trials.get? key = some t ∧ P t) : Held P key c := by
  induction run with
  | start => exact ⟨start, fun j mem => by cases mem⟩
  | @step n d e run step ih =>
    cases step with
    | @work w allowed =>
      obtain ⟨t, there, holds⟩ := ih.stored
      exact ⟨kept allowed there holds, ih.read⟩
    | pass step =>
      cases step with
      | begin settings now =>
        refine ⟨ih.stored, fun j mem t read => ?_⟩
        rcases List.mem_cons.mp mem with rfl | mem
        · cases read
        · exact ih.read j mem t read
      | @answer before after asked call next r u asking reply =>
        have standing : ⟨asked, .ask call next⟩ ∈ d.passes := by simp [asking]
        obtain ⟨settings, now, reached⟩ := run.reached _ standing
        have working := ih.read _ standing
        obtain ⟨k, built⟩ := run.built built
        refine ⟨ih.answered handed built.keyed reached working reply, fun j mem t read => ?_⟩
        simp only [List.mem_append, List.mem_cons] at mem
        rcases mem with mem | rfl | mem
        · exact ih.read j (by simp [asking, mem]) t read
        · exact ih.reading (reached.answer r) working reply read
        · exact ih.read j (by simp [asking, mem]) t read

end TrialControl.Chronicle
