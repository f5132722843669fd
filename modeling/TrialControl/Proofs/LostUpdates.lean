import TrialControl.Proofs.Chronicles
import TrialControl.Trial.Draft

/-!
# Lost updates

Passes of a trial and other writers of it go on in any order. The commit of a pass meets the very trial
that the pass has read, or it leaves the store as it is and the pass asks to be repeated. So no write is
overwritten unseen: every trial in the history was computed from the one before it.
-/

namespace TrialControl.Chronicle

open Pass
open Store (Write)
open Crowd (Committed committed_of_read)

variable {may : Store → Write → Prop} {key : ObjectKey} {c : Chronicle} {s u : Store} {n m : Nat}

theorem requeue_of_refused {t v : Trial} {part : Part} {r : Except Error Trial} {w : Trial} {action : Action}
    {next : Except Error Trial → Plan Outcome} (commits : .ask (.updateTrial v part) next = commit t.spec w action)
    (committed : Committed s key t v part r u) (gone : s.trials.get? key ≠ some t) :
    u = s ∧ next r = .done (.ok .requeue) := by
  cases commits
  cases committed with
  | changed there differs => exact absurd there gone
  | kept there agrees => exact absurd there gone
  | refused gone => exact ⟨rfl, rfl⟩

/-- In every order of passes and of other writes, whatever these may be: a commit is applied only when
the stored trial is the one that the pass has read, and otherwise changes nothing and has the pass
repeated. The trials stored so far are a story in which each one was written by others or is what a pass
has computed from the one before. -/
theorem no_update_lost (built : s.Built m) (run : Run key may ⟨s, [], []⟩ n c) (fits : m + n < UInt64.size) :
    (∀ j ∈ c.passes, ∀ {v : Trial} {part : Part} {next : Except Error Trial → Plan Outcome},
      j.plan = .ask (.updateTrial v part) next → ∀ {r : Except Error Trial} {u : Store},
        c.store.Replies (.updateTrial v part) r u →
          ∃ t, j.asked.trial? = some t ∧ Committed c.store key t v part r u ∧
            (c.store.trials.get? key ≠ some t → u = c.store ∧ next r = .done (.ok .requeue))) ∧
    Story key (s.trials.get? key) c.history (c.store.trials.get? key) := by
  have start := sound_of_built built (by omega) key
  have version := built.version (by omega)
  have fits : s.version.toNat + n < UInt64.size := by omega
  refine ⟨fun j hj v part next asks r u reply => ?_, run.story start fits .start⟩
  have under := (run.sound start fits).1.passes j hj
  obtain ⟨settings, now, reached⟩ := under.reached
  rw [asks] at reached
  obtain ⟨t, w, action, live, read, made, commits⟩ := commit_of_reaches reached
  have snapshot := under.read t read
  have same : v.metadata = t.metadata := by
    cases commits
    exact made.metadata_eq
  have committed := committed_of_read snapshot same reply
  exact ⟨t, read, committed, requeue_of_refused commits committed⟩

/-- A label that is set while a patch is probed: the pass that has probed it is refused. -/
theorem label_write_refuses_commit :
    let key : ObjectKey := ⟨"ns", "t1"⟩
    let now : Instant := default
    let p : Patch := .waiting ⟨"Deployment", "ns", "web"⟩
    let t := ((Draft.named "ns" "t1" now).patch p).build.withVersion 1
    let s := Store.empty.after (.createTrial ((Draft.named "ns" "t1" now).patch p).build)
    let touched := { t with metadata.labels := t.metadata.labels.insert "touched" "yes" }
    let settled := t.recordSettled [{ p with waits := false }] now
    let c : Chronicle :=
      ⟨s.after (.updateTrial touched .whole),
        [⟨[⟨.probe p, .ok ()⟩, ⟨.getTrial key, .ok t⟩], commit t.spec settled .done⟩],
        [⟨.work (.updateTrial touched .whole), touched.withVersion 2⟩]⟩
    (∃ m n, s.Built m ∧ Run key (fun _ _ => True) ⟨s, [], []⟩ n c ∧ m + n < UInt64.size) ∧
      c.store.trials.get? key = some (touched.withVersion 2) ∧
      (∀ {r u}, c.store.Replies (.updateTrial settled.syncPhase .whole) r u → u = c.store) ∧
      Story key (some t) c.history (some (touched.withVersion 2)) := by
  intro key now p t s touched settled c
  let probing : Plan Outcome := proceed .standard t now
  have built := Store.Built.empty.write (.createTrial ((Draft.named "ns" "t1" now).patch p).build)
  have stored : s.trials.get? key = some t := by decide +kernel
  have there : s.getTrial key = .ok t := by rw [Store.getTrial, stored]
  have written : c.store.trials.get? key = some (touched.withVersion 2) := by decide +kernel
  have other : s.trials.get? key ≠ some (touched.withVersion 2) := by decide +kernel
  have begin : PassStep key ⟨s, [], []⟩ ⟨s, [⟨[], reconcile .standard key now⟩], []⟩ := .begin .standard now
  have read : PassStep key ⟨s, [⟨[], reconcile .standard key now⟩], []⟩
      ⟨s, [⟨[⟨.getTrial key, .ok t⟩], probing⟩], []⟩ :=
    @PassStep.look key ⟨s, [⟨[], reconcile .standard key now⟩], []⟩ [] [] [] (.getTrial key) _ (Except.ok t) rfl
      ⟨there.symm, rfl⟩
  have touch : Step key (fun _ _ => True) ⟨s, [⟨[⟨.getTrial key, .ok t⟩], probing⟩], []⟩
      ⟨c.store, [⟨[⟨.getTrial key, .ok t⟩], probing⟩], c.history⟩ :=
    @Step.write _ key ⟨s, [⟨[⟨.getTrial key, .ok t⟩], probing⟩], []⟩ (.updateTrial touched .whole) _ trivial written other
  have probed : PassStep key ⟨c.store, [⟨[⟨.getTrial key, .ok t⟩], probing⟩], c.history⟩ c :=
    @PassStep.look key ⟨c.store, [⟨[⟨.getTrial key, .ok t⟩], probing⟩], c.history⟩ [] [] _ (.probe p) _
      (Except.ok ()) rfl rfl
  have run : Run key (fun _ _ => True) ⟨s, [], []⟩ _ c :=
    .step (.step (.step (.step .start (.pass begin)) (.pass read)) touch) (.pass probed)
  have fits : 0 + Store.empty.given s + (0 + s.given s + s.given s + s.given c.store + c.store.given c.store) <
      UInt64.size := by
    decide +kernel
  have result := no_update_lost built run fits
  refine ⟨⟨_, _, built, run, fits⟩, written, fun reply => ?_, ?_⟩
  · obtain ⟨v, found, -, lost⟩ := result.1 _ (List.mem_cons_self ..) rfl reply
    cases found
    exact (lost (by rw [written]; decide +kernel)).1
  · rw [← stored, ← written]
    exact result.2

end TrialControl.Chronicle
