import TrialControl.Proofs.Touches
import TrialControl.Proofs.Versions

/-!
# The two ways to commit

A pass that has changed conditions or times only replaces the status of the trial, and any other pass the
whole of it. Where the specification is the one read, both ways do the same: a stored trial of the version
read is the trial read, and passes leave labels alone.
-/

namespace TrialControl

open Store (Write)

variable {settings : Settings} {now : Instant} {t u v : Trial} {asked : Transcript} {action : Action}
variable {s s' : Store} {key : ObjectKey}

theorem Trial.Touch.spec_eq (touch : t.Touch u)
    (waits : u.spec.patches.map (·.waits) = t.spec.patches.map (·.waits))
    (values : u.spec.values = t.spec.values) : u.spec = t.spec := by
  cases touch with
  | @patch seen rest p patches waiting spec start finish =>
    rw [spec, patches] at waits
    simp [waiting] at waits
  | @slot vs touched spec start finish =>
    have kept : vs = t.spec.values := by rw [← values, spec]
    rw [spec, kept]
  | times spec narrows => exact spec

theorem Trial.Touch.alike_iff (touch : t.Touch u) :
    (u.spec.alike t.spec = true ↔ u.spec = t.spec) ∧ (t.spec.alike u.spec = true ↔ u.spec = t.spec) := by
  refine ⟨⟨fun alike => ?_, fun same => by rw [same]; exact t.spec.alike_self⟩,
    fun alike => ?_, fun same => by rw [same]; exact t.spec.alike_self⟩
  · obtain ⟨waits, values⟩ := TrialSpec.alike_marks alike
    exact touch.spec_eq waits values
  · obtain ⟨waits, values⟩ := TrialSpec.alike_marks alike
    exact touch.spec_eq waits.symm values.symm

namespace Part

theorem whole_eq_status (spec : v.spec = t.spec) (metadata : v.metadata = t.metadata) :
    whole.agrees t v = status.agrees t v ∧ whole.merge t v = status.merge t v := by
  constructor
  · simp [agrees, spec, metadata]
  · simp [merge, spec, metadata]

theorem merge_eq (part : Part) (same : part = .whole ∨ v.spec = t.spec) :
    (part.merge t v).spec = v.spec ∧ (part.merge t v).status = v.status := by
  refine ⟨?_, part.status_merge t v⟩
  cases part with
  | whole => rfl
  | status =>
    obtain h | same := same
    · cases h
    · exact same.symm

end Part

namespace Store

theorem replaceTrial_of_there {t v : Trial} (there : s.trials.get? v.key = some t)
    (fresh : t.metadata.version = v.metadata.version) (part : Part) :
    s.replaceTrial v part = if part.agrees t v then .ok (t, s)
      else .ok ((s.putTrial (part.merge t v)).1,
        { (s.putTrial (part.merge t v)).2 with commits := s.commits + 1 }) := by
  rw [replaceTrial_eq, there]
  exact if_neg (not_not_intro fresh)

theorem Precedes.stored (precedes : s.Precedes s') (there : s.trials.get? key = some t) :
    ∃ x, s'.trials.get? key = some x ∧ (x.metadata.version = t.metadata.version → x = t) := by
  obtain ⟨v, found, -⟩ := precedes.grows _ _ (version?_trial there)
  obtain ⟨x, there', -⟩ := trial_of_version? found
  exact ⟨x, there', fun same => (precedes.same key t x there there' same.symm).symm⟩

end Store

namespace Pass

section
variable (made : Transition settings now t asked u action)
include made

theorem toUpdate_of_made : Part.toUpdate t.spec u = if u.syncPhase.spec = t.spec then .status else .whole :=
  if_congr made.touch.alike_iff.1 rfl rfl

variable (there : s.trials.get? key = some t) (here : t.key = key)
include there here

theorem update_of_made (path : Part) : s.replaceTrial u.syncPhase path =
    if path.agrees t u.syncPhase then .ok (t, s)
    else .ok ((s.putTrial (path.merge t u.syncPhase)).1,
      { (s.putTrial (path.merge t u.syncPhase)).2 with commits := s.commits + 1 }) := by
  have own : u.syncPhase.key = key := (congrArg Metadata.key made.metadata_eq).trans here
  have fresh : t.metadata.version = u.syncPhase.metadata.version := congrArg Metadata.version made.metadata_eq.symm
  exact Store.replaceTrial_of_there (own ▸ there) fresh path

theorem updates_alike (spec : u.syncPhase.spec = t.spec) :
    s.replaceTrial u.syncPhase .status = s.replaceTrial u.syncPhase .whole := by
  obtain ⟨agrees, merge⟩ := Part.whole_eq_status spec made.metadata_eq
  rw [update_of_made made there here, update_of_made made there here, agrees, merge]

theorem update_stores (path : Part) (whole : path = .whole ∨ u.syncPhase.spec = t.spec) :
    ∃ stored s', s.replaceTrial u.syncPhase path = .ok (stored, s') ∧ s'.trials.get? key = some stored ∧
      stored.spec = u.syncPhase.spec ∧ stored.status = u.syncPhase.status := by
  rw [update_of_made made there here]
  cases agrees : path.agrees t u.syncPhase with
  | false =>
    obtain ⟨spec, status⟩ := Part.merge_eq (t := t) path whole
    exact ⟨_, _, rfl, Crowd.get?_putTrial_merge here _ _, spec, status⟩
  | true =>
    refine ⟨t, s, rfl, there, ?_, ?_⟩
    · rcases whole with rfl | spec
      · simp only [Part.agrees, Bool.and_eq_true] at agrees
        exact (made.touch.alike_iff.2.mp agrees.1.2).symm
      · exact spec.symm
    · cases path <;> simp only [Part.agrees, Bool.and_eq_true, decide_eq_true_eq] at agrees
      · exact agrees.1.1
      · exact agrees

end

/-- In any history of fewer writes than there are versions, a pass has read a trial and comes to its commit later.
It updates the status alone exactly if it has left the specification as it was, and then an update of the whole
trial would give the same result and the same store. If the stored trial is not the one read any more, every
update is refused; otherwise the specification and the status that were computed are stored. -/
theorem commit_paths_agree (ws later : List Write) (few : (ws ++ later).length < UInt64.size) {part : Part}
    {next : Except Error Trial → Plan Outcome} (read : (ws.foldl Store.after .empty).getTrial key = .ok t)
    (computed : (reconcile settings key now).Reaches asked (.ask (.updateTrial v part) next))
    (told : asked.trial? = some t) :
    let s := (ws ++ later).foldl Store.after .empty
    (part = if v.spec = t.spec then .status else .whole) ∧
      (v.spec = t.spec → s.replaceTrial v .status = s.replaceTrial v .whole) ∧
      (s.trials.get? key ≠ some t → ∀ path, s.replaceTrial v path = .error (.conflict .trial key.text)) ∧
      (s.trials.get? key = some t → ∀ path, path = .whole ∨ v.spec = t.spec →
        ∃ stored s', s.replaceTrial v path = .ok (stored, s') ∧ s'.trials.get? key = some stored ∧
          stored.spec = v.spec ∧ stored.status = v.status) := by
  intro s
  rw [List.length_append] at few
  have none_given : Store.empty.version.toNat = 0 := rfl
  have there := Store.getTrial_eq_ok.mp read
  obtain ⟨numbered, -, most⟩ := Store.numbered_empty.writes ws (by omega)
  have here : t.key = key := numbered.filed.objects (.trial key) t.metadata (by simp [Store.metadata?, there])
  obtain ⟨x, stored, same⟩ := (numbered.writes later (by omega)).2.1.stored there
  rw [← List.foldl_append] at stored
  obtain ⟨y, u, action, live, told', made, commits⟩ := commit_of_reaches computed
  obtain rfl : y = t := Option.some.inj (told'.symm.trans told)
  cases commits
  refine ⟨toUpdate_of_made made, ?_⟩
  by_cases fresh : x.metadata.version = y.metadata.version
  · obtain rfl := same fresh
    exact ⟨updates_alike made stored here, fun gone => absurd stored gone, fun _ => update_stores made stored here⟩
  · have own : u.syncPhase.key = key := (congrArg Metadata.key made.metadata_eq).trans here
    have stale : x.metadata.version ≠ u.syncPhase.metadata.version := fun same =>
      fresh (same.trans (congrArg Metadata.version made.metadata_eq))
    have refused (path : Part) : s.replaceTrial u.syncPhase path = .error (.conflict .trial key.text) := by
      rw [s.replaceTrial_conflict (own ▸ stored) stale, own]
    refine ⟨fun _ => by rw [refused, refused], fun _ => refused, fun there' => ?_⟩
    exact absurd (congrArg (·.metadata.version) (Option.some.inj (stored.symm.trans there'))) fresh

/-- A trial that has become stable is committed after another write. -/
theorem stable_commits_alike :
    let key : ObjectKey := ⟨"ns", "t1"⟩
    let draft := Draft.named "ns" "t1" default
    let t := draft.build.withVersion 1
    let u := t.record .stable (.plain .true) default
    let ws := [Write.createTrial draft.build]
    let later := [Write.putExperiment (.named "ns" "exp")]
    let s := (ws ++ later).foldl Store.after .empty
    ∃ asked next, (reconcile .standard key default).Reaches asked (.ask (.updateTrial u.syncPhase .status) next) ∧
      asked.trial? = some t ∧ s.replaceTrial u.syncPhase .status = s.replaceTrial u.syncPhase .whole ∧
        ∃ stored s', s.replaceTrial u.syncPhase .status = .ok (stored, s') ∧ stored.metadata.version = 3 ∧
          s'.trials.get? key = some stored ∧ stored.status = u.syncPhase.status := by
  intro key draft t u ws later s
  have few : (ws ++ later).length < UInt64.size := by decide
  have written : (ws.foldl Store.after .empty).trials.get? key = some t := by decide +kernel
  have there : s.trials.get? key = some t := by decide +kernel
  have proceeds : proceed .standard t default = commit t.spec u .done := by
    have unstable : t.status.conditions.compare? .stable .true = some false := by decide +kernel
    show advance .standard t default = _
    exact if_pos unstable
  have reached : (reconcile .standard key default).Reaches [⟨.getTrial key, .ok t⟩] (commit t.spec u .done) := by
    have unfinished : ¬ (t.isFinished || t.metadata.isDeleted) = true := by decide +kernel
    have answered : (reconcile .standard key default).Reaches [⟨.getTrial key, .ok t⟩]
        (if (t.isFinished || t.metadata.isDeleted) = true then .done (.ok .done) else proceed .standard t default) :=
      @Plan.Reaches.answer _ _ [] (.getTrial key) _ .start (Except.ok t)
    rwa [if_neg unfinished, proceeds] at answered
  have same : u.syncPhase.spec = t.spec := rfl
  obtain ⟨part, alike, -, stored⟩ := commit_paths_agree ws later few (Store.getTrial_eq_ok.mpr written) reached rfl
  obtain ⟨x, s', result, now, -, status⟩ := stored there .status (.inr same)
  rw [if_pos same] at part
  rw [commit, part] at reached
  refine ⟨_, _, reached, rfl, alike same, x, s', result, ?_, now, status⟩
  have update := Store.replaceTrial_of_there (v := u.syncPhase) there rfl .status
  rw [if_neg (by decide +kernel), result] at update
  cases update
  rfl

end Pass

end TrialControl
