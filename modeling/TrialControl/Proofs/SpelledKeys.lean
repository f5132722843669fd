import Mathlib.Data.List.Basic
import TrialControl.Object.Key

/-!
# Spelled keys

A text spells a key exactly if it has one slash with something before and after it, and then it is the text of
that key. So a key can be read back from its text if its parts are non-empty and hold no slash; the texts of all
other keys are refused, and no other key has the text of one that can be read back.
-/

namespace TrialControl.ObjectKey

/-- The parts of a key are non-empty, and the only slash of its text is the one between them. -/
structure Spellable (k : ObjectKey) : Prop where
  ns : k.ns ≠ ""
  name : k.name ≠ ""
  ns_plain : '/' ∉ k.ns.toList
  name_plain : '/' ∉ k.name.toList

variable {k k' : ObjectKey} {s : String}

theorem toList_text (k : ObjectKey) : k.text.toList = k.ns.toList ++ '/' :: k.name.toList := by
  simp [text]

theorem text_eq_iff : k.text = s ↔ s.toList = k.ns.toList ++ '/' :: k.name.toList := by
  rw [← k.toList_text, String.toList_inj, eq_comm]

theorem Spellable.eq_of_text (spellable : k.Spellable) (same : k'.text = k.text) : k' = k := by
  have split := text_eq_iff.mp same
  rw [k.toList_text] at split
  obtain ⟨ns, -, name⟩ := (List.append_cons_inj_of_notMem spellable.ns_plain spellable.name_plain).mp split
  cases k
  cases k'
  cases String.toList_inj.mp ns
  cases String.toList_inj.mp name
  rfl

/-! ## Reading -/

theorem ofText_text (spellable : k.Spellable) : ofText k.text = .ok k := by
  have plain : ∀ c ∈ k.ns.toList, decide (c ≠ '/') = true := by
    intro c mem
    refine decide_eq_true fun slash => ?_
    exact spellable.ns_plain (slash ▸ mem)
  have before : k.text.toList.takeWhile (· ≠ '/') = k.ns.toList := by
    rw [toList_text, List.takeWhile_append_of_pos plain]
    simp
  have behind : k.text.toList.dropWhile (· ≠ '/') = '/' :: k.name.toList := by
    rw [toList_text, List.dropWhile_append_of_pos plain]
    simp
  have parts : k.ns.toList ≠ [] ∧ k.name.toList ≠ [] ∧ '/' ∉ k.name.toList :=
    ⟨mt String.toList_eq_nil_iff.mp spellable.ns, mt String.toList_eq_nil_iff.mp spellable.name, spellable.name_plain⟩
  unfold ofText
  rw [before, behind]
  simp only [if_pos parts, String.ofList_toList]

theorem spells_of_ofText (read : ofText s = .ok k) : k.Spellable ∧ k.text = s := by
  have whole : s.toList.takeWhile (· ≠ '/') ++ s.toList.dropWhile (· ≠ '/') = s.toList :=
    List.takeWhile_append_dropWhile
  have plain : '/' ∉ s.toList.takeWhile (· ≠ '/') := fun mem => by
    have := List.all_eq_true.mp List.all_takeWhile _ mem
    simp at this
  unfold ofText at read
  dsimp only at read
  split at read
  · next c name behind =>
    obtain rfl : '/' = c := by
      have stops := List.head_dropWhile_not (· ≠ '/') (l := s.toList) (by rw [behind]; nofun)
      simp only [behind, List.head_cons] at stops
      exact (not_not.mp (of_decide_eq_false stops)).symm
    split at read
    · next parts =>
      cases read
      refine ⟨⟨?_, ?_, ?_, ?_⟩, text_eq_iff.mpr ?_⟩
      · exact fun empty => parts.1 (by simpa using congrArg String.toList empty)
      · exact fun empty => parts.2.1 (by simpa using congrArg String.toList empty)
      · rwa [String.toList_ofList]
      · rw [String.toList_ofList]
        exact parts.2.2
      · rw [String.toList_ofList, String.toList_ofList, ← behind, whole]
    · cases read
  · cases read

theorem ofText_eq_ok_iff : ofText s = .ok k ↔ k.Spellable ∧ k.text = s :=
  ⟨spells_of_ofText, fun ⟨spellable, text⟩ => text ▸ ofText_text spellable⟩

theorem ofText_cases (s : String) : (∃ k, ofText s = .ok k) ∨ ofText s = .error (ofText.refusal s) := by
  unfold ofText
  dsimp only
  split
  · split
    · exact .inl ⟨_, rfl⟩
    · exact .inr rfl
  · exact .inr rfl

/-- One slash with something before and after it is what a text with the parts of a key has. -/
theorem one_slash_iff : (∃ k : ObjectKey, k.Spellable ∧ k.text = s) ↔
    s.toList.count '/' = 1 ∧ ∃ before behind, before ≠ "" ∧ behind ≠ "" ∧ s = before ++ "/" ++ behind := by
  constructor
  · rintro ⟨k, ⟨ns, name, ns_plain, name_plain⟩, rfl⟩
    refine ⟨?_, k.ns, k.name, ns, name, rfl⟩
    rw [toList_text, List.count_append, List.count_cons_self, List.count_eq_zero.mpr ns_plain,
      List.count_eq_zero.mpr name_plain]
  · rintro ⟨once, before, behind, filled, filled', rfl⟩
    have whole : (before ++ "/" ++ behind).toList = before.toList ++ '/' :: behind.toList :=
      toList_text ⟨before, behind⟩
    rw [whole, List.count_append, List.count_cons_self] at once
    have plain : before.toList.count '/' = 0 := by omega
    have plain' : behind.toList.count '/' = 0 := by omega
    exact ⟨⟨before, behind⟩, ⟨filled, filled', List.count_eq_zero.mp plain, List.count_eq_zero.mp plain'⟩, rfl⟩

/-- A text is read exactly if it has one slash with something before and after it, and what is read has that text.
A key is read back from its text exactly if its parts are non-empty and hold no slash; otherwise its text is
refused. No other key has the text of a key that is read back. -/
theorem keys_read_back (s : String) (k : ObjectKey) :
    ((∃ k, ofText s = .ok k) ↔
        s.toList.count '/' = 1 ∧ ∃ before behind, before ≠ "" ∧ behind ≠ "" ∧ s = before ++ "/" ++ behind) ∧
      (∀ k, ofText s = .ok k → k.text = s) ∧
      (ofText k.text = .ok k ↔ k.ns ≠ "" ∧ k.name ≠ "" ∧ '/' ∉ k.ns.toList ∧ '/' ∉ k.name.toList) ∧
      (ofText k.text ≠ .ok k → ofText k.text = .error (ofText.refusal k.text)) ∧
      ∀ k', ofText k.text = .ok k → k'.text = k.text → k' = k := by
  refine ⟨?_, fun k read => (spells_of_ofText read).2, ?_, fun unread => ?_, fun k' read same => ?_⟩
  · simp only [ofText_eq_ok_iff]
    exact one_slash_iff
  · rw [ofText_eq_ok_iff]
    exact ⟨fun ⟨⟨ns, name, plain, plain'⟩, _⟩ => ⟨ns, name, plain, plain'⟩,
      fun ⟨ns, name, plain, plain'⟩ => ⟨⟨ns, name, plain, plain'⟩, rfl⟩⟩
  · refine (ofText_cases k.text).resolve_left ?_
    rintro ⟨k', read⟩
    obtain ⟨spellable, same⟩ := spells_of_ofText read
    obtain rfl := spellable.eq_of_text same.symm
    exact unread read
  · exact (spells_of_ofText read).1.eq_of_text same

/-- A slash in the namespace makes a text of three parts, and a text without a name is none either. -/
theorem slashed_namespace_is_refused :
    ofText (ObjectKey.text ⟨"a", "b"⟩) = .ok ⟨"a", "b"⟩ ∧
      ofText (ObjectKey.text ⟨"a/b", "c"⟩) = .error (ofText.refusal "a/b/c") ∧
      ofText (ObjectKey.text ⟨"a", ""⟩) = .error (ofText.refusal "a/") ∧
      ∀ k : ObjectKey, k.text = "a/b" → k = ⟨"a", "b"⟩ := by
  obtain ⟨-, -, back, -, only⟩ := keys_read_back "a/b" ⟨"a", "b"⟩
  obtain ⟨-, -, slashed, refused, -⟩ := keys_read_back "a/b/c" ⟨"a/b", "c"⟩
  obtain ⟨-, -, unnamed, refused', -⟩ := keys_read_back "a/" ⟨"a", ""⟩
  have read := back.mpr (by decide)
  exact ⟨read, refused (mt slashed.mp (by decide)), refused' (mt unnamed.mp (by decide)),
    fun k' same => only k' read same⟩

end TrialControl.ObjectKey
