import TrialControl.Proofs.DispatchSound

/-!
# No request is missed

A key is owed a pass when it was asked for after its last pass was started: by a request from any side,
or by a pass that ended with the wish to be repeated or without success. What is owed is covered: the
key is queued, or its pass is marked to be repeated, or a delayed request of the key stands out.
-/

namespace TrialControl.Dispatch

def asksAgain : Pass.Outcome → Bool
  | .ok .done => false
  | _ => true

/-- Whether a key was asked for since its pass was last started, in events with the newest first. -/
def Owed (key : ObjectKey) : List Event → Prop
  | [] => False
  | .request l :: h | .fire l :: h => l = key ∨ Owed key h
  | .close f ending :: h => (f.key = key ∧ asksAgain (PassGuard.outcome ending) = true) ∨ Owed key h
  | .start l :: h => l ≠ key ∧ Owed key h
  | .receive _ :: h | .lose _ :: h => Owed key h

/-- Whether a pass of a key is still to come: the key is queued, in the channel or just received from
it, or its pass is marked, or a request stands out. -/
def Covered (t : Dispatch) (key : ObjectKey) : Prop :=
  (t.state? key = some .queued ∧ key ∈ t.queue.channel ++ t.hand) ∨
    t.state? key = some (.running true) ∨ ∃ delay, (key, delay) ∈ t.delayed

variable {t : Dispatch} {key l : ObjectKey}

theorem Orderly.covered (ordered : t.Orderly)
    (h : t.state? key = some .queued ∨ t.state? key = some (.running true)) : t.Covered key := by
  rcases h with h | h
  · exact .inl ⟨h, ordered.mem_of_queued h⟩
  · exact .inr (.inl h)

theorem Covered.keep {u : Dispatch} (ordered : u.Orderly) (covered : t.Covered key)
    (state : u.state? key = t.state? key) (delayed : ∀ d, (key, d) ∈ t.delayed → (key, d) ∈ u.delayed) :
    u.Covered key := by
  rcases covered with ⟨queued, -⟩ | marked | ⟨d, hd⟩
  · exact ordered.covered (.inl (state.trans queued))
  · exact ordered.covered (.inr (state.trans marked))
  · exact .inr (.inr ⟨d, delayed d hd⟩)

theorem Orderly.covered_request (ordered : t.Orderly) (key : ObjectKey) : (t.request key).Covered key := by
  refine (ordered.request key).covered ?_
  rw [state?_request, if_pos rfl]
  rcases t.state? key with _ | _ | b
  · exact .inl rfl
  · exact .inl rfl
  · exact .inr rfl

theorem Covered.request (ordered : t.Orderly) (covered : t.Covered key) (l : ObjectKey) :
    (t.request l).Covered key := by
  by_cases h : key = l
  · subst h; exact ordered.covered_request key
  · refine covered.keep (ordered.request l) ?_ fun d hd => hd
    rw [state?_request, if_neg h]

/-- A pass that asks to be repeated leaves its key queued or puts a request off, whatever its mark. -/
theorem Orderly.covered_close (ordered : t.Orderly) {f : Flight} (flies : f ∈ t.flights) (settings : Settings)
    {ending : Option Pass.Outcome} (again : asksAgain (PassGuard.outcome ending) = true) :
    (t.close settings f ending).Covered f.key := by
  obtain ⟨marked, running⟩ := ordered.running_of_flight flies
  have after := ordered.close flies settings ending
  rw [close_eq] at after ⊢
  rcases ho : PassGuard.outcome ending with e | _ | _ | d
  · exact .inr (.inr ⟨_, List.mem_append_left _ (List.mem_cons_self ..)⟩)
  · rw [ho] at again; cases again
  · rw [ho] at after
    refine after.covered (.inl ?_)
    unfold state?
    rw [WorkQueue.finish_state? f.key running, if_pos rfl]
    rfl
  · exact .inr (.inr ⟨d, List.mem_append_left _ (List.mem_cons_self ..)⟩)

theorem Covered.close (ordered : t.Orderly) (covered : t.Covered key) {f : Flight} (flies : f ∈ t.flights)
    (settings : Settings) (ending : Option Pass.Outcome)
    (h : asksAgain (PassGuard.outcome ending) = true → f.key ≠ key) : (t.close settings f ending).Covered key := by
  obtain ⟨marked, running⟩ := ordered.running_of_flight flies
  have after := ordered.close flies settings ending
  have state : (t.close settings f ending).state? key = if key = f.key then
      (if WorkQueue.goesOn marked (PassGuard.outcome ending) then some .queued else none) else t.state? key := by
    rw [close_eq]
    exact WorkQueue.finish_state? key running settings _
  have delayed : ∀ d, (key, d) ∈ t.delayed → (key, d) ∈ (t.close settings f ending).delayed := by
    intro d hd
    rw [close_eq]
    exact List.mem_append_right _ hd
  by_cases hk : key = f.key
  · -- the pass is done: its mark queues the key, and without a mark a delayed request is left
    have quiet : PassGuard.outcome ending = .ok .done := by
      rcases ho : PassGuard.outcome ending with e | _ | _ | d
      · rw [ho] at h; exact absurd hk.symm (h rfl)
      · rfl
      · rw [ho] at h; exact absurd hk.symm (h rfl)
      · rw [ho] at h; exact absurd hk.symm (h rfl)
    rw [if_pos hk, quiet] at state
    subst hk
    rcases covered with ⟨queued, -⟩ | mark | ⟨d, hd⟩
    · rw [running] at queued; cases queued
    · rw [running] at mark
      cases mark
      exact after.covered (.inl state)
    · exact .inr (.inr ⟨d, delayed d hd⟩)
  · rw [if_neg hk] at state
    exact covered.keep after state delayed

/-! ## Runs -/

theorem Orderly.covered_fire (ordered : t.Orderly) (r : ObjectKey × Duration) : (t.fire r).Covered r.1 :=
  Orderly.covered_request (t := t.lose r) ordered r.1

/-- Where delayed requests are not lost, a key stays covered until its pass is started. -/
theorem Covered.step {settings : Settings} {e : Event} {u : Dispatch} (ordered : t.Orderly) (covered : t.Covered key)
    (step : Step settings true t e u) (other : e ≠ .start key) : u.Covered key := by
  have after := ordered.step step
  cases step with
  | request l => exact covered.request ordered l
  | receive next =>
    obtain ⟨rest, -, hr⟩ := receive_eq next
    refine covered.keep after ?_ ?_
    · rw [hr]; rfl
    · rw [hr]; exact fun d hd => hd
  | @start l held =>
    have distinct : key ≠ l := fun same => other (same ▸ rfl)
    refine covered.keep after ?_ ?_
    · rw [start_of_queued t l (ordered.queued_of_held held)]
      simp only [state?, WorkQueue.state?, Table.get?_insert, if_neg distinct]
    · rw [start_of_queued t l (ordered.queued_of_held held)]
      exact fun d hd => hd
  | @close f flies ending =>
    by_cases again : f.key = key ∧ asksAgain (PassGuard.outcome ending) = true
    · obtain ⟨rfl, again⟩ := again
      exact ordered.covered_close flies settings again
    · exact covered.close ordered flies settings ending fun h hk => again ⟨hk, h⟩
  | @fire r due =>
    by_cases hk : r.1 = key
    · subst hk
      exact ordered.covered_fire r
    · -- the request that is made is of another key, so those of this key still stand out
      have kept : (t.lose r).Covered key := by
        refine covered.keep ordered rfl fun d hd => ?_
        exact (List.mem_erase_of_ne (fun e => hk (by rw [← e]))).mpr hd
      exact Covered.request (t := t.lose r) ordered kept r.1
  | lose due gone => cases gone

/-- Where delayed requests are not lost, a key that was asked for since its last pass was started is
queued, or its pass is marked, or a delayed request stands out. In particular a failed pass, which
drops its mark, leaves such a request. -/
theorem owed_is_covered {settings : Settings} {h : List Event} (run : Run settings true h t)
    (owed : Owed key h) : t.Covered key := by
  induction run with
  | empty => exact owed.elim
  | @step h t u e run step ih =>
    have ordered := run.orderly
    have carry (before : Owed key h) (other : e ≠ .start key) : u.Covered key := (ih before).step ordered step other
    cases step with
    | request l =>
      rcases owed with rfl | owed
      · exact ordered.covered_request l
      · exact carry owed nofun
    | receive next => exact carry owed nofun
    | start held => exact carry owed.2 fun same => owed.1 (Event.start.inj same)
    | @close f flies ending =>
      rcases owed with ⟨rfl, again⟩ | owed
      · exact ordered.covered_close flies settings again
      · exact carry owed nofun
    | @fire r due =>
      rcases owed with rfl | owed
      · exact ordered.covered_fire r
      · exact carry owed nofun
    | lose due gone => cases gone

/-- A pass that fails after its key was marked: the mark is gone, the request stands out. -/
theorem owed_after_failure :
    let key : ObjectKey := ⟨"ns", "t1"⟩
    let h : List Event := [.close ⟨0, key⟩ none, .request key, .start key, .receive key, .request key]
    let t := (((empty.request key).receive.start key).request key).close .standard ⟨0, key⟩ none
    Run .standard true h t ∧ Owed key h ∧ t.state? key = none ∧ t.Covered key := by
  intro key h t
  have run : Run .standard true h t := by
    refine .step (.step (.step (.step (.step .empty (.request key)) (.receive ?_)) (.start ?_)) (.request key))
      (.close ?_ _) <;> decide +kernel
  have owed : Owed key h := .inl ⟨rfl, rfl⟩
  exact ⟨run, owed, by decide +kernel, owed_is_covered run owed⟩

end TrialControl.Dispatch
