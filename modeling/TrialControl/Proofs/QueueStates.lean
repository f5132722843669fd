import TrialControl.Queue.Dispatch

/-!
# States of keys under the operations of the work queue

Each operation changes the state of one key, and appends that key to the channel or leaves the channel
as it is. A pass that has ended is queued again when it asks for it, or when its key was marked and the
pass did not fail.
-/

namespace TrialControl

def KeyState.requested : Option KeyState → KeyState
  | none | some .queued => .queued
  | some (.running _) => .running true

namespace WorkQueue

def state? (q : WorkQueue) (key : ObjectKey) : Option KeyState := q.states.get? key

def goesOn (marked : Bool) : Pass.Outcome → Bool
  | .ok .done | .ok (.requeueAfter _) => marked
  | .ok .requeue => true
  | .error _ => false

section
variable (q : WorkQueue) (key l : ObjectKey)

theorem send_state? : (q.send key).state? l = if l = key then some .queued else q.state? l := by
  simp only [state?, send, Table.get?_insert]

theorem enqueue_state? :
    (q.enqueue key).state? l = if l = key then some (KeyState.requested (q.state? key)) else q.state? l := by
  unfold enqueue
  rcases h : q.states.get? key with _ | _ | b
  · simp [state?, send, Table.get?_insert, h, KeyState.requested]
  · by_cases hl : l = key
    · simp [hl, state?, h, KeyState.requested]
    · simp [hl]
  · simp [state?, h, Table.get?_insert, KeyState.requested]

theorem enqueue_channel :
    (q.enqueue key).channel = if q.state? key = none then q.channel ++ [key] else q.channel := by
  unfold enqueue
  rcases h : q.states.get? key with _ | _ | b <;> simp [send, state?, h]

variable {q key}

theorem start_of_queued (h : q.state? key = some .queued) :
    q.start key = (true, { q with states := q.states.insert key (.running false) }) := by
  unfold state? at h
  simp [start, h]

theorem release_state? {s : KeyState} (h : q.state? key = some s) (again : Bool) :
    (q.release key again).state? l = if l = key then (if again then some .queued else none) else q.state? l := by
  unfold state? at h
  cases again with
  | true => simp [release, h, send_state?]
  | false => simp [release, h, state?, Table.get?_erase]

theorem release_channel {s : KeyState} (h : q.state? key = some s) (again : Bool) :
    (q.release key again).channel = if again then q.channel ++ [key] else q.channel := by
  unfold state? at h
  cases again <;> simp [release, h, send]

theorem finish_of_running {again : Bool} (h : q.state? key = some (.running again)) (settings : Settings)
    (outcome : Pass.Outcome) :
    ∃ failures, (q.finish settings key outcome).1 =
      ({ q with passes := q.passes + 1, failures }.release key (goesOn again outcome)) := by
  have marked : ∀ q' : WorkQueue, q'.states = q.states → q'.isMarked key = again := by
    intro q' hq
    have running : q'.states.get? key = some (.running again) := by rw [hq]; exact h
    rw [isMarked, running]
    cases again <;> rfl
  rcases outcome with e | _ | _ | d
  · exact ⟨_, rfl⟩
  · exact ⟨q.failures.erase key, by simp [finish, goesOn, marked]⟩
  · exact ⟨q.failures.erase key, rfl⟩
  · exact ⟨q.failures.erase key, by simp [finish, goesOn, marked]⟩

theorem finish_state? {again : Bool} (h : q.state? key = some (.running again)) (settings : Settings)
    (outcome : Pass.Outcome) :
    (q.finish settings key outcome).1.state? l =
      if l = key then (if goesOn again outcome then some .queued else none) else q.state? l := by
  obtain ⟨failures, hf⟩ := finish_of_running h settings outcome
  have hc : (⟨q.states, failures, q.passes + 1, q.channel⟩ : WorkQueue).state? key = some (.running again) := h
  rw [hf]
  exact release_state? l hc _

theorem finish_channel {again : Bool} (h : q.state? key = some (.running again)) (settings : Settings)
    (outcome : Pass.Outcome) :
    (q.finish settings key outcome).1.channel =
      if goesOn again outcome then q.channel ++ [key] else q.channel := by
  obtain ⟨failures, hf⟩ := finish_of_running h settings outcome
  have hc : (⟨q.states, failures, q.passes + 1, q.channel⟩ : WorkQueue).state? key = some (.running again) := h
  rw [hf]
  exact release_channel hc _

theorem finish_passes {again : Bool} (h : q.state? key = some (.running again)) (settings : Settings)
    (outcome : Pass.Outcome) : (q.finish settings key outcome).1.passes = q.passes + 1 := by
  obtain ⟨failures, hf⟩ := finish_of_running h settings outcome
  unfold state? at h
  rw [hf]
  cases goesOn again outcome <;> simp [release, h, send]

end

end WorkQueue

end TrialControl
