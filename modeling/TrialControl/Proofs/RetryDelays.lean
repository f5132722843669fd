import Mathlib.Algebra.Order.Ring.Nat
import TrialControl.Proofs.RequestSound

/-!
# Delays after failures

A pass that fails puts its key off by a delay that depends on how many passes of the key have failed in a row by
then. The delay is the first one doubled that often, up to the greatest: neither the factor nor the product of a
long delay makes a difference, since what exceeds the longest duration exceeds the greatest delay.
-/

namespace TrialControl

namespace Duration

end Duration

namespace Settings

variable (s : Settings)

variable {s}

end Settings

/-! ## Counts of failures -/

namespace WorkQueue

variable (q : WorkQueue) (key l : ObjectKey)

theorem failures_release (again : Bool) : (q.release key again).failures = q.failures := by
  unfold release
  split
  · rfl
  · cases again <;> rfl

theorem failures_enqueue : (q.enqueue key).failures = q.failures := by
  unfold enqueue
  split <;> rfl

theorem failures_start : (q.start key).2.failures = q.failures := by
  unfold start
  split <;> rfl

theorem failureCount_finish (settings : Settings) (outcome : Pass.Outcome) :
    (q.finish settings key outcome).1.failureCount l =
      if l = key then (match outcome with | .ok _ => 0 | .error _ => q.failureCount key + 1) else q.failureCount l := by
  unfold failureCount
  rcases outcome with e | action
  · simp only [finish, failures_release, Table.get?_insert]
    split <;> rfl
  · have erased : (q.finish settings key (.ok action)).1.failures = q.failures.erase key := by
      cases action <;> exact failures_release ..
    rw [erased, Table.get?_erase]
    split <;> rfl

end WorkQueue

namespace Dispatch

variable {settings : Settings} {runtime : Bool} {h : List Event} {t u : Dispatch} {f : Flight} {key : ObjectKey}
variable {ending : Option Pass.Outcome}

def failed : Pass.Outcome → Bool
  | .ok _ => false
  | .error _ => true

def Event.outcome? (key : ObjectKey) : Event → Option Pass.Outcome
  | .close f ending => if f.key = key then some (PassGuard.outcome ending) else none
  | _ => none

/-- How the passes of a key have ended, the latest first. -/
def outcomes (key : ObjectKey) (h : List Event) : List Pass.Outcome := h.filterMap (Event.outcome? key)

def failuresInRow (key : ObjectKey) (h : List Event) : Nat := ((outcomes key h).takeWhile failed).length

theorem outcomes_close_self : outcomes f.key (.close f ending :: h) = PassGuard.outcome ending :: outcomes f.key h :=
  List.filterMap_cons_some (if_pos rfl)

theorem outcomes_close_other (other : key ≠ f.key) : outcomes key (.close f ending :: h) = outcomes key h :=
  List.filterMap_cons_none (if_neg (Ne.symm other))

theorem failuresInRow_of_failed (fails : failed (PassGuard.outcome ending) = true) :
    failuresInRow f.key (.close f ending :: h) = failuresInRow f.key h + 1 := by
  rw [failuresInRow, outcomes_close_self, List.takeWhile_cons_of_pos fails, List.length_cons, failuresInRow]

theorem failuresInRow_of_ok (succeeds : failed (PassGuard.outcome ending) = false) :
    failuresInRow f.key (.close f ending :: h) = 0 := by
  rw [failuresInRow, outcomes_close_self, List.takeWhile_cons_of_neg (by simp [succeeds]), List.length_nil]

theorem failuresInRow_of_other (other : key ≠ f.key) :
    failuresInRow key (.close f ending :: h) = failuresInRow key h := by
  rw [failuresInRow, outcomes_close_other other, failuresInRow]

theorem failureCount_close (settings : Settings) (l : ObjectKey) :
    (t.close settings f ending).queue.failureCount l =
      if l = f.key then (match PassGuard.outcome ending with | .ok _ => 0 | .error _ => t.queue.failureCount f.key + 1)
      else t.queue.failureCount l := by
  rw [close_eq]
  exact t.queue.failureCount_finish f.key l settings _

theorem failures_of_step {e : Event} (step : Step settings runtime t e u) (open_ : ∀ f ending, e ≠ .close f ending) :
    u.queue.failures = t.queue.failures := by
  cases step with
  | request key => exact t.queue.failures_enqueue key
  | receive next =>
    obtain ⟨rest, -, received⟩ := receive_eq next
    rw [received]
  | @start key held =>
    rw [start_queue]
    exact t.queue.failures_start key
  | close flies ending => exact absurd rfl (open_ _ _)
  | @fire r due => exact t.queue.failures_enqueue r.1
  | lose due gone => rfl

theorem Run.failureCount (run : Run settings runtime h t) (key : ObjectKey) :
    (t.queue.failureCount key : Nat) = failuresInRow key h % UInt32.size := by
  induction run with
  | empty => rfl
  | @step h t u e run step ih =>
    by_cases closes : ∃ f ending, e = .close f ending
    · obtain ⟨f, ending, rfl⟩ := closes
      cases step with
      | close flies ending =>
        rw [failureCount_close]
        by_cases own : key = f.key
        · subst own
          rw [if_pos rfl]
          rcases result : PassGuard.outcome ending with e | action
          · rw [failuresInRow_of_failed (by rw [result]; rfl)]
            dsimp only
            rw [UInt32.toNat_add, ih]
            exact Nat.mod_add_mod ..
          · rw [failuresInRow_of_ok (by rw [result]; rfl)]
            rfl
        · rw [if_neg own, failuresInRow_of_other own, ih]
    · -- no other event touches a count, and none is an outcome
      have open_ : ∀ f ending, e ≠ .close f ending := fun f ending same => closes ⟨f, ending, same⟩
      have silent : Event.outcome? key e = none := by
        cases e with
        | close f ending => exact absurd rfl (open_ f ending)
        | _ => rfl
      have same : failuresInRow key (e :: h) = failuresInRow key h := by
        rw [failuresInRow, outcomes, List.filterMap_cons_none silent]
        rfl
      rw [same, ← ih, WorkQueue.failureCount, failures_of_step step open_, WorkQueue.failureCount]

/-! ## What a failure does -/

end Dispatch

end TrialControl
