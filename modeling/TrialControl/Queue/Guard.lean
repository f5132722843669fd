import TrialControl.Queue.Basic

/-!
# Guards of passes

A pass holds a guard, by which it ends in the work queue. A guard that has ended its pass holds no key
any more; a guard that is dropped with its key, because the pass broke down or was cancelled, ends the
pass as abandoned.
-/

namespace TrialControl

structure PassGuard where
  /-- The key of the pass, until the pass has ended. -/
  key : Option ObjectKey
deriving DecidableEq, Inhabited

namespace PassGuard

def hold (key : ObjectKey) : PassGuard := ⟨some key⟩

def finish (g : PassGuard) (q : WorkQueue) (settings : Settings) (outcome : Pass.Outcome) :
    PassGuard × WorkQueue × Option Duration :=
  match g.key with
  | some key => (⟨none⟩, q.finish settings key outcome)
  | none => (g, q, none)

def drop (g : PassGuard) (q : WorkQueue) (settings : Settings) : WorkQueue × Option Duration :=
  match g.key with
  | some key => q.abandon settings key
  | none => (q, none)

/-- The end of a pass, with an outcome or without one. The guard is dropped in the end, also after it
has finished. The delays are those of the requests to be made later. -/
def close (g : PassGuard) (q : WorkQueue) (settings : Settings) : Option Pass.Outcome → WorkQueue × List Duration
  | some outcome =>
    let (g, q, delay) := g.finish q settings outcome
    let (q, late) := g.drop q settings
    (q, delay.toList ++ late.toList)
  | none =>
    let (q, late) := g.drop q settings
    (q, late.toList)

/-- How a pass has ended; one without an outcome counts as failed. -/
def outcome (ending : Option Pass.Outcome) : Pass.Outcome :=
  ending.getD (.error (.other "reconcile pass did not complete"))

/-- A guard ends its pass once: dropping it after it has finished does nothing. -/
theorem close_hold (q : WorkQueue) (settings : Settings) (key : ObjectKey) (ending : Option Pass.Outcome) :
    (hold key).close q settings ending =
      ((q.finish settings key (outcome ending)).1, (q.finish settings key (outcome ending)).2.toList) := by
  cases ending with
  | none => rfl
  | some o => simp [close, finish, drop, hold, outcome]

end PassGuard

end TrialControl
