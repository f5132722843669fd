import TrialControl.Pass.Reconcile

/-!
# The work queue

The queue hands keys of trials to the loop that runs passes. A key is queued at most once, and it has
at most one pass at a time: a request during the pass marks the key, and the pass is followed by
another one. A failed pass drops the mark, since the key is tried again after a delay anyway.
-/

namespace TrialControl

instance instCoeUInt32Nat : Coe UInt32 Nat := ⟨UInt32.toNat⟩

inductive KeyState where
  /-- Handed to the loop, its pass not yet started. -/
  | queued
  /-- A pass is running; `again` when it was asked for another one meanwhile. -/
  | running (again : Bool)
deriving DecidableEq, Inhabited

structure WorkQueue where
  /-- A key without a state is idle. -/
  states : Table ObjectKey KeyState
  /-- Failed passes in a row, in 32 bits. -/
  failures : Table ObjectKey UInt32
  /-- Passes that have ended. -/
  passes : Nat
  /-- Keys on their way to the loop, the oldest first. -/
  channel : List ObjectKey
deriving DecidableEq

namespace WorkQueue

def empty : WorkQueue := ⟨∅, ∅, 0, []⟩

instance : Inhabited WorkQueue := ⟨empty⟩

def send (q : WorkQueue) (key : ObjectKey) : WorkQueue :=
  { q with states := q.states.insert key .queued, channel := q.channel ++ [key] }

def enqueue (q : WorkQueue) (key : ObjectKey) : WorkQueue :=
  match q.states.get? key with
  | none => q.send key
  | some .queued => q
  | some (.running _) => { q with states := q.states.insert key (.running true) }

def receive? (q : WorkQueue) : Option (ObjectKey × WorkQueue) :=
  match q.channel with
  | [] => none
  | key :: rest => some (key, { q with channel := rest })

/-- Starts a pass, unless one is running: then it is asked for another one. -/
def start (q : WorkQueue) (key : ObjectKey) : Bool × WorkQueue :=
  match q.states.get? key with
  | some (.running _) => (false, { q with states := q.states.insert key (.running true) })
  | _ => (true, { q with states := q.states.insert key (.running false) })

def failureCount (q : WorkQueue) (key : ObjectKey) : UInt32 := (q.failures.get? key).getD 0

/-- Ends the pass of a key, which goes on if `again`. -/
def release (q : WorkQueue) (key : ObjectKey) (again : Bool) : WorkQueue :=
  match q.states.get? key with
  | none => q
  | some _ => if again then q.send key else { q with states := q.states.erase key }

/-- Whether a key was asked for another pass while one was running. -/
def isMarked (q : WorkQueue) (key : ObjectKey) : Bool := q.states.get? key == some (.running true)

/-- Ends a pass with its outcome, and says after which delay the key is to be enqueued. -/
def finish (q : WorkQueue) (settings : Settings) (key : ObjectKey) (outcome : Pass.Outcome) :
    WorkQueue × Option Duration :=
  let q := { q with passes := q.passes + 1 }
  match outcome with
  | .ok action =>
    let q := { q with failures := q.failures.erase key }
    match action with
    | .done => (q.release key (q.isMarked key), none)
    | .requeue => (q.release key true, none)
    | .requeueAfter delay => (q.release key (q.isMarked key), some delay)
  | .error _ =>
    let count : UInt32 := q.failureCount key + 1
    let q := { q with failures := q.failures.insert key count }
    (q.release key false, some (settings.retryDelay count))

def abandon (q : WorkQueue) (settings : Settings) (key : ObjectKey) : WorkQueue × Option Duration :=
  q.finish settings key (.error (.other "reconcile pass did not complete"))

end WorkQueue

end TrialControl
