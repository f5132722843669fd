import TrialControl.Stability
import TrialControl.Store.Listing

/-!
# The stage of a rehearsal

A rehearsal drives passes against a store. Its stage is the store with errors that are to occur at the
next uses of single methods, and with copies of trials that were read earlier.
-/

namespace TrialControl.Rehearsal

inductive Method where
  | getTrial
  | listTrials
  | updateTrial
  | updateTrialStatus
  | getExperiment
  | listWorkloads
  | createWorkload
  | listUnits
  | listServices
  | getRollout
deriving DecidableEq, Inhabited

structure Stage where
  store : Store
  /-- Errors to come, for each method in order. -/
  faults : List (Method × Error)
  copies : Table String Trial

def Stage.empty : Stage := ⟨.empty, [], ∅⟩

instance : Inhabited Stage := ⟨.empty⟩

namespace Stage

def fail (s : Stage) (m : Method) (e : Error) : Stage := { s with faults := s.faults ++ [(m, e)] }

/-- Uses a method: the next error for it, or what the store answers. -/
def use {α : Type} (s : Stage) (m : Method) (answer : Store → Except Error α × Store) : Except Error α × Stage :=
  match s.faults.find? (·.1 == m) with
  | some f => (.error f.2, { s with faults := s.faults.eraseP (·.1 == m) })
  | none =>
    let (r, store) := answer s.store
    (r, { s with store })

def read {α : Type} (s : Stage) (m : Method) (answer : Store → Except Error α) : Except Error α × Stage :=
  s.use m fun store => (answer store, store)

def write {α : Type} (s : Stage) (m : Method) (answer : Store → Except Error (α × Store)) :
    Except Error α × Stage :=
  s.use m fun store =>
    match answer store with
    | .ok (a, store) => (.ok a, store)
    | .error e => (.error e, store)

def rollout (s : Stage) (target : Target) : Except Error (Option RolloutStatus) × Stage :=
  s.read .getRollout fun store => .ok (store.rollouts.get? target)

/-- The verdict of the rollout of a patched target; a rollout that cannot be read is a failure. -/
def probeRollout (s : Stage) (delay : Duration) (target : Target) : Except Unsettled Unit × Stage :=
  let (r, s) := s.rollout target
  (match r with
    | .ok rollout => RolloutStatus.verdict target delay rollout
    | .error e => .error (.ofError e), s)

end Stage

end TrialControl.Rehearsal
