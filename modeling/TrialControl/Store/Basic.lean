import TrialControl.Metric.Target
import TrialControl.Rollout
import TrialControl.Trial.Part

/-!
# The store

The store holds the objects of the cluster by their keys. Every write of a trial, experiment, workload
or unit takes the next number of one counter as the version of the object. Writes of trials and
workloads are reported as changes, in a log with the newest change first.
-/

namespace TrialControl

inductive Change where
  | trial (key : ObjectKey)
  /-- The workload as it is after the change. -/
  | workload (snapshot : Workload)
deriving DecidableEq, Inhabited

def Change.trialKey? : Change → Option ObjectKey
  | .trial key => some key
  | .workload w => w.trialKey?

structure Store where
  trials : Table ObjectKey Trial
  experiments : Table ObjectKey Experiment
  workloads : Table ObjectKey Workload
  units : Table ObjectKey ExecutionUnit
  services : Table ObjectKey ServiceEndpoint
  rollouts : Table Target RolloutStatus
  /-- The last version given out. -/
  version : UInt64
  /-- Updates that changed a trial. -/
  commits : Nat
  log : List Change
deriving DecidableEq

namespace Store

def empty : Store := ⟨∅, ∅, ∅, ∅, ∅, ∅, 0, 0, []⟩

instance : Inhabited Store := ⟨empty⟩

def tick (s : Store) : Store := { s with version := s.version + 1 }

def report (s : Store) (c : Change) : Store := { s with log := c :: s.log }

/-! ## Trials -/

def getTrial (s : Store) (key : ObjectKey) : Except Error Trial :=
  match s.trials.get? key with
  | some t => .ok t
  | none => .error (.notFound .trial key.text)

/-- Stores a trial as the next version and reports it. -/
def putTrial (s : Store) (t : Trial) : Trial × Store :=
  let t := { t with metadata.version := s.version + 1 }
  (t, { s with trials := s.trials.insert t.key t }.tick.report (.trial t.key))

def createTrial (s : Store) (t : Trial) : Except Error (Trial × Store) :=
  if s.trials.contains t.key then .error (.alreadyExists .trial t.key.text) else .ok (s.putTrial t)

def markDeleted (s : Store) (key : ObjectKey) (at_ : Instant) : Except Error Store := do
  let t ← s.getTrial key
  return (s.putTrial { t with metadata.deletedAt := some at_ }).2

/-- Replaces a part of a trial that was not changed since it was read. A replacement by the same
content stores and reports nothing. -/
def replaceTrial (s : Store) (t : Trial) (part : Part) : Except Error (Trial × Store) := do
  let stored ← s.getTrial t.key
  if stored.metadata.version ≠ t.metadata.version then throw (.conflict .trial t.key.text)
  else if part.agrees stored t then return (stored, s)
  else
    let (stored, s) := s.putTrial (part.merge stored t)
    return (stored, { s with commits := s.commits + 1 })

/-! ## Experiments -/

def putExperiment (s : Store) (e : Experiment) : Store :=
  { s with experiments := s.experiments.insert e.key { e with metadata.version := s.version + 1 } }.tick

def getExperiment (s : Store) (key : ObjectKey) : Except Error Experiment :=
  match s.experiments.get? key with
  | some e => .ok e
  | none => .error (.notFound .experiment key.text)

/-! ## Workloads -/

/-- Stores a workload as the next version and reports it. -/
def placeWorkload (s : Store) (w : Workload) : Workload × Store :=
  let w := { w with metadata.version := s.version + 1 }
  (w, { s with workloads := s.workloads.insert w.key w }.tick.report (.workload w))

def putWorkload (s : Store) (w : Workload) : Store := (s.placeWorkload w).2

def createWorkload (s : Store) (w : Workload) : Except Error (Workload × Store) :=
  if s.workloads.contains w.key then .error (.alreadyExists .workload w.key.text) else .ok (s.placeWorkload w)

def updateWorkloadStatus (s : Store) (key : ObjectKey) (status : WorkloadStatus) : Except Error Store :=
  match s.workloads.get? key with
  | some w => .ok (s.placeWorkload { w with status }).2
  | none => .error (.notFound .workload key.text)

/-! ## Units, services and rollouts -/

def putUnit (s : Store) (u : ExecutionUnit) : Store :=
  { s with units := s.units.insert u.key { u with metadata.version := s.version + 1 } }.tick

def putService (s : Store) (e : ServiceEndpoint) : Store := { s with services := s.services.insert e.key e }

def setRollout (s : Store) (target : Target) (r : RolloutStatus) : Store :=
  { s with rollouts := s.rollouts.insert target r }

end Store

end TrialControl
