import TrialControl.Store.Basic

/-!
# Writes

Everything that changes a store is one of its writes, and a refused write leaves the store as it is. A
store is built from the empty one by writes, whoever makes them; what is counted are the versions that
were given out.
-/

namespace TrialControl.Store

inductive Write where
  | createTrial (trial : Trial)
  | markDeleted (key : ObjectKey) (at_ : Instant)
  | updateTrial (trial : Trial) (part : Part)
  | putExperiment (experiment : Experiment)
  | putWorkload (workload : Workload)
  | createWorkload (workload : Workload)
  | updateWorkloadStatus (key : ObjectKey) (status : WorkloadStatus)
  | putUnit (unit : ExecutionUnit)
  | putService (service : ServiceEndpoint)
  | setRollout (target : Target) (rollout : RolloutStatus)

def write (s : Store) : Write → Except Error Store
  | .createTrial t => (s.createTrial t).map (·.2)
  | .markDeleted key at_ => s.markDeleted key at_
  | .updateTrial t part => (s.replaceTrial t part).map (·.2)
  | .putExperiment e => .ok (s.putExperiment e)
  | .putWorkload w => .ok (s.putWorkload w)
  | .createWorkload w => (s.createWorkload w).map (·.2)
  | .updateWorkloadStatus key status => s.updateWorkloadStatus key status
  | .putUnit u => .ok (s.putUnit u)
  | .putService e => .ok (s.putService e)
  | .setRollout target r => .ok (s.setRollout target r)

/-- The store after a write, which may have been refused. -/
def after (s : Store) (w : Write) : Store :=
  match s.write w with
  | .ok u => u
  | .error _ => s

def given (s u : Store) : Nat := (u.version - s.version).toNat

/-- The stores that writes lead to, with the number of versions given out. -/
inductive Built : Nat → Store → Prop where
  | empty : Built 0 .empty
  | write {n : Nat} {s : Store} (built : Built n s) (w : Write) : Built (n + s.given (s.after w)) (s.after w)

end TrialControl.Store
