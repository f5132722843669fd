import TrialControl.Object.Metadata

/-!
# Rollouts

A target that rolls out replicas has settled when its latest generation was observed and all its
replicas are updated and available.
-/

namespace TrialControl

structure RolloutStatus where
  generation : UInt64
  observed : UInt64
  replicas : UInt32
  updated : UInt32
  available : UInt32
  /-- Replicas of any generation. -/
  total : UInt32
  deadlineExceeded : Bool
deriving DecidableEq, Inhabited

def RolloutStatus.blank : RolloutStatus := ⟨0, 0, 0, 0, 0, 0, false⟩

inductive RolloutLag where
  | unobserved
  | outdated (updated replicas : UInt32)
  | surplus (count : UInt32)
  | unavailable (available updated : UInt32)
deriving DecidableEq, Inhabited

def RolloutLag.text : RolloutLag → String
  | .unobserved => "waiting for rollout to be observed"
  | .outdated updated replicas => s!"{updated} of {replicas} replicas have been updated"
  | .surplus count => s!"{count} old replicas are pending termination"
  | .unavailable available updated => s!"{available} of {updated} updated replicas are available"

def RolloutStatus.lag? (r : RolloutStatus) : Option RolloutLag :=
  if r.observed < r.generation then some .unobserved
  else if r.updated < r.replicas then some (.outdated r.updated r.replicas)
  else if r.updated < r.total then some (.surplus (r.total - r.updated))
  else if r.available < r.updated then some (.unavailable r.available r.updated)
  else none

end TrialControl
