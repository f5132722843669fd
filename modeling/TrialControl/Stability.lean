import TrialControl.Rollout

/-!
# Stability

A probe of a patched target finds that it has settled, that it has not settled yet and may be probed
again after a delay, or that it cannot settle. A delay of zero asks for no further probe, and counts
as a failure.
-/

namespace TrialControl

inductive Unsettled where
  | pending (message : String) (delay : Duration)
  | failed (message : String)
deriving DecidableEq, Inhabited

namespace Unsettled

def message : Unsettled → String
  | .pending message _ => message
  | .failed message => message

def retryDelay? : Unsettled → Option Duration
  | .pending _ delay => if delay.isZero then none else some delay
  | .failed _ => none

def ofError (e : Error) : Unsettled := .failed e.message

end Unsettled

/-- The delay between two probes of a rollout, unless another one is asked for. -/
def RolloutStatus.standardDelay : Duration := .ofSeconds 5

/-- What the rollout of a target says about the patch; a target without rollout has settled. -/
def RolloutStatus.verdict (target : Target) (delay : Duration) : Option RolloutStatus → Except Unsettled Unit
  | none => .ok ()
  | some r =>
    if r.deadlineExceeded then .error (.failed (target.text ++ " exceeded its progress deadline"))
    else
      match r.lag? with
      | some lag => .error (.pending (target.text ++ ": " ++ lag.text) delay)
      | none => .ok ()

end TrialControl
