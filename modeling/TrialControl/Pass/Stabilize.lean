import TrialControl.Pass.Plan

/-!
# Waiting for patches

The scan probes the waiting patches in order and stops at the first that has settled or cannot
settle. When all of them ask for more time, the longest delay counts, and the condition Stable gives
the message of the first patch that asks for it.
-/

namespace TrialControl

inductive Scan where
  | idle
  /-- A patch has settled or has failed. -/
  | changed (trial : Trial)
  | waiting (trial : Trial) (delay : Duration)

namespace Trial

def recordWaiting (t : Trial) (message : String) (now : Instant) : Trial :=
  t.record .stable ⟨.false, "Waiting", message⟩ now

def recordWaitFailed (t : Trial) (message : String) (now : Instant) : Trial :=
  t.record .failed ⟨.true, "WaitFailed", message⟩ now

/-- The trial with given patches, of which one has just settled. -/
def recordSettled (t : Trial) (patches : List Patch) (now : Instant) : Trial :=
  { t with spec.patches := patches }.record .stable (.plain .false) now

/-- Scans the patches that follow `seen`; `delay` is the longest that was asked for. -/
def scanFrom (now : Instant) (t : Trial) (delay : Option Duration) (seen : List Patch) : List Patch → Plan Scan
  | [] => .done (match delay with
    | some d => .waiting t d
    | none => .idle)
  | p :: ps =>
    if p.waits then
      .ask (.probe p) fun
        | .ok () => .done (.changed (t.recordSettled (seen ++ { p with waits := false } :: ps) now))
        | .error e =>
          match e.retryDelay? with
          | none => .done (.changed (t.recordWaitFailed e.message now))
          | some d =>
            if delay.all (· < d) then scanFrom now (t.recordWaiting e.message now) (some d) (seen ++ [p]) ps
            else scanFrom now t delay (seen ++ [p]) ps
    else scanFrom now t delay (seen ++ [p]) ps

def scan (now : Instant) (t : Trial) : Plan Scan := scanFrom now t none [] t.spec.patches

end Trial

end TrialControl
