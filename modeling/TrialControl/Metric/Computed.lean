import TrialControl.Experiment
import TrialControl.Metric.Capture
import TrialControl.Text.Blank

/-!
# Computed metrics

A metric of the trial itself is the duration of its run in seconds, or a number given as the query.
-/

namespace TrialControl

/-- A count of milliseconds in seconds, each step rounded. -/
def secondsOfMillis (ms : Int) : Binary64 :=
  match Binary64.ofInt ms, Binary64.ofInt 1000 with
  | .finite x, .finite y => x.div y
  | x, _ => x

/-- The result of a computed metric; other kinds are refused. -/
def Metric.compute (m : Metric) (t : Trial) : Except CaptureFailure Captured :=
  if m.kind ≠ .computed then
    .error (.final s!"no capture client configured for {m.kind.name} metric {m.name}")
  else
    let query := Text.trim m.query
    if query = "" ∨ query = "duration" then
      match t.status.startTime, t.status.completionTime with
      | some start, some finish => .ok (.exactly (secondsOfMillis (finish.millisSince start)))
      | _, _ =>
        .error { CaptureFailure.final s!"metric {m.name} requires both start and completion time" with query }
    else
      match Binary64.ofText? query with
      | some value => .ok (.exactly value)
      | none => .error { CaptureFailure.final s!"unsupported local query for metric {m.name}" with query }

end TrialControl
