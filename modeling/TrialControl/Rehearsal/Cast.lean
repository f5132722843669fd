import TrialControl.Metric.Computed
import TrialControl.Pass.Plan
import TrialControl.Rehearsal.Stage

/-!
# The cast of a rehearsal

The prober and the capture client of a rehearsal either do their work or follow a script. A cue of a
script may change the stage before it answers. What they are asked is written down.
-/

namespace TrialControl.Rehearsal

/-- An answer, given after a change of the stage. -/
structure Cue (α : Type) where
  answer : α
  side : Stage → Stage

inductive Prober where
  /-- Reads rollouts and asks for a delay while they are in progress. -/
  | rollouts (delay : Duration)
  /-- Follows a list of cues for each name of a target. -/
  | scripted (cues : Table String (List (Cue (Except Unsettled Unit))))

inductive Capturer where
  | computed
  | scripted (cues : List (Cue (Except CaptureFailure Captured)))

structure CaptureRequest where
  metric : String
  trial : ObjectKey
  target : MetricTarget

structure Cast where
  stage : Stage
  prober : Prober
  capturer : Capturer
  /-- Targets that were probed, the last one first. -/
  probed : List Target
  /-- Captures that were tried, the last one first. -/
  captured : List CaptureRequest

namespace Prober

/-- The verdict on a target. A script without a cue lets everything settle. -/
def verdict (p : Prober) (stage : Stage) (target : Target) : Except Unsettled Unit × Stage × Prober :=
  match p with
  | .rollouts delay =>
    let (r, stage) := stage.probeRollout delay target
    (r, stage, p)
  | .scripted cues =>
    match cues.get? target.name with
    | some (cue :: rest) => (cue.answer, cue.side stage, .scripted (cues.insert target.name rest))
    | _ => (.ok (), stage, p)

end Prober

namespace Capturer

/-- The result for a metric. A script without a cue fails. -/
def result (c : Capturer) (stage : Stage) (m : Metric) (t : Trial) :
    Except CaptureFailure Captured × Stage × Capturer :=
  match c with
  | .computed => (m.compute t, stage, c)
  | .scripted (cue :: rest) => (cue.answer, cue.side stage, .scripted rest)
  | .scripted [] => (.error (.final "capture script exhausted"), stage, c)

end Capturer

namespace Cast

def onStage {α : Type} (c : Cast) (r : α × Stage) : α × Cast := (r.1, { c with stage := r.2 })

def probe (c : Cast) (target : Target) : Except Unsettled Unit × Cast :=
  let (r, stage, prober) := c.prober.verdict c.stage target
  (r, { c with stage, prober, probed := target :: c.probed })

def capture (c : Cast) (m : Metric) (t : Trial) (target : MetricTarget) :
    Except CaptureFailure Captured × Cast :=
  let (r, stage, capturer) := c.capturer.result c.stage m t
  (r, { c with stage, capturer, captured := ⟨m.name, t.key, target⟩ :: c.captured })

def answer (call : Call) (c : Cast) : call.Answer × Cast :=
  match call with
  | .getTrial key => c.onStage (c.stage.read .getTrial (·.getTrial key))
  | .updateTrial t part =>
    let method := match part with
      | .whole => Method.updateTrial
      | .status => Method.updateTrialStatus
    c.onStage (c.stage.write method (·.replaceTrial t part))
  | .getExperiment key => c.onStage (c.stage.read .getExperiment (·.getExperiment key))
  | .listWorkloads ns selector => c.onStage (c.stage.read .listWorkloads (·.listWorkloads ns selector))
  | .createWorkload w => c.onStage (c.stage.write .createWorkload (·.createWorkload w))
  | .listUnits ns selector => c.onStage (c.stage.read .listUnits (·.listUnits (some ns) selector))
  | .listServices selector => c.onStage (c.stage.read .listServices (·.listServices none selector))
  | .probe p => c.probe p.target
  | .capture m t target => c.capture m t target

def perform {α : Type} (c : Cast) (p : Plan α) : α × Cast := p.run answer c

end Cast

end TrialControl.Rehearsal
