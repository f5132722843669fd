import TrialControl.Metric.Capture
import TrialControl.Metric.Target
import TrialControl.Stability
import TrialControl.Trial.Part

/-!
# Plans

A plan is a computation that asks questions of its surroundings, one at a time, and ends with a
result. Between a question and its answer anything may happen outside, so statements about a plan hold
for every way in which other work comes in between.
-/

namespace TrialControl

/-- A question that a pass asks of the store, of the prober or of the capture client. -/
inductive Call where
  | getTrial (key : ObjectKey)
  | updateTrial (trial : Trial) (part : Part)
  | getExperiment (key : ObjectKey)
  | listWorkloads (ns : String) (selector : Selector)
  | createWorkload (workload : Workload)
  | listUnits (ns : String) (selector : Selector)
  | listServices (selector : Selector)
  | probe (patch : Patch)
  | capture (metric : Metric) (trial : Trial) (target : MetricTarget)

def Call.Answer : Call → Type
  | .getTrial _ | .updateTrial .. => Except Error Trial
  | .getExperiment _ => Except Error Experiment
  | .listWorkloads .. => Except Error (List Workload)
  | .createWorkload _ => Except Error Workload
  | .listUnits .. => Except Error (List ExecutionUnit)
  | .listServices _ => Except Error (List ServiceEndpoint)
  | .probe _ => Except Unsettled Unit
  | .capture .. => Except CaptureFailure Captured

inductive Plan (α : Type) : Type where
  | done (result : α)
  | ask (call : Call) (next : call.Answer → Plan α)

namespace Plan

variable {α β σ : Type}

def bind (p : Plan α) (f : α → Plan β) : Plan β :=
  match p with
  | .done a => f a
  | .ask c next => .ask c fun r => (next r).bind f

/-- Answers every question from a state that the answers may change. -/
def run (answer : (c : Call) → σ → c.Answer × σ) : Plan α → σ → α × σ
  | .done a, s => (a, s)
  | .ask c next, s =>
    let (r, s) := answer c s
    (next r).run answer s

@[simp] theorem run_done (answer : (c : Call) → σ → c.Answer × σ) (a : α) (s : σ) :
    (Plan.done a).run answer s = (a, s) := rfl

@[simp] theorem run_ask (answer : (c : Call) → σ → c.Answer × σ) (c : Call) (next : c.Answer → Plan α)
    (s : σ) : (Plan.ask c next).run answer s = (next (answer c s).1).run answer (answer c s).2 := rfl

end Plan

end TrialControl
