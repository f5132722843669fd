import TrialControl.Trial.Basic
import TrialControl.Workload.Basic

/-!
# Run workloads

The workload that runs a trial has the trial's key and is owned by it. It selects its units by the
trial label, and its own labels take the place of labels of the template, so that the units are found
whatever the template says.
-/

namespace TrialControl.Trial

def runLabels (t : Trial) : Labels :=
  let labels := match t.experimentName? with
    | some name => Table.empty.insert Label.experiment name
    | none => Table.empty
  (labels.insert Label.trial t.metadata.name).insert Label.role Label.runRole

/-- Selects what carries the trial label of a trial. -/
def ownSelector (t : Trial) : Selector := Selector.everything.withLabel Label.trial t.metadata.name

def runWorkload (t : Trial) (d : WorkloadDefaults) : Workload :=
  let template := (t.spec.template.getD .blank).orDefault d
  { metadata :=
      { Metadata.named t.metadata.ns t.metadata.name with
        labels := t.runLabels
        owners := [⟨"Trial", t.metadata.name, true⟩] }
    selector := t.ownSelector
    template := { template with labels := template.labels.extend t.runLabels }
    status := .empty }

end TrialControl.Trial
