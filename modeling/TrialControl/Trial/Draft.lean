import TrialControl.Trial.Basic

/-!
# Drafts of trials

A trial as an experiment creates it. It starts with the condition Stable unknown, since nothing has
been seen to settle yet.
-/

namespace TrialControl

structure Draft where
  trial : Trial
  createdAt : Instant
deriving DecidableEq, Inhabited

namespace Draft

def named (ns name : String) (createdAt : Instant) : Draft := ⟨.named ns name, createdAt⟩

def label (d : Draft) (key value : String) : Draft :=
  { d with trial.metadata.labels := d.trial.metadata.labels.insert key value }

/-- Names the parent experiment by label and owner. -/
def experiment (d : Draft) (name : String) : Draft :=
  let d := d.label Label.experiment name
  { d with trial.metadata.owners := d.trial.metadata.owners ++ [⟨"Experiment", name, true⟩] }

def patch (d : Draft) (p : Patch) : Draft := { d with trial.spec.patches := d.trial.spec.patches ++ [p] }

def startOffset (d : Draft) (offset : Duration) : Draft := { d with trial.spec.startOffset := some offset }

def targetNs (d : Draft) (ns : String) : Draft := { d with trial.spec.targetNs := some ns }

def template (d : Draft) (t : Template) : Draft := { d with trial.spec.template := some t }

def created (d : Draft) (at_ : Instant) : Draft := { d with createdAt := at_ }

def build (d : Draft) : Trial := (d.trial.record .stable (.plain .unknown) d.createdAt).syncPhase

end Draft

end TrialControl
