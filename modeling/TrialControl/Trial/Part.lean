import TrialControl.Trial.Basic

/-!
# Parts of a trial

An update replaces the status of a trial, or the whole: specification, labels and status. Metadata
besides labels are never replaced.
-/

namespace TrialControl

inductive Part where
  | whole
  | status
deriving DecidableEq, Inhabited

namespace Part

/-- Whether an update would leave the stored trial as it is. -/
def agrees (stored t : Trial) : Part → Bool
  | .whole =>
    decide (stored.status = t.status) && stored.spec.alike t.spec &&
      decide (stored.metadata.labels = t.metadata.labels)
  | .status => decide (stored.status = t.status)

def merge (stored t : Trial) : Part → Trial
  | .whole => { stored with spec := t.spec, status := t.status, metadata.labels := t.metadata.labels }
  | .status => { stored with status := t.status }

/-- The part to replace for a trial that was read with a specification. -/
def toUpdate (read : TrialSpec) (t : Trial) : Part := if t.spec.alike read then .status else .whole

end Part

end TrialControl
