import TrialControl.Object.Metadata

/-!
# Workload templates

What the units of a workload run, and the defaults that apply where a trial names no image.
-/

namespace TrialControl

inductive PullPolicy where
  | always
  | ifNotPresent
  | never
deriving DecidableEq, Inhabited

structure Template where
  image : String
  pullPolicy : PullPolicy
  command : List String
  labels : Labels
  /-- Retries before the workload fails. -/
  backoffLimit : UInt32
deriving DecidableEq

def Template.blank : Template := ⟨"", .ifNotPresent, [], ∅, 0⟩

instance : Inhabited Template := ⟨.blank⟩

structure WorkloadDefaults where
  image : String
  pullPolicy : PullPolicy
deriving DecidableEq

def WorkloadDefaults.standard : WorkloadDefaults := ⟨"trial-run:latest", .ifNotPresent⟩

instance : Inhabited WorkloadDefaults := ⟨.standard⟩

/-- The template with the default image and pull policy when it names no image. -/
def Template.orDefault (t : Template) (d : WorkloadDefaults) : Template :=
  if t.image = "" then { t with image := d.image, pullPolicy := d.pullPolicy } else t

end TrialControl
