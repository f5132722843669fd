import TrialControl.Object.Selector
import TrialControl.Trial.Condition
import TrialControl.Workload.Template

/-!
# Workloads and their units

A workload performs the work of a trial, as a run, or prepares it, as a setup. The cluster executes
it as units, each with a number of containers. A workload has a status of its own, which may be ahead
of the states of its units.
-/

namespace TrialControl

inductive WorkloadEnd where
  | complete
  | failed
deriving DecidableEq, Inhabited

structure WorkloadCondition where
  kind : WorkloadEnd
  standing : Standing
deriving DecidableEq, Inhabited

structure WorkloadStatus where
  startTime : Option Instant
  completionTime : Option Instant
  conditions : List WorkloadCondition
deriving DecidableEq

def WorkloadStatus.empty : WorkloadStatus := ⟨none, none, []⟩

instance : Inhabited WorkloadStatus := ⟨.empty⟩

structure Workload where
  metadata : Metadata
  selector : Selector
  template : Template
  status : WorkloadStatus
deriving DecidableEq, Inhabited

namespace Workload

def key (w : Workload) : ObjectKey := w.metadata.key

def isSetup (w : Workload) : Bool := w.metadata.label? Label.role == some Label.setupRole

/-- The first condition by which the workload gave up. -/
def failure? (w : Workload) : Option WorkloadCondition :=
  w.status.conditions.find? fun c => c.kind == .failed && c.standing.status == .true

/-- The trial that a change of the workload concerns: the managing owner, else the labelled trial. -/
def trialKey? (w : Workload) : Option ObjectKey :=
  match w.metadata.managingOwner? "Trial" with
  | some owner => some ⟨w.metadata.ns, owner.name⟩
  | none => ((w.metadata.label? Label.trial).filter (· ≠ "")).map fun name => ⟨w.metadata.ns, name⟩

end Workload

/-! ## Units -/

inductive UnitPhase where
  | pending
  | running
  | succeeded
  | failed
  | unknown
deriving DecidableEq, Inhabited

inductive ContainerState where
  | waiting (reason : String)
  | running (started : Instant)
  | terminated (started finished : Instant) (exitCode : Int32) (reason : String)
deriving DecidableEq, Inhabited

namespace ContainerState

def started? : ContainerState → Option Instant
  | .waiting _ => none
  | .running started => some started
  | .terminated started .. => some started

def finished? : ContainerState → Option Instant
  | .terminated _ finished .. => some finished
  | _ => none

end ContainerState

structure ExecutionUnit where
  metadata : Metadata
  phase : UnitPhase
  reason : String
  message : String
  containers : List ContainerState
deriving DecidableEq, Inhabited

namespace ExecutionUnit

/-- A unit that was accepted and has no containers yet. -/
def pending (metadata : Metadata) : ExecutionUnit := ⟨metadata, .pending, "", "", []⟩

def key (u : ExecutionUnit) : ObjectKey := u.metadata.key

end ExecutionUnit

end TrialControl
