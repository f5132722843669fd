import TrialControl.Experiment
import TrialControl.Workload.Basic

/-!
# Targets of metrics

The kind of a metric alone decides where it is read: from the trial itself, from units in one
namespace, or from services of the whole cluster.
-/

namespace TrialControl

structure ServiceEndpoint where
  name : String
  ns : String
  labels : Labels
  address : String
  ports : Table String UInt16
deriving DecidableEq, Inhabited

namespace ServiceEndpoint

def named (ns name address : String) : ServiceEndpoint := ⟨name, ns, ∅, address, ∅⟩

def withLabel (s : ServiceEndpoint) (key value : String) : ServiceEndpoint :=
  { s with labels := s.labels.insert key value }

def key (s : ServiceEndpoint) : ObjectKey := ⟨s.ns, s.name⟩

end ServiceEndpoint

inductive TargetScope where
  | nothing
  | unitsOfNamespace
  | servicesOfCluster
deriving DecidableEq, Inhabited

def MetricKind.scope : MetricKind → TargetScope
  | .computed => .nothing
  | .pods => .unitsOfNamespace
  | .prometheus | .jsonPath => .servicesOfCluster

inductive MetricTarget where
  | nothing
  | units (found : List ExecutionUnit)
  | services (found : List ServiceEndpoint)
deriving DecidableEq, Inhabited

end TrialControl
