import TrialControl.Object.Selector

/-!
# Experiments

An experiment declares the metrics that every one of its trials collects, in the order in which they
are collected.
-/

namespace TrialControl

inductive MetricKind where
  /-- Computed from the trial itself. -/
  | computed
  /-- Read from units in the namespace that the trial targets. -/
  | pods
  /-- Queried from a service anywhere in the cluster. -/
  | prometheus
  /-- Read from a document that a service exposes. -/
  | jsonPath
deriving DecidableEq, Inhabited

def MetricKind.name : MetricKind → String
  | .computed => "Local"
  | .pods => "Pods"
  | .prometheus => "Prometheus"
  | .jsonPath => "JsonPath"

structure Metric where
  name : String
  kind : MetricKind
  query : String
  /-- Queries the deviation. -/
  errorQuery : Option String
  selector : Selector
  port : Option String
  /-- Lower values are better. -/
  minimize : Bool
deriving DecidableEq, Inhabited

def Metric.named (name : String) (kind : MetricKind) : Metric := ⟨name, kind, "", none, .everything, none, false⟩

structure Experiment where
  metadata : Metadata
  metrics : List Metric
deriving DecidableEq, Inhabited

namespace Experiment

def named (ns name : String) : Experiment := ⟨.named ns name, []⟩

def key (e : Experiment) : ObjectKey := e.metadata.key

def metric (e : Experiment) (m : Metric) : Experiment := { e with metrics := e.metrics ++ [m] }

end Experiment

end TrialControl
