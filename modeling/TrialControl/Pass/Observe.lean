import TrialControl.Pass.Plan

/-!
# Collecting metrics

Metrics are collected one per pass, in the order in which the experiment declares them. The target is
found first; failing to find it counts like a failed capture.
-/

namespace TrialControl

def Metric.resolve (m : Metric) (ns : String) : Plan (Except Error MetricTarget) :=
  match m.kind.scope with
  | .nothing => .done (.ok .nothing)
  | .unitsOfNamespace => .ask (.listUnits ns m.selector) fun r => .done (r.map .units)
  | .servicesOfCluster => .ask (.listServices m.selector) fun r => .done (r.map .services)

def Metric.attempt (m : Metric) (t : Trial) : Plan (Except CaptureFailure Captured) :=
  (m.resolve t.targetNs).bind fun
    | .ok target => .ask (.capture m t target) fun r => .done (r.bind (Captured.finite m.name))
    | .error e => .done (.error (.ofError e))

namespace Trial

/-- The first metric without a closed slot. -/
def nextMetric? (t : Trial) (metrics : List Metric) : Option Metric :=
  metrics.find? fun m => !(Value.slot m.name t.spec.values).isResolved

def recordCaptured (t : Trial) (metric : String) (c : Captured) (now : Instant) : Trial :=
  (t.updateValue metric (·.settle c)).record .observed (.plain .false) now

/-- The trial with an attempt used up; without any left it fails. -/
def recordMissed (t : Trial) (metric message : String) (now : Instant) : Trial :=
  let t := t.updateValue metric Value.spend
  if (Value.slot metric t.spec.values).isResolved then t.record .failed ⟨.true, "MetricFailed", message⟩ now
  else t.record .observed (.plain .false) now

def recordComplete (t : Trial) (now : Instant) : Trial :=
  let t := if t.status.conditions.compare? .observed .true = some false then t.record .observed (.plain .true) now
    else t
  t.record .complete (.plain .true) now

end Trial

inductive Collection where
  | changed (trial : Trial)
  | delayed (delay : Duration)

/-- Collects the next metric of a trial. A new slot is there before its first attempt. -/
def Trial.collect (t : Trial) (metrics : List Metric) (now : Instant) : Plan Collection :=
  if !metrics.isEmpty && (t.status.conditions.find? .observed).isNone then
    .done (.changed (t.record .observed (.plain .unknown) now))
  else
    match t.nextMetric? metrics with
    | none => .done (.changed (t.recordComplete now))
    | some m =>
      let t := t.updateValue m.name id
      (m.attempt t).bind fun
        | .ok c => .done (.changed (t.recordCaptured m.name c now))
        | .error e =>
          match e.retryDelay? with
          | some delay => .done (.delayed delay)
          | none => .done (.changed (t.recordMissed m.name e.message now))

end TrialControl
