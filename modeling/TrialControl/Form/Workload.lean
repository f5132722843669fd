import TrialControl.Form.Trial
import TrialControl.Metric.Target

/-!
# JSON forms of experiments, workloads, units and services
-/

namespace TrialControl

/-! ## Experiments -/

instance : Form MetricKind where
  encode
    | .computed => .text "local"
    | .pods => .text "pods"
    | .prometheus => .text "prometheus"
    | .jsonPath => .text "jsonpath"
  decode? d := do
    match ← d.tag? with
    | "local" => some .computed
    | "pods" => some .pods
    | "prometheus" => some .prometheus
    | "jsonpath" => some .jsonPath
    | _ => none

instance : Form Metric where
  encode m := .ofFields
    ([("name", encode m.name), ("kind", encode m.kind), ("query", encode m.query),
      ("selector", encode m.selector), ("minimize", encode m.minimize)] ++
      Json.present "error_query" m.errorQuery ++ Json.present "port" m.port)
  decode? d := d.record? ["name", "kind", "query", "error_query", "selector", "port", "minimize"] fun d => do
    let name ← d.get? "name"
    let kind ← d.get? "kind"
    let query ← d.getOr? "query" ""
    let errorQuery ← d.get? "error_query"
    let selector ← d.getOr? "selector" .everything
    let port ← d.get? "port"
    let minimize ← d.getOr? "minimize" false
    some ⟨name, kind, query, errorQuery, selector, port, minimize⟩

/-- The part of an experiment besides its metadata. -/
structure ExperimentBody where
  metrics : List Metric

instance : Form ExperimentBody where
  encode b := .ofFields [("metrics", encode b.metrics)]
  decode? d := d.record? ["metrics"] fun d => (d.getOr? "metrics" []).map ExperimentBody.mk

instance : Form Experiment where
  encode e := .ofFields [("metadata", encode e.metadata), ("spec", encode (ExperimentBody.mk e.metrics))]
  decode? d := d.record? ["metadata", "spec"] fun d => do
    let metadata ← d.get? "metadata"
    let body ← d.getOr? "spec" (ExperimentBody.mk [])
    some ⟨metadata, body.metrics⟩

/-! ## Workloads -/

instance : Form WorkloadEnd where
  encode
    | .complete => .text "Complete"
    | .failed => .text "Failed"
  decode? d := do
    match ← d.tag? with
    | "Complete" => some .complete
    | "Failed" => some .failed
    | _ => none

instance : Form WorkloadCondition where
  encode c := .ofFields (("kind", encode c.kind) :: c.standing.fields)
  decode? d := d.record? ["kind", "status", "reason", "message"] fun d => do
    let kind ← d.get? "kind"
    let standing ← Standing.ofRecord? d
    some ⟨kind, standing⟩

instance : Form WorkloadStatus where
  encode s := .ofFields
    [("start_time", encode s.startTime), ("completion_time", encode s.completionTime),
     ("conditions", encode s.conditions)]
  decode? d := d.record? ["start_time", "completion_time", "conditions"] fun d => do
    let startTime ← d.get? "start_time"
    let completionTime ← d.get? "completion_time"
    let conditions ← d.getOr? "conditions" []
    some ⟨startTime, completionTime, conditions⟩

/-- The part of a workload besides its metadata and status. -/
structure WorkloadBody where
  selector : Selector
  template : Template

instance : Form WorkloadBody where
  encode b := .ofFields [("selector", encode b.selector), ("template", encode b.template)]
  decode? d := d.record? ["selector", "template"] fun d => do
    let selector ← d.getOr? "selector" .everything
    let template ← d.getOr? "template" .blank
    some ⟨selector, template⟩

instance : Form Workload where
  encode w := .ofFields
    [("metadata", encode w.metadata), ("spec", encode (WorkloadBody.mk w.selector w.template)),
     ("status", encode w.status)]
  decode? d := d.record? ["metadata", "spec", "status"] fun d => do
    let metadata ← d.get? "metadata"
    let body ← d.getOr? "spec" (WorkloadBody.mk .everything .blank)
    let status ← d.getOr? "status" WorkloadStatus.empty
    some ⟨metadata, body.selector, body.template, status⟩

/-! ## Units -/

instance : Form UnitPhase where
  encode
    | .pending => .text "Pending"
    | .running => .text "Running"
    | .succeeded => .text "Succeeded"
    | .failed => .text "Failed"
    | .unknown => .text "Unknown"
  decode? d := do
    match ← d.tag? with
    | "Pending" => some .pending
    | "Running" => some .running
    | "Succeeded" => some .succeeded
    | "Failed" => some .failed
    | "Unknown" => some .unknown
    | _ => none

/-- The state of a container is an object whose only field is named for the state. -/
instance : Form ContainerState where
  encode
    | .waiting reason => .ofFields [("Waiting", .ofFields [("reason", encode reason)])]
    | .running started => .ofFields [("Running", .ofFields [("started_at", encode started)])]
    | .terminated started finished exitCode reason => .ofFields [("Terminated", .ofFields
      [("started_at", encode started), ("finished_at", encode finished), ("exit_code", encode exitCode),
       ("reason", encode reason)])]
  decode?
    | .object [("Waiting", d)] => d.object? fun d => (d.getOr? "reason" "").map .waiting
    | .object [("Running", d)] => d.object? fun d => (d.get? "started_at").map .running
    | .object [("Terminated", d)] => d.object? fun d => do
      let started ← d.get? "started_at"
      let finished ← d.get? "finished_at"
      let exitCode ← d.getOr? "exit_code" 0
      let reason ← d.getOr? "reason" ""
      some (.terminated started finished exitCode reason)
    | _ => none

instance : Form ExecutionUnit where
  encode u := .ofFields
    [("metadata", encode u.metadata), ("phase", encode u.phase), ("reason", encode u.reason),
     ("message", encode u.message), ("containers", encode u.containers)]
  decode? d := d.record? ["metadata", "phase", "reason", "message", "containers"] fun d => do
    let metadata ← d.get? "metadata"
    let phase ← d.getOr? "phase" .pending
    let reason ← d.getOr? "reason" ""
    let message ← d.getOr? "message" ""
    let containers ← d.getOr? "containers" []
    some ⟨metadata, phase, reason, message, containers⟩

/-! ## Services -/

instance : Form ServiceEndpoint where
  encode s := .ofFields
    [("name", encode s.name), ("namespace", encode s.ns), ("labels", encode s.labels),
     ("address", encode s.address), ("ports", encode s.ports)]
  decode? d := d.record? ["name", "namespace", "labels", "address", "ports"] fun d => do
    let name ← d.get? "name"
    let ns ← d.get? "namespace"
    let labels ← d.getOr? "labels" ∅
    let address ← d.get? "address"
    let ports ← d.getOr? "ports" ∅
    some ⟨name, ns, labels, address, ports⟩

end TrialControl
