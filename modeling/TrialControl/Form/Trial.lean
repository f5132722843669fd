import TrialControl.Form.Object
import TrialControl.Trial.Basic

/-!
# JSON forms of trials
-/

namespace TrialControl

instance : Form ConditionKind where
  encode
    | .stable => .text "Stable"
    | .patched => .text "Patched"
    | .observed => .text "Observed"
    | .failed => .text "Failed"
    | .complete => .text "Complete"
  decode? d := do
    match ← d.tag? with
    | "Stable" => some .stable
    | "Patched" => some .patched
    | "Observed" => some .observed
    | "Failed" => some .failed
    | "Complete" => some .complete
    | _ => none

instance : Form Truth where
  encode
    | .true => .text "True"
    | .false => .text "False"
    | .unknown => .text "Unknown"
  decode? d := do
    match ← d.tag? with
    | "True" => some .true
    | "False" => some .false
    | "Unknown" => some .unknown
    | _ => none

def Standing.ofRecord? (d : Document) : Option Standing := do
  let status ← d.get? "status"
  let reason ← d.getOr? "reason" ""
  let message ← d.getOr? "message" ""
  some ⟨status, reason, message⟩

def Standing.fields (s : Standing) : List (String × Json) :=
  [("status", encode s.status), ("reason", encode s.reason), ("message", encode s.message)]

instance : Form Condition where
  encode c := .ofFields
    (("kind", encode c.kind) :: c.standing.fields ++ [("last_transition_time", encode c.since)])
  decode? d := d.record? ["kind", "status", "reason", "message", "last_transition_time"] fun d => do
    let kind ← d.get? "kind"
    let standing ← Standing.ofRecord? d
    let since ← d.get? "last_transition_time"
    some ⟨kind, standing, since⟩

instance : Form Ledger where
  encode l := encode l.entries
  decode? d := (decode? d).map Ledger.mk

instance : Form Value where
  encode v := .ofFields
    ([("name", encode v.name), ("value", encode v.value), ("attempts_remaining", encode v.attempts)] ++
      Json.present "error" v.deviation)
  decode? d := d.record? ["name", "value", "error", "attempts_remaining"] fun d => do
    let name ← d.get? "name"
    let value ← d.getOr? "value" ""
    let deviation ← d.get? "error"
    let attempts ← d.get? "attempts_remaining"
    some ⟨name, value, deviation, attempts⟩

instance : Form Patch where
  encode p := .ofFields [("target", encode p.target), ("patch", p.document), ("wait", encode p.waits)]
  decode? d := d.record? ["target", "patch", "wait"] fun d => do
    let target ← d.get? "target"
    let document ← d.get? "patch"
    let waits ← d.getOr? "wait" false
    some ⟨target, document, waits⟩

instance : Form PullPolicy where
  encode
    | .always => .text "Always"
    | .ifNotPresent => .text "IfNotPresent"
    | .never => .text "Never"
  decode? d := do
    match ← d.tag? with
    | "Always" => some .always
    | "IfNotPresent" => some .ifNotPresent
    | "Never" => some .never
    | _ => none

instance : Form Template where
  encode t := .ofFields
    [("image", encode t.image), ("image_pull_policy", encode t.pullPolicy), ("command", encode t.command),
     ("labels", encode t.labels), ("backoff_limit", encode t.backoffLimit)]
  decode? d := d.record? ["image", "image_pull_policy", "command", "labels", "backoff_limit"] fun d => do
    let image ← d.getOr? "image" ""
    let pullPolicy ← d.getOr? "image_pull_policy" .ifNotPresent
    let command ← d.getOr? "command" []
    let labels ← d.getOr? "labels" ∅
    let backoffLimit ← d.getOr? "backoff_limit" 0
    some ⟨image, pullPolicy, command, labels, backoffLimit⟩

instance : Form WorkloadDefaults where
  encode d := .ofFields [("image", encode d.image), ("image_pull_policy", encode d.pullPolicy)]
  decode? d := d.record? ["image", "image_pull_policy"] fun d => do
    let image ← d.getOr? "image" WorkloadDefaults.standard.image
    let pullPolicy ← d.getOr? "image_pull_policy" WorkloadDefaults.standard.pullPolicy
    some ⟨image, pullPolicy⟩

instance : Form TrialSpec where
  encode s := .ofFields
    ([("patch_operations", encode s.patches), ("values", encode s.values)] ++
      Json.present "start_time_offset" s.startOffset ++ Json.present "target_namespace" s.targetNs ++
      Json.present "template" s.template)
  decode? d := d.record?
    ["patch_operations", "values", "start_time_offset", "target_namespace", "template"] fun d => do
    let patches ← d.getOr? "patch_operations" []
    let values ← d.getOr? "values" []
    let startOffset ← d.get? "start_time_offset"
    let targetNs ← d.get? "target_namespace"
    let template ← d.get? "template"
    some ⟨patches, values, startOffset, targetNs, template⟩

instance : Form TrialStatus where
  encode s := .ofFields
    [("phase", encode s.phase), ("conditions", encode s.conditions), ("start_time", encode s.startTime),
     ("completion_time", encode s.completionTime)]
  decode? d := d.record? ["phase", "conditions", "start_time", "completion_time"] fun d => do
    let phase ← d.getOr? "phase" ""
    let conditions ← d.getOr? "conditions" Ledger.empty
    let startTime ← d.get? "start_time"
    let completionTime ← d.get? "completion_time"
    some ⟨phase, conditions, startTime, completionTime⟩

instance : Form Trial where
  encode t := .ofFields [("metadata", encode t.metadata), ("spec", encode t.spec), ("status", encode t.status)]
  decode? d := d.record? ["metadata", "spec", "status"] fun d => do
    let metadata ← d.get? "metadata"
    let spec ← d.getOr? "spec" TrialSpec.empty
    let status ← d.getOr? "status" TrialStatus.empty
    some ⟨metadata, spec, status⟩

end TrialControl
