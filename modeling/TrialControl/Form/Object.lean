import TrialControl.Form.Basic
import TrialControl.Object.Selector
import TrialControl.Rollout

/-!
# JSON forms of keys, metadata, selectors and rollouts
-/

namespace TrialControl

instance : Form ObjectKey where
  encode k := .ofFields [("namespace", encode k.ns), ("name", encode k.name)]
  decode? d := d.record? ["namespace", "name"] fun d => do
    let ns ← d.get? "namespace"
    let name ← d.get? "name"
    some ⟨ns, name⟩

instance : Form Owner where
  encode o := .ofFields [("kind", encode o.kind), ("name", encode o.name), ("controller", encode o.controller)]
  decode? d := d.record? ["kind", "name", "controller"] fun d => do
    let kind ← d.get? "kind"
    let name ← d.get? "name"
    let controller ← d.getOr? "controller" false
    some ⟨kind, name, controller⟩

instance : Form Target where
  encode t := .ofFields [("kind", encode t.kind), ("namespace", encode t.ns), ("name", encode t.name)]
  decode? d := d.record? ["kind", "namespace", "name"] fun d => do
    let kind ← d.get? "kind"
    let ns ← d.get? "namespace"
    let name ← d.get? "name"
    some ⟨kind, ns, name⟩

instance : Form Metadata where
  encode m := .ofFields
    [("name", encode m.name), ("namespace", encode m.ns), ("labels", encode m.labels),
     ("owner_references", encode m.owners), ("resource_version", encode m.version),
     ("deletion_timestamp", encode m.deletedAt)]
  decode? d := d.record?
    ["name", "namespace", "labels", "owner_references", "resource_version", "deletion_timestamp"] fun d => do
    let name ← d.get? "name"
    let ns ← d.get? "namespace"
    let labels ← d.getOr? "labels" ∅
    let owners ← d.getOr? "owner_references" []
    let version ← d.getOr? "resource_version" 0
    let deletedAt ← d.get? "deletion_timestamp"
    some ⟨name, ns, labels, owners, version, deletedAt⟩

/-! ## Selectors -/

instance : Form Operator where
  encode o := .text o.name
  decode? d := do
    match ← d.tag? with
    | "In" => some .within
    | "NotIn" => some .notWithin
    | "Exists" => some .present
    | "DoesNotExist" => some .absent
    | _ => none

instance : Form Requirement where
  encode r := .ofFields [("key", encode r.key), ("operator", encode r.operator), ("values", encode r.values)]
  decode? d := d.record? ["key", "operator", "values"] fun d => do
    let key ← d.get? "key"
    let operator ← d.get? "operator"
    let values ← d.getOr? "values" []
    some ⟨key, operator, values⟩

instance : Form Selector where
  encode s := .ofFields [("match_labels", encode s.exact), ("match_expressions", encode s.requirements)]
  decode? d := d.record? ["match_labels", "match_expressions"] fun d => do
    let exact ← d.getOr? "match_labels" ∅
    let requirements ← d.getOr? "match_expressions" []
    some ⟨exact, requirements⟩

/-! ## Rollouts -/

instance : Form RolloutStatus where
  encode r := .ofFields
    [("generation", encode r.generation), ("observed_generation", encode r.observed),
     ("replicas", encode r.replicas), ("updated_replicas", encode r.updated),
     ("available_replicas", encode r.available), ("total_replicas", encode r.total),
     ("progress_deadline_exceeded", encode r.deadlineExceeded)]
  decode? d := d.record?
    ["generation", "observed_generation", "replicas", "updated_replicas", "available_replicas",
     "total_replicas", "progress_deadline_exceeded"] fun d => do
    let generation ← d.getOr? "generation" 0
    let observed ← d.getOr? "observed_generation" 0
    let replicas ← d.getOr? "replicas" 0
    let updated ← d.getOr? "updated_replicas" 0
    let available ← d.getOr? "available_replicas" 0
    let total ← d.getOr? "total_replicas" 0
    let deadlineExceeded ← d.getOr? "progress_deadline_exceeded" false
    some ⟨generation, observed, replicas, updated, available, total, deadlineExceeded⟩

end TrialControl
