import TrialControl.Proofs.Forms

/-!
# Objects survive JSON

A shape lists the fields that the documents of a form have, each with the JSON value that it has where it
is left out; the shapes below are the documented ones. Putting in what a document leaves out does not
change what it is read as. For a record this comes down to one of three facts for each field, by what the
reader does without it: refuse, read `null`, or take a value that is also what the default is read as.
-/

namespace TrialControl

/-- Which fields the documents of a form have, and what an absent field counts as. -/
inductive Shape where
  /-- Nothing to fill in. -/
  | plain
  | optional (item : Shape)
  | list (item : Shape)
  /-- An object of fields. A field without a default is required. -/
  | object (fields : List (String × Shape × Option Json))
  /-- An object of fields, or the values of its first fields in an array. -/
  | record (fields : List (String × Shape × Option Json))
  /-- An object whose only field names one of some shapes. -/
  | tagged (options : List (String × Shape))

namespace Shape

abbrev Slot : Type := String × Shape × Option Json

mutual
def fill : Shape → Document → Document
  | .plain, d => d
  | .optional _, .null => .null
  | .optional item, d => item.fill d
  | .list item, .array ds => .array (ds.map item.fill)
  | .object fields, .object es => .object (fillFields fields es)
  | .record fields, .object es => .object (fillFields fields es)
  | .record fields, .array ds =>
    if ds.length ≤ fields.length then .object (fillFields fields ((fields.map (·.1)).zip ds)) else .array ds
  | .tagged options, .object [(tag, d)] => .object [(tag, fillTagged options tag d)]
  | _, d => d
def fillFields : List Slot → List (String × Document) → List (String × Document)
  | [], _ => []
  | (name, shape, default) :: fields, es =>
    match Table.find name es, default with
    | some d, _ => (name, shape.fill d) :: fillFields fields es
    | none, some j => (name, shape.fill j) :: fillFields fields es
    | none, none => fillFields fields es
def fillTagged : List (String × Shape) → String → Document → Document
  | [], _, d => d
  | (name, shape) :: options, tag, d => if tag = name then shape.fill d else fillTagged options tag d
end

end Shape

class ShapedForm (α : Type) [Form α] (shape : Shape) : Prop where
  decode_fill (d : Document) : (decode? (shape.fill d) : Option α) = decode? d

export ShapedForm (decode_fill)

/-! ## Fields -/

namespace Shape

def meaning? (shape : Shape) (default : Option Json) : Option Document → Option Document
  | some d => some (shape.fill d)
  | none => default.map fun j => shape.fill j

@[simp] def fieldOf (name : String) : List Slot → List (String × Document) → Option Document
  | [], _ => none
  | (n, shape, default) :: fields, es =>
    (if name = n then meaning? shape default (Table.find n es) else none).or (fieldOf name fields es)

@[simp] theorem find_fillFields (name : String) (fields : List Slot) (es : List (String × Document)) :
    Table.find name (fillFields fields es) = fieldOf name fields es := by
  induction fields with
  | nil => simp only [fillFields, fieldOf, Table.find]
  | cons f fields ih =>
    obtain ⟨n, shape, default⟩ := f
    rw [fieldOf, ← ih]
    rcases h : Table.find n es with _ | d
    · cases default with
      | none => simp [fillFields, h, meaning?]
      | some j => by_cases same : name = n <;> simp [fillFields, h, meaning?, Table.find, same]
    · by_cases same : name = n <;> simp [fillFields, h, meaning?, Table.find, same]

section
variable {α : Type} [Form α]

@[simp] theorem get?_object (name : String) (es : List (String × Document)) :
    (Document.object es).get? name = (decode? ((Table.find name es).getD .null) : Option α) := rfl

@[simp] theorem getOr?_object (name : String) (default : α) (es : List (String × Document)) :
    (Document.object es).getOr? name default = ((Table.find name es).map decode?).getD (some default) := by
  rw [Document.getOr?, Document.field?]
  cases Table.find name es <;> rfl

variable {shape : Shape} [ShapedForm α shape] (o : Option Document)

@[simp] theorem decode_required :
    (decode? ((meaning? shape none o).getD .null) : Option α) = decode? (o.getD .null) := by
  cases o with
  | none => rfl
  | some d => exact decode_fill d

@[simp] theorem decode_nullable :
    (decode? ((meaning? shape (some .null) o).getD .null) : Option α) = decode? (o.getD .null) := by
  cases o with
  | none => exact decode_fill Document.null
  | some d => exact decode_fill d

@[simp] theorem decode_defaulted {j : Json} {a : α} (read : decode? (j : Document) = some a) :
    ((meaning? shape (some j) o).map decode?).getD (some a) = (o.map decode?).getD (some a) := by
  cases o with
  | none => exact (decode_fill (j : Document)).trans read
  | some d => exact decode_fill d

end

end Shape

theorem Document.record?_filled {α : Type} {fields : List Shape.Slot} {read : Document → Option α}
    (same : ∀ es, read (.object (Shape.fillFields fields es)) = read (.object es)) (d : Document) :
    ((Shape.record fields).fill d).record? (fields.map (·.1)) read = d.record? (fields.map (·.1)) read := by
  cases d with
  | object es => exact same es
  | array ds =>
    by_cases short : ds.length ≤ fields.length
    · simp [Shape.fill, record?, short, same]
    · simp [Shape.fill, record?, short]
  | _ => rfl

theorem Document.object?_filled {α : Type} {fields : List Shape.Slot} {read : Document → Option α}
    (same : ∀ es, read (.object (Shape.fillFields fields es)) = read (.object es)) (d : Document) :
    ((Shape.object fields).fill d).object? read = d.object? read := by
  cases d with
  | object es => exact same es
  | _ => rfl

/-! ## Items -/

section
variable {α : Type} [Form α]

instance : ShapedForm α .plain := ⟨fun _ => rfl⟩

theorem Shape.fill_optional {d : Document} (solid : d ≠ .null) (item : Shape) :
    (Shape.optional item).fill d = item.fill d := by
  cases d with
  | null => exact absurd rfl solid
  | _ => rfl

theorem Shape.fill_ne_null {d : Document} (solid : d ≠ .null) : (s : Shape) → s.fill d ≠ .null
  | .plain => solid
  | .optional item => by
    rw [fill_optional solid]
    exact fill_ne_null solid item
  | .record fields => by
    cases d with
    | array ds =>
      simp only [fill]
      split <;> simp
    | _ => simp_all [fill]
  | .list _ | .object _ | .tagged _ => by
    unfold fill
    split <;> simp_all

variable {shape : Shape} [ShapedForm α shape]

instance : ShapedForm (Option α) (.optional shape) where
  decode_fill d := by
    by_cases solid : d = .null
    · rw [solid]
      rfl
    · have same : (decode? (shape.fill d) : Option α) = decode? d := decode_fill d
      rw [Shape.fill_optional solid, decode_of_ne_null (Shape.fill_ne_null solid shape), same, decode_of_ne_null solid]

theorem mapM_fill (ds : List Document) : ((ds.map shape.fill).mapM decode? : Option (List α)) = ds.mapM decode? := by
  induction ds with
  | nil => rfl
  | cons d ds ih => rw [List.map_cons, List.mapM_cons, List.mapM_cons, decode_fill, ih]

instance : ShapedForm (List α) (.list shape) where
  decode_fill d := by
    cases d with
    | array ds => exact mapM_fill ds
    | _ => rfl

end

/-! ## The documented fields -/

namespace Shape

@[simp] def needs (name : String) (shape : Shape) : Slot := (name, shape, none)

@[simp] def takes (name : String) (shape : Shape) (default : Json) : Slot := (name, shape, some default)

def noText : Json := .text ""

def noItems : Json := .array []

def noEntries : Json := .object []

def owner : Shape := .record [needs "kind" .plain, needs "name" .plain, takes "controller" .plain (.bool false)]

def metadata : Shape := .record
  [needs "name" .plain, needs "namespace" .plain, takes "labels" .plain noEntries,
   takes "owner_references" (.list owner) noItems, takes "resource_version" .plain (.integer 0),
   takes "deletion_timestamp" .plain .null]

def requirement : Shape := .record [needs "key" .plain, needs "operator" .plain, takes "values" .plain noItems]

def selector : Shape := .record
  [takes "match_labels" .plain noEntries, takes "match_expressions" (.list requirement) noItems]

def rolloutStatus : Shape := .record
  [takes "generation" .plain (.integer 0), takes "observed_generation" .plain (.integer 0),
   takes "replicas" .plain (.integer 0), takes "updated_replicas" .plain (.integer 0),
   takes "available_replicas" .plain (.integer 0), takes "total_replicas" .plain (.integer 0),
   takes "progress_deadline_exceeded" .plain (.bool false)]

def condition : Shape := .record
  [needs "kind" .plain, needs "status" .plain, takes "reason" .plain noText, takes "message" .plain noText,
   needs "last_transition_time" .plain]

def value : Shape := .record
  [needs "name" .plain, takes "value" .plain noText, takes "error" .plain .null, needs "attempts_remaining" .plain]

def patch : Shape := .record
  [needs "target" .plain, takes "patch" .plain .null, takes "wait" .plain (.bool false)]

def template : Shape := .record
  [takes "image" .plain noText, takes "image_pull_policy" .plain (.text "IfNotPresent"),
   takes "command" .plain noItems, takes "labels" .plain noEntries, takes "backoff_limit" .plain (.integer 0)]

def trialSpec : Shape := .record
  [takes "patch_operations" (.list patch) noItems, takes "values" (.list value) noItems,
   takes "start_time_offset" .plain .null, takes "target_namespace" .plain .null,
   takes "template" (.optional template) .null]

def trialStatus : Shape := .record
  [takes "phase" .plain noText, takes "conditions" (.list condition) noItems, takes "start_time" .plain .null,
   takes "completion_time" .plain .null]

def trial : Shape := .record
  [needs "metadata" metadata, takes "spec" trialSpec noEntries, takes "status" trialStatus noEntries]

def metric : Shape := .record
  [needs "name" .plain, needs "kind" .plain, takes "query" .plain noText, takes "error_query" .plain .null,
   takes "selector" selector noEntries, takes "port" .plain .null, takes "minimize" .plain (.bool false)]

def experimentBody : Shape := .record [takes "metrics" (.list metric) noItems]

def experiment : Shape := .record [needs "metadata" metadata, takes "spec" experimentBody noEntries]

def workloadCondition : Shape := .record
  [needs "kind" .plain, needs "status" .plain, takes "reason" .plain noText, takes "message" .plain noText]

def workloadStatus : Shape := .record
  [takes "start_time" .plain .null, takes "completion_time" .plain .null,
   takes "conditions" (.list workloadCondition) noItems]

def workloadBody : Shape := .record [takes "selector" selector noEntries, takes "template" template noEntries]

def workload : Shape := .record
  [needs "metadata" metadata, takes "spec" workloadBody noEntries, takes "status" workloadStatus noEntries]

def containerState : Shape := .tagged
  [("Waiting", .object [takes "reason" .plain noText]),
   ("Running", .object [needs "started_at" .plain]),
   ("Terminated", .object
     [needs "started_at" .plain, needs "finished_at" .plain, takes "exit_code" .plain (.integer 0),
      takes "reason" .plain noText])]

def executionUnit : Shape := .record
  [needs "metadata" metadata, takes "phase" .plain (.text "Pending"), takes "reason" .plain noText,
   takes "message" .plain noText, takes "containers" (.list containerState) noItems]

def serviceEndpoint : Shape := .record
  [needs "name" .plain, needs "namespace" .plain, takes "labels" .plain noEntries, needs "address" .plain,
   takes "ports" .plain noEntries]

end Shape

open Shape

/-! ## Defaults are read as the values to take -/

@[simp] theorem decode_false : (decode? (Json.bool false : Document) : Option Bool) = some false := (rfl)

@[simp] theorem decode_noText : (decode? (noText : Document) : Option String) = some "" := (rfl)

@[simp] theorem decode_zero64 : (decode? (Json.integer 0 : Document) : Option UInt64) = some 0 := (rfl)

@[simp] theorem decode_zero32 : (decode? (Json.integer 0 : Document) : Option UInt32) = some 0 := (rfl)

@[simp] theorem decode_zeroCode : (decode? (Json.integer 0 : Document) : Option Int32) = some 0 := (rfl)

@[simp] theorem decode_ifNotPresent :
    (decode? (Json.text "IfNotPresent" : Document) : Option PullPolicy) = some .ifNotPresent := (rfl)

@[simp] theorem decode_pending : (decode? (Json.text "Pending" : Document) : Option UnitPhase) = some .pending := (rfl)

@[simp] theorem decode_noItems {α : Type} [Form α] :
    (decode? (noItems : Document) : Option (List α)) = some [] := (rfl)

@[simp] theorem decode_noConditions : (decode? (noItems : Document) : Option Ledger) = some .empty := (rfl)

@[simp] theorem decode_noEntries {α : Type} [Form α] :
    (decode? (noEntries : Document) : Option (Table String α)) = some ∅ := (rfl)

@[simp] theorem decode_everything : (decode? (noEntries : Document) : Option Selector) = some .everything := (rfl)

@[simp] theorem decode_blank : (decode? (noEntries : Document) : Option Template) = some .blank := (rfl)

@[simp] theorem decode_emptySpec : (decode? (noEntries : Document) : Option TrialSpec) = some .empty := (rfl)

@[simp] theorem decode_emptyStatus : (decode? (noEntries : Document) : Option TrialStatus) = some .empty := (rfl)

@[simp] theorem decode_noMetrics : (decode? (noEntries : Document) : Option ExperimentBody) = some ⟨[]⟩ := (rfl)

@[simp] theorem decode_anyBody :
    (decode? (noEntries : Document) : Option WorkloadBody) = some ⟨.everything, .blank⟩ := (rfl)

@[simp] theorem decode_unstarted : (decode? (noEntries : Document) : Option WorkloadStatus) = some .empty := (rfl)

/-! ## Shaped forms -/

instance : ShapedForm Owner .owner where
  decode_fill d := by
    refine Document.record?_filled (fun es => ?_) d
    simp

instance : ShapedForm Metadata .metadata where
  decode_fill d := by
    refine Document.record?_filled (fun es => ?_) d
    simp

instance : ShapedForm Requirement .requirement where
  decode_fill d := by
    refine Document.record?_filled (fun es => ?_) d
    simp

instance : ShapedForm Selector .selector where
  decode_fill d := by
    refine Document.record?_filled (fun es => ?_) d
    simp

instance : ShapedForm RolloutStatus .rolloutStatus where
  decode_fill d := by
    refine Document.record?_filled (fun es => ?_) d
    simp

instance : ShapedForm Condition .condition where
  decode_fill d := by
    refine Document.record?_filled (fun es => ?_) d
    simp [Standing.ofRecord?]

instance : ShapedForm Value .value where
  decode_fill d := by
    refine Document.record?_filled (fun es => ?_) d
    simp

instance : ShapedForm Patch .patch where
  decode_fill d := by
    refine Document.record?_filled (fun es => ?_) d
    simp

instance : ShapedForm Template .template where
  decode_fill d := by
    refine Document.record?_filled (fun es => ?_) d
    simp

instance : ShapedForm TrialSpec .trialSpec where
  decode_fill d := by
    refine Document.record?_filled (fun es => ?_) d
    simp

instance {shape : Shape} [ShapedForm (List Condition) shape] : ShapedForm Ledger shape where
  decode_fill d := congrArg (Option.map Ledger.mk) (decode_fill d)

instance : ShapedForm TrialStatus .trialStatus where
  decode_fill d := by
    refine Document.record?_filled (fun es => ?_) d
    simp

instance : ShapedForm Trial .trial where
  decode_fill d := by
    refine Document.record?_filled (fun es => ?_) d
    simp

instance : ShapedForm Metric .metric where
  decode_fill d := by
    refine Document.record?_filled (fun es => ?_) d
    simp

instance : ShapedForm ExperimentBody .experimentBody where
  decode_fill d := by
    refine Document.record?_filled (fun es => ?_) d
    simp

instance : ShapedForm Experiment .experiment where
  decode_fill d := by
    refine Document.record?_filled (fun es => ?_) d
    simp

instance : ShapedForm WorkloadCondition .workloadCondition where
  decode_fill d := by
    refine Document.record?_filled (fun es => ?_) d
    simp [Standing.ofRecord?]

instance : ShapedForm WorkloadStatus .workloadStatus where
  decode_fill d := by
    refine Document.record?_filled (fun es => ?_) d
    simp

instance : ShapedForm WorkloadBody .workloadBody where
  decode_fill d := by
    refine Document.record?_filled (fun es => ?_) d
    simp

instance : ShapedForm Workload .workload where
  decode_fill d := by
    refine Document.record?_filled (fun es => ?_) d
    simp

instance : ShapedForm ContainerState .containerState where
  decode_fill d := by
    match d with
    | .object [(tag, d)] =>
      show decode? (Document.object [(tag, fillTagged _ tag d)]) = decode? (Document.object [(tag, d)])
      by_cases waiting : tag = "Waiting"
      · rw [waiting]
        refine Document.object?_filled (fun es => ?_) d
        simp
      by_cases running : tag = "Running"
      · rw [running]
        refine Document.object?_filled (fun es => ?_) d
        simp
      by_cases terminated : tag = "Terminated"
      · rw [terminated]
        refine Document.object?_filled (fun es => ?_) d
        simp
      · simp [decode?, fillTagged, waiting, running, terminated]
    | .object [] | .object (_ :: _ :: _) | .null | .bool _ | .integer _ | .float _ | .text _ | .array _
    | .repeated _ | .void => rfl

instance : ShapedForm ExecutionUnit .executionUnit where
  decode_fill d := by
    refine Document.record?_filled (fun es => ?_) d
    simp

instance : ShapedForm ServiceEndpoint .serviceEndpoint where
  decode_fill d := by
    refine Document.record?_filled (fun es => ?_) d
    simp

/-! ## Objects survive JSON -/

/-- Values of a form survive JSON, and its documents are read as their shape says. -/
structure SurvivesJson (α : Type) [Form α] (shape : Shape) : Prop where
  /-- A value that is written is read back. -/
  value (a : α) : decode? (encode a : Document) = some a
  /-- A value that is read, from whatever document, is written and read again as the same value. -/
  again (d : Document) (a : α) (read : decode? d = some a) : decode? (encode a : Document) = some a
  /-- A field that is left out reads as its default. -/
  defaults (d : Document) : (decode? (shape.fill d) : Option α) = decode? d

theorem SurvivesJson.of_lawful {α : Type} [Form α] [LawfulForm α] {shape : Shape} [ShapedForm α shape] :
    SurvivesJson α shape where
  value := decode_encode
  again _ a _ := decode_encode a
  defaults := decode_fill

theorem objects_survive_json :
    SurvivesJson Trial .trial ∧ SurvivesJson Experiment .experiment ∧ SurvivesJson Workload .workload ∧
      SurvivesJson ExecutionUnit .executionUnit ∧ SurvivesJson ServiceEndpoint .serviceEndpoint ∧
      SurvivesJson RolloutStatus .rolloutStatus ∧ SurvivesJson Selector .selector :=
  ⟨.of_lawful, .of_lawful, .of_lawful, .of_lawful, .of_lawful, .of_lawful, .of_lawful⟩

example : Shape.selector.fill (.object []) = .object [("match_labels", .object []), ("match_expressions", .array [])] :=
  rfl

example : decode? (.object [("metadata", .object [("name", .text "a"), ("namespace", .text "b")])]) =
    some (Trial.named "b" "a") := rfl

end TrialControl
