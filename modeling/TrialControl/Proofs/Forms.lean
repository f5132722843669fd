import TrialControl.Form.Workload
import TrialControl.Proofs.Stamps

/-!
# Forms are read back

A form is lawful if reading gives back what was written. Lists, tables and options of lawful forms are
lawful, and a record is as soon as each of its fields is found again: `Document.get?_written` and
`Document.getOr?_written` find a field in the object of the fields written. An option is told from its
value only because no value of the types made optional is written as `null`.
-/

namespace TrialControl

class LawfulForm (α : Type) [Form α] : Prop where
  decode_encode (a : α) : decode? (encode a : Document) = some a

export LawfulForm (decode_encode)

attribute [simp] decode_encode

class SolidForm (α : Type) [Form α] : Prop where
  encode_ne_null (a : α) : encode a ≠ .null

/-! ## Fields of written objects -/

/-- The value written for a name; of two fields of one name the later counts. -/
@[simp] def Json.last? (name : String) : List (String × Json) → Option Json
  | [] => none
  | (n, j) :: fs => (last? name fs).or (if name = n then some j else none)

namespace Json

@[simp] theorem last?_append (name : String) (fs gs : List (String × Json)) :
    last? name (fs ++ gs) = (last? name gs).or (last? name fs) := by
  induction fs with
  | nil => simp
  | cons f fs ih => simp only [List.cons_append, last?, ih, Option.or_assoc]

@[simp] theorem last?_present {α : Type} [Form α] (name n : String) (o : Option α) :
    last? name (present n o) = if name = n then o.map encode else none := by
  cases o <;> simp [present]

theorem find_foldl_place (name : String) (fs es : List (String × Json)) :
    Table.find name (fs.foldl (fun es f => Table.place f.1 f.2 es) es) = (last? name fs).or (Table.find name es) := by
  induction fs generalizing es with
  | nil => rfl
  | cons f fs ih =>
    rw [List.foldl_cons, ih, Table.find_place, last?]
    cases last? name fs with
    | some j => rfl
    | none => by_cases same : name = f.1 <;> simp [same]

end Json

namespace Document

theorem find_ofFields (name : String) (fs : List (String × Json)) :
    Table.find name (ofFields fs) = (Table.find name fs).map ofJson := by
  induction fs with
  | nil => rfl
  | cons f fs ih =>
    simp only [ofFields, Table.find, ih]
    split <;> rfl

theorem field?_written (name : String) (fs : List (String × Json)) :
    (Json.ofFields fs : Document).field? name = (Json.last? name fs).map ofJson := by
  show Table.find name (ofFields _) = _
  rw [find_ofFields, Json.find_foldl_place]
  simp [Table.find]

theorem record?_written {α : Type} (fs : List (String × Json)) (names : List String) (read : Document → Option α) :
    (Json.ofFields fs : Document).record? names read = read (Json.ofFields fs) := rfl

section
variable {α : Type} [Form α] (name : String) (fs : List (String × Json))

@[simp] theorem get?_written :
    (Json.ofFields fs : Document).get? name =
      (decode? (((Json.last? name fs).map ofJson).getD .null) : Option α) := by
  rw [get?, field, field?_written]

@[simp] theorem getOr?_written (default : α) :
    (Json.ofFields fs : Document).getOr? name default =
      ((Json.last? name fs).map fun j => decode? (j : Document)).getD (some default) := by
  rw [getOr?, field?_written]
  cases Json.last? name fs <;> rfl

end

end Document

/-! ## Plain values -/

theorem Document.last?_ofJson {α : Type} (read : Document → Option α) (j : Json) :
    (j : Document).last? read = read j := by
  cases j <;> rfl

@[simp] theorem decode_ofJson (j : Json) : decode? (j : Document) = some j := by
  have single : (decode? (j : Document) : Option Json) = (j : Document).value? := by cases j <;> rfl
  rw [single, Document.value?_ofJson]

instance : LawfulForm Bool := ⟨fun _ => rfl⟩

instance : LawfulForm String := ⟨fun _ => rfl⟩

instance : SolidForm String := ⟨fun _ h => by cases h⟩

theorem Document.integerWithin?_map {α : Type} {least greatest i : Int} {read : Int → α} {a : α}
    (mem : least ≤ i ∧ i ≤ greatest) (same : read i = a) :
    ((Document.integer i).integerWithin? least greatest).map read = some a := by
  rw [integerWithin?, if_pos mem, Option.map_some, same]

instance : LawfulForm UInt64 where
  decode_encode n := by
    have bound := n.toNat_lt
    exact Document.integerWithin?_map (by omega) (by simp)

instance : LawfulForm UInt32 where
  decode_encode n := by
    have bound := n.toNat_lt
    exact Document.integerWithin?_map (by omega) (by simp)

instance : LawfulForm UInt16 where
  decode_encode n := by
    have bound := n.toNat_lt
    exact Document.integerWithin?_map (by omega) (by simp)

instance : LawfulForm Int32 where
  decode_encode n := by
    have least := n.le_toInt
    have greatest := n.toInt_lt
    exact Document.integerWithin?_map (by omega) (by simp)

/-! ## Options, lists and tables -/

section
variable {α : Type} [Form α]

theorem Document.ofJson_ne_null {j : Json} (solid : j ≠ .null) : (j : Document) ≠ .null := by
  cases j <;> simp [Document.ofJson] at solid ⊢

theorem decode_of_ne_null {d : Document} (solid : d ≠ .null) :
    (decode? d : Option (Option α)) = (decode? d : Option α).map some := by
  cases d with
  | null => exact absurd rfl solid
  | _ => rfl

variable [LawfulForm α]

instance [SolidForm α] : LawfulForm (Option α) where
  decode_encode o := by
    cases o with
    | none => rfl
    | some a =>
      have solid := Document.ofJson_ne_null (SolidForm.encode_ne_null a)
      exact (decode_of_ne_null solid).trans (congrArg (Option.map some) (decode_encode a))

@[simp] theorem decode_present [SolidForm α] (o : Option α) :
    decode? ((o.map (Document.ofJson ∘ encode)).getD .null) = some o := by
  cases o with
  | none => rfl
  | some a => exact decode_encode (some a)

theorem decode_items (as : List α) : (Document.ofItems (as.map encode)).mapM decode? = some as := by
  induction as with
  | nil => rfl
  | cons a as ih => simp [Document.ofItems, ih]

instance : LawfulForm (List α) := ⟨decode_items⟩

theorem decode_entries (es : List (String × α)) :
    ((Document.ofFields (es.map fun e => (e.1, encode e.2))).mapM fun f =>
      (Document.last? decode? f.2).map fun v => (f.1, v)) =
      some es := by
  induction es with
  | nil => rfl
  | cons e es ih => simp [Document.ofFields, Document.last?_ofJson, ih]

theorem Table.ofList_entries {ν : Type} (t : Table String ν) : Table.ofList t.entries = t := by
  refine Table.ext_get? fun k => ?_
  rw [ofList, Table.get?_foldl_insert t.ascending]
  exact Option.or_none

instance : LawfulForm (Table String α) where
  decode_encode t := by
    show Option.map Table.ofList (List.mapM _ (Document.ofFields _)) = _
    rw [decode_entries, Option.map_some, Table.ofList_entries]

end

/-! ## Times -/

instance : LawfulForm Instant := ⟨Instant.ofText?_text⟩

instance : SolidForm Instant := ⟨fun _ h => by cases h⟩

instance : LawfulForm Duration where
  decode_encode d := by
    have seconds : d.seconds.toNat = d.nanos / 1_000_000_000 := UInt64.toNat_ofNat_of_lt' (by have := d.fits; omega)
    have rest : d.subNanos.toNat = d.nanos % 1_000_000_000 := UInt32.toNat_ofNat_of_lt' (by show _ < 4294967296; omega)
    have whole : d.seconds.toNat * 1_000_000_000 + d.subNanos.toNat = d.nanos := by omega
    have secs : (encode d : Document).get? "secs" = some d.seconds := (Document.get?_written ..).trans (by simp)
    have nanos : (encode d : Document).get? "nanos" = some d.subNanos := (Document.get?_written ..).trans (by simp)
    refine (Document.record?_written ..).trans (bind_of_some secs (bind_of_some nanos ?_))
    rw [whole]
    refine (if_pos ?_).trans (dif_pos d.fits)
    have order : compare "nanos" "secs" = .lt := by decide
    simp [Table.place, order, Document.ofFields]

instance : SolidForm Duration := ⟨fun _ h => by cases h⟩

/-! ## Keys, metadata, selectors and rollouts -/

instance : LawfulForm Owner where
  decode_encode o := by
    refine (Document.record?_written ..).trans ?_
    simp

instance : LawfulForm Target where
  decode_encode t := by
    refine (Document.record?_written ..).trans ?_
    simp

instance : LawfulForm Metadata where
  decode_encode m := by
    refine (Document.record?_written ..).trans ?_
    simp

instance : LawfulForm Operator := ⟨fun o => by cases o <;> rfl⟩

instance : LawfulForm Requirement where
  decode_encode r := by
    refine (Document.record?_written ..).trans ?_
    simp

instance : LawfulForm Selector where
  decode_encode s := by
    refine (Document.record?_written ..).trans ?_
    simp

instance : LawfulForm RolloutStatus where
  decode_encode s := by
    refine (Document.record?_written ..).trans ?_
    simp

/-! ## Trials -/

instance : LawfulForm ConditionKind := ⟨fun k => by cases k <;> rfl⟩

instance : LawfulForm Truth := ⟨fun t => by cases t <;> rfl⟩

instance : LawfulForm Condition where
  decode_encode c := by
    refine (Document.record?_written ..).trans ?_
    simp [Standing.fields, Standing.ofRecord?]

instance : LawfulForm Ledger where
  decode_encode l := congrArg (Option.map Ledger.mk) (decode_encode l.entries)

instance : LawfulForm Value where
  decode_encode v := by
    refine (Document.record?_written ..).trans ?_
    simp

instance : LawfulForm Patch where
  decode_encode p := by
    refine (Document.record?_written ..).trans ?_
    simp

instance : LawfulForm PullPolicy := ⟨fun p => by cases p <;> rfl⟩

instance : LawfulForm Template where
  decode_encode t := by
    refine (Document.record?_written ..).trans ?_
    simp

instance : SolidForm Template := ⟨fun _ h => by cases h⟩

instance : LawfulForm TrialSpec where
  decode_encode s := by
    refine (Document.record?_written ..).trans ?_
    simp

instance : LawfulForm TrialStatus where
  decode_encode s := by
    refine (Document.record?_written ..).trans ?_
    simp

instance : LawfulForm Trial where
  decode_encode t := by
    refine (Document.record?_written ..).trans ?_
    simp

/-! ## Experiments -/

instance : LawfulForm MetricKind := ⟨fun k => by cases k <;> rfl⟩

instance : LawfulForm Metric where
  decode_encode m := by
    refine (Document.record?_written ..).trans ?_
    simp

instance : LawfulForm ExperimentBody where
  decode_encode b := by
    refine (Document.record?_written ..).trans ?_
    simp

instance : LawfulForm Experiment where
  decode_encode e := by
    refine (Document.record?_written ..).trans ?_
    simp

/-! ## Workloads, units and services -/

instance : LawfulForm WorkloadEnd := ⟨fun e => by cases e <;> rfl⟩

instance : LawfulForm WorkloadCondition where
  decode_encode c := by
    refine (Document.record?_written ..).trans ?_
    simp [Standing.fields, Standing.ofRecord?]

instance : LawfulForm WorkloadStatus where
  decode_encode s := by
    refine (Document.record?_written ..).trans ?_
    simp

instance : LawfulForm WorkloadBody where
  decode_encode b := by
    refine (Document.record?_written ..).trans ?_
    simp

instance : LawfulForm Workload where
  decode_encode w := by
    refine (Document.record?_written ..).trans ?_
    simp

instance : LawfulForm UnitPhase := ⟨fun p => by cases p <;> rfl⟩

instance : LawfulForm ContainerState where
  decode_encode s := by
    cases s with
    | waiting reason =>
      show Option.map _ ((Json.ofFields [("reason", encode reason)] : Document).getOr? "reason" "") = _
      simp
    | running started =>
      show Option.map _ ((Json.ofFields [("started_at", encode started)] : Document).get? "started_at") = _
      simp
    | terminated started finished exitCode reason =>
      let fields := [("started_at", encode started), ("finished_at", encode finished),
        ("exit_code", encode exitCode), ("reason", encode reason)]
      have first : (Json.ofFields fields : Document).get? "started_at" = some started :=
        (Document.get?_written ..).trans (by simp [fields])
      have last : (Json.ofFields fields : Document).get? "finished_at" = some finished :=
        (Document.get?_written ..).trans (by simp [fields])
      have code : (Json.ofFields fields : Document).getOr? "exit_code" 0 = some exitCode :=
        (Document.getOr?_written ..).trans (by simp [fields])
      have text : (Json.ofFields fields : Document).getOr? "reason" "" = some reason :=
        (Document.getOr?_written ..).trans (by simp [fields])
      exact bind_of_some first (bind_of_some last (bind_of_some code (bind_of_some text rfl)))

instance : LawfulForm ExecutionUnit where
  decode_encode u := by
    refine (Document.record?_written ..).trans ?_
    simp

instance : LawfulForm ServiceEndpoint where
  decode_encode s := by
    refine (Document.record?_written ..).trans ?_
    simp

end TrialControl
