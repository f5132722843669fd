import TrialControl.Json.Basic
import TrialControl.Trial.Condition
import TrialControl.Trial.Value
import TrialControl.Workload.Template

/-!
# Trials

A trial is one attempt at running an experiment with one configuration: the patches that bring the
configuration about, the values collected, and a status. Its phase is a summary that follows from
conditions, times and patches.
-/

namespace TrialControl

/-- A change of an object of the cluster that a trial makes. -/
structure Patch where
  target : Target
  document : Json
  /-- Not yet seen to have settled. -/
  waits : Bool
deriving DecidableEq, Inhabited

def Patch.waiting (target : Target) : Patch := ⟨target, .null, true⟩

structure TrialSpec where
  patches : List Patch
  values : List Value
  /-- Added to an observed start, for instance for a warm-up. -/
  startOffset : Option Duration
  targetNs : Option String
  template : Option Template
deriving DecidableEq

def TrialSpec.empty : TrialSpec := ⟨[], [], none, none, none⟩

instance : Inhabited TrialSpec := ⟨.empty⟩

structure TrialStatus where
  /-- The text of the phase at the last commit. -/
  phase : String
  conditions : Ledger
  startTime : Option Instant
  completionTime : Option Instant
deriving DecidableEq

def TrialStatus.empty : TrialStatus := ⟨"", .empty, none, none⟩

instance : Inhabited TrialStatus := ⟨.empty⟩

structure Trial where
  metadata : Metadata
  spec : TrialSpec
  status : TrialStatus
deriving DecidableEq, Inhabited

inductive Phase where
  | new
  | stabilizing
  | stable
  | running
  | observing
  | failed
  | completed
deriving DecidableEq, Inhabited

def Phase.text : Phase → String
  | .new => "Created"
  | .stabilizing => "Stabilizing"
  | .stable => "Stable"
  | .running => "Running"
  | .observing => "Capturing Metrics"
  | .failed => "Failed"
  | .completed => "Completed"

namespace Patch

/-- Equality of content, see `Json.alike`. -/
def alike (p q : Patch) : Bool :=
  decide (p.target = q.target) && p.document.alike q.document && decide (p.waits = q.waits)

def alikeAll : List Patch → List Patch → Bool
  | [], [] => true
  | p :: ps, q :: qs => p.alike q && alikeAll ps qs
  | _, _ => false

@[simp] theorem alike_self (p : Patch) : p.alike p = true := by simp [alike]

@[simp] theorem alikeAll_self (ps : List Patch) : alikeAll ps ps = true := by
  induction ps with
  | nil => rfl
  | cons p ps ih => simp [alikeAll, ih]

end Patch

namespace TrialSpec

/-- Equality of content, see `Json.alike`. -/
def alike (s t : TrialSpec) : Bool :=
  Patch.alikeAll s.patches t.patches && decide ({ s with patches := [] } = { t with patches := [] })

@[simp] theorem alike_self (s : TrialSpec) : s.alike s = true := by simp [alike]

end TrialSpec

namespace Trial

def named (ns name : String) : Trial := ⟨.named ns name, .empty, .empty⟩

def key (t : Trial) : ObjectKey := t.metadata.key

def isFinished (t : Trial) : Bool :=
  t.status.conditions.holds .complete .true || t.status.conditions.holds .failed .true

def hasWaitingPatches (t : Trial) : Bool := t.spec.patches.any (·.waits)

/-- The name of the parent experiment: its label, else the first owner that is an experiment. -/
def experimentName? (t : Trial) : Option String :=
  ((t.metadata.label? Label.experiment).filter (· ≠ "")).or
    ((t.metadata.owners.find? (·.kind == "Experiment")).map (·.name))

def experimentKey (t : Trial) : Except Error ObjectKey :=
  match t.experimentName? with
  | some name => .ok ⟨t.metadata.ns, name⟩
  | none => .error (.missingExperiment t.key.text)

/-- The namespace of targets that are units. -/
def targetNs (t : Trial) : String := (t.spec.targetNs.filter (· ≠ "")).getD t.metadata.ns

def value? (t : Trial) (name : String) : Option Value := t.spec.values.find? (·.name == name)

def updateValue (t : Trial) (name : String) (f : Value → Value) : Trial :=
  { t with spec.values := Value.update name f t.spec.values }

def record (t : Trial) (kind : ConditionKind) (standing : Standing) (now : Instant) : Trial :=
  { t with status.conditions := t.status.conditions.record kind standing now }

def phase (t : Trial) : Phase :=
  let holds := t.status.conditions.holds
  if holds .failed .true then .failed
  else if holds .complete .true then .completed
  else if t.status.completionTime.isSome then .observing
  else if t.status.startTime.isSome then .running
  else if holds .stable .true then .stable
  else if t.hasWaitingPatches || (t.status.conditions.find? .stable).isSome then .stabilizing
  else .new

def syncPhase (t : Trial) : Trial := { t with status.phase := t.phase.text }

end Trial

end TrialControl
