import TrialControl.Object.Key
import TrialControl.Time.Instant

/-!
# Object metadata

What every stored object carries: its identity, labels, owners, the version token that the store
assigns, and the time at which its deletion was requested.
-/

namespace TrialControl

abbrev Labels := Table String String

namespace Label

def experiment : String := "experiments.dev/experiment"

/-- Names the trial that a workload or unit belongs to. -/
def trial : String := "experiments.dev/trial"

/-- Tells run workloads and setup workloads apart. -/
def role : String := "experiments.dev/trial-role"

def setupRole : String := "trialSetup"

def runRole : String := "trialRun"

end Label

structure Owner where
  kind : String
  name : String
  /-- Whether the owner manages the lifecycle of the object. -/
  controller : Bool
deriving DecidableEq, Inhabited

/-- An object of the cluster that a patch changes. -/
structure Target where
  kind : String
  ns : String
  name : String
deriving DecidableEq, Inhabited

namespace Target

instance : Ord Target :=
  ⟨compareLex (compareOn Target.kind) (compareLex (compareOn Target.ns) (compareOn Target.name))⟩

instance : Std.TransOrd Target := inferInstanceAs
  (Std.TransCmp (compareLex (compareOn Target.kind) (compareLex (compareOn Target.ns) (compareOn Target.name))))

theorem compare_def (a b : Target) :
    compare a b = (compare a.kind b.kind).then ((compare a.ns b.ns).then (compare a.name b.name)) := rfl

instance : Std.LawfulEqOrd Target where
  eq_of_compare {a b} h := by
    rw [compare_def, Ordering.then_eq_eq, Ordering.then_eq_eq, Std.compare_eq_iff_eq, Std.compare_eq_iff_eq,
      Std.compare_eq_iff_eq] at h
    cases a; cases b; simp_all

def text (t : Target) : String := t.kind ++ " " ++ t.ns ++ "/" ++ t.name

end Target

structure Metadata where
  name : String
  ns : String
  labels : Labels
  owners : List Owner
  version : UInt64
  deletedAt : Option Instant
deriving DecidableEq, Inhabited

namespace Metadata

def named (ns name : String) : Metadata := ⟨name, ns, ∅, [], 0, none⟩

def key (m : Metadata) : ObjectKey := ⟨m.ns, m.name⟩

def label? (m : Metadata) (key : String) : Option String := m.labels.get? key

def isDeleted (m : Metadata) : Bool := m.deletedAt.isSome

def managingOwner? (m : Metadata) (kind : String) : Option Owner :=
  m.owners.find? fun o => o.controller && o.kind == kind

end Metadata

end TrialControl
