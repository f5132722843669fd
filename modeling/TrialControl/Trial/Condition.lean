import TrialControl.Time.Instant

/-!
# Conditions

A trial keeps a ledger of conditions. Recording a condition of a new kind appends it; recording one of
a known kind changes the first entry of that kind, and moves its time only when status, reason or
message differ.
-/

namespace TrialControl

inductive ConditionKind where
  /-- Patched objects have settled. -/
  | stable
  /-- Patches have been applied. -/
  | patched
  /-- Metrics have been collected. -/
  | observed
  /-- The trial failed, for good when true. -/
  | failed
  /-- The trial finished, for good when true. -/
  | complete
deriving DecidableEq, Inhabited

inductive Truth where
  | true
  | false
  | unknown
deriving DecidableEq, Inhabited

structure Standing where
  status : Truth
  reason : String
  message : String
deriving DecidableEq, Inhabited

def Standing.plain (status : Truth) : Standing := ⟨status, "", ""⟩

structure Condition where
  kind : ConditionKind
  standing : Standing
  /-- When the standing last changed. -/
  since : Instant
deriving DecidableEq, Inhabited

/-- Conditions in order of their first record. -/
structure Ledger where
  entries : List Condition
deriving DecidableEq, Inhabited

namespace Ledger

def empty : Ledger := ⟨[]⟩

def recordIn (kind : ConditionKind) (standing : Standing) (now : Instant) : List Condition → List Condition
  | [] => [⟨kind, standing, now⟩]
  | c :: cs =>
    if c.kind = kind then (if c.standing = standing then c else { c with standing, since := now }) :: cs
    else c :: recordIn kind standing now cs

def find? (l : Ledger) (kind : ConditionKind) : Option Condition := l.entries.find? (·.kind == kind)

/-- Whether a condition has a status; none if it was never recorded. -/
def compare? (l : Ledger) (kind : ConditionKind) (status : Truth) : Option Bool :=
  (l.find? kind).map fun c => c.standing.status == status

def holds (l : Ledger) (kind : ConditionKind) (status : Truth) : Bool := (l.compare? kind status).getD false

def changes (l : Ledger) (kind : ConditionKind) (standing : Standing) : Bool :=
  (l.find? kind).all fun c => c.standing != standing

def record (l : Ledger) (kind : ConditionKind) (standing : Standing) (now : Instant) : Ledger :=
  ⟨recordIn kind standing now l.entries⟩

end Ledger

end TrialControl
