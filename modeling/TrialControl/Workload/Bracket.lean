import TrialControl.Trial.Basic
import TrialControl.Workload.Basic

/-!
# Time brackets

What the units of a workload show is the earliest start and the latest finish of their containers,
and the failures. A workload that reports a time which no unit shows yet is lagging, and then nothing
is concluded from it. The brackets of several workloads are absorbed into the times of a trial, which
narrow: the start moves forward, the completion backward.
-/

namespace TrialControl

structure Failure where
  reason : String
  message : String
deriving DecidableEq, Inhabited

structure Bracket where
  started : Option Instant
  finished : Option Instant
deriving DecidableEq, Inhabited

def Bracket.empty : Bracket := ⟨none, none⟩

inductive RunView where
  /-- The workload reports a time that its units do not show yet. -/
  | lagging
  | consistent (bracket : Bracket) (failures : List Failure)
deriving DecidableEq, Inhabited

/-! ## Folding times -/

/-- The earlier of two times, and whether it is the candidate that counts now. -/
def earliest (current candidate : Option Instant) : Option Instant × Bool :=
  match current, candidate with
  | none, some n => (some n, true)
  | some c, some n => if n < c then (some n, true) else (some c, false)
  | _, none => (current, false)

/-- A time moved by an offset, or unmoved where the sum is not representable. -/
def shifted (t : Instant) (offset : Option Duration) : Instant := (offset.bind t.later?).getD t

/-- The later of two times, and whether it is the candidate that counts now. The times are compared
before the offset is added, so a start that was taken with an offset is not taken again. -/
def latest (current candidate : Option Instant) (offset : Option Duration) : Option Instant × Bool :=
  match current, candidate with
  | none, some n => (some (shifted n offset), true)
  | some c, some n => if n ≤ c then (some c, false) else (some (shifted n offset), true)
  | _, none => (current, false)

/-- The status with its times narrowed by a bracket, and whether one changed. -/
def TrialStatus.absorb (s : TrialStatus) (b : Bracket) (offset : Option Duration) : TrialStatus × Bool :=
  let start := latest s.startTime b.started offset
  let finish := earliest s.completionTime b.finished
  ({ s with startTime := start.1, completionTime := finish.1 }, start.2 || finish.2)

/-! ## What units show -/

def Bracket.add (b : Bracket) (c : ContainerState) : Bracket :=
  ⟨(earliest b.started c.started?).1, (latest b.finished c.finished? none).1⟩

def Bracket.ofUnits (units : List ExecutionUnit) : Bracket :=
  (units.flatMap (·.containers)).foldl Bracket.add .empty

namespace Workload

/-- Failures, that of the workload itself first. Units that failed count even where the workload does
not reflect them. -/
def failures (w : Workload) (units : List ExecutionUnit) : List Failure :=
  (w.failure?.toList.map fun c => ⟨c.standing.reason, c.standing.message⟩) ++
    (units.filter (·.phase == .failed)).map fun u => ⟨u.reason, u.message⟩

def view (w : Workload) (units : List ExecutionUnit) : RunView :=
  let b := Bracket.ofUnits units
  if (b.started.isNone && w.status.startTime.isSome) || (b.finished.isNone && w.status.completionTime.isSome) then
    .lagging
  else .consistent b (w.failures units)

end Workload

end TrialControl
