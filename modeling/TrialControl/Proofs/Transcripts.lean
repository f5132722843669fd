import TrialControl.Pass.Observe

/-!
# Transcripts

A transcript holds what a plan has asked so far, each question with its answer, the latest first. It
tells what a pass has read, which delays its patches asked for, and how its attempt at a metric ended.
-/

namespace TrialControl

structure Exchange where
  call : Call
  answer : call.Answer

/-- The message of a patch that asks for more time, and the delay. -/
def Unsettled.request? : Except Unsettled Unit → Option (String × Duration)
  | .error e => e.retryDelay?.map fun d => (e.message, d)
  | .ok () => none

namespace Exchange

def trial? : Exchange → Option Trial
  | ⟨.getTrial _, .ok t⟩ => some t
  | _ => none

def workloads? : Exchange → Option (List Workload)
  | ⟨.listWorkloads .., .ok found⟩ => some found
  | _ => none

def experiment? : Exchange → Option Experiment
  | ⟨.getExperiment _, .ok e⟩ => some e
  | _ => none

def verdict? : Exchange → Option (Except Unsettled Unit)
  | ⟨.probe _, r⟩ => some r
  | _ => none

/-- The metric an attempt at which the exchange ends, and how: the target of the metric whose turn it is
was not found, or a capture came out. -/
def ending? (turn : Metric) : Exchange → Option (String × Except CaptureFailure Captured)
  | ⟨.listUnits .., .error e⟩ => some (turn.name, .error (.ofError e))
  | ⟨.listServices _, .error e⟩ => some (turn.name, .error (.ofError e))
  | ⟨.capture m .., r⟩ => some (m.name, r.bind (Captured.finite m.name))
  | _ => none

end Exchange

abbrev Transcript := List Exchange

namespace Transcript

def trial? (asked : Transcript) : Option Trial := asked.findSome? Exchange.trial?

/-- The run workloads that were found. -/
def runs (asked : Transcript) : List Workload :=
  ((asked.findSome? Exchange.workloads?).getD []).filter fun w => !w.isSetup

def experiment? (asked : Transcript) : Option Experiment := asked.findSome? Exchange.experiment?

/-- The metric an attempt at which the last exchange ended, and how. It was the turn of the first metric
of the experiment looked up that the trial read had no closed slot for. -/
def attempt? : Transcript → Option (String × Except CaptureFailure Captured)
  | [] => none
  | x :: asked => do
    let t ← trial? asked
    let e ← experiment? asked
    let m ← t.nextMetric? e.metrics
    x.ending? m

def verdicts (asked : Transcript) : List (Except Unsettled Unit) := asked.filterMap Exchange.verdict?

def requests (asked : Transcript) : List (String × Duration) := asked.verdicts.filterMap Unsettled.request?

def longestOf : List (String × Duration) → Option Duration
  | [] => none
  | (_, d) :: rest => if (longestOf rest).all (· < d) then some d else longestOf rest

def messagesOf : List (String × Duration) → List String
  | [] => []
  | (m, d) :: rest => if (longestOf rest).all (· < d) then messagesOf rest ++ [m] else messagesOf rest

def longest? (asked : Transcript) : Option Duration := longestOf asked.requests

/-- The messages with which a longer delay was asked for than any before, in order. -/
def messages (asked : Transcript) : List String := messagesOf asked.requests

/-- The last answer are the units of a run workload that was found. -/
structure Shows (asked : Transcript) (w : Workload) (units : List ExecutionUnit) : Prop where
  found : w ∈ asked.runs
  last : asked.head? = some ⟨.listUnits w.metadata.ns w.selector, .ok units⟩

variable {asked : Transcript} {x : Exchange}

theorem messagesOf_eq_nil {requests : List (String × Duration)} :
    messagesOf requests = [] ↔ longestOf requests = none := by
  induction requests with
  | nil => exact ⟨fun _ => rfl, fun _ => rfl⟩
  | cons r rest ih =>
    rw [messagesOf, longestOf]
    by_cases longer : (longestOf rest).all (· < r.2) = true
    · simp [longer]
    · simpa [longer] using ih

theorem messages_eq_nil : asked.messages = [] ↔ asked.longest? = none := messagesOf_eq_nil

theorem requests_of_verdicts {told : Transcript} (same : told.verdicts = asked.verdicts) :
    told.requests = asked.requests :=
  congrArg (List.filterMap Unsettled.request?) same

theorem mem_verdicts_of_last {p : Patch} {r : Except Unsettled Unit} (probed : asked.head? = some ⟨.probe p, r⟩) :
    r ∈ asked.verdicts :=
  List.mem_filterMap.mpr ⟨⟨.probe p, r⟩, List.mem_of_head? probed, rfl⟩

theorem requests_cons_probe (p : Patch) (r : Except Unsettled Unit) (asked : Transcript) :
    requests (⟨.probe p, r⟩ :: asked) = (Unsettled.request? r).toList ++ asked.requests := by
  have shows : Exchange.verdict? ⟨.probe p, r⟩ = some r := rfl
  unfold requests verdicts
  rw [List.filterMap_cons_some shows]
  cases h : Unsettled.request? r with
  | none => rw [List.filterMap_cons_none h]; rfl
  | some q => rw [List.filterMap_cons_some h]; rfl

theorem messages_cons_final (p : Patch) {r : Except Unsettled Unit} (final : Unsettled.request? r = none) :
    messages (⟨.probe p, r⟩ :: asked) = asked.messages := by
  unfold messages
  rw [requests_cons_probe p r asked, final]
  rfl

section
variable (p : Patch) {e : Unsettled} {d : Duration} (pending : e.retryDelay? = some d)
include pending

theorem requests_cons_pending : requests (⟨.probe p, .error e⟩ :: asked) = (e.message, d) :: asked.requests := by
  rw [requests_cons_probe p (.error e) asked]
  simp [Unsettled.request?, pending]

theorem messages_cons_pending : messages (⟨.probe p, .error e⟩ :: asked) =
    if asked.longest?.all (· < d) then asked.messages ++ [e.message] else asked.messages := by
  unfold messages longest?
  rw [requests_cons_pending p pending, messagesOf]

theorem longest?_cons_pending : longest? (⟨.probe p, .error e⟩ :: asked) =
    if asked.longest?.all (· < d) then some d else asked.longest? := by
  unfold longest?
  rw [requests_cons_pending p pending, longestOf]

end

theorem runs_cons (unlisted : x.workloads? = none) : runs (x :: asked) = asked.runs := by
  simp [runs, unlisted]

theorem attempt?_cons {t : Trial} {e : Experiment} {m : Metric} (read : asked.trial? = some t)
    (looked : asked.experiment? = some e) (next : t.nextMetric? e.metrics = some m) :
    attempt? (x :: asked) = x.ending? m := by
  simp [attempt?, read, looked, next]

theorem attempt?_cons_of_early (early : asked.experiment? = none) : attempt? (x :: asked) = none := by
  cases h : asked.trial? <;> simp [attempt?, h, early]

theorem attempt?_of_early (early : asked.experiment? = none) : asked.attempt? = none := by
  cases asked with
  | nil => rfl
  | cons x asked =>
    rw [experiment?, List.findSome?_eq_none_iff] at early
    refine attempt?_cons_of_early ?_
    rw [experiment?, List.findSome?_eq_none_iff]
    exact fun y hy => early y (List.mem_cons_of_mem x hy)

end Transcript

end TrialControl
