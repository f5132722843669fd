import TrialControl.Pass.Observe
import TrialControl.Pass.Stabilize
import TrialControl.Settings
import TrialControl.Workload.Bracket
import TrialControl.Workload.Run

/-!
# Passes

A pass reads a trial, advances it by at most one transition and commits it. Transitions are, in this
order: a patch has settled or failed; nothing waits and the trial becomes stable; after a time of
grace the run workload is created; times and failures of run workloads are absorbed; a metric is
collected; the trial is complete. A commit that finds the trial changed since it was read is dropped,
and the pass asks to be repeated.
-/

namespace TrialControl

inductive Action where
  /-- Wait for a change. -/
  | done
  | requeue
  | requeueAfter (delay : Duration)
deriving DecidableEq, Inhabited

namespace Pass

abbrev Outcome := Except Error Action

/-- Stores a trial that was read with a specification, and ends with an action. -/
def commit (read : TrialSpec) (t : Trial) (action : Action) : Plan Outcome :=
  .ask (.updateTrial t.syncPhase (.toUpdate read t)) fun
    | .ok _ => .done (.ok action)
    | .error e => .done (if e.isConflict then .ok .requeue else .error e)

/-- Whether a trial that became stable has to stay so for some time yet. An end of the time of grace
that is not representable never comes. -/
def inGrace (grace : Duration) (since now : Instant) : Bool := (since.later? grace).all (now < ·)

/-- Creates the run workload of a trial, unless there is one by now. -/
def createRun (settings : Settings) (t : Trial) : Plan Outcome :=
  .ask (.createWorkload (t.runWorkload settings.workload)) fun
    | .ok _ => .done (.ok .done)
    | .error (.alreadyExists ..) => .done (.ok .requeue)
    | .error e => .done (.error e)

/-- The trial with what its run workload shows, and whether something changed. -/
def absorb (t : Trial) (b : Bracket) (failures : List Failure) (now : Instant) : Trial × Bool :=
  let (conditions, failed) := match failures.head? with
    | some f =>
      let standing := ⟨.true, f.reason, f.message⟩
      (t.status.conditions.record .failed standing now, t.status.conditions.changes .failed standing)
    | none => (t.status.conditions, false)
  let (status, moved) := { t.status with conditions }.absorb b t.spec.startOffset
  ({ t with status }, failed || moved)

def measure (read : TrialSpec) (t : Trial) (now : Instant) : Plan Outcome :=
  if t.status.completionTime.isNone then .done (.ok .done)
  else
    match t.experimentKey with
    | .error e => .done (.error e)
    | .ok key => .ask (.getExperiment key) fun
      | .error e => .done (.error e)
      | .ok experiment => (t.collect experiment.metrics now).bind fun
        | .changed t => commit read t .done
        | .delayed delay => .done (.ok (.requeueAfter delay))

/-- Absorbs what run workloads show, up to the first that changes the trial. -/
def follow (read : TrialSpec) (t : Trial) (now : Instant) : List Workload → Plan Outcome
  | [] => measure read t now
  | w :: ws => .ask (.listUnits w.metadata.ns w.selector) fun
    | .error e => .done (.error e)
    | .ok units =>
      match w.view units with
      | .lagging => .done (.ok .requeue)
      | .consistent b failures =>
        let (t, changed) := absorb t b failures now
        if changed then commit read t .done else follow read t now ws

/-- Finds the run workloads of a trial. Setup workloads are told apart by their role on the objects
found, so that a changed label cannot hide a run workload. -/
def discover (settings : Settings) (read : TrialSpec) (t : Trial) (now : Instant) : Plan Outcome :=
  .ask (.listWorkloads t.metadata.ns t.ownSelector) fun
    | .error e => .done (.error e)
    | .ok found =>
      match found.filter fun w => !w.isSetup with
      | [] => createRun settings t
      | ws => follow read t now ws

/-- Goes on with a trial of which no patch waits. -/
def advance (settings : Settings) (t : Trial) (now : Instant) : Plan Outcome :=
  if t.status.conditions.compare? .stable .true = some false then
    commit t.spec (t.record .stable (.plain .true) now) .done
  else if (t.status.conditions.find? .stable).any fun c => inGrace settings.grace c.since now then
    .done (.ok (.requeueAfter settings.grace))
  else if t.status.conditions.holds .patched .unknown then .done (.ok .done)
  else discover settings t.spec t now

/-- Goes on with a trial that is neither finished nor deleted. -/
def proceed (settings : Settings) (t : Trial) (now : Instant) : Plan Outcome :=
  (t.scan now).bind fun
    | .changed u => commit t.spec u .done
    | .waiting u delay => commit t.spec u (.requeueAfter delay)
    | .idle => advance settings t now

end Pass

def reconcile (settings : Settings) (key : ObjectKey) (now : Instant) : Plan Pass.Outcome :=
  .ask (.getTrial key) fun
    | .error e => .done (if e.isNotFound then .ok .done else .error e)
    | .ok t =>
      if t.isFinished || t.metadata.isDeleted then .done (.ok .done)
      else Pass.proceed settings t now

end TrialControl
