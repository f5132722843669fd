import TrialControl.Queue.Timed
import TrialControl.Rehearsal.Cast
import TrialControl.Store.Feed

/-!
# The run loop in virtual time

The loop, its passes and delayed requests take turns. Whoever has something to do stands in a line, and
does at its turn all that it can do at once; then it leaves until it is called again. The loop takes
keys from the work queue, and puts in keys for the changes that the store reports. When changes were
lost, and when it starts, it enqueues every trial. A pass needs one of a number of permits, which go
to the passes in the order in which they ask. Time moves only when it is advanced, and a probe is the
only thing in a pass that takes time.
-/

namespace TrialControl.Rehearsal

inductive LoopState where
  | unstarted
  /-- In line for its first turn. -/
  | starting
  | idle
  | called
  /-- The trials could not be listed at the start. -/
  | broken (e : Error)
deriving DecidableEq, Inhabited

inductive Turn where
  | loop
  /-- A pass asks for a permit. -/
  | arrive (key : ObjectKey)
  /-- A pass runs with its permit. -/
  | run (key : ObjectKey)
  | resume (key : ObjectKey) (rest : Plan Pass.Outcome)
  | delay (key : ObjectKey) (duration : Duration)
  | request (key : ObjectKey)

structure RunLoop where
  settings : Settings
  /-- The time that passes see. -/
  clock : Instant
  /-- How long a probe takes, in milliseconds. -/
  probeTime : Nat
  /-- Probes that are still to break down. -/
  breakdowns : Nat
  /-- Whether changes reach the loop. -/
  hearsChanges : Bool
  cast : Cast
  loop : LoopState := .unstarted
  queue : WorkQueue := .empty
  now : Nat := 0
  line : List Turn := []
  agenda : Agenda Turn := .empty
  /-- Changes read so far, or lost. -/
  heard : Nat := 0
  permits : Nat := settings.concurrency.toNat
  waiting : List ObjectKey := []
  /-- Passes that have ended since the loop last looked. -/
  ended : Nat := 0
  probing : Nat := 0
  /-- The most probes that ran at the same time. -/
  mostProbes : Nat := 0

namespace RunLoop

def store (r : RunLoop) : Store := r.cast.stage.store

def lineUp (r : RunLoop) (t : Turn) : RunLoop := { r with line := r.line ++ [t] }

/-! ## Calling the loop -/

def call (r : RunLoop) : RunLoop := if r.loop = .idle then { r with loop := .called }.lineUp .loop else r

/-- Replaces the queue, and calls the loop if there are new keys in it. -/
def withQueue (r : RunLoop) (queue : WorkQueue) : RunLoop :=
  let called := r.queue.channel.length < queue.channel.length
  let r := { r with queue }
  if called then r.call else r

/-- Replaces the cast, and calls the loop if the store has changed. -/
def withCast (r : RunLoop) (cast : Cast) : RunLoop :=
  let called := r.hearsChanges ∧ r.store.log.length < cast.stage.store.log.length
  let r := { r with cast }
  if called then r.call else r

def withStage (r : RunLoop) (stage : Stage) : RunLoop := r.withCast { r.cast with stage }

def enqueue (r : RunLoop) (key : ObjectKey) : RunLoop := r.withQueue (r.queue.enqueue key)

/-! ## Passes -/

/-- Gives back a permit, which goes to the pass that has waited longest. -/
def release (r : RunLoop) : RunLoop :=
  match r.waiting with
  | key :: rest => { r with waiting := rest }.lineUp (.run key)
  | [] => { r with permits := r.permits + 1 }

/-- Ends a pass; `result` is the queue without it and the delay of the next request. -/
def leave (r : RunLoop) (key : ObjectKey) (result : WorkQueue × Option Duration) : RunLoop :=
  let r := r.release.withQueue result.1
  let r := result.2.elim r fun duration => r.lineUp (.delay key duration)
  { r with ended := r.ended + 1 }.call

/-- Goes on with a pass until it ends or probes. -/
def go (key : ObjectKey) : Plan Pass.Outcome → RunLoop → RunLoop
  | .done outcome, r => r.leave key (r.queue.finish r.settings key outcome)
  | .ask call next, r =>
    if call matches .probe _ then
      if 0 < r.breakdowns then
        { r with breakdowns := r.breakdowns - 1 }.leave key (r.queue.abandon r.settings key)
      else
        let r := { r with mostProbes := max r.mostProbes (r.probing + 1) }
        if r.probeTime = 0 then
          let (answer, cast) := Cast.answer call r.cast
          go key (next answer) (r.withCast cast)
        else
          let finish := r.now + Agenda.wait r.probeTime
          { r with probing := r.probing + 1, agenda := r.agenda.add finish (.resume key (.ask call next)) }
    else
      let (answer, cast) := Cast.answer call r.cast
      go key (next answer) (r.withCast cast)

def resume (r : RunLoop) (key : ObjectKey) (rest : Plan Pass.Outcome) : RunLoop :=
  match rest with
  | .done outcome => go key (.done outcome) r
  | .ask call next =>
    let (answer, cast) := Cast.answer call r.cast
    go key (next answer) ({ r with probing := r.probing - 1 }.withCast cast)

/-! ## The loop -/

/-- Enqueues every trial, unless the trials cannot be listed. -/
def resync (r : RunLoop) : Option Error × RunLoop :=
  let (listed, stage) := r.cast.stage.read .listTrials fun store => .ok store.listTrials
  let r := { r with cast.stage := stage }
  match listed with
  | .ok trials => (none, trials.foldl (fun r t => r.enqueue t.key) r)
  | .error e => (some e, r)

/-- Takes in what the feed has next. A failure to list the trials after a loss is passed over. -/
def hear? (r : RunLoop) : Option RunLoop :=
  if !r.hearsChanges then none
  else
    let (news, heard) := r.store.listen r.heard
    let r := { r with heard }
    match news with
    | .nothing => none
    | .lost => some r.resync.2
    | .change c => some (c.trialKey?.elim r r.enqueue)

/-- What the loop does next: it starts the pass of a key, takes in a change, or looks at a pass that
has ended. -/
def serve? (r : RunLoop) : Option RunLoop :=
  match r.queue.receive? with
  | some (key, queue) =>
    let (started, queue) := queue.start key
    let r := { r with queue }
    some (if started then r.lineUp (.arrive key) else r)
  | none => r.hear?.or (if 0 < r.ended then some { r with ended := r.ended - 1 } else none)

/-- The rest of a turn of the loop. It calls itself when it enqueues keys for changes, and when it has
served so often that it leaves the rest for another turn. -/
def serve : Nat → Bool → RunLoop → RunLoop
  | 0, _, r => { r with loop := .idle }.call
  | budget + 1, again, r =>
    match r.serve? with
    | some next => serve budget (again || r.queue.channel.length < next.queue.channel.length) next
    | none => let r := { r with loop := .idle }; if again then r.call else r

def budget : Nat := 128

def begin (r : RunLoop) : RunLoop :=
  match { r with heard := r.store.log.length }.resync with
  | (none, r) => serve budget false r
  | (some e, r) => { r with loop := .broken e }

/-! ## Turns -/

def take (r : RunLoop) : Turn → RunLoop
  | .loop => if r.loop = .starting then r.begin else serve budget false r
  | .arrive key =>
    if 0 < r.permits then go key (reconcile r.settings key r.clock) { r with permits := r.permits - 1 }
    else { r with waiting := r.waiting ++ [key] }
  | .run key => go key (reconcile r.settings key r.clock) r
  | .resume key rest => r.resume key rest
  | .delay key duration =>
    if duration.isZero then r.enqueue key
    else { r with agenda := r.agenda.add (r.now + Agenda.wait duration.ceilMillis) (.request key) }
  | .request key => r.enqueue key

/-- Takes turns until nobody stands in line, a number of turns at most. -/
def settle : Nat → RunLoop → RunLoop
  | 0, r => r
  | turns + 1, r =>
    match r.line with
    | t :: rest => settle turns ({ r with line := rest }.take t)
    | [] => r

/-- Moves the clock and lines up the turns that have come, the first that falls due in front. -/
def moveTo (r : RunLoop) (time : Nat) : RunLoop :=
  let (due, agenda) := r.agenda.split time
  { r with line := r.line ++ due, agenda, now := time }

/-- Moves the clock from one time at which something falls due to the next, up to a last one. -/
def advanceTo (turns : Nat) (r : RunLoop) (finish : Nat) : RunLoop :=
  if r.now < finish then
    let settled := r.settle turns
    match settled.agenda.entries with
    | (time, _) :: _ =>
      if r.now < time ∧ time < finish then advanceTo turns (settled.moveTo time) finish
      else settled.moveTo finish
    | [] => settled.moveTo finish
  else r
termination_by finish - r.now
decreasing_by simp only [moveTo]; omega

/-- Moves the clock. What falls due at its end stands in line for the next move. -/
def advance (r : RunLoop) (turns ms : Nat) : RunLoop := r.advanceTo turns (r.now + ms)

def start (r : RunLoop) : RunLoop :=
  if r.loop = .unstarted then { r with loop := .starting }.lineUp .loop else r

/-- How the loop ends when it is told to stop; none if it was not started. -/
def stop (r : RunLoop) : Option (Except Error Unit) :=
  match (if r.loop = .starting then r.begin else r).loop with
  | .unstarted => none
  | .broken e => some (.error e)
  | _ => some (.ok ())

end RunLoop

end TrialControl.Rehearsal
