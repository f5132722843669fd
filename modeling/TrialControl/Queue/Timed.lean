import TrialControl.Queue.Basic

/-!
# Delayed requests

A request for a pass can be put off. The delay is counted from the end of a pass in whole
milliseconds, rounded up, and ends after thirty years at the latest; requests that are due are made in
the order of their times.
-/

namespace TrialControl

/-- What is to come at later times, the first that falls due in front. -/
structure Agenda (α : Type) where
  entries : List (Nat × α)
deriving DecidableEq, Inhabited

namespace Agenda

section
variable {α : Type}

def empty : Agenda α := ⟨[]⟩

/-- Places an entry behind all that fall due no later. -/
def place (due : Nat) (a : α) : List (Nat × α) → List (Nat × α)
  | [] => [(due, a)]
  | e :: es => if e.1 ≤ due then e :: place due a es else (due, a) :: e :: es

def add (agenda : Agenda α) (due : Nat) (a : α) : Agenda α := ⟨place due a agenda.entries⟩

def split (agenda : Agenda α) (now : Nat) : List α × Agenda α :=
  ((agenda.entries.takeWhile (·.1 ≤ now)).map (·.2), ⟨agenda.entries.dropWhile (·.1 ≤ now)⟩)

end

/-- Milliseconds until the end of a delay, thirty years of 365 days at most. -/
def wait (ms : Nat) : Nat := min ms 946_080_000_000

end Agenda

/-- A work queue with its delayed requests and a clock in milliseconds. -/
structure TimedQueue where
  queue : WorkQueue
  agenda : Agenda ObjectKey
  now : Nat
deriving DecidableEq, Inhabited

namespace TimedQueue

def empty : TimedQueue := ⟨.empty, .empty, 0⟩

def enqueue (t : TimedQueue) (key : ObjectKey) : TimedQueue := { t with queue := t.queue.enqueue key }

/-- Takes over a queue and puts off a request for a key if there is a delay. -/
def putOff (t : TimedQueue) (key : ObjectKey) (r : WorkQueue × Option Duration) : TimedQueue :=
  match r.2 with
  | some delay => { t with queue := r.1, agenda := t.agenda.add (t.now + Agenda.wait delay.ceilMillis) key }
  | none => { t with queue := r.1 }

def finish (t : TimedQueue) (settings : Settings) (key : ObjectKey) (outcome : Pass.Outcome) : TimedQueue :=
  t.putOff key (t.queue.finish settings key outcome)

def abandon (t : TimedQueue) (settings : Settings) (key : ObjectKey) : TimedQueue :=
  t.putOff key (t.queue.abandon settings key)

def fire (t : TimedQueue) : TimedQueue :=
  let (due, rest) := t.agenda.split t.now
  { t with queue := due.foldl WorkQueue.enqueue t.queue, agenda := rest }

/-- Moves the clock and makes the requests that fall due up to and including the new time. -/
def advance (t : TimedQueue) (ms : Nat) : TimedQueue := { t with now := t.now + ms }.fire

end TimedQueue

end TrialControl
