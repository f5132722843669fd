import TrialControl.Queue.Guard

/-!
# The run loop as a system of steps

The loop receives keys from the work queue and starts their passes; passes run beside it and end in any
order, and requests come from any side at any time. A dispatch is the work queue together with what
the loop, the passes and the delayed requests hold. Everything that may happen to it is a step, and
the events of a run are listed with the newest first.
-/

namespace TrialControl

/-- A pass that was started and has not ended. -/
structure Flight where
  /-- Passes are numbered as they are started. -/
  number : Nat
  key : ObjectKey
deriving DecidableEq, Inhabited

structure Dispatch where
  queue : WorkQueue
  /-- Keys that the loop has received and not yet started. -/
  hand : List ObjectKey
  flights : List Flight
  /-- Requests that were put off, with their delays. -/
  delayed : List (ObjectKey × Duration)
  started : Nat
deriving DecidableEq

namespace Dispatch

def empty : Dispatch := ⟨.empty, [], [], [], 0⟩

instance : Inhabited Dispatch := ⟨empty⟩

inductive Event where
  | request (key : ObjectKey)
  | receive (key : ObjectKey)
  | start (key : ObjectKey)
  /-- A pass ends, with an outcome or given up without one. -/
  | close (flight : Flight) (ending : Option Pass.Outcome)
  | fire (key : ObjectKey)
  | lose (key : ObjectKey)

def request (t : Dispatch) (key : ObjectKey) : Dispatch := { t with queue := t.queue.enqueue key }

def receive (t : Dispatch) : Dispatch :=
  match t.queue.receive? with
  | some (key, queue) => { t with queue, hand := key :: t.hand }
  | none => t

/-- Starts the pass of a key in the loop's hand, unless one is running. -/
def start (t : Dispatch) (key : ObjectKey) : Dispatch :=
  let t := { t with hand := t.hand.erase key }
  match t.queue.start key with
  | (true, queue) => { t with queue, flights := ⟨t.started, key⟩ :: t.flights, started := t.started + 1 }
  | (false, queue) => { t with queue }

def close (t : Dispatch) (settings : Settings) (f : Flight) (ending : Option Pass.Outcome) : Dispatch :=
  let (queue, delays) := (PassGuard.hold f.key).close t.queue settings ending
  { t with queue, flights := t.flights.erase f, delayed := delays.map (f.key, ·) ++ t.delayed }

def lose (t : Dispatch) (r : ObjectKey × Duration) : Dispatch := { t with delayed := t.delayed.erase r }

def fire (t : Dispatch) (r : ObjectKey × Duration) : Dispatch := (t.lose r).request r.1

/-- One step; delayed requests are lost only where the runtime that was to make them goes away. -/
inductive Step (settings : Settings) (runtime : Bool) (t : Dispatch) : Event → Dispatch → Prop where
  | request (key : ObjectKey) : Step settings runtime t (.request key) (t.request key)
  | receive {key : ObjectKey} (next : t.queue.channel.head? = some key) :
      Step settings runtime t (.receive key) t.receive
  | start {key : ObjectKey} (held : key ∈ t.hand) : Step settings runtime t (.start key) (t.start key)
  | close {f : Flight} (flies : f ∈ t.flights) (ending : Option Pass.Outcome) :
      Step settings runtime t (.close f ending) (t.close settings f ending)
  | fire {r : ObjectKey × Duration} (due : r ∈ t.delayed) : Step settings runtime t (.fire r.1) (t.fire r)
  | lose {r : ObjectKey × Duration} (due : r ∈ t.delayed) (gone : runtime = false) :
      Step settings runtime t (.lose r.1) (t.lose r)

/-- The dispatch after a list of events. -/
inductive Run (settings : Settings) (runtime : Bool) : List Event → Dispatch → Prop where
  | empty : Run settings runtime [] empty
  | step {h : List Event} {t u : Dispatch} {e : Event} (run : Run settings runtime h t)
      (step : Step settings runtime t e u) : Run settings runtime (e :: h) u

end Dispatch

end TrialControl
