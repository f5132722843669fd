import TrialControl.Queue.Dispatch
import TrialControl.Store.Feed
import TrialControl.Store.Listing
import TrialControl.Store.Write

/-!
# The loop and the store it watches

The loop subscribes to the changes of a store and asks for a pass of every trial. Then it serves: it
starts passes, takes in one change after the other and asks for a pass of the trial that the change
concerns; when changes were lost, it asks for a pass of every trial again. Between any two of its steps
the store is written to, passes end, and requests come from other sides. What a step leaves in the past
are its moments, the newest first.
-/

namespace TrialControl

inductive LoopStage where
  | unsubscribed
  /-- The trials are to be listed, at the start or after a loss of changes. -/
  | listing
  /-- Listed trials, of which a pass is still to be asked for. -/
  | asking (rest : List ObjectKey)
  | serving
  | left
deriving DecidableEq, Inhabited

structure Watch where
  store : Store
  dispatch : Dispatch
  stage : LoopStage
  /-- Changes that the loop has taken in or that are lost to it, of all that were ever reported. -/
  heard : Nat
deriving DecidableEq

/-- What an event of the dispatch is up to the loop for. -/
def Dispatch.Event.isOfLoop : Dispatch.Event → Bool
  | .receive _ | .start _ => true
  | _ => false

namespace Watch

/-- A loop that was not started yet, beside an empty store. -/
def empty : Watch := ⟨.empty, .empty, .unsubscribed, 0⟩

instance : Inhabited Watch := ⟨empty⟩

inductive Moment where
  | sent (change : Change)
  /-- The loop subscribes while the store is as given. -/
  | subscribed (store : Store)
  | started (key : ObjectKey)

def Moment.ofEvent : Dispatch.Event → List Moment
  | .start key => [.started key]
  | _ => []

/-- Takes in what a feed has next. -/
def hear (listen : Store → Nat → News × Nat) (w : Watch) : Watch :=
  let (news, heard) := listen w.store w.heard
  match news with
  | .nothing => { w with heard }
  | .change c => { w with heard, dispatch := c.trialKey?.elim w.dispatch w.dispatch.request }
  | .lost => { w with heard, stage := .listing }

/-- The changes that a store has reported since an earlier one. -/
def reported (s u : Store) : List Change := u.log.take (u.log.length - s.log.length)

/-- One step; a write stores and reports at once. -/
inductive Step (listen : Store → Nat → News × Nat) (settings : Settings) (w : Watch) : List Moment → Watch → Prop where
  | write (change : Store.Write) :
      Step listen settings w ((reported w.store (w.store.after change)).map .sent)
        { w with store := w.store.after change }
  | subscribe (fresh : w.stage = .unsubscribed) :
      Step listen settings w [.subscribed w.store] { w with stage := .listing, heard := w.store.log.length }
  | list (due : w.stage = .listing) (walk : w.store.trials.Walk) :
      Step listen settings w [] { w with stage := .asking ((w.store.listTrials walk).map (·.key)) }
  | ask {key : ObjectKey} {rest : List ObjectKey} (next : w.stage = .asking (key :: rest)) :
      Step listen settings w [] { w with stage := .asking rest, dispatch := w.dispatch.request key }
  | serve (all : w.stage = .asking []) : Step listen settings w [] { w with stage := .serving }
  | hear (serves : w.stage = .serving) : Step listen settings w [] (w.hear listen)
  /-- The dispatch goes on; keys are received and passes started by the loop alone. -/
  | dispatch {e : Dispatch.Event} {u : Dispatch} (step : Dispatch.Step settings true w.dispatch e u)
      (serves : e.isOfLoop = true → w.stage = .serving) :
      Step listen settings w (Moment.ofEvent e) { w with dispatch := u }
  | leave (serves : w.stage = .serving) : Step listen settings w [] { w with stage := .left }

/-- The steps from the beginning, with their moments, the newest first. -/
inductive Run (listen : Store → Nat → News × Nat) (settings : Settings) : List Moment → Watch → Prop where
  | empty : Run listen settings [] empty
  | step {h moments : List Moment} {w v : Watch} (run : Run listen settings h w)
      (step : Step listen settings w moments v) : Run listen settings (moments ++ h) v

end Watch

end TrialControl
