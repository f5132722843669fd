import Mathlib.Logic.Relation
import TrialControl.Proofs.Performances
import TrialControl.Proofs.WatchSound
import TrialControl.Rehearsal.RunLoop

/-!
# What a watch shows of the run loop

A watch shows a run loop when it has its store, its work queue and its place in the feed, a flight for each
of its passes and a delayed request for each that was put off. A turn of the loop takes the watch through
steps to one that shows what the loop has come to.
-/

namespace TrialControl

namespace Watch

def Leads (listen : Store → Nat → News × Nat) (settings : Settings) : Watch → Watch → Prop :=
  Relation.ReflTransGen fun w v => ∃ moments, Step listen settings w moments v

variable {listen : Store → Nat → News × Nat} {settings : Settings} {u v w : Watch} {h moments : List Moment}

theorem Step.leads (step : Step listen settings w moments v) : Leads listen settings w v := .single ⟨moments, step⟩

theorem Run.leads (run : Run listen settings h w) (leads : Leads listen settings w v) :
    ∃ later, Run listen settings (later ++ h) v := by
  induction leads with
  | refl => exact ⟨[], run⟩
  | tail _ last ih =>
    obtain ⟨later, run⟩ := ih
    obtain ⟨moments, step⟩ := last
    exact ⟨moments ++ later, List.append_assoc .. ▸ run.step step⟩

theorem Run.written (run : Run listen settings h w) (writes : List Store.Write) :
    ∃ later, Run listen settings later { w with store := writes.foldl Store.after w.store } := by
  induction writes generalizing h w with
  | nil => exact ⟨h, run⟩
  | cons change writes ih => exact ih (run.step (.write change))

end Watch

namespace Rehearsal

open Watch (Leads)

inductive Errand where
  | pass (key : ObjectKey)
  | request (key : ObjectKey)
deriving DecidableEq

def Turn.errand? : Turn → Option Errand
  | .arrive key | .run key | .resume key _ => some (.pass key)
  | .delay key _ | .request key => some (.request key)
  | .loop => none

namespace RunLoop

def toCome (r : RunLoop) (e : Errand) : Nat :=
  (r.line.filterMap Turn.errand?).count e + (r.agenda.entries.filterMap (·.2.errand?)).count e +
    (r.waiting.map Errand.pass).count e

/-- What a watch shows of a run loop with a still cast. The active errands have their turn. -/
structure ShownBy (settings : Settings) (active : List Errand) (r : RunLoop) (w : Watch) : Prop where
  still : r.cast.Still
  settings : r.settings = settings
  store : w.store = r.store
  queue : w.dispatch.queue = r.queue
  heard : w.heard = r.heard
  /-- Between its moves the loop holds no key. -/
  hand : w.dispatch.hand = []
  flights : ∀ key, w.dispatch.inFlight key = active.count (.pass key) + r.toCome (.pass key)
  delayed : ∀ key, (w.dispatch.delayed.map (·.1)).count key = active.count (.request key) + r.toCome (.request key)

def Follows (settings : Settings) (active : List Errand) (stage : LoopStage) (u : RunLoop) (w : Watch) : Prop :=
  ∃ v, Leads Store.listen settings w v ∧ u.ShownBy settings active v ∧ v.stage = stage

variable {settings : Settings} {active : List Errand} {reached : LoopStage} {key : ObjectKey}
variable {r u : RunLoop} {w v : Watch} {h : List Watch.Moment}

theorem Follows.after (leads : Leads Store.listen settings w v) (follows : u.Follows settings active reached v) :
    u.Follows settings active reached w := by
  obtain ⟨last, rest, shown⟩ := follows
  exact ⟨last, leads.trans rest, shown⟩

theorem ShownBy.follows (shown : r.ShownBy settings active w) : r.Follows settings active w.stage w :=
  ⟨w, .refl, shown, rfl⟩

theorem Follows.ite {r u : RunLoop} {c : Prop} [Decidable c] (yes : r.Follows settings active reached w)
    (no : u.Follows settings active reached w) : (if c then r else u).Follows settings active reached w := by
  split
  · exact yes
  · exact no

theorem ShownBy.alike {others : List Errand} (shown : r.ShownBy settings active w) (cast : u.cast = r.cast)
    (same : u.settings = r.settings) (queue : u.queue = r.queue) (heard : u.heard = r.heard)
    (errands : ∀ e, others.count e + u.toCome e = active.count e + r.toCome e) : u.ShownBy settings others w where
  still := cast ▸ shown.still
  settings := same.trans shown.settings
  store := shown.store.trans (congrArg (·.stage.store) cast.symm)
  queue := shown.queue.trans queue.symm
  heard := shown.heard.trans heard.symm
  hand := shown.hand
  flights key := by rw [shown.flights, errands]
  delayed key := by rw [shown.delayed, errands]

theorem ShownBy.lineUp {t : Turn} (shown : r.ShownBy settings (t.errand?.toList ++ active) w) :
    (r.lineUp t).ShownBy settings active w := by
  refine shown.alike rfl rfl rfl rfl fun e => ?_
  simp only [toCome, RunLoop.lineUp, List.filterMap_append, List.count_append]
  cases errand : t.errand? <;> simp [errand]
  omega

theorem place_perm {α : Type} (due : Nat) (a : α) (es : List (Nat × α)) :
    (Agenda.place due a es).Perm ((due, a) :: es) := by
  induction es with
  | nil => exact .refl _
  | cons e es ih =>
    unfold Agenda.place
    split
    · exact (ih.cons e).trans (.swap ..)
    · exact .refl _

theorem ShownBy.putOff {t : Turn} (due : Nat) (shown : r.ShownBy settings (t.errand?.toList ++ active) w) :
    ShownBy settings active { r with agenda := r.agenda.add due t } w := by
  refine shown.alike rfl rfl rfl rfl fun e => ?_
  have placed := ((place_perm due t r.agenda.entries).filterMap (·.2.errand?)).count_eq e
  simp only [toCome, Agenda.add, List.count_append, placed]
  cases errand : t.errand? <;> simp [errand, List.count_cons]
  omega

theorem ShownBy.takeTurn {t : Turn} {rest : List Turn} (shown : r.ShownBy settings active w)
    (line : r.line = t :: rest) : ShownBy settings (t.errand?.toList ++ active) { r with line := rest } w := by
  refine shown.alike rfl rfl rfl rfl fun e => ?_
  simp only [toCome, line, List.count_append]
  cases errand : t.errand? <;> simp [errand, List.count_cons]
  omega

theorem ShownBy.call (shown : r.ShownBy settings active w) : r.call.ShownBy settings active w := by
  unfold RunLoop.call
  split
  · have called : ShownBy settings active { r with loop := .called } w := shown.alike rfl rfl rfl rfl fun _ => rfl
    exact called.lineUp
  · exact shown

theorem ShownBy.staged (shown : r.ShownBy settings active w) (stage : LoopStage) :
    r.ShownBy settings active { w with stage } :=
  ⟨shown.still, shown.settings, shown.store, shown.queue, shown.heard, shown.hand, shown.flights, shown.delayed⟩

theorem ShownBy.idle (shown : r.ShownBy settings active w) : ShownBy settings active { r with loop := .idle } w :=
  shown.alike rfl rfl rfl rfl fun _ => rfl

theorem ShownBy.withQueue {queue : WorkQueue} (shown : ShownBy settings active { r with queue } w) :
    (r.withQueue queue).ShownBy settings active w := by
  unfold RunLoop.withQueue
  dsimp only
  split
  · exact shown.call
  · exact shown

theorem ShownBy.enqueue (shown : r.ShownBy settings active w) (key : ObjectKey) :
    (r.enqueue key).ShownBy settings active { w with dispatch := w.dispatch.request key } := by
  have queue : w.dispatch.queue.enqueue key = r.queue.enqueue key := by rw [shown.queue]
  exact .withQueue ⟨shown.still, shown.settings, shown.store, queue, shown.heard, shown.hand, shown.flights,
    shown.delayed⟩

/-! ## Listing -/

theorem ShownBy.asking {trials : List Trial} (shown : r.ShownBy settings active w)
    (stage : w.stage = .asking (trials.map (·.key))) :
    (trials.foldl (fun r t => r.enqueue t.key) r).Follows settings active .serving w := by
  induction trials generalizing r w with
  | nil => exact ⟨_, (Watch.Step.serve stage).leads, shown.staged .serving, rfl⟩
  | cons t trials ih =>
    have asked := (shown.enqueue t.key).staged (.asking (trials.map (·.key)))
    exact (ih asked rfl).after (Watch.Step.ask stage).leads

theorem ShownBy.resync (shown : r.ShownBy settings active w) (due : w.stage = .listing) :
    r.resync.1 = none ∧ r.resync.2.Follows settings active .serving w := by
  have listed : r.resync = (none, r.store.listTrials.foldl (fun r t => r.enqueue t.key) r) := by
    unfold RunLoop.resync
    rw [Stage.read_faultless shown.still.faultless]
    rfl
  rw [listed]
  have asking := (shown.staged (.asking (w.store.listTrials.map (·.key)))).asking (by rw [shown.store])
  exact ⟨rfl, asking.after (Watch.Step.list due w.store.trials.inOrder).leads⟩

/-! ## Serving -/

theorem ShownBy.hear (shown : r.ShownBy settings active w) (serves : w.stage = .serving) (next : r.hear? = some u) :
    u.Follows settings active .serving w := by
  have step : Watch.Step Store.listen settings w [] (w.hear Store.listen) := .hear serves
  have told : w.store.listen w.heard = r.store.listen r.heard := by rw [shown.store, shown.heard]
  unfold Watch.hear at step
  rw [told] at step
  unfold hear? at next
  split at next
  · cases next
  · generalize r.store.listen r.heard = answer at step next
    obtain ⟨news, heard⟩ := answer
    have later : ShownBy settings active { r with heard } { w with heard } :=
      ⟨shown.still, shown.settings, shown.store, shown.queue, rfl, shown.hand, shown.flights, shown.delayed⟩
    cases news with
    | nothing => cases next
    | lost =>
      cases next
      exact ((later.staged .listing).resync rfl).2.after step.leads
    | change c =>
      cases next
      refine ⟨_, step.leads, ?_, serves⟩
      dsimp only
      cases c.trialKey? with
      | none => exact later
      | some key => exact later.enqueue key

theorem ShownBy.started (shown : r.ShownBy settings active w) (serves : w.stage = .serving) {queue : WorkQueue}
    (next : r.queue.receive? = some (key, queue)) :
    Follows settings active .serving
      (if (queue.start key).1 then { r with queue := (queue.start key).2 }.lineUp (.arrive key)
        else { r with queue := (queue.start key).2 }) w := by
  have head : w.dispatch.queue.channel.head? = some key := by
    rw [shown.queue]
    unfold WorkQueue.receive? at next
    cases channel : r.queue.channel with
    | nil => rw [channel] at next; cases next
    | cons k rest => rw [channel] at next; cases next; rfl
  have received : w.dispatch.receive = { w.dispatch with queue, hand := [key] } := by
    unfold Dispatch.receive
    rw [shown.queue, next, shown.hand]
  have held : key ∈ w.dispatch.receive.hand := received ▸ List.mem_singleton.mpr rfl
  have take : Watch.Step Store.listen settings w [] { w with dispatch := w.dispatch.receive } :=
    .dispatch (.receive head) fun _ => serves
  have start : Watch.Step Store.listen settings { w with dispatch := w.dispatch.receive } [.started key]
      { w with dispatch := w.dispatch.receive.start key } := .dispatch (.start held) fun _ => serves
  have begun : ShownBy settings ((if (queue.start key).1 then [.pass key] else []) ++ active)
      { r with queue := (queue.start key).2 } { w with dispatch := w.dispatch.receive.start key } := by
    refine ⟨shown.still, shown.settings, shown.store, ?_, shown.heard, ?_, fun l => ?_, fun l => ?_⟩
    · rw [Dispatch.start_queue, received]
    · rw [Dispatch.start_hand, received]
      exact List.erase_cons_head ..
    · rw [Dispatch.inFlight_start, received]
      show w.dispatch.inFlight l + _ = _ + r.toCome (.pass l)
      rw [shown.flights]
      cases (queue.start key).1 with
      | false => simp
      | true =>
        simp [List.count_cons]
        omega
    · rw [Dispatch.start_delayed, received]
      show (w.dispatch.delayed.map (·.1)).count l = _ + r.toCome (.request l)
      rw [shown.delayed]
      cases (queue.start key).1 <;> simp
  refine ⟨_, take.leads.trans start.leads, ?_, serves⟩
  split at begun
  · next starts =>
    rw [if_pos starts]
    exact begun.lineUp
  · next goes =>
    rw [if_neg goes]
    exact begun

theorem ShownBy.serves (shown : r.ShownBy settings active w) (serves : w.stage = .serving)
    (next : r.serve? = some u) : u.Follows settings active .serving w := by
  unfold serve? at next
  split at next
  · next key queue received =>
    cases next
    exact shown.started serves received
  · cases heard : r.hear? with
    | some t =>
      rw [heard] at next
      cases next
      exact shown.hear serves heard
    | none =>
      -- a pass that has ended is looked at, which the watch does not show
      rw [heard, Option.none_or] at next
      split at next
      · cases next
        exact ⟨w, .refl, shown.alike rfl rfl rfl rfl fun _ => rfl, serves⟩
      · cases next

theorem ShownBy.serve (budget : Nat) (again : Bool) (shown : r.ShownBy settings active w)
    (serves : w.stage = .serving) :
    (RunLoop.serve budget again r).Follows settings active .serving w := by
  induction budget generalizing again r w with
  | zero => exact ⟨w, .refl, shown.idle.call, serves⟩
  | succ budget ih =>
    unfold RunLoop.serve
    split
    · next u next =>
      obtain ⟨v, leads, after, serving⟩ := shown.serves serves next
      exact (ih (again || r.queue.channel.length < u.queue.channel.length) after serving).after leads
    · refine ⟨w, .refl, ?_, serves⟩
      dsimp only
      split
      · exact shown.idle.call
      · exact shown.idle

theorem ShownBy.begin (shown : r.ShownBy settings active w) (fresh : w.stage = .unsubscribed) :
    r.begin.Follows settings active .serving w := by
  have subscribed : ShownBy settings active { r with heard := r.store.log.length }
      { w with stage := .listing, heard := w.store.log.length } :=
    ⟨shown.still, shown.settings, shown.store, shown.queue, congrArg (·.log.length) shown.store, shown.hand,
      shown.flights, shown.delayed⟩
  obtain ⟨listed, v, asked, after, serving⟩ := subscribed.resync rfl
  unfold RunLoop.begin
  generalize ({ r with heard := r.store.log.length } : RunLoop).resync = answer at listed after ⊢
  obtain ⟨failure, u⟩ := answer
  obtain rfl : failure = none := listed
  have served := (after.serve budget false serving).after asked
  exact served.after (Watch.Step.subscribe fresh).leads

end RunLoop
end Rehearsal

end TrialControl
