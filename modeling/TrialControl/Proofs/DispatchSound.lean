import TrialControl.Proofs.QueueStates

/-!
# One place for each key

In every run of the loop a key is in the channel or in the loop's hand exactly when it is queued, and
then once; it has a pass in flight exactly when it is running, and then one. So a received key can
always be started, and a pass always ends while its key is running.
-/

namespace TrialControl

/-- How often a key in a state is on its way to the loop, and how many passes it has in flight. -/
def KeyState.load : Option KeyState → Nat × Nat
  | none => (0, 0)
  | some .queued => (1, 0)
  | some (.running _) => (0, 1)

namespace Dispatch

def state? (t : Dispatch) (key : ObjectKey) : Option KeyState := t.queue.state? key

def onTheWay (t : Dispatch) (key : ObjectKey) : Nat := (t.queue.channel ++ t.hand).count key

def inFlight (t : Dispatch) (key : ObjectKey) : Nat := (t.flights.map (·.key)).count key

def load (t : Dispatch) (key : ObjectKey) : Nat × Nat := (t.onTheWay key, t.inFlight key)

/-- Every key is where its state says. -/
def Orderly (t : Dispatch) : Prop := ∀ key, t.load key = KeyState.load (t.state? key)

section
variable {t : Dispatch} (ordered : t.Orderly)
include ordered

theorem Orderly.queued_of_held {key : ObjectKey} (held : key ∈ t.hand) : t.state? key = some .queued := by
  have hk := congrArg Prod.fst (ordered key)
  have : 0 < t.onTheWay key := List.count_pos_iff.mpr (List.mem_append_right _ held)
  rcases hs : t.state? key with _ | _ | b
  · simp [hs, KeyState.load, load] at hk; omega
  · rfl
  · simp [hs, KeyState.load, load] at hk; omega

theorem Orderly.running_of_flight {f : Flight} (flies : f ∈ t.flights) :
    ∃ again, t.state? f.key = some (.running again) := by
  have hk := congrArg Prod.snd (ordered f.key)
  have : 0 < t.inFlight f.key := List.count_pos_iff.mpr (List.mem_map_of_mem flies)
  rcases hs : t.state? f.key with _ | _ | b
  · simp [hs, KeyState.load, load] at hk; omega
  · simp [hs, KeyState.load, load] at hk; omega
  · exact ⟨b, rfl⟩

theorem Orderly.mem_of_queued {key : ObjectKey} (queued : t.state? key = some .queued) :
    key ∈ t.queue.channel ++ t.hand := by
  have hk := congrArg Prod.fst (ordered key)
  rw [queued] at hk
  have : t.onTheWay key = 1 := hk
  exact List.count_pos_iff.mp (by unfold onTheWay at this; omega)

end

/-! ## Steps -/

section
variable (t : Dispatch) (key l : ObjectKey)

theorem onTheWay_request :
    (t.request key).onTheWay l = t.onTheWay l + if l = key ∧ t.state? key = none then 1 else 0 := by
  unfold onTheWay request
  simp only [WorkQueue.enqueue_channel]
  by_cases hs : t.queue.state? key = none
  · by_cases hl : l = key
    · subst hl; simp [hs, state?]; omega
    · simp [hs, hl, Ne.symm hl]
  · simp [hs, state?]

theorem state?_request :
    (t.request key).state? l = if l = key then some (KeyState.requested (t.state? key)) else t.state? l :=
  t.queue.enqueue_state? key l

theorem receive_eq {t : Dispatch} {key : ObjectKey} (next : t.queue.channel.head? = some key) :
    ∃ rest, t.queue.channel = key :: rest ∧
      t.receive = { t with queue := { t.queue with channel := rest }, hand := key :: t.hand } := by
  cases hc : t.queue.channel with
  | nil => rw [hc] at next; cases next
  | cons k rest =>
    rw [hc] at next
    obtain rfl : k = key := Option.some.inj next
    exact ⟨rest, rfl, by simp only [receive, WorkQueue.receive?, hc]⟩

theorem start_of_queued (queued : t.state? key = some .queued) :
    t.start key =
      ⟨{ t.queue with states := t.queue.states.insert key (.running false) }, t.hand.erase key,
        ⟨t.started, key⟩ :: t.flights, t.delayed, t.started + 1⟩ := by
  have h := WorkQueue.start_of_queued queued
  simp only [start, h]

theorem start_queue : (t.start key).queue = (t.queue.start key).2 := by
  unfold start
  rcases started : t.queue.start key with ⟨_ | _, queue⟩ <;> simp only [started]

theorem start_hand : (t.start key).hand = t.hand.erase key := by
  unfold start
  rcases started : t.queue.start key with ⟨_ | _, queue⟩ <;> simp only [started]

theorem start_delayed : (t.start key).delayed = t.delayed := by
  unfold start
  rcases started : t.queue.start key with ⟨_ | _, queue⟩ <;> simp only [started]

theorem inFlight_start :
    (t.start key).inFlight l = t.inFlight l + if (t.queue.start key).1 ∧ key = l then 1 else 0 := by
  unfold start
  rcases started : t.queue.start key with ⟨_ | _, queue⟩
  · simp [started, inFlight]
  · simp [started, inFlight, List.count_cons]

theorem close_eq (settings : Settings) (f : Flight) (ending : Option Pass.Outcome) :
    t.close settings f ending =
      { t with
        queue := (t.queue.finish settings f.key (PassGuard.outcome ending)).1
        flights := t.flights.erase f
        delayed := (t.queue.finish settings f.key (PassGuard.outcome ending)).2.toList.map (f.key, ·) ++
          t.delayed } := by
  unfold close
  rw [PassGuard.close_hold]

theorem inFlight_eq_erase {f : Flight} (flies : f ∈ t.flights) :
    t.inFlight l = ((t.flights.erase f).map (·.key)).count l + if f.key = l then 1 else 0 := by
  have h := ((List.perm_cons_erase flies).map (·.key)).count_eq l
  rw [List.map_cons, List.count_cons] at h
  unfold inFlight
  rw [h]
  by_cases hf : f.key = l <;> simp [hf]

end

theorem orderly_empty : empty.Orderly := by
  intro key
  rfl

variable {t u : Dispatch}

theorem Orderly.request (ordered : t.Orderly) (key : ObjectKey) : (t.request key).Orderly := by
  intro l
  have hl := ordered l
  have same : (t.request key).inFlight l = t.inFlight l := rfl
  rw [load, onTheWay_request, same, state?_request]
  by_cases h : l = key
  · subst h
    rw [load, Prod.mk.injEq] at hl
    rcases hs : t.state? l with _ | _ | b <;>
      simpa [hs, hl.1, KeyState.requested, KeyState.load] using hl
  · simpa [load, h] using hl

theorem Orderly.receive (ordered : t.Orderly) {key : ObjectKey} (next : t.queue.channel.head? = some key) :
    t.receive.Orderly := by
  obtain ⟨rest, hc, hr⟩ := receive_eq next
  intro l
  have moved : t.receive.onTheWay l = t.onTheWay l := by
    rw [hr]
    simp only [onTheWay, hc, List.count_append, List.count_cons]
    omega
  have same : t.receive.state? l = t.state? l := by rw [hr]; rfl
  have hl := ordered l
  rw [load] at hl ⊢
  rw [moved, same, hr]
  exact hl

theorem Orderly.start (ordered : t.Orderly) {key : ObjectKey} (held : key ∈ t.hand) : (t.start key).Orderly := by
  have queued := ordered.queued_of_held held
  rw [start_of_queued t key queued]
  intro l
  have hl := ordered l
  have hc : 0 < t.hand.count key := List.count_pos_iff.mpr held
  simp only [load, onTheWay, inFlight, state?, WorkQueue.state?, Table.get?_insert, List.map_cons, List.count_cons,
    List.count_append, List.count_erase] at hl ⊢
  by_cases h : l = key
  · subst h
    have hs : t.queue.states.get? l = some .queued := queued
    simp [hs, KeyState.load] at hl ⊢
    omega
  · have hk : (key == l) = false := by simpa using Ne.symm h
    simpa [h, hk] using hl

theorem Orderly.close (ordered : t.Orderly) {f : Flight} (flies : f ∈ t.flights) (settings : Settings)
    (ending : Option Pass.Outcome) : (t.close settings f ending).Orderly := by
  obtain ⟨again, running⟩ := ordered.running_of_flight flies
  rw [close_eq]
  intro l
  have hl := ordered l
  rw [load, t.inFlight_eq_erase l flies] at hl
  simp only [load, onTheWay, inFlight, state?, WorkQueue.finish_state? l running, WorkQueue.finish_channel running]
    at hl ⊢
  by_cases h : l = f.key
  · subst h
    have hs : t.queue.state? f.key = some (.running again) := running
    simp only [hs, KeyState.load, Prod.mk.injEq] at hl
    by_cases g : WorkQueue.goesOn again (PassGuard.outcome ending) = true <;>
      simp_all [KeyState.load, List.count_append]
  · have hk : ¬ f.key = l := fun e => h e.symm
    by_cases g : WorkQueue.goesOn again (PassGuard.outcome ending) = true <;>
      simp_all [List.count_append]

theorem Orderly.step {settings : Settings} {runtime : Bool} {e : Event} (ordered : t.Orderly)
    (step : Step settings runtime t e u) : u.Orderly := by
  cases step with
  | request key => exact ordered.request key
  | receive next => exact ordered.receive next
  | start held => exact ordered.start held
  | close flies ending => exact ordered.close flies settings ending
  | @fire r due => exact Orderly.request (t := t.lose r) ordered r.1
  | lose due gone => exact ordered

theorem Run.orderly {settings : Settings} {runtime : Bool} {h : List Event} (run : Run settings runtime h t) :
    t.Orderly := by
  induction run with
  | empty => exact orderly_empty
  | step _ step ih => exact ih.step step

/-! ## Passes are numbered -/

def Event.closes (n : Nat) : Event → Bool
  | .close f _ => f.number == n
  | _ => false

def endings (n : Nat) (h : List Event) : Nat := h.countP (Event.closes n)

structure Numbered (h : List Event) (t : Dispatch) : Prop where
  once : ∀ n, endings n h + (t.flights.map (·.number)).count n = if n < t.started then 1 else 0
  counted : t.queue.passes + t.flights.length = t.started

theorem enqueue_passes (q : WorkQueue) (key : ObjectKey) : (q.enqueue key).passes = q.passes := by
  unfold WorkQueue.enqueue
  split <;> rfl

theorem Numbered.start {h : List Event} (numbered : Numbered h t) {key : ObjectKey}
    (queued : t.state? key = some .queued) : Numbered (.start key :: h) (t.start key) := by
  rw [start_of_queued t key queued]
  refine ⟨fun n => ?_, ?_⟩
  · have hn := numbered.once n
    have same : endings n (.start key :: h) = endings n h := List.countP_cons_of_neg (by simp [Event.closes])
    simp only [same, List.map_cons, List.count_cons]
    by_cases e : n = t.started
    · subst e
      simp at hn ⊢
      omega
    · have : ¬ t.started = n := fun h => e h.symm
      simp only [beq_iff_eq, this, if_false, Nat.add_zero, hn]
      split <;> split <;> omega
  · have := numbered.counted
    simp only [List.length_cons]
    omega

theorem Numbered.close {h : List Event} (numbered : Numbered h t) {f : Flight} (flies : f ∈ t.flights)
    {again : Bool} (running : t.state? f.key = some (.running again)) (settings : Settings)
    (ending : Option Pass.Outcome) : Numbered (.close f ending :: h) (t.close settings f ending) := by
  have perm := List.perm_cons_erase flies
  rw [close_eq]
  refine ⟨fun n => ?_, ?_⟩
  · have hn := numbered.once n
    rw [(perm.map (·.number)).count_eq n, List.map_cons, List.count_cons] at hn
    unfold endings at hn ⊢
    rw [List.countP_cons]
    simp only [Event.closes]
    by_cases hb : f.number = n <;> simp [hb] at hn ⊢ <;> omega
  · have hp := WorkQueue.finish_passes running settings (PassGuard.outcome ending)
    have hl := perm.length_eq
    have hc := numbered.counted
    simp only [hp, List.length_cons] at hl ⊢
    omega

theorem Run.numbered {settings : Settings} {runtime : Bool} {h : List Event} (run : Run settings runtime h t) :
    Numbered h t := by
  induction run with
  | empty => exact ⟨fun n => by simp [endings, Dispatch.empty], rfl⟩
  | @step h t u e run step ih =>
    have quiet : ∀ n, e.closes n = false → endings n (e :: h) = endings n h := fun n hn =>
      List.countP_cons_of_neg (by simp [hn])
    cases step with
    | request key =>
      refine ⟨fun n => ?_, ?_⟩
      · rw [quiet n rfl]; exact ih.once n
      · simp only [Dispatch.request, enqueue_passes]; exact ih.counted
    | receive next =>
      obtain ⟨rest, -, hr⟩ := receive_eq next
      rw [hr]
      exact ⟨fun n => by rw [quiet n rfl]; exact ih.once n, ih.counted⟩
    | start held => exact ih.start (run.orderly.queued_of_held held)
    | close flies ending =>
      obtain ⟨again, running⟩ := run.orderly.running_of_flight flies
      exact ih.close flies running settings ending
    | fire due =>
      refine ⟨fun n => ?_, ?_⟩
      · rw [quiet n rfl]; exact ih.once n
      · simp only [fire, Dispatch.request, lose, enqueue_passes]; exact ih.counted
    | lose due gone => exact ⟨fun n => by rw [quiet n rfl]; exact ih.once n, ih.counted⟩

/-! ## The loop never meets a key twice -/

/-- A key is on its way to the loop at most once, and exactly when it is queued; it has a pass in
flight exactly when it is running, and then one; otherwise it has no state. So the loop can start
every key that it receives, and every pass that was started ends once, while its key is running. -/
theorem one_place_for_each_key {settings : Settings} {runtime : Bool} {h : List Event}
    (run : Run settings runtime h t) :
    (∀ key, t.onTheWay key ≤ 1 ∧ (t.onTheWay key = 1 ↔ t.state? key = some .queued) ∧
      t.inFlight key ≤ 1 ∧ (t.inFlight key = 1 ↔ ∃ again, t.state? key = some (.running again)) ∧
      (t.onTheWay key = 0 ∧ t.inFlight key = 0 ↔ t.state? key = none)) ∧
    (∀ key ∈ t.hand, t.state? key = some .queued ∧ (t.queue.start key).1 = true) ∧
    (∀ f ∈ t.flights, ∃ again, t.state? f.key = some (.running again)) ∧
    (∀ n, endings n h + (t.flights.map (·.number)).count n = if n < t.started then 1 else 0) ∧
    t.queue.passes + t.flights.length = t.started := by
  have ordered := run.orderly
  have numbered := run.numbered
  refine ⟨fun key => ?_, fun key held => ?_, fun f flies => ordered.running_of_flight flies, numbered.once,
    numbered.counted⟩
  · have hk := ordered key
    rw [load] at hk
    rcases hs : t.state? key with _ | _ | b <;> simp [hs, KeyState.load] at hk ⊢ <;> omega
  · have queued := ordered.queued_of_held held
    exact ⟨queued, congrArg Prod.fst (WorkQueue.start_of_queued queued)⟩

/-- A key that was asked for during a pass is queued once more after it, and can be started again. -/
theorem one_place_after_mark :
    let key : ObjectKey := ⟨"ns", "t1"⟩
    let t := ((((empty.request key).receive.start key).request key).close .standard ⟨0, key⟩
      (some (.ok .done))).receive
    Run .standard true [.receive key, .close ⟨0, key⟩ (some (.ok .done)), .request key, .start key, .receive key,
      .request key] t ∧ t.state? key = some .queued ∧ (t.queue.start key).1 = true := by
  intro key t
  have run : Run .standard true [.receive key, .close ⟨0, key⟩ (some (.ok .done)), .request key, .start key,
      .receive key, .request key] t := by
    refine .step (.step (.step (.step (.step (.step .empty (.request key)) (.receive ?_)) (.start ?_))
      (.request key)) (.close ?_ _)) (.receive ?_) <;> decide +kernel
  have held : key ∈ t.hand := by decide +kernel
  exact ⟨run, (one_place_for_each_key run).2.1 key held⟩

end Dispatch

end TrialControl
