import TrialControl.Proofs.LoopShown

/-!
# The run loop takes the steps of the watch

Whatever turn is taken, of the loop, of a pass or of a request that was put off, takes the watch that shows
the run loop through steps to one that shows what has come of it. So while time goes on the watch makes a
run, and the loop misses no change.
-/

namespace TrialControl.Rehearsal.RunLoop

variable {settings : Settings} {active : List Errand} {reached : LoopStage} {key : ObjectKey}
variable {r u : RunLoop} {w v : Watch} {h : List Watch.Moment}

/-! ## Passes -/

theorem ShownBy.release (shown : r.ShownBy settings active w) : r.release.ShownBy settings active w := by
  unfold RunLoop.release
  split
  · next key rest waits =>
    have called : ShownBy settings (.pass key :: active) { r with waiting := rest } w := by
      refine shown.alike rfl rfl rfl rfl fun e => ?_
      simp only [toCome, waits, List.map_cons, List.count_cons]
      omega
    exact called.lineUp
  · exact shown.alike rfl rfl rfl rfl fun _ => rfl

theorem ShownBy.counted (shown : r.ShownBy settings active w) (ended : Nat) :
    ShownBy settings active { r with ended } w :=
  shown.alike rfl rfl rfl rfl fun _ => rfl

theorem ShownBy.closed {f : Flight} (shown : r.ShownBy settings (.pass f.key :: active) w)
    (flies : f ∈ w.dispatch.flights) (queue : WorkQueue) (delays : List Duration) :
    ShownBy settings (delays.map (fun _ => .request f.key) ++ active) { r with queue }
      { w with
        dispatch := { w.dispatch with
          queue, flights := w.dispatch.flights.erase f,
          delayed := delays.map (f.key, ·) ++ w.dispatch.delayed } } := by
  refine ⟨shown.still, shown.settings, shown.store, rfl, shown.heard, shown.hand, fun l => ?_, fun l => ?_⟩
  · have before := shown.flights l
    have none_put_off : (delays.map fun _ => Errand.request f.key).count (.pass l) = 0 := by
      simp [List.map_const', List.count_replicate]
    rw [w.dispatch.inFlight_eq_erase l flies] at before
    simp only [List.count_cons, beq_iff_eq, Errand.pass.injEq] at before
    rw [List.count_append, none_put_off, Nat.zero_add]
    exact Nat.add_right_cancel (before.trans (Nat.add_right_comm ..))
  · have before := shown.delayed l
    have put_off : (delays.map fun _ => Errand.request f.key).count (.request l) =
        ((delays.map (f.key, ·)).map (·.1)).count l := by
      simp [List.map_const', List.count_replicate, Function.comp_def]
    simp only [List.count_cons, beq_iff_eq, reduceCtorEq, if_false, Nat.add_zero] at before
    rw [List.map_append, List.count_append, List.count_append, put_off, before, Nat.add_assoc]
    rfl

theorem ShownBy.leave (shown : r.ShownBy settings (.pass key :: active) w) (ending : Option Pass.Outcome) :
    (r.leave key (r.queue.finish r.settings key (PassGuard.outcome ending))).Follows settings active w.stage w := by
  have flying : 0 < w.dispatch.inFlight key := by
    rw [shown.flights, List.count_cons_self]
    omega
  obtain ⟨f, flies, rfl⟩ := List.mem_map.mp (List.count_pos_iff.mp flying)
  have step : Watch.Step Store.listen settings w [] { w with dispatch := w.dispatch.close settings f ending } :=
    .dispatch (.close flies ending) nofun
  rw [Dispatch.close_eq, shown.queue] at step
  rw [shown.settings]
  generalize r.queue.finish settings f.key (PassGuard.outcome ending) = result at step ⊢
  obtain ⟨queue, delay⟩ := result
  have ended := (shown.release.closed flies queue delay.toList).withQueue
  refine ⟨_, step.leads, ?_, rfl⟩
  unfold RunLoop.leave
  cases delay with
  | none => exact (ended.counted _).call
  | some d => exact (ShownBy.lineUp (t := .delay f.key d) ended).counted _ |>.call

/-! ## Answers -/

theorem ShownBy.answered (shown : r.ShownBy settings active w) (call : Call) :
    (r.withCast (Cast.answer call r.cast).2).Follows settings active w.stage w := by
  obtain ⟨reply, still⟩ := Cast.answer_replies shown.still call
  generalize (Cast.answer call r.cast).2 = cast at reply still ⊢
  have withCast {w : Watch} (shown : ShownBy settings active { r with cast } w) :
      (r.withCast cast).ShownBy settings active w := by
    unfold RunLoop.withCast
    dsimp only
    split
    · exact shown.call
    · exact shown
  have store := reply.store
  cases writes : call.write? with
  | none =>
    rw [writes, Option.map_none, Option.getD_none] at store
    have same : w.store = cast.stage.store := shown.store.trans store.symm
    exact ⟨w, .refl,
      withCast ⟨still, shown.settings, same, shown.queue, shown.heard, shown.hand, shown.flights,
        shown.delayed⟩, rfl⟩
  | some change =>
    rw [writes, Option.map_some, Option.getD_some] at store
    have step : Watch.Step Store.listen settings w _ { w with store := w.store.after change } := .write change
    have same : w.store.after change = cast.stage.store := by
      rw [shown.store, store]
      rfl
    exact ⟨_, step.leads,
      withCast ⟨still, shown.settings, same, shown.queue, shown.heard, shown.hand, shown.flights,
        shown.delayed⟩, rfl⟩

/-! ## Turns of passes and requests -/

theorem ShownBy.fired (shown : r.ShownBy settings (.request key :: active) w) :
    (r.enqueue key).Follows settings active w.stage w := by
  have standing : 0 < (w.dispatch.delayed.map (·.1)).count key := by
    rw [shown.delayed, List.count_cons_self]
    omega
  obtain ⟨p, due, rfl⟩ := List.mem_map.mp (List.count_pos_iff.mp standing)
  have step : Watch.Step Store.listen settings w [] { w with dispatch := w.dispatch.fire p } :=
    .dispatch (.fire due) nofun
  have lost : r.ShownBy settings active { w with dispatch := w.dispatch.lose p } := by
    refine ⟨shown.still, shown.settings, shown.store, shown.queue, shown.heard, shown.hand, fun l => ?_, fun l => ?_⟩
    · have before := shown.flights l
      simp only [List.count_cons, beq_iff_eq, reduceCtorEq, if_false, Nat.add_zero] at before
      exact before
    · have before := shown.delayed l
      rw [((List.perm_cons_erase due).map (·.1)).count_eq l] at before
      simp only [List.map_cons, List.count_cons, beq_iff_eq, Errand.request.injEq] at before
      exact Nat.add_right_cancel (before.trans (Nat.add_right_comm ..))
  exact ⟨_, step.leads, lost.enqueue p.1, rfl⟩

theorem ShownBy.go (shown : r.ShownBy settings (.pass key :: active) w) (plan : Plan Pass.Outcome) :
    (RunLoop.go key plan r).Follows settings active w.stage w := by
  -- on what is left of the pass: its turn is over when it ends, or when it probes and puts the rest off
  induction plan generalizing r w with
  | done outcome => exact shown.leave (some outcome)
  | ask call next ih =>
    have goes {r : RunLoop} {w : Watch} (shown : r.ShownBy settings (.pass key :: active) w) :
        (RunLoop.go key (next (Cast.answer call r.cast).1) (r.withCast (Cast.answer call r.cast).2)).Follows settings
          active w.stage w := by
      obtain ⟨v, leads, after, stage⟩ := shown.answered call
      exact stage ▸ (ih _ after).after leads
    unfold RunLoop.go
    refine .ite (.ite (ShownBy.leave ?_ none) (.ite (goes ?_) ?_)) (goes shown)
    · exact shown.alike rfl rfl rfl rfl fun _ => rfl
    · exact shown.alike rfl rfl rfl rfl fun _ => rfl
    · have adjourned := shown.putOff (t := .resume key (.ask call next)) (r.now + Agenda.wait r.probeTime)
      refine ShownBy.follows ?_
      exact adjourned.alike rfl rfl rfl rfl fun _ => rfl

theorem ShownBy.resume (shown : r.ShownBy settings (.pass key :: active) w) (rest : Plan Pass.Outcome) :
    (r.resume key rest).Follows settings active w.stage w := by
  cases rest with
  | done outcome => exact shown.go _
  | ask call next =>
    have probed : ShownBy settings (.pass key :: active) { r with probing := r.probing - 1 } w :=
      shown.alike rfl rfl rfl rfl fun _ => rfl
    obtain ⟨v, leads, after, stage⟩ := probed.answered call
    exact stage ▸ (after.go _).after leads

/-! ## The stage of the loop -/

def stage (r : RunLoop) : LoopStage := if r.loop = .starting then .unsubscribed else .serving

theorem stage_call (r : RunLoop) : r.call.stage = r.stage := by
  unfold RunLoop.call
  split
  · next idle => simp [stage, RunLoop.lineUp, idle]
  · rfl

theorem stage_withQueue (r : RunLoop) (queue : WorkQueue) : (r.withQueue queue).stage = r.stage := by
  unfold RunLoop.withQueue
  dsimp only
  split
  · exact stage_call _
  · rfl

theorem stage_withCast (r : RunLoop) (cast : Cast) : (r.withCast cast).stage = r.stage := by
  unfold RunLoop.withCast
  dsimp only
  split
  · exact stage_call _
  · rfl

theorem stage_leave (r : RunLoop) (key : ObjectKey) (result : WorkQueue × Option Duration) :
    (r.leave key result).stage = r.stage := by
  have released : r.release.stage = r.stage := by
    unfold RunLoop.release
    split <;> rfl
  refine (stage_call _).trans (Eq.trans ?_ ((stage_withQueue r.release result.1).trans released))
  cases result.2 <;> rfl

theorem stage_ite {c : Prop} [Decidable c] (yes : r.stage = reached) (no : u.stage = reached) :
    (if c then r else u).stage = reached := by
  split
  · exact yes
  · exact no

theorem stage_go (key : ObjectKey) (plan : Plan Pass.Outcome) (r : RunLoop) : (go key plan r).stage = r.stage := by
  induction plan generalizing r with
  | done outcome => exact stage_leave ..
  | ask call next ih =>
    have goes (r : RunLoop) :
        (go key (next (Cast.answer call r.cast).1) (r.withCast (Cast.answer call r.cast).2)).stage = r.stage :=
      (ih _ _).trans (stage_withCast ..)
    unfold RunLoop.go
    exact stage_ite (stage_ite (stage_leave ..) (stage_ite (goes _) rfl)) (goes r)

theorem stage_resume (key : ObjectKey) (rest : Plan Pass.Outcome) (r : RunLoop) :
    (r.resume key rest).stage = r.stage := by
  cases rest with
  | done outcome => exact stage_go ..
  | ask call next => exact (stage_go ..).trans (stage_withCast ..)

theorem stage_serve (budget : Nat) (again : Bool) (r : RunLoop) :
    (RunLoop.serve budget again r).stage = .serving := by
  induction budget generalizing again r with
  | zero => exact stage_call _
  | succ budget ih =>
    unfold RunLoop.serve
    split
    · exact ih ..
    · exact stage_ite (stage_call _) rfl

theorem stage_begin (r : RunLoop) : r.begin.stage = .serving := by
  unfold RunLoop.begin
  split
  · exact stage_serve ..
  · rfl

/-! ## Turns -/

theorem ShownBy.take {t : Turn} (shown : r.ShownBy settings t.errand?.toList w) (stage : w.stage = r.stage) :
    (r.take t).Follows settings [] (r.take t).stage w := by
  unfold RunLoop.take
  cases t with
  | loop =>
    dsimp only
    split
    · next starting =>
      rw [stage_begin]
      rw [RunLoop.stage, if_pos starting] at stage
      exact shown.begin stage
    · next started =>
      rw [stage_serve]
      rw [RunLoop.stage, if_neg started] at stage
      exact shown.serve budget false stage
  | arrive key =>
    dsimp only
    split
    · have permitted : ShownBy settings [.pass key] { r with permits := r.permits - 1 } w :=
        shown.alike rfl rfl rfl rfl fun _ => rfl
      rw [stage_go]
      exact stage ▸ permitted.go _
    · have waiting : ShownBy settings [] { r with waiting := r.waiting ++ [key] } w := by
        refine shown.alike rfl rfl rfl rfl fun e => ?_
        have errand : (Turn.arrive key).errand?.toList = [.pass key] := rfl
        simp only [toCome, errand, List.map_append, List.map_cons, List.map_nil, List.count_append, List.count_nil]
        omega
      exact ⟨w, .refl, waiting, stage⟩
  | run key =>
    rw [stage_go, ← stage]
    exact shown.go _
  | resume key rest =>
    rw [stage_resume, ← stage]
    exact shown.resume rest
  | delay key duration =>
    dsimp only
    split
    · rw [RunLoop.enqueue, stage_withQueue, ← stage]
      exact shown.fired
    · exact ⟨w, .refl, ShownBy.putOff (t := .request key) _ shown, stage⟩
  | request key =>
    dsimp only
    rw [RunLoop.enqueue, stage_withQueue, ← stage]
    exact shown.fired

theorem ShownBy.settle (turns : Nat) (shown : r.ShownBy settings [] w) (stage : w.stage = r.stage) :
    (r.settle turns).Follows settings [] (r.settle turns).stage w := by
  induction turns generalizing r w with
  | zero => exact ⟨w, .refl, shown, stage⟩
  | succ turns ih =>
    unfold RunLoop.settle
    split
    · next t rest line =>
      have turn := shown.takeTurn line
      rw [List.append_nil] at turn
      obtain ⟨v, leads, after, reached⟩ := turn.take stage
      exact (ih after reached).after leads
    · exact ⟨w, .refl, shown, stage⟩

theorem ShownBy.moveTo (time : Nat) (shown : r.ShownBy settings active w) :
    (r.moveTo time).ShownBy settings active w := by
  refine shown.alike rfl rfl rfl rfl fun e => ?_
  have split := congrArg (fun es => (es.filterMap fun e : Nat × Turn => e.2.errand?).count e)
    (List.takeWhile_append_dropWhile (p := fun e => e.1 ≤ time) (l := r.agenda.entries))
  simp only [List.filterMap_append, List.count_append] at split
  simp only [toCome, RunLoop.moveTo, Agenda.split, List.filterMap_append, List.filterMap_map, List.count_append,
    Function.comp_def, ← split]
  omega

theorem ShownBy.settleAndMove (turns time : Nat) (shown : r.ShownBy settings [] w) (stage : w.stage = r.stage) :
    ((r.settle turns).moveTo time).Follows settings [] ((r.settle turns).moveTo time).stage w := by
  obtain ⟨v, leads, after, reached⟩ := shown.settle turns stage
  exact ⟨v, leads, after.moveTo time, reached⟩

theorem ShownBy.advanceTo (turns finish : Nat) (shown : r.ShownBy settings [] w) (stage : w.stage = r.stage) :
    (r.advanceTo turns finish).Follows settings [] (r.advanceTo turns finish).stage w := by
  fun_induction RunLoop.advanceTo turns r finish generalizing w with
  | case1 r early settled time t rest due later =>
    rename_i ih
    obtain ⟨v, leads, after, reached⟩ := shown.settleAndMove turns time stage
    exact (ih after reached).after leads
  | case2 r early settled time t rest due => exact shown.settleAndMove turns finish stage
  | case3 r early settled => exact shown.settleAndMove turns finish stage
  | case4 r late => exact ⟨w, .refl, shown, stage⟩

theorem shown_of_start (settings : Settings) (clock : Instant) (probeTime breakdowns : Nat) (hearsChanges : Bool)
    {cast : Cast} (still : cast.Still) (ws : List Store.Write)
    (written : ws.foldl Store.after .empty = cast.stage.store) :
    let r := RunLoop.start { settings, clock, probeTime, breakdowns, hearsChanges, cast }
    ∃ h w, Watch.Run Store.listen settings h w ∧ r.ShownBy settings [] w ∧ w.stage = r.stage := by
  have begun : Watch.Run Store.listen settings [] .empty := .empty
  obtain ⟨h, run⟩ := begun.written ws
  exact ⟨h, _, run, ⟨still, rfl, written, rfl, rfl, rfl, fun _ => rfl, fun _ => rfl⟩, rfl⟩

/-- While the clock is moved, the run of the watch that showed the loop goes on to one that shows what has come
to pass. -/
theorem ShownBy.advance (turns ms : Nat) (shown : r.ShownBy settings [] w) (stage : w.stage = r.stage)
    (run : Watch.Run Store.listen settings h w) :
    ∃ later v, Watch.Run Store.listen settings (later ++ h) v ∧ (r.advance turns ms).ShownBy settings [] v ∧
      v.stage = (r.advance turns ms).stage := by
  obtain ⟨v, leads, after⟩ := shown.advanceTo turns (r.now + ms) stage
  obtain ⟨later, run⟩ := run.leads leads
  exact ⟨later, v, run, after⟩

/-- Between two turns of a loop that serves, a stored trial that is wanted has a change that is not taken in, or
is in the channel, or its pass is marked, or a turn of a request is to come. -/
theorem ShownBy.pending (shown : r.ShownBy settings [] w) (stage : w.stage = r.stage) (serves : r.loop ≠ .starting)
    (run : Watch.Run Store.listen settings h w) (stored : r.store.trials.get? key ≠ none)
    (wanted : Watch.Wanted key h) :
    (∃ c ∈ r.store.log.take (r.store.log.length - r.heard), c.trialKey? = some key) ∨
      key ∈ r.queue.channel ∨ r.queue.states.get? key = some (.running true) ∨ 0 < r.toCome (.request key) := by
  have serving : w.stage = .serving := by rw [stage, RunLoop.stage, if_neg serves]
  rw [← shown.store] at stored
  have pending := run.pending Store.listen_feed (by rw [serving]; nofun) (by rw [serving]; nofun) stored wanted
  cases pending with
  | listing due => rw [serving] at due; cases due
  | asking asks mem => rw [serving] at asks; cases asks
  | @unheard c mem concerns =>
    rw [Watch.unheard, shown.store, shown.heard] at mem
    exact .inl ⟨c, mem, concerns⟩
  | covered covered =>
    rcases covered with ⟨-, mem⟩ | marked | ⟨delay, mem⟩
    · rw [shown.hand, List.append_nil, shown.queue] at mem
      exact .inr (.inl mem)
    · rw [Dispatch.state?, shown.queue] at marked
      exact .inr (.inr (.inl marked))
    · have standing := shown.delayed key
      rw [List.count_nil, Nat.zero_add] at standing
      rw [← standing]
      exact .inr (.inr (.inr (List.count_pos_iff.mpr (List.mem_map.mpr ⟨_, mem, rfl⟩))))

end TrialControl.Rehearsal.RunLoop
