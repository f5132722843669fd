import TrialControl.Proofs.Chronicles
import TrialControl.Rehearsal.Cast

/-!
# Performances are runs

A cast is still when its store has no error to come and neither its prober nor its capturer changes the
stage. What a still cast performs is a run of the plan on its store, and the cast is still afterwards.
-/

namespace TrialControl.Rehearsal

def Cue.Still {α : Type} (cue : Cue α) : Prop := ∀ stage, cue.side stage = stage

def Prober.Still : Prober → Prop
  | .rollouts _ => True
  | .scripted cues => ∀ name script, cues.get? name = some script → ∀ cue ∈ script, cue.Still

def Capturer.Still : Capturer → Prop
  | .computed => True
  | .scripted script => ∀ cue ∈ script, cue.Still

structure Cast.Still (c : Cast) : Prop where
  faultless : c.stage.faults = []
  prober : c.prober.Still
  capturer : c.capturer.Still

theorem Stage.use_faultless {α : Type} {s : Stage} (faultless : s.faults = []) (m : Method)
    (answer : Store → Except Error α × Store) :
    s.use m answer = ((answer s.store).1, { s with store := (answer s.store).2 }) := by
  unfold use
  rw [faultless]
  rfl

theorem Stage.read_faultless {α : Type} {s : Stage} (faultless : s.faults = []) (m : Method)
    (answer : Store → Except Error α) : s.read m answer = (answer s.store, s) := by
  unfold read
  rw [use_faultless faultless]

theorem Stage.write_faultless {α : Type} {s : Stage} (faultless : s.faults = []) (m : Method)
    (answer : Store → Except Error (α × Store)) :
    s.write m answer =
      ((s.store.taking (answer s.store)).1, { s with store := (s.store.taking (answer s.store)).2 }) := by
  unfold write
  rw [use_faultless faultless]
  cases answer s.store <;> rfl

theorem Prober.verdict_still {p : Prober} (still : p.Still) {stage : Stage} (faultless : stage.faults = [])
    (target : Target) : (p.verdict stage target).2.1 = stage ∧ (p.verdict stage target).2.2.Still := by
  cases p with
  | rollouts delay =>
    refine ⟨?_, trivial⟩
    simp only [verdict, Stage.probeRollout, Stage.rollout]
    rw [Stage.read_faultless faultless]
  | scripted cues =>
    rcases h : cues.get? target.name with _ | _ | ⟨cue, rest⟩
    · simp only [verdict, h]
      exact ⟨trivial, still⟩
    · simp only [verdict, h]
      exact ⟨trivial, still⟩
    · simp only [verdict, h]
      have here := still target.name (cue :: rest) h
      refine ⟨here cue (List.mem_cons_self ..) stage, fun name script found => ?_⟩
      rw [Table.get?_insert] at found
      split at found
      · cases found
        exact fun c hc => here c (List.mem_cons_of_mem _ hc)
      · exact still name script found

theorem Capturer.result_still {c : Capturer} (still : c.Still) (stage : Stage) (m : Metric) (t : Trial) :
    (c.result stage m t).2.1 = stage ∧ (c.result stage m t).2.2.Still := by
  cases c with
  | computed => exact ⟨rfl, trivial⟩
  | scripted script =>
    cases script with
    | nil => exact ⟨rfl, still⟩
    | cons cue rest =>
      exact ⟨still cue (List.mem_cons_self ..) stage, fun c hc => still c (List.mem_cons_of_mem _ hc)⟩

theorem Cast.answer_replies {c : Cast} (still : c.Still) (call : Call) :
    c.stage.store.Replies call (c.answer call).1 (c.answer call).2.stage.store ∧ (c.answer call).2.Still := by
  have faultless := still.faultless
  cases call with
  | getTrial key =>
    simp only [answer, onStage, Stage.read_faultless faultless]
    exact ⟨⟨rfl, rfl⟩, still⟩
  | getExperiment key =>
    simp only [answer, onStage, Stage.read_faultless faultless]
    exact ⟨⟨rfl, rfl⟩, still⟩
  | listWorkloads ns selector =>
    simp only [answer, onStage, Stage.read_faultless faultless]
    exact ⟨⟨rfl, rfl⟩, still⟩
  | listUnits ns selector =>
    simp only [answer, onStage, Stage.read_faultless faultless]
    exact ⟨⟨rfl, rfl⟩, still⟩
  | listServices selector =>
    simp only [answer, onStage, Stage.read_faultless faultless]
    exact ⟨⟨⟨c.stage.store.services.inOrder, rfl⟩, rfl⟩, still⟩
  | updateTrial t part =>
    simp only [answer, onStage, Stage.write_faultless faultless]
    exact ⟨rfl, faultless, still.prober, still.capturer⟩
  | createWorkload w =>
    simp only [answer, onStage, Stage.write_faultless faultless]
    exact ⟨rfl, faultless, still.prober, still.capturer⟩
  | probe p =>
    obtain ⟨same, after⟩ := Prober.verdict_still still.prober faultless p.target
    refine ⟨congrArg Stage.store same, ?_, after, still.capturer⟩
    exact (congrArg Stage.faults same).trans faultless
  | capture m t target =>
    obtain ⟨same, after⟩ := Capturer.result_still still.capturer c.stage m t
    refine ⟨congrArg Stage.store same, ?_, still.prober, after⟩
    exact (congrArg Stage.faults same).trans faultless

theorem Cast.perform_runs {α : Type} {c : Cast} (still : c.Still) (p : Plan α) :
    p.Runs c.stage.store (c.perform p).1 (c.perform p).2.stage.store ∧ (c.perform p).2.Still := by
  induction p generalizing c with
  | done a => exact ⟨.done a _, still⟩
  | ask call next ih =>
    obtain ⟨reply, after⟩ := answer_replies still call
    obtain ⟨run, last⟩ := ih (answer call c).1 after
    exact ⟨.ask reply run, last⟩

def Cast.attend (call : Call) (p : Transcript × Cast) : call.Answer × Transcript × Cast :=
  let (r, cast) := p.2.answer call
  (r, ⟨call, r⟩ :: p.1, cast)

theorem Cast.attend_tells {α : Type} {c : Cast} (still : c.Still) (asked : Transcript) (p : Plan α) :
    p.Tells asked c.stage.store (p.run attend (asked, c)).2.1 (p.run attend (asked, c)).1
      (p.run attend (asked, c)).2.2.stage.store ∧ (p.run attend (asked, c)).2.2.Still := by
  induction p generalizing asked c with
  | done a => exact ⟨.done a asked c.stage.store, still⟩
  | ask call next ih =>
    obtain ⟨reply, after⟩ := answer_replies still call
    obtain ⟨tells, last⟩ := ih (answer call c).1 after (⟨call, (answer call c).1⟩ :: asked)
    exact ⟨.ask reply tells, last⟩

/-! ## Chronicles -/

structure Play where
  cast : Cast
  passes : List Journey
  history : List Entry
  /-- Versions given out since the beginning. -/
  given : Nat

namespace Play

open Chronicle (Run PassStep)
open Store (Write)

def start (ws : List Write) : Play :=
  ⟨⟨⟨ws.foldl Store.after .empty, [], ∅⟩, .rollouts .zero, .computed, [], []⟩, [], [], 0⟩

def chronicle (p : Play) : Chronicle := ⟨p.cast.stage.store, p.passes, p.history⟩

def go (key : ObjectKey) (p : Play) (asked : Transcript) : Plan Pass.Outcome → Play
  | .done outcome => { p with passes := ⟨asked, .done outcome⟩ :: p.passes }
  | .ask call next =>
    let (r, cast) := p.cast.answer call
    go key
      ⟨cast, p.passes, p.chronicle.noted key (.pass asked) cast.stage.store,
        p.given + p.cast.stage.store.given cast.stage.store⟩
      (⟨call, r⟩ :: asked) (next r)

def passing (key : ObjectKey) (settings : Settings) (p : Play) (times : List Instant) : Play :=
  times.foldl (fun p now => p.go key [] (reconcile settings key now)) p

variable {key : ObjectKey} {may : Store → Write → Prop} {c : Chronicle}

theorem go_run {p : Play} (still : p.cast.Still) {asked : Transcript} {plan : Plan Pass.Outcome}
    (run : Run key may c p.given ⟨p.cast.stage.store, ⟨asked, plan⟩ :: p.passes, p.history⟩) :
    (p.go key asked plan).cast.Still ∧ Run key may c (p.go key asked plan).given (p.go key asked plan).chronicle := by
  induction plan generalizing p asked with
  | done outcome => exact ⟨still, run⟩
  | ask call next ih =>
    obtain ⟨reply, after⟩ := Cast.answer_replies still call
    unfold go
    generalize p.cast.answer call = answered at reply after ⊢
    obtain ⟨r, cast⟩ := answered
    have step : PassStep key ⟨p.cast.stage.store, ⟨asked, .ask call next⟩ :: p.passes, p.history⟩
        ⟨cast.stage.store, ⟨⟨call, r⟩ :: asked, next r⟩ :: p.passes,
          p.chronicle.noted key (.pass asked) cast.stage.store⟩ :=
      @PassStep.answer key _ [] p.passes asked call next r cast.stage.store rfl reply
    have answered := Run.step run (.pass step)
    exact ih r after answered

theorem passing_run (settings : Settings) (times : List Instant) {p : Play} (still : p.cast.Still)
    (run : Run key may c p.given p.chronicle) :
    Run key may c (p.passing key settings times).given (p.passing key settings times).chronicle := by
  induction times generalizing p with
  | nil => exact run
  | cons now times ih =>
    have step : PassStep key p.chronicle ⟨p.chronicle.store, ⟨[], reconcile settings key now⟩ :: p.passes, p.history⟩ :=
      .begin settings now
    have begun := Run.step run (.pass step)
    have same : p.chronicle.store.given p.chronicle.store = 0 := by simp [Store.given]
    simp only [same, Nat.add_zero] at begun
    have played := go_run still begun
    exact ih played.1 played.2

theorem reached_of_start (settings : Settings) (ws : List Write) (times : List Instant)
    (few : ws.length + ((start ws).passing key settings times).given < UInt64.size) :
    ∃ m n, (start ws).chronicle.store.Built m ∧
      Run key may (start ws).chronicle n ((start ws).passing key settings times).chronicle ∧ m + n < UInt64.size := by
  obtain ⟨m, most, built⟩ := Store.Built.empty.writes ws
  refine ⟨m, _, built, passing_run settings times ⟨rfl, trivial, trivial⟩ .start, ?_⟩
  omega

end Play

end TrialControl.Rehearsal
