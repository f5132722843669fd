import TrialControl.Proofs.OwnWorkloads

/-!
# The time of grace

A trial that has become stable is left alone until its grace is over. The end of the grace can be too far off for
the span of a duration or for the calendar; it then lies behind every instant, and the trial is left alone for good.
-/

namespace TrialControl

theorem Instant.lt_iff_nanos {t u : Instant} (ht : t.leap = false) (hu : u.leap = false) :
    t < u ↔ t.nanos < u.nanos := by
  show t.rank < u.rank ↔ _
  simp only [rank, second, ht, hu, Bool.false_eq_true, if_false]
  omega

/-- An end that is not representable would be later than every instant. -/
theorem Instant.lt_of_later?_eq_none {t : Instant} {d : Duration} (beyond : t.later? d = none) (now : Instant) :
    now.nanos < t.nanos + d.nanos := by
  have least := t.least_le
  have greatest := now.le_greatest
  have bounds : Instant.least + longestSpan > Instant.greatest := by decide
  rcases later?_eq_none_iff.mp beyond with long | late
  · omega
  · omega

namespace Pass

variable {settings : Settings} {now : Instant} {t : Trial} {c : Condition} {told : Transcript}
variable {s s' : Store} {key : ObjectKey} {outcome : Outcome}

theorem inGrace_iff {grace : Duration} {since : Instant} (unmarked : since.leap = false) (clock : now.leap = false) :
    inGrace grace since now = true ↔ now.nanos < since.nanos + grace.nanos := by
  unfold inGrace
  cases ended : since.later? grace with
  | none => simpa using Instant.lt_of_later?_eq_none ended now
  | some e =>
    obtain ⟨-, sum, mark⟩ := Instant.later?_eq_some_iff.mp ended
    have plain : e.leap = false := by simpa [unmarked] using mark
    rw [Option.all_some, decide_eq_true_iff, Instant.lt_iff_nanos clock plain, sum]

def afterGrace (settings : Settings) (t : Trial) (now : Instant) : Plan Outcome :=
  if t.status.conditions.holds .patched .unknown then .done (.ok .done) else discover settings t.spec t now

section
variable (still : t.hasWaitingPatches = false) (found : t.status.conditions.find? .stable = some c)
variable (stable : c.standing.status = .true)
include still found stable

theorem proceed_of_stable :
    proceed settings t now =
      if inGrace settings.grace c.since now then .done (.ok (.requeueAfter settings.grace))
      else afterGrace settings t now := by
  have idle := scan_of_still now still
  have holds : t.status.conditions.compare? .stable .true ≠ some false := by simp [Ledger.compare?, found, stable]
  unfold proceed
  rw [idle]
  show advance settings t now = _
  unfold advance
  rw [if_neg holds, found, Option.any_some]
  rfl

end

theorem afterGrace_tells {asked : Transcript} (tells : (afterGrace settings t now).Tells asked s told outcome s') :
    outcome = .ok .done ∨ told.LooksForRuns := by
  unfold afterGrace at tells
  split at tells
  · cases tells
    exact .inl rfl
  · cases tells with
    | @ask _ _ _ _ _ _ _ r _ reply tells => exact .inr ⟨_, _, r, tells.keeps (List.mem_cons_self ..)⟩

/-- A pass of a live trial that is stable and waits for no patch ends at the grace exactly if the time since which
it is stable, with the grace added, is later than now. It has asked for the trial alone then, and asks to be
repeated after the grace, and no pass ends in another way. Otherwise every pass goes on. An end of the grace that is
not representable is later than now. -/
theorem window_ends_with_grace (there : s.trials.get? key = some t) (live : t.isLive = true)
    (still : t.hasWaitingPatches = false) (found : t.status.conditions.find? .stable = some c)
    (stable : c.standing.status = .true) (unmarked : c.since.leap = false) (clock : now.leap = false) :
    ((reconcile settings key now).Tells [] s [⟨.getTrial key, .ok t⟩] (.ok (.requeueAfter settings.grace)) s ↔
        now.nanos < c.since.nanos + settings.grace.nanos) ∧
      (now.nanos < c.since.nanos + settings.grace.nanos → ∀ told outcome s',
        (reconcile settings key now).Tells [] s told outcome s' →
          told = [⟨.getTrial key, .ok t⟩] ∧ outcome = .ok (.requeueAfter settings.grace) ∧ s' = s) ∧
      (c.since.nanos + settings.grace.nanos ≤ now.nanos → ∀ told outcome s',
        (reconcile settings key now).Tells [] s told outcome s' ↔
          (afterGrace settings t now).Tells [⟨.getTrial key, .ok t⟩] s told outcome s') ∧
      (c.since.later? settings.grace = none → now.nanos < c.since.nanos + settings.grace.nanos) := by
  have proceeds : ∀ told outcome s', (reconcile settings key now).Tells [] s told outcome s' ↔
      (if inGrace settings.grace c.since now then Plan.done (.ok (.requeueAfter settings.grace))
        else afterGrace settings t now).Tells [⟨.getTrial key, .ok t⟩] s told outcome s' := by
    intro told outcome s'
    rw [reconcile_tells_iff there live, proceed_of_stable still found stable]
  have window := @inGrace_iff now settings.grace c.since unmarked clock
  refine ⟨⟨?_, ?_⟩, ?_, ?_, fun beyond => Instant.lt_of_later?_eq_none beyond now⟩
  · intro ends
    -- after the grace a pass does not ask to be repeated without having listed workloads
    rw [proceeds] at ends
    rw [← window]
    by_contra passed
    rw [if_neg passed] at ends
    rcases afterGrace_tells ends with done | ⟨ns, selector, r, listed⟩
    · cases done
    · cases List.mem_singleton.mp listed
  · intro early
    rw [proceeds, if_pos (window.mpr early)]
    exact .done ..
  · intro early told outcome s' tells
    rw [proceeds, if_pos (window.mpr early)] at tells
    cases tells
    exact ⟨rfl, rfl, rfl⟩
  · intro late told outcome s'
    have passed : ¬ inGrace settings.grace c.since now = true := by
      rw [window]
      omega
    rw [proceeds, if_neg passed]

/-- The end of the grace lies beyond the calendar, and the pass comes a year later. -/
theorem endless_grace_keeps_waiting :
    let key : ObjectKey := ⟨"ns", "t1"⟩
    let settings := { Settings.standard with grace := .ofSeconds 10_000_000_000_000 }
    let t := ((Draft.named "ns" "t1" default).build.record .stable (.plain .true) default).syncPhase
    let s := Store.empty.after (.createTrial t)
    let later := shifted default (some (.ofSeconds 31_536_000))
    Instant.later? default settings.grace = none ∧
      (reconcile settings key later).Tells [] s [⟨.getTrial key, .ok (t.withVersion 1)⟩]
        (.ok (.requeueAfter settings.grace)) s := by
  intro key settings t s later
  have there : s.trials.get? key = some (t.withVersion 1) := by decide +kernel
  have found : (t.withVersion 1).status.conditions.find? .stable = some ⟨.stable, .plain .true, default⟩ := by
    decide +kernel
  have beyond : Instant.later? default settings.grace = none := by decide +kernel
  obtain ⟨stops, -, -, endless⟩ := @window_ends_with_grace settings later _ _ _ _ there
    (by decide +kernel) (by decide +kernel) found rfl rfl (by decide +kernel)
  exact ⟨beyond, stops.mpr (endless beyond)⟩

end Pass

end TrialControl
