import TrialControl.Proofs.ConditionTimes

/-!
# Scans

What a scan finds is stated for one outcome of each waiting patch, in order. The first outcome that is not a
request for more time ends the scan; if there is none, the longest delay is asked for, and the first request of
it gives the message.
-/

namespace TrialControl

/-- A patch asks for more time; a delay of zero would not ask for any. -/
structure Request where
  patch : Patch
  message : String
  delay : Duration
  positive : Duration.zero < delay

namespace Request

def outcome (q : Request) : Except Unsettled Unit := .error (.pending q.message q.delay)

def exchange (q : Request) : Exchange := ⟨.probe q.patch, q.outcome⟩

def pair (q : Request) : Patch × Except Unsettled Unit := (q.patch, q.outcome)

theorem retryDelay?_eq (q : Request) : (Unsettled.pending q.message q.delay).retryDelay? = some q.delay := by
  have positive : ¬ q.delay.isZero = true := by
    have := q.positive
    simp only [Duration.isZero, beq_iff_eq]
    exact Nat.ne_of_gt this
  simp [Unsettled.retryDelay?, positive]

theorem exists_of_retryDelay? (p : Patch) {e : Unsettled} {d : Duration} (pending : e.retryDelay? = some d) :
    ∃ q : Request, q.patch = p ∧ q.outcome = .error e ∧ q.message = e.message ∧ q.delay = d := by
  cases e with
  | failed m => cases pending
  | pending m delay =>
    rw [Unsettled.retryDelay?] at pending
    split at pending
    · cases pending
    · next nonzero =>
      cases pending
      have positive : Duration.zero < d := by
        simp only [Duration.isZero, beq_iff_eq] at nonzero
        exact Nat.pos_of_ne_zero nonzero
      exact ⟨⟨p, m, d, positive⟩, rfl, rfl, rfl, rfl⟩

end Request

namespace Trial

def waiting (t : Trial) : List Patch := t.spec.patches.filter (·.waits)

end Trial

/-! ## The longest request -/

namespace Transcript

theorem longestOf_eq_none {rs : List (String × Duration)} : longestOf rs = none ↔ rs = [] := by
  induction rs with
  | nil => simp [longestOf]
  | cons r rest ih =>
    rw [longestOf]
    by_cases longer : (longestOf rest).all (· < r.2) = true
    · simp [longer]
    · rw [if_neg longer]
      refine ⟨fun h => ?_, fun h => absurd h (List.cons_ne_nil r rest)⟩
      simp [h] at longer

theorem longest_is_first {rs : List (String × Duration)} {d : Duration} (longest : longestOf rs = some d) :
    ∃ later m earlier, rs = later ++ (m, d) :: earlier ∧ (∀ r ∈ later, r.2 ≤ d) ∧ (∀ r ∈ earlier, r.2 < d) ∧
      (messagesOf rs).getLast? = some m := by
  induction rs generalizing d with
  | nil => cases longest
  | cons r rest ih =>
    rw [longestOf] at longest
    rw [messagesOf]
    by_cases longer : (longestOf rest).all (· < r.2) = true
    · rw [if_pos longer] at longest ⊢
      cases longest
      refine ⟨[], r.1, rest, rfl, by simp, fun x mem => ?_, by simp⟩
      cases before : longestOf rest with
      | none =>
        rw [longestOf_eq_none.mp before] at mem
        cases mem
      | some d =>
        obtain ⟨later, m, earlier, rfl, le, lt, -⟩ := ih before
        have bound : d < r.2 := by simpa [before] using longer
        rcases List.mem_append.mp mem with mem | mem
        · exact Nat.lt_of_le_of_lt (le x mem) bound
        · rcases List.mem_cons.mp mem with rfl | mem
          · exact bound
          · exact Nat.lt_trans (lt x mem) bound
    · rw [if_neg longer] at longest ⊢
      obtain ⟨later, m, earlier, rfl, le, lt, last⟩ := ih longest
      refine ⟨r :: later, m, earlier, rfl, List.forall_mem_cons.mpr ⟨?_, le⟩, lt, last⟩
      have bound : ¬ d < r.2 := by simpa [longest] using longer
      exact Nat.le_of_not_lt bound

theorem requests_of_exchanges (qs : List Request) :
    requests (qs.map Request.exchange).reverse = (qs.map fun q => (q.message, q.delay)).reverse := by
  have shows (q : Request) : Unsettled.request? q.outcome = some (q.message, q.delay) := by
    simp only [Unsettled.request?, Request.outcome, q.retryDelay?_eq]
    rfl
  unfold requests verdicts
  rw [List.filterMap_reverse, List.filterMap_reverse]
  congr 1
  induction qs with
  | nil => rfl
  | cons q qs ih =>
    have verdict : q.exchange.verdict? = some q.outcome := rfl
    rw [List.map_cons, List.filterMap_cons_some verdict, List.filterMap_cons_some (shows q), ih, List.map_cons]

theorem longest_request {qs : List Request} {d : Duration}
    (longest : longest? (qs.map Request.exchange).reverse = some d) :
    ∃ before q after, qs = before ++ q :: after ∧ q.delay = d ∧ (∀ x ∈ before, x.delay < d) ∧
      (∀ x ∈ after, x.delay ≤ d) ∧ (messages (qs.map Request.exchange).reverse).getLast? = some q.message := by
  unfold longest? at longest
  unfold messages
  rw [requests_of_exchanges] at longest ⊢
  obtain ⟨later, m, earlier, split, le, lt, last⟩ := longest_is_first longest
  rw [List.reverse_eq_iff, List.reverse_append, List.reverse_cons, List.append_assoc, List.singleton_append,
    List.map_eq_append_iff] at split
  obtain ⟨before, rest, rfl, before_eq, rest_eq⟩ := split
  obtain ⟨q, after, rfl, q_eq, after_eq⟩ := List.map_eq_cons_iff.mp rest_eq
  cases q_eq
  refine ⟨before, q, after, rfl, rfl, fun x mem => ?_, fun x mem => ?_, last⟩
  · refine lt (x.message, x.delay) (List.mem_reverse.mp ?_)
    rw [← before_eq]
    exact List.mem_map_of_mem mem
  · refine le (x.message, x.delay) (List.mem_reverse.mp ?_)
    rw [← after_eq]
    exact List.mem_map_of_mem mem

end Transcript

namespace Plan

variable {α β : Type} {p q : Plan α}

theorem Reaches.after {c : Call} {next : c.Answer → Plan α} {asked : Transcript} (r : c.Answer)
    (reaches : (next r).Reaches asked q) : (Plan.ask c next).Reaches (asked ++ [⟨c, r⟩]) q := by
  induction reaches with
  | start => exact .answer .start r
  | answer reaches r' ih => exact ih.answer r'

def Follows (p : Plan α) (answers : List (Except Unsettled Unit)) : Prop :=
  ∃ told a, p.Reaches told (.done a) ∧ told.verdicts.reverse <+: answers

theorem Follows.of_done {a : α} (answers : List (Except Unsettled Unit)) : (Plan.done a).Follows answers :=
  ⟨[], a, .start, List.nil_prefix⟩

theorem Follows.of_probe {p : Patch} {next : (Call.probe p).Answer → Plan α} {r : Except Unsettled Unit}
    {answers : List (Except Unsettled Unit)} (h : Follows (next r) answers) :
    (Plan.ask (.probe p) next).Follows (r :: answers) := by
  obtain ⟨told, a, reaches, answered⟩ := h
  refine ⟨told ++ [⟨.probe p, r⟩], a, Reaches.after (c := .probe p) r reaches, ?_⟩
  have verdicts : Transcript.verdicts (told ++ [⟨.probe p, r⟩]) = told.verdicts ++ [r] := List.filterMap_append ..
  rw [verdicts, List.reverse_append, List.reverse_singleton, List.singleton_append]
  exact (List.prefix_cons_inj r).mpr answered

theorem Reaches.bind {asked : Transcript} (reaches : p.Reaches asked q) (f : α → Plan β) :
    (p.bind f).Reaches asked (q.bind f) := by
  induction reaches with
  | start => exact .start
  | answer reaches r ih => exact ih.answer r

end Plan

namespace Scan

open Transcript

/-! ## How a scan ends -/

/-- The outcome of a scan of a trial for what the probes of its waiting patches came to, with what was asked. -/
inductive Found (t : Trial) (script : List (Patch × Except Unsettled Unit)) : Transcript → Scan → Prop where
  | settled {qs : List Request} {p : Patch} {after : List (Patch × Except Unsettled Unit)} {seen rest : List Patch}
      {u : Trial} (first : script = qs.map Request.pair ++ (p, .ok ()) :: after)
      (patches : t.spec.patches = seen ++ p :: rest) (place : seen.filter (·.waits) = qs.map (·.patch))
      (cleared : u = { t with
        spec.patches := seen ++ { p with waits := false } :: rest
        status.conditions := u.status.conditions })
      (stable : u.status.conditions.standing? .stable = some ⟨.false, "", ""⟩)
      (others : ∀ kind, kind ≠ .stable → u.status.conditions.find? kind = t.status.conditions.find? kind) :
      Found t script (⟨.probe p, .ok ()⟩ :: (qs.map Request.exchange).reverse) (.changed u)
  | failed {qs : List Request} {p : Patch} {e : Unsettled} {after : List (Patch × Except Unsettled Unit)} {u : Trial}
      (first : script = qs.map Request.pair ++ (p, .error e) :: after) (final : e.retryDelay? = none)
      (kept : u = { t with status.conditions := u.status.conditions })
      (failed : u.status.conditions.standing? .failed = some ⟨.true, "WaitFailed", e.message⟩)
      (others : ∀ kind, kind ≠ .stable → kind ≠ .failed →
        u.status.conditions.find? kind = t.status.conditions.find? kind) :
      Found t script (⟨.probe p, .error e⟩ :: (qs.map Request.exchange).reverse) (.changed u)
  | waiting {before after : List Request} {q : Request} {u : Trial}
      (all : script = (before ++ q :: after).map Request.pair) (shorter : ∀ x ∈ before, x.delay < q.delay)
      (longest : ∀ x ∈ after, x.delay ≤ q.delay) (kept : u = { t with status.conditions := u.status.conditions })
      (stable : u.status.conditions.standing? .stable = some ⟨.false, "Waiting", q.message⟩)
      (others : ∀ kind, kind ≠ .stable → u.status.conditions.find? kind = t.status.conditions.find? kind) :
      Found t script ((before ++ q :: after).map Request.exchange).reverse (.waiting u q.delay)
  | idle (still : script = []) : Found t script [] .idle

/-- The same without the script: what was asked tells the requests, and the trial is given by them. -/
inductive Ends (now : Instant) (t : Trial) : Transcript → Scan → Prop where
  | settled {qs : List Request} {p : Patch} {seen rest : List Patch} (patches : t.spec.patches = seen ++ p :: rest)
      (waits : p.waits = true) (place : seen.filter (·.waits) = qs.map (·.patch)) :
      Ends now t (⟨.probe p, .ok ()⟩ :: (qs.map Request.exchange).reverse)
        (.changed ((t.awaiting (messages (qs.map Request.exchange).reverse) now).recordSettled
          (seen ++ { p with waits := false } :: rest) now))
  | failed {qs : List Request} {p : Patch} {e : Unsettled} {seen rest : List Patch}
      (patches : t.spec.patches = seen ++ p :: rest) (waits : p.waits = true)
      (place : seen.filter (·.waits) = qs.map (·.patch)) (final : e.retryDelay? = none) :
      Ends now t (⟨.probe p, .error e⟩ :: (qs.map Request.exchange).reverse)
        (.changed ((t.awaiting (messages (qs.map Request.exchange).reverse) now).recordWaitFailed e.message now))
  | waiting {qs : List Request} {d : Duration} (all : t.waiting = qs.map (·.patch))
      (longest : longest? (qs.map Request.exchange).reverse = some d) :
      Ends now t (qs.map Request.exchange).reverse
        (.waiting (t.awaiting (messages (qs.map Request.exchange).reverse) now) d)
  | idle (still : t.waiting = []) : Ends now t [] .idle

variable {now : Instant} {t : Trial} {told : Transcript} {scan : Scan}

theorem scanFrom_ends (ps : List Patch) (seen : List Patch) (qs : List Request) (patches : t.spec.patches = seen ++ ps)
    (place : seen.filter (·.waits) = qs.map (·.patch)) :
    (Trial.scanFrom now (t.awaiting (messages (qs.map Request.exchange).reverse) now)
      (longest? (qs.map Request.exchange).reverse) seen ps).Ensures (fun _ => True) (Ends now t)
      (qs.map Request.exchange).reverse := by
  induction ps generalizing seen qs with
  | nil =>
    have all : t.waiting = qs.map (·.patch) := by rw [Trial.waiting, patches, List.append_nil, place]
    unfold Trial.scanFrom
    cases longest : longest? (qs.map Request.exchange).reverse with
    | some d => exact .waiting all longest
    | none =>
      have none_asked : qs = [] := by
        have := longestOf_eq_none.mp longest
        simpa [requests_of_exchanges] using this
      subst none_asked
      exact .idle all
  | cons p ps ih =>
    have rest : t.spec.patches = (seen ++ [p]) ++ ps := by simp [patches]
    unfold Trial.scanFrom
    by_cases waits : p.waits = true
    · rw [if_pos waits]
      refine ⟨trivial, fun r => ?_⟩
      rcases r with e | _
      · dsimp only
        cases pending : e.retryDelay? with
        | none => exact .failed patches waits place pending
        | some d =>
          obtain ⟨q, rfl, outcome, message, rfl⟩ := Request.exists_of_retryDelay? p pending
          have asked : (⟨.probe q.patch, .error e⟩ : Exchange) :: (qs.map Request.exchange).reverse =
              ((qs ++ [q]).map Request.exchange).reverse := by
            rw [← outcome]
            simp [Request.exchange]
          have place : (seen ++ [q.patch]).filter (·.waits) = (qs ++ [q]).map (·.patch) := by
            simp [place, waits]
          have next := ih (seen ++ [q.patch]) (qs ++ [q]) rest place
          rw [← asked] at next
          dsimp only
          by_cases longer : (longest? (qs.map Request.exchange).reverse).all (· < q.delay) = true
          · rw [if_pos longer]
            rwa [messages_cons_pending q.patch pending, longest?_cons_pending q.patch pending, if_pos longer,
              if_pos longer, Trial.awaiting_concat] at next
          · rw [if_neg longer]
            rwa [messages_cons_pending q.patch pending, longest?_cons_pending q.patch pending, if_neg longer,
              if_neg longer] at next
      · exact .settled patches waits place
    · rw [if_neg waits]
      exact ih (seen ++ [p]) qs rest (by simp [place, waits])

theorem scanFrom_follows (ps : List Patch) (u : Trial) (delay : Option Duration) (seen : List Patch)
    (answers : List (Except Unsettled Unit)) (each : answers.length = (ps.filter (·.waits)).length) :
    (Trial.scanFrom now u delay seen ps).Follows answers := by
  induction ps generalizing u delay seen answers with
  | nil => exact .of_done answers
  | cons p ps ih =>
    unfold Trial.scanFrom
    by_cases waits : p.waits = true
    · rw [if_pos waits]
      rw [List.filter_cons_of_pos waits, List.length_cons] at each
      cases answers with
      | nil => cases each
      | cons r answers =>
        have later : answers.length = (ps.filter (·.waits)).length := Nat.succ.inj each
        refine .of_probe ?_
        rcases r with e | _
        · dsimp only
          cases e.retryDelay? with
          | none => exact .of_done answers
          | some d =>
            dsimp only
            split
            · exact ih _ _ _ answers later
            · exact ih _ _ _ answers later
        · exact .of_done answers
    · rw [if_neg waits]
      rw [List.filter_cons_of_neg waits] at each
      exact ih u delay (seen ++ [p]) answers each

/-! ## What a scan finds -/

theorem prefix_of_columns {α β : Type} {xs ys : List (α × β)} (left : xs.map Prod.fst <+: ys.map Prod.fst)
    (right : xs.map Prod.snd <+: ys.map Prod.snd) : xs <+: ys := by
  induction xs generalizing ys with
  | nil => exact List.nil_prefix
  | cons x xs ih =>
    cases ys with
    | nil => simp at left
    | cons y ys =>
      rw [List.map_cons, List.map_cons, List.cons_prefix_cons] at left right
      rw [List.cons_prefix_cons]
      exact ⟨Prod.ext left.1 right.1, ih left.2 right.2⟩

theorem verdicts_of_exchanges (qs : List Request) :
    (verdicts (qs.map Request.exchange).reverse).reverse = (qs.map Request.pair).map Prod.snd := by
  unfold verdicts
  rw [List.filterMap_reverse, List.reverse_reverse]
  induction qs with
  | nil => rfl
  | cons q qs ih =>
    have verdict : q.exchange.verdict? = some q.outcome := rfl
    rw [List.map_cons, List.filterMap_cons_some verdict, ih]
    rfl

theorem patches_of_pairs (qs : List Request) : (qs.map Request.pair).map Prod.fst = qs.map (·.patch) := by
  simp [Request.pair]

section
variable {script : List (Patch × Except Unsettled Unit)} {qs : List Request} {p : Patch} {r : Except Unsettled Unit}
variable {seen rest : List Patch} (each : script.map Prod.fst = t.waiting)
include each

theorem first_of_stopped (patches : t.spec.patches = seen ++ p :: rest) (waits : p.waits = true)
    (place : seen.filter (·.waits) = qs.map (·.patch))
    (answered : (verdicts (⟨.probe p, r⟩ :: (qs.map Request.exchange).reverse)).reverse <+: script.map Prod.snd) :
    ∃ after, script = qs.map Request.pair ++ (p, r) :: after := by
  have waiting : t.waiting = qs.map (·.patch) ++ p :: rest.filter (·.waits) := by
    rw [Trial.waiting, patches, List.filter_append, place, List.filter_cons_of_pos waits]
  have verdict : verdicts (⟨.probe p, r⟩ :: (qs.map Request.exchange).reverse) =
      r :: verdicts (qs.map Request.exchange).reverse := rfl
  rw [verdict, List.reverse_cons, verdicts_of_exchanges] at answered
  have probed : qs.map Request.pair ++ [(p, r)] <+: script := by
    apply prefix_of_columns
    · rw [each, waiting, List.map_append, patches_of_pairs]
      exact ⟨rest.filter (·.waits), by simp⟩
    · rwa [List.map_append]
  obtain ⟨after, rfl⟩ := probed
  exact ⟨after, by simp⟩

theorem all_of_waiting (all : t.waiting = qs.map (·.patch))
    (answered : (verdicts (qs.map Request.exchange).reverse).reverse <+: script.map Prod.snd) :
    script = qs.map Request.pair := by
  rw [verdicts_of_exchanges] at answered
  have same : (qs.map Request.pair).map Prod.fst = script.map Prod.fst :=
    (patches_of_pairs qs).trans (all.symm.trans each.symm)
  have probed : qs.map Request.pair <+: script := prefix_of_columns ⟨[], by rw [List.append_nil, same]⟩ answered
  have lengths : (qs.map Request.pair).length = script.length := by
    have := congrArg List.length (each.trans all)
    simpa using this.symm
  exact (probed.eq_of_length lengths).symm

theorem Ends.found (ends : Ends now t told scan) (answered : told.verdicts.reverse <+: script.map Prod.snd) :
    Found t script told scan := by
  cases ends with
  | settled patches waits place =>
    obtain ⟨after, first⟩ := first_of_stopped each patches waits place answered
    refine .settled first patches place ?_ ?_ fun kind other => ?_
    · rw [Trial.awaiting_eq]
      rfl
    · exact (Ledger.standing?_record _ _ now _ _).trans (if_pos rfl)
    · exact (Ledger.find?_record_of_ne _ _ now _ other).trans (t.find?_awaiting _ now other)
  | failed patches waits place final =>
    obtain ⟨after, first⟩ := first_of_stopped each patches waits place answered
    refine .failed first final ?_ ?_ fun kind unstable other => ?_
    · rw [Trial.awaiting_eq]
      rfl
    · exact (Ledger.standing?_record _ _ now _ _).trans (if_pos rfl)
    · exact (Ledger.find?_record_of_ne _ _ now _ other).trans (t.find?_awaiting _ now unstable)
  | waiting all longest =>
    have script_eq := all_of_waiting each all answered
    have said : messages (_ : Transcript) ≠ [] := mt messages_eq_nil.mp (Option.ne_none_iff_exists'.mpr ⟨_, longest⟩)
    obtain ⟨before, q, after, rfl, rfl, shorter, le, last⟩ := longest_request longest
    refine .waiting script_eq shorter le ?_ ?_ fun kind other => t.find?_awaiting _ now other
    · rw [Trial.awaiting_eq]
    · rw [List.getLast?_eq_some_getLast said] at last
      rw [t.standing?_awaiting now said, Option.some.inj last]
      rfl
  | idle still =>
    rw [still] at each
    exact .idle (List.map_eq_nil_iff.mp each)

end

end Scan

namespace Pass

variable {settings : Settings} {now : Instant} {t : Trial}

def resume (settings : Settings) (t : Trial) (now : Instant) : Scan → Plan Outcome
  | .changed u => commit t.spec u .done
  | .waiting u delay => commit t.spec u (.requeueAfter delay)
  | .idle => advance settings t now

theorem proceed_eq_bind (settings : Settings) (t : Trial) (now : Instant) :
    proceed settings t now = (t.scan now).bind (resume settings t now) := rfl

/-- For every outcome of each waiting patch, in order: the scan comes to an end with them, and every end to which
it comes with them is what the script says. The first outcome that is no request settles its patch or fails the
trial, and nothing behind it is probed. If all are requests, the longest delay is asked for, with the message of
the first request of it. Then a pass of the trial commits the trial and asks for the delay; if no patch waits, it
goes on with the trial as it was read. -/
theorem scan_finds_first_end {script : List (Patch × Except Unsettled Unit)} (each : script.map Prod.fst = t.waiting)
    (now : Instant) :
    (∃ told scan, (t.scan now).Reaches told (.done scan) ∧ told.verdicts.reverse <+: script.map Prod.snd) ∧
      ∀ told scan, (t.scan now).Reaches told (.done scan) → told.verdicts.reverse <+: script.map Prod.snd →
        Scan.Found t script told scan ∧ ∀ settings key, t.isLive = true →
          (reconcile settings key now).Reaches (told ++ [⟨.getTrial key, .ok t⟩]) (resume settings t now scan) := by
  refine ⟨?_, fun told scan reaches answered => ⟨?_, fun settings key live => ?_⟩⟩
  · refine Scan.scanFrom_follows t.spec.patches t none [] (script.map Prod.snd) ?_
    have lengths := congrArg List.length each
    rwa [List.length_map] at lengths ⊢
  · have ends := ((Scan.scanFrom_ends t.spec.patches [] [] rfl rfl).asked reaches).2
    rw [List.map_nil, List.reverse_nil, List.append_nil] at ends
    exact ends.found each answered
  · have proceeding : (proceed settings t now).Reaches told (resume settings t now scan) := by
      rw [proceed_eq_bind]
      exact reaches.bind (resume settings t now)
    refine Plan.Reaches.after (c := .getTrial key) (.ok t) ?_
    rw [Trial.isLive_eq, Bool.not_eq_true'] at live
    dsimp only
    rwa [if_neg (by simp [live])]

/-- Two patches ask for the same delay and a third one for less: the message is that of the first. -/
theorem first_of_two_equal_delays_speaks :
    let patch (name : String) : Patch := .waiting ⟨"Deployment", "ns", name⟩
    let pending (m : String) (n : UInt64) : Except Unsettled Unit := .error (.pending m (.ofSeconds n))
    let t := { Trial.named "ns" "t1" with
      spec.patches := [patch "a", { patch "still" with waits := false }, patch "b", patch "c"] }
    let script := [(patch "a", pending "first" 2), (patch "b", pending "second" 2), (patch "c", pending "third" 1)]
    ∃ told u, (t.scan default).Reaches told (.done (.waiting u (.ofSeconds 2))) ∧
      Scan.Found t script told (.waiting u (.ofSeconds 2)) ∧
      u.status.conditions.standing? .stable = some ⟨.false, "Waiting", "first"⟩ ∧
      (reconcile .standard t.key default).Reaches (told ++ [⟨.getTrial t.key, .ok t⟩])
        (commit t.spec u (.requeueAfter (.ofSeconds 2))) := by
  intro patch pending t script
  have each : script.map Prod.fst = t.waiting := rfl
  obtain ⟨⟨told, scan, reaches, answered⟩, finds⟩ := scan_finds_first_end each default
  obtain ⟨found, passes⟩ := finds told scan reaches answered
  have passes := passes .standard t.key rfl
  have requests : ∀ x ∈ script, ∃ e, x.2 = .error e ∧ e.retryDelay? ≠ none := by
    simp only [script, pending, List.forall_mem_cons]
    exact ⟨⟨_, rfl, by decide⟩, ⟨_, rfl, by decide⟩, ⟨_, rfl, by decide⟩, by simp⟩
  cases found with
  | @settled qs p after seen rest u first patches place cleared stable others =>
    obtain ⟨e, ended, -⟩ := requests (p, .ok ()) (by rw [first]; simp)
    cases ended
  | @failed qs p e after u first final kept failed others =>
    obtain ⟨e', ended, positive⟩ := requests (p, .error e) (by rw [first]; simp)
    cases ended
    exact absurd final positive
  | idle still => exact absurd still (List.cons_ne_nil _ _)
  | @waiting before after q u all shorter longest kept stable others =>
    have asked {x : Request} {m : String} {n : UInt64} {p : Patch} (h : (p, pending m n) = x.pair) :
        x.message = m ∧ x.delay = .ofSeconds n :=
      (Unsettled.pending.inj (Except.error.inj (Prod.mk.inj h).2)).imp Eq.symm Eq.symm
    have bound : q.delay ≤ .ofSeconds 2 := by
      have mem : q.pair ∈ script := by rw [all]; simp
      simp only [script, List.mem_cons, List.not_mem_nil, or_false] at mem
      rcases mem with h | h | h
      all_goals
        rw [(asked h.symm).2]
        decide
    have first : q.message = "first" ∧ q.delay = .ofSeconds 2 := by
      cases before with
      | nil => exact asked (List.cons.inj all).1
      | cons x before =>
        have less := shorter x (List.mem_cons_self ..)
        rw [(asked (List.cons.inj all).1).2] at less
        exact absurd bound (Nat.not_le_of_gt less)
    rw [← first.2]
    refine ⟨_, u, reaches, .waiting all shorter longest kept stable others, ?_, passes⟩
    rw [stable, first.1]

end Pass

end TrialControl
