import TrialControl.Proofs.Transcripts
import TrialControl.Store.Listing

/-!
# Plans over a store

The store answers the questions of a plan that concern it; the prober and the capture client answer
theirs in any way and leave the store alone. A run of a plan takes one answer after the other. What a
plan asks and how it ends is stated without a store, for every answer that it may get.
-/

namespace TrialControl

/-! ## Answers -/

/-- The answer to a write and the store after it; a refused write leaves the store as it is. -/
def Store.taking {α : Type} (s : Store) : Except Error (α × Store) → Except Error α × Store
  | .ok (a, u) => (.ok a, u)
  | .error e => (.error e, s)

/-- The answers that a question may get, each with the store after it. Services are met in whatever order; within
a namespace the order does not matter, by `select_within`. -/
def Store.Replies (s : Store) : (c : Call) → c.Answer → Store → Prop
  | .getTrial key, r, u => r = s.getTrial key ∧ u = s
  | .updateTrial t part, r, u => (r, u) = s.taking (s.replaceTrial t part)
  | .getExperiment key, r, u => r = s.getExperiment key ∧ u = s
  | .listWorkloads ns selector, r, u => r = s.listWorkloads ns selector ∧ u = s
  | .createWorkload w, r, u => (r, u) = s.taking (s.createWorkload w)
  | .listUnits ns selector, r, u => r = s.listUnits (some ns) selector ∧ u = s
  | .listServices selector, r, u => (∃ walk, r = s.listServices none selector walk) ∧ u = s
  | .probe _, _, u => u = s
  | .capture .., _, u => u = s

def Call.looks : Call → Bool
  | .getTrial _ | .updateTrial .. | .createWorkload _ => false
  | _ => true

theorem Store.Replies.of_looks {s u : Store} {c : Call} {r : c.Answer} (reply : s.Replies c r u)
    (looks : c.looks = true) : u = s := by
  cases c with
  | getTrial key => cases looks
  | updateTrial t part => cases looks
  | createWorkload w => cases looks
  | getExperiment key => exact reply.2
  | listWorkloads ns selector => exact reply.2
  | listUnits ns selector => exact reply.2
  | listServices selector => exact reply.2
  | probe p => exact reply
  | capture m t target => exact reply

theorem Transcript.trial?_cons_of_looks {x : Exchange} {asked : Transcript} (looks : x.call.looks = true) :
    trial? (x :: asked) = asked.trial? := by
  obtain ⟨call, answer⟩ := x
  cases call with
  | getTrial key => cases looks
  | _ => rfl

namespace Plan

variable {α β : Type}

/-! ## Runs -/

/-- A run of a plan on a store without anything in between. -/
inductive Runs : Plan α → Store → α → Store → Prop where
  | done (a : α) (s : Store) : Runs (.done a) s a s
  | ask {c : Call} {next : c.Answer → Plan α} {s u v : Store} {r : c.Answer} {a : α}
      (reply : s.Replies c r u) (rest : Runs (next r) u a v) : Runs (.ask c next) s a v

@[simp] theorem runs_done {a b : α} {s u : Store} : (Plan.done a).Runs s b u ↔ b = a ∧ u = s := by
  constructor
  · intro h; cases h; exact ⟨rfl, rfl⟩
  · rintro ⟨rfl, rfl⟩; exact .done _ _

theorem runs_ask {c : Call} {next : c.Answer → Plan α} {s v : Store} {a : α} :
    (Plan.ask c next).Runs s a v ↔ ∃ r u, s.Replies c r u ∧ (next r).Runs u a v := by
  constructor
  · intro h; cases h with | ask reply rest => exact ⟨_, _, reply, rest⟩
  · rintro ⟨r, u, reply, rest⟩; exact .ask reply rest

/-- The plans that a plan comes to, each with the store at that time. -/
inductive Comes : Plan α → Store → Plan α → Store → Prop where
  | here (p : Plan α) (s : Store) : Comes p s p s
  | ask {c : Call} {next : c.Answer → Plan α} {s u v : Store} {r : c.Answer} {q : Plan α}
      (reply : s.Replies c r u) (rest : Comes (next r) u q v) : Comes (.ask c next) s q v

theorem Comes.of_done {a : α} {s u : Store} {q : Plan α} (comes : (Plan.done a).Comes s q u) : q = .done a := by
  cases comes with
  | here p s => rfl

/-! ## What a plan asks -/

/-- What a plan goes on with after an exchange of questions and answers. -/
inductive Reaches (p : Plan α) : Transcript → Plan α → Prop where
  | start : Reaches p [] p
  | answer {asked : Transcript} {c : Call} {next : c.Answer → Plan α} (reaches : Reaches p asked (.ask c next))
      (r : c.Answer) : Reaches p (⟨c, r⟩ :: asked) (next r)

theorem Reaches.asked {p q : Plan α} {asked : Transcript} (reaches : p.Reaches asked q) {x : Exchange}
    (mem : x ∈ asked) : ∃ before next, p.Reaches before (.ask x.call next) := by
  induction reaches with
  | start => cases mem
  | @answer asked c next reaches r ih =>
    rcases List.mem_cons.mp mem with rfl | mem
    · exact ⟨asked, next, reaches⟩
    · exact ih mem

/-- After what was asked before: every question that a plan may ask fulfils `P`, and every result that it
may have fulfils `Q` with what was asked by then. -/
def Ensures (P : Call → Prop) (Q : Transcript → α → Prop) : Transcript → Plan α → Prop
  | asked, .done a => Q asked a
  | asked, .ask c next => P c ∧ ∀ r, (next r).Ensures P Q (⟨c, r⟩ :: asked)

theorem Ensures.bind {P : Call → Prop} {Q : Transcript → α → Prop} {R : Transcript → β → Prop} {f : α → Plan β} :
    ∀ {p : Plan α} {asked : Transcript}, p.Ensures P Q asked →
      (∀ told a, Q told a → (f a).Ensures P R told) → (p.bind f).Ensures P R asked
  | .done _, _, h, hf => hf _ _ h
  | .ask _ _, _, h, hf => ⟨h.1, fun r => (h.2 r).bind hf⟩

theorem Reaches.of_ask {c : Call} {next : c.Answer → Plan α} {q : Plan α} {asked : Transcript}
    (reaches : (Plan.ask c next).Reaches asked q) :
    asked = [] ∧ q = .ask c next ∨ ∃ r later, asked = later ++ [⟨c, r⟩] ∧ (next r).Reaches later q := by
  induction reaches with
  | start => exact .inl ⟨rfl, rfl⟩
  | @answer asked d further reaches r ih =>
    right
    rcases ih with ⟨rfl, h⟩ | ⟨r', later, rfl, reached⟩
    · cases h
      exact ⟨r, [], rfl, .start⟩
    · exact ⟨r', ⟨d, r⟩ :: later, rfl, reached.answer r⟩

theorem Reaches.of_done {a : α} {q : Plan α} {asked : Transcript} (reaches : (Plan.done a).Reaches asked q) :
    asked = [] ∧ q = .done a := by
  induction reaches with
  | start => exact ⟨rfl, rfl⟩
  | answer reaches r ih => cases ih.2

theorem Ensures.asked {P : Call → Prop} {Q : Transcript → α → Prop} {p q : Plan α} {start asked : Transcript}
    (h : p.Ensures P Q start) (reaches : p.Reaches asked q) :
    (∀ x ∈ asked, P x.call) ∧ q.Ensures P Q (asked ++ start) := by
  induction reaches with
  | start => exact ⟨by simp, h⟩
  | answer reaches r ih =>
    obtain ⟨fulfilled, rest⟩ := ih
    exact ⟨List.forall_mem_cons.mpr ⟨rest.1, fulfilled⟩, rest.2 r⟩

/-! ## Runs with what was asked -/

/-- A run of a plan on a store after what was asked before, with all that was asked by its end. -/
inductive Tells : Plan α → Transcript → Store → Transcript → α → Store → Prop where
  | done (a : α) (asked : Transcript) (s : Store) : Tells (.done a) asked s asked a s
  | ask {c : Call} {next : c.Answer → Plan α} {asked told : Transcript} {s u v : Store} {r : c.Answer} {a : α}
      (reply : s.Replies c r u) (rest : Tells (next r) (⟨c, r⟩ :: asked) u told a v) :
      Tells (.ask c next) asked s told a v

theorem Tells.reaches {p q : Plan α} {asked told : Transcript} {s u : Store} {a : α} (tells : p.Tells asked s told a u)
    (reaches : q.Reaches asked p) : q.Reaches told (.done a) := by
  induction tells with
  | done a asked s => exact reaches
  | ask reply tells ih => exact ih (reaches.answer _)

theorem tells_done {a b : α} {asked told : Transcript} {s u : Store} :
    (Plan.done a).Tells asked s told b u ↔ told = asked ∧ b = a ∧ u = s := by
  constructor
  · intro tells
    cases tells
    exact ⟨rfl, rfl, rfl⟩
  · rintro ⟨rfl, rfl, rfl⟩
    exact .done _ _ _

theorem Tells.run {p : Plan α} {asked told : Transcript} {s u : Store} {a : α} (tells : p.Tells asked s told a u) :
    p.Runs s a u := by
  induction tells with
  | done a asked s => exact .done a s
  | ask reply rest ih => exact .ask reply ih

theorem tells_bind {p : Plan α} {f : α → Plan β} {asked told : Transcript} {s v : Store} {b : β}
    (tells : (p.bind f).Tells asked s told b v) :
    ∃ mid a u, p.Tells asked s mid a u ∧ (f a).Tells mid u told b v := by
  induction p generalizing asked s with
  | done a => exact ⟨asked, a, s, .done a asked s, tells⟩
  | ask c next ih =>
    cases tells with
    | ask reply rest =>
      obtain ⟨mid, a, u, first, rest⟩ := ih _ rest
      exact ⟨mid, a, u, .ask reply first, rest⟩

theorem Runs.tells {p : Plan α} {s u : Store} {a : α} (run : p.Runs s a u) (asked : Transcript) :
    ∃ told, p.Tells asked s told a u := by
  induction run generalizing asked with
  | done a s => exact ⟨asked, .done a asked s⟩
  | ask reply rest ih =>
    obtain ⟨told, tells⟩ := ih _
    exact ⟨told, .ask reply tells⟩

theorem Ensures.tells {Q : Transcript → α → Prop} {p : Plan α} {asked told : Transcript} {s u : Store} {a : α}
    (h : p.Ensures (·.looks = true) Q asked) (tells : p.Tells asked s told a u) : u = s ∧ Q told a := by
  induction tells with
  | done a asked s => exact ⟨rfl, h⟩
  | ask reply rest ih =>
    obtain rfl := reply.of_looks h.1
    exact ih (h.2 _)

end Plan

end TrialControl
