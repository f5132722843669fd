import TrialControl.Logging.Basic
import TrialControl.Power
import TrialControl.Text.Blank
import TrialControl.Time.Duration
import TrialControl.Workload.Template

/-!
# Settings

The settings of a controller. A failing trial is tried again after a delay that doubles with every
failure in a row, from the first delay up to the greatest.
-/

namespace TrialControl

structure Settings where
  /-- How long a trial has to stay stable before it goes on. -/
  grace : Duration
  /-- Trials reconciled at the same time. -/
  concurrency : UInt64
  /-- The delay after the first failure. -/
  firstDelay : Duration
  greatestDelay : Duration
  workload : WorkloadDefaults
  logging : LoggingSettings
deriving DecidableEq

namespace Settings

def standard : Settings := ⟨.ofSeconds 1, 4, .ofMillis 100, .ofSeconds 30, .standard, .standard⟩

instance : Inhabited Settings := ⟨standard⟩

def fault? (s : Settings) : Option String :=
  if Text.trim s.workload.image = "" then some "default workload image must not be empty"
  else if s.concurrency = 0 then some "max_concurrent_reconciles must be at least 1"
  else if s.greatestDelay < s.firstDelay then
    some s!"error backoff initial {s.firstDelay.text} exceeds maximum {s.greatestDelay.text}"
  else none

def validate (s : Settings) : Except Error Unit :=
  match s.fault? with
  | some reason => .error (.invalidConfig reason)
  | none => .ok ()

theorem validate_eq_ok_iff {s : Settings} :
    s.validate = .ok () ↔ Text.trim s.workload.image ≠ "" ∧ s.concurrency ≠ 0 ∧ s.firstDelay ≤ s.greatestDelay := by
  have order : ¬ s.greatestDelay < s.firstDelay ↔ s.firstDelay ≤ s.greatestDelay := Nat.not_lt
  rw [← order]
  unfold validate fault?
  by_cases blank : Text.trim s.workload.image = ""
  · simp [blank]
  · by_cases idle : s.concurrency = 0
    · simp [blank, idle]
    · by_cases inverted : s.greatestDelay < s.firstDelay <;> simp [blank, idle, inverted]

def mostDoublings : Nat := 31

/-- The delay after a number of failures in a row. -/
def retryDelay (s : Settings) (failures : Nat) : Duration :=
  (s.firstDelay.times (twoTo (min (failures - 1) mostDoublings))).shorter s.greatestDelay

end Settings

end TrialControl
