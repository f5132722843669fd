import TrialControl.Trial.Basic

/-!
# Captures

One attempt at collecting a metric gives a result or fails. A failure with a positive delay is
transient, every other one uses up an attempt. A result that is not finite has no text to store and
counts as a failure.
-/

namespace TrialControl

structure CaptureFailure where
  message : String
  delay : Option Duration
  address : Option String
  query : Option String
  /-- The completion time that was asked about. -/
  completion : Option Instant
deriving DecidableEq, Inhabited

namespace CaptureFailure

def final (message : String) : CaptureFailure := ⟨message, none, none, none, none⟩

def transient (message : String) (delay : Duration) : CaptureFailure := { final message with delay := some delay }

def ofError (e : Error) : CaptureFailure := final e.message

/-- When to try again without using up an attempt. -/
def retryDelay? (f : CaptureFailure) : Option Duration := f.delay.filter fun d => !d.isZero

end CaptureFailure

def Captured.finite (metric : String) (c : Captured) : Except CaptureFailure Captured :=
  if c.value.isFinite && c.deviation.isFinite then .ok c
  else
    .error (.final
      s!"metric {metric} produced a non-finite value ({c.value.text}, stddev {c.deviation.text})")

end TrialControl
