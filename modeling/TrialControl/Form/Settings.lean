import TrialControl.Form.Trial
import TrialControl.Json.Reader
import TrialControl.Settings

/-!
# JSON form of settings

Durations are written in milliseconds: the rest is dropped, and what 64 bits do not hold is written
as the greatest number that they do. Every field has a default.
-/

namespace TrialControl

instance : Form LogFormat where
  encode
    | .pretty => .text "pretty"
    | .json => .text "json"
  decode? d := do
    match ← d.tag? with
    | "pretty" => some .pretty
    | "json" => some .json
    | _ => none

instance : Form LoggingSettings where
  encode s := .ofFields [("level", encode s.level), ("format", encode s.format)]
  decode? d := d.record? ["level", "format"] fun d => do
    let level ← d.getOr? "level" LoggingSettings.standard.level
    let format ← d.getOr? "format" LoggingSettings.standard.format
    some ⟨level, format⟩

/-- Milliseconds as 64 bits hold them. -/
def Duration.boundedMillis (d : Duration) : UInt64 := .ofNat (min d.millis 18_446_744_073_709_551_615)

def Duration.ofRecord? (d : Document) (name : String) (default : Duration) : Option Duration :=
  (d.getOr? name default.boundedMillis).map .ofMillis

instance : Form Settings where
  encode s := .ofFields
    [("stable_grace_ms", encode s.grace.boundedMillis), ("max_concurrent_reconciles", encode s.concurrency),
     ("error_backoff_initial_ms", encode s.firstDelay.boundedMillis),
     ("error_backoff_max_ms", encode s.greatestDelay.boundedMillis), ("workload", encode s.workload),
     ("logging", encode s.logging)]
  decode? d := d.record?
    ["stable_grace_ms", "max_concurrent_reconciles", "error_backoff_initial_ms", "error_backoff_max_ms",
     "workload", "logging"] fun d => do
    let grace ← Duration.ofRecord? d "stable_grace_ms" Settings.standard.grace
    let concurrency ← d.getOr? "max_concurrent_reconciles" Settings.standard.concurrency
    let firstDelay ← Duration.ofRecord? d "error_backoff_initial_ms" Settings.standard.firstDelay
    let greatestDelay ← Duration.ofRecord? d "error_backoff_max_ms" Settings.standard.greatestDelay
    let workload ← d.getOr? "workload" Settings.standard.workload
    let logging ← d.getOr? "logging" Settings.standard.logging
    some ⟨grace, concurrency, firstDelay, greatestDelay, workload, logging⟩

namespace Settings

def ofText (s : String) : Except Error Settings :=
  match ((Document.ofText? s).bind decode? : Option Settings) with
  | some settings => settings.validate.map fun _ => settings
  | none => .error .unreadable

end Settings

end TrialControl
