import TrialControl.Error
import TrialControl.Logging.Filter
import TrialControl.Text.Quoted

/-!
# Logging

Logging is installed at most once. The filter of the environment wins over the configured one if it
can be read, and a filter that cannot be read installs nothing.
-/

namespace TrialControl

inductive LogFormat where
  | pretty
  | json
deriving DecidableEq, Inhabited

structure LoggingSettings where
  /-- A filter: a level, or directives for single targets. -/
  level : String
  format : LogFormat
deriving DecidableEq

def LoggingSettings.standard : LoggingSettings := ⟨"info", .pretty⟩

instance : Inhabited LoggingSettings := ⟨.standard⟩

namespace Logging

/-- Installs logging; the result is whether it is installed afterwards. -/
def install (environment : Option String) (installed : Bool) (s : LoggingSettings) : Except Error Unit × Bool :=
  if installed then (.error (.logging "logging already initialized"), true)
  else if environment.any isFilter || isFilter s.level then (.ok (), true)
  else (.error (.logging ("invalid log level " ++ Text.quoted s.level)), false)

def installAll (environment : Option String) : Bool → List LoggingSettings → List (Except Error Unit)
  | _, [] => []
  | installed, s :: rest =>
    let (result, installed) := install environment installed s
    result :: installAll environment installed rest

end Logging

end TrialControl
