/-!
# Errors

The causes for which a request to the store, the configuration or a collaborator is refused. Outcomes
of probing and capturing have types of their own, since they drive conditions of a trial instead.
-/

namespace TrialControl

inductive ObjectKind where
  | trial
  | experiment
  | workload
deriving DecidableEq, Inhabited

def ObjectKind.name : ObjectKind → String
  | .trial => "Trial"
  | .experiment => "Experiment"
  | .workload => "Workload"

inductive Error where
  | notFound (kind : ObjectKind) (subject : String)
  /-- The object was changed since it was read. -/
  | conflict (kind : ObjectKind) (subject : String)
  | alreadyExists (kind : ObjectKind) (subject : String)
  | invalidSelector (reason : String)
  /-- The trial names no parent experiment. -/
  | missingExperiment (trial : String)
  | invalidConfig (reason : String)
  /-- A document is not JSON, or not of the expected form. -/
  | unreadable
  | logging (reason : String)
  /-- A collaborator reported a failure. -/
  | client (reason : String)
  | other (message : String)
deriving DecidableEq, Inhabited

namespace Error

def message : Error → String
  | .notFound kind subject => s!"{kind.name} {subject} not found"
  | .conflict kind subject =>
    s!"conflict updating {kind.name} {subject}: the object has been modified\n" ++
      "Re-read the object and recompute the change"
  | .alreadyExists kind subject => s!"{kind.name} {subject} already exists"
  | .invalidSelector reason => "invalid label selector: " ++ reason
  | .missingExperiment trial => "cannot determine experiment for trial " ++ trial
  | .invalidConfig reason => "invalid configuration: " ++ reason
  | .unreadable => "unreadable document"
  | .logging reason => "logging initialization failed: " ++ reason
  | .client reason => "client error: " ++ reason
  | .other message => message

def isConflict : Error → Bool
  | .conflict .. => true
  | _ => false

def isNotFound : Error → Bool
  | .notFound .. => true
  | _ => false

end Error

end TrialControl
