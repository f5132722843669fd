import TrialControl.Object.Metadata

/-!
# Label selectors

A selector is a conjunction of exact labels and of requirements on single labels. Whether it is well
formed is asked apart from matching, so that a malformed one is refused instead of matching nothing.
-/

namespace TrialControl

inductive Operator where
  | within
  | notWithin
  | present
  | absent
deriving DecidableEq, Inhabited

def Operator.name : Operator → String
  | .within => "In"
  | .notWithin => "NotIn"
  | .present => "Exists"
  | .absent => "DoesNotExist"

structure Requirement where
  key : String
  operator : Operator
  values : List String
deriving DecidableEq, Inhabited

structure Selector where
  exact : Labels
  requirements : List Requirement
deriving DecidableEq, Inhabited

namespace Requirement

def fault? (r : Requirement) : Option String :=
  if r.key = "" then some "empty requirement key"
  else
    match r.operator with
    | .within | .notWithin =>
      if r.values = [] then some s!"{r.operator.name} requirement on {r.key} needs at least one value" else none
    | .present | .absent =>
      if r.values = [] then none else some s!"{r.operator.name} requirement on {r.key} must not have values"

def accepts (r : Requirement) (labels : Labels) : Bool :=
  match r.operator, labels.get? r.key with
  | .within, some v => r.values.contains v
  | .within, none => false
  | .notWithin, some v => !r.values.contains v
  | .notWithin, none => true
  | .present, v => v.isSome
  | .absent, v => v.isNone

end Requirement

namespace Selector

def everything : Selector := ⟨∅, []⟩

def withLabel (s : Selector) (key value : String) : Selector := { s with exact := s.exact.insert key value }

def withRequirement (s : Selector) (r : Requirement) : Selector := { s with requirements := s.requirements ++ [r] }

def fault? (s : Selector) : Option String :=
  if s.exact.contains "" then some "empty label key" else s.requirements.findSome? Requirement.fault?

def validate (s : Selector) : Except Error Unit :=
  match s.fault? with
  | some reason => .error (.invalidSelector reason)
  | none => .ok ()

def accepts (s : Selector) (labels : Labels) : Bool :=
  (s.exact.entries.all fun e => labels.get? e.1 == some e.2) && s.requirements.all (·.accepts labels)

end Selector

end TrialControl
