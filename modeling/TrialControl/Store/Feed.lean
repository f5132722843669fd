import TrialControl.Store.Basic

/-!
# The feed of changes

A listener reads the changes of a store in order, by the number of changes that it has taken in. The
feed keeps the latest 1024 changes; a listener that is further behind is told that changes were lost,
and goes on with the oldest one that is kept.
-/

namespace TrialControl

inductive News where
  | nothing
  | change (change : Change)
  | lost
deriving DecidableEq, Inhabited

namespace Store

def feedCapacity : Nat := 1024

/-- What a listener finds after `heard` changes, and its next position. -/
def listen (s : Store) (heard : Nat) : News × Nat :=
  let unheard := s.log.length - heard
  if unheard = 0 then (.nothing, heard)
  else if feedCapacity < unheard then (.lost, s.log.length - feedCapacity)
  else
    match s.log[unheard - 1]? with
    | some c => (.change c, heard + 1)
    | none => (.nothing, heard)

end Store

end TrialControl
