import TrialControl.Store.Basic

/-!
# Listings

A listing gives the objects of one namespace, or of all, whose labels a selector accepts, in order of
their names. A malformed selector is refused. The objects of a store are met in no order of their own,
and objects of one name, which lie in different namespaces, are listed as they are met.
-/

namespace TrialControl.Store

/-- Whether a key lies in a namespace; every key lies in none. -/
def inNamespace (ns : Option String) (key : ObjectKey) : Bool := ns.all (· == key.ns)

/-- The objects of a table in a namespace that a selector accepts, by name. -/
def select {α : Type} {table : Table ObjectKey α} (walk : table.Walk) (labels : α → Labels) (ns : Option String)
    (selector : Selector) : Except Error (List α) := do
  selector.validate
  let found := walk.met.filter fun e => inNamespace ns e.1 && selector.accepts (labels e.2)
  return (found.mergeSort fun a b => a.1.name ≤ b.1.name).map (·.2)

section
variable (s : Store)

def listTrials (walk : s.trials.Walk := s.trials.inOrder) : List Trial := walk.met.map (·.2)

def listWorkloads (ns : String) (selector : Selector) (walk : s.workloads.Walk := s.workloads.inOrder) :
    Except Error (List Workload) :=
  select walk (·.metadata.labels) (some ns) selector

def listUnits (ns : Option String) (selector : Selector) (walk : s.units.Walk := s.units.inOrder) :
    Except Error (List ExecutionUnit) :=
  select walk (·.metadata.labels) ns selector

def listServices (ns : Option String) (selector : Selector) (walk : s.services.Walk := s.services.inOrder) :
    Except Error (List ServiceEndpoint) :=
  select walk (·.labels) ns selector

end

end TrialControl.Store
