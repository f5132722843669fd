import TrialControl.Error
import TrialControl.Table
import TrialControl.Text.Quoted

/-!
# Object keys

An object is identified by its namespace and its name within it. A key is written with a slash
between the two, and read back when both are non-empty and hold no slash. Keys are ordered by
namespace, then by name.
-/

namespace TrialControl

structure ObjectKey where
  ns : String
  name : String
deriving DecidableEq, Inhabited

namespace ObjectKey

instance : Ord ObjectKey := ⟨compareLex (compareOn ObjectKey.ns) (compareOn ObjectKey.name)⟩

instance : Std.TransOrd ObjectKey :=
  inferInstanceAs (Std.TransCmp (compareLex (compareOn ObjectKey.ns) (compareOn ObjectKey.name)))

theorem compare_def (a b : ObjectKey) : compare a b = (compare a.ns b.ns).then (compare a.name b.name) := rfl

instance : Std.LawfulEqOrd ObjectKey where
  eq_of_compare {a b} h := by
    rw [compare_def, Ordering.then_eq_eq, Std.compare_eq_iff_eq, Std.compare_eq_iff_eq] at h
    cases a; cases b; simp_all

def text (k : ObjectKey) : String := k.ns ++ "/" ++ k.name

/-- The key that a text spells: the parts before and after its only slash. -/
def ofText (s : String) : Except Error ObjectKey :=
  let ns := s.toList.takeWhile (· ≠ '/')
  match s.toList.dropWhile (· ≠ '/') with
  | _ :: name =>
    if ns ≠ [] ∧ name ≠ [] ∧ '/' ∉ name then .ok ⟨String.ofList ns, String.ofList name⟩ else .error refusal
  | [] => .error refusal
where
  refusal : Error := .other ("invalid object key " ++ Text.quoted s ++ ", expected <namespace>/<name>")

end ObjectKey

end TrialControl
