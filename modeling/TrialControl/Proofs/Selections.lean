import Mathlib.Data.List.Nodup
import TrialControl.Proofs.Versions

/-!
# Selections

A selector that is well formed accepts the labels that it asks for and no others. What is selected from a table
are the objects of a namespace, or of all, that carry such labels, each once and by name. Two walks of the table
select the same objects, and in the same order unless objects of one name come from several namespaces.
-/

namespace TrialControl

namespace Requirement

variable (r : Requirement) (labels : Labels)

def Asks : Prop :=
  match r.operator with
  | .within => ∃ v ∈ r.values, labels.get? r.key = some v
  | .notWithin => ∀ v ∈ r.values, labels.get? r.key ≠ some v
  | .present => labels.get? r.key ≠ none
  | .absent => labels.get? r.key = none

/-- A requirement on no label, or with values where its operator takes none, or without where it takes some. -/
def IllFormed : Prop :=
  r.key = "" ∨
    match r.operator with
    | .within | .notWithin => r.values = []
    | .present | .absent => r.values ≠ []

theorem accepts_iff : r.accepts labels = true ↔ r.Asks labels := by
  obtain ⟨key, operator, values⟩ := r
  unfold accepts Asks
  cases operator <;> cases labels.get? key <;> simp [← List.forall_mem_ne]

theorem fault?_eq_none_iff : r.fault? = none ↔ ¬ r.IllFormed := by
  obtain ⟨key, operator, values⟩ := r
  unfold fault? IllFormed
  by_cases unnamed : key = ""
  · simp [unnamed]
  · cases operator <;> simp [unnamed]

end Requirement

namespace Selector

variable (s : Selector) (labels : Labels)

def Asks : Prop :=
  (∀ k v, s.exact.get? k = some v → labels.get? k = some v) ∧ ∀ r ∈ s.requirements, r.Asks labels

def IllFormed : Prop := s.exact.get? "" ≠ none ∨ ∃ r ∈ s.requirements, r.IllFormed

theorem accepts_iff : s.accepts labels = true ↔ s.Asks labels := by
  unfold accepts Asks
  simp only [Bool.and_eq_true, List.all_eq_true, beq_iff_eq, Requirement.accepts_iff, Table.get?_eq_some_iff]
  exact and_congr_left' ⟨fun exact k v mem => exact (k, v) mem, fun exact e mem => exact e.1 e.2 mem⟩

theorem fault?_eq_none_iff : s.fault? = none ↔ ¬ s.IllFormed := by
  unfold fault? IllFormed
  have found : s.exact.contains "" = true ↔ s.exact.get? "" ≠ none := Option.isSome_iff_ne_none
  by_cases unnamed : s.exact.contains "" = true
  · rw [if_pos unnamed]
    simp [found.mp unnamed]
  · rw [if_neg unnamed, List.findSome?_eq_none_iff]
    simp only [Requirement.fault?_eq_none_iff]
    simp [mt found.mpr unnamed]

theorem validate_cases : (s.IllFormed ∧ ∃ reason, s.validate = .error (.invalidSelector reason)) ∨
    ¬ s.IllFormed ∧ s.validate = .ok () := by
  unfold validate
  cases fault : s.fault? with
  | none => exact .inr ⟨s.fault?_eq_none_iff.mp fault, rfl⟩
  | some reason =>
    refine .inl ⟨by_contra fun fine => ?_, reason, rfl⟩
    rw [s.fault?_eq_none_iff.mpr fine] at fault
    cases fault

end Selector

theorem Table.nodup_keys {α : Type} (table : Table ObjectKey α) : table.keys.Nodup := by
  rw [keys, List.Nodup, List.pairwise_map]
  refine table.ascending.imp fun {a b} lt same => ?_
  rw [same, Std.compare_self] at lt
  cases lt

namespace Store

variable {α : Type} (table : Table ObjectKey α) (key : α → ObjectKey) (labels : α → Labels) (ns : Option String)
variable (selector : Selector)

def pick (met : List (ObjectKey × α)) : List (ObjectKey × α) :=
  (met.filter fun e => inNamespace ns e.1 && selector.accepts (labels e.2)).mergeSort fun a b => a.1.name ≤ b.1.name

def sift (met : List (ObjectKey × α)) : List α := (pick labels ns selector met).map (·.2)

theorem select_eq (walk : table.Walk) : select walk labels ns selector =
    selector.validate.map fun _ => sift labels ns selector walk.met := rfl

/-- All objects of a namespace, or of all namespaces, with the labels asked for, each once and by name. -/
structure Lists (found : List α) : Prop where
  mem_iff : ∀ a, a ∈ found ↔
    table.get? (key a) = some a ∧ (∀ n, ns = some n → (key a).ns = n) ∧ selector.Asks (labels a)
  distinct : (found.map key).Nodup
  byName : found.Pairwise fun a b => (key a).name ≤ (key b).name

def Answers (answer : Except Error (List α)) : Prop :=
  (selector.IllFormed ∧ ∃ reason, answer = .error (.invalidSelector reason)) ∨
    ¬ selector.IllFormed ∧ ∃ found, answer = .ok found ∧ Lists table key labels ns selector found

/-- Two answers with the same objects, which stand in the same order unless objects of one name come from several
namespaces. -/
def Agree : Except Error (List α) → Except Error (List α) → Prop
  | .ok found, .ok found' => found'.Perm found ∧ (ns ≠ none ∨ (found.map fun a => (key a).name).Nodup → found' = found)
  | answer, answer' => answer' = answer

variable {table key labels ns selector} {found found' : List α} {answer : Except Error (List α)}

theorem Agree.eq_ok (agree : Agree key ns (.ok found) answer)
    (clear : ns ≠ none ∨ (found.map fun a => (key a).name).Nodup) : answer = .ok found := by
  cases answer with
  | error e => exact agree
  | ok found' => exact congrArg Except.ok (agree.2 clear)

namespace Lists

theorem nodup (lists : Lists table key labels ns selector found) : found.Nodup := lists.distinct.of_map _

theorem perm (lists : Lists table key labels ns selector found) (lists' : Lists table key labels ns selector found') :
    found'.Perm found := by
  refine (List.perm_ext_iff_of_nodup lists'.nodup lists.nodup).mpr fun a => ?_
  rw [lists.mem_iff, lists'.mem_iff]

theorem names (lists : Lists table key labels ns selector found) (within : ns ≠ none) :
    (found.map fun a => (key a).name).Nodup := by
  obtain ⟨n, rfl⟩ := Option.ne_none_iff_exists'.mp within
  refine List.Nodup.map_on (fun a mem b mem' same => ?_) lists.nodup
  obtain ⟨there, here, -⟩ := (lists.mem_iff a).mp mem
  obtain ⟨there', here', -⟩ := (lists.mem_iff b).mp mem'
  have keys : key a = key b := by
    have ns : (key a).ns = (key b).ns := (here n rfl).trans (here' n rfl).symm
    calc key a = ⟨(key a).ns, (key a).name⟩ := rfl
      _ = ⟨(key b).ns, (key b).name⟩ := by rw [ns, same]
  rw [keys, there'] at there
  exact (Option.some.inj there).symm

theorem eq_of_names (lists : Lists table key labels ns selector found)
    (lists' : Lists table key labels ns selector found') (names : (found.map fun a => (key a).name).Nodup) :
    found' = found := by
  have perm := lists.perm lists'
  refine perm.eq_of_pairwise (fun a b mem mem' le le' => ?_) lists'.byName lists.byName
  exact List.inj_on_of_nodup_map names (perm.mem_iff.mp mem) mem' (String.le_antisymm le le')

end Lists

/-! ## What is selected -/

section
variable {met : List (ObjectKey × α)}

theorem mem_pick {e : ObjectKey × α} : e ∈ pick labels ns selector met ↔
    e ∈ met ∧ (∀ n, ns = some n → e.1.ns = n) ∧ selector.Asks (labels e.2) := by
  have within : inNamespace ns e.1 = true ↔ ∀ n, ns = some n → e.1.ns = n := by
    cases ns with
    | none => simp [inNamespace]
    | some n => simpa [inNamespace] using eq_comm
  rw [pick, List.mem_mergeSort, List.mem_filter, Bool.and_eq_true, within, Selector.accepts_iff]

theorem nodup_pick (distinct : (met.map (·.1)).Nodup) : ((pick labels ns selector met).map (·.1)).Nodup := by
  have sorted := List.mergeSort_perm (met.filter fun e => inNamespace ns e.1 && selector.accepts (labels e.2))
    fun a b => a.1.name ≤ b.1.name
  exact (sorted.map _).nodup_iff.mpr (distinct.sublist (List.filter_sublist.map _))

theorem pairwise_pick : (pick labels ns selector met).Pairwise fun a b => a.1.name ≤ b.1.name := pairwise_byName _

end

section
variable (keyed : ∀ k a, table.get? k = some a → key a = k) (walk : table.Walk)
include keyed

theorem lists_sift : Lists table key labels ns selector (sift labels ns selector walk.met) := by
  have stored (k : ObjectKey) (a : α) : (k, a) ∈ walk.met ↔ table.get? k = some a := by
    rw [walk.perm.mem_iff, Table.get?_eq_some_iff]
  have own {e : ObjectKey × α} (mem : e ∈ pick labels ns selector walk.met) : key e.2 = e.1 :=
    keyed _ _ ((stored e.1 e.2).mp (mem_pick.mp mem).1)
  constructor
  · intro a
    simp only [sift, List.mem_map, mem_pick]
    constructor
    · rintro ⟨⟨k, b⟩, ⟨mem, here, asks⟩, rfl⟩
      have there := (stored k b).mp mem
      obtain rfl := keyed k b there
      exact ⟨there, here, asks⟩
    · rintro ⟨there, here, asks⟩
      exact ⟨(key a, a), ⟨(stored _ a).mpr there, here, asks⟩, rfl⟩
  · have keys : (sift labels ns selector walk.met).map key = (pick labels ns selector walk.met).map (·.1) := by
      rw [sift, List.map_map]
      exact List.map_congr_left fun e mem => own mem
    rw [keys]
    exact nodup_pick ((walk.perm.map _).nodup_iff.mpr table.nodup_keys)
  · rw [sift, List.pairwise_map]
    have sorted : (pick labels ns selector walk.met).Pairwise fun a b => a.1.name ≤ b.1.name := pairwise_pick
    refine sorted.imp_of_mem fun {a b} mem mem' le => ?_
    rw [own mem, own mem']
    exact le

theorem answers_select : Answers table key labels ns selector (select walk labels ns selector) := by
  rw [select_eq]
  rcases selector.validate_cases with ⟨ill, reason, refused⟩ | ⟨fine, valid⟩
  · rw [refused]
    exact .inl ⟨ill, reason, rfl⟩
  · rw [valid]
    exact .inr ⟨fine, _, rfl, lists_sift keyed walk⟩

theorem agree_select {table' : Table ObjectKey α} (same : table' = table) (walk' : table'.Walk) :
    Agree key ns (select walk labels ns selector) (select walk' labels ns selector) := by
  subst same
  rw [select_eq, select_eq]
  cases selector.validate with
  | error e => exact rfl
  | ok _ =>
    have lists : Lists table' key labels ns selector (sift labels ns selector walk.met) := lists_sift keyed walk
    have lists' : Lists table' key labels ns selector (sift labels ns selector walk'.met) := lists_sift keyed walk'
    exact ⟨lists.perm lists', fun clear => lists.eq_of_names lists' (clear.elim lists.names id)⟩

end

end Store

end TrialControl
