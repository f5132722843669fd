import TrialControl.Proofs.Plans
import TrialControl.Proofs.StoreSound
import TrialControl.Workload.Run

/-!
# Stored workloads

A workload is stored under its key, and no write removes it. What a trial finds with its own selector are
the stored workloads of its namespace that carry its label.
-/

namespace TrialControl

theorem eq_ok_of_toOption {α : Type} {r : Except Error α} {a : α} (h : r.toOption = some a) : r = .ok a := by
  cases r <;> cases h
  rfl

namespace Store

/-! ## Listings -/

section
variable {α : Type} {table : Table ObjectKey α} {labels : α → Labels} {selector : Selector} {found : List α}

theorem mem_select {walk : table.Walk} {ns : Option String} (h : select walk labels ns selector = .ok found) (a : α) :
    a ∈ found ↔ ∃ key, table.get? key = some a ∧ inNamespace ns key = true ∧ selector.accepts (labels a) = true := by
  unfold select at h
  cases valid : selector.validate with
  | error e =>
    rw [valid] at h
    cases h
  | ok _ =>
    rw [valid] at h
    cases h
    simp only [List.mem_map, List.mem_mergeSort, List.mem_filter, Bool.and_eq_true, Table.get?_eq_some_iff,
      walk.perm.mem_iff]
    constructor
    · rintro ⟨⟨key, b⟩, ⟨mem, here, accepted⟩, rfl⟩
      exact ⟨key, mem, here, accepted⟩
    · rintro ⟨key, mem, here, accepted⟩
      exact ⟨⟨key, a⟩, ⟨mem, here, accepted⟩, rfl⟩

theorem pairwise_byName (met : List (ObjectKey × α)) :
    (met.mergeSort fun a b => a.1.name ≤ b.1.name).Pairwise fun a b => a.1.name ≤ b.1.name := by
  have total (a b : ObjectKey × α) : (decide (a.1.name ≤ b.1.name) || decide (b.1.name ≤ a.1.name)) = true := by
    simpa using String.le_total a.1.name b.1.name
  have trans (a b c : ObjectKey × α) (h : decide (a.1.name ≤ b.1.name) = true)
      (h' : decide (b.1.name ≤ c.1.name) = true) : decide (a.1.name ≤ c.1.name) = true :=
    decide_eq_true (String.le_trans (of_decide_eq_true h) (of_decide_eq_true h'))
  exact (List.pairwise_mergeSort trans total met).imp of_decide_eq_true

/-- Within one namespace the keys of a table are in the order of names already, however they are met. -/
theorem select_within (walk : table.Walk) (labels : α → Labels) (ns : String) (selector : Selector) :
    select walk labels (some ns) selector = selector.validate.map fun _ =>
      (table.entries.filter fun e => inNamespace (some ns) e.1 && selector.accepts (labels e.2)).map (·.2) := by
  let p (e : ObjectKey × α) := inNamespace (some ns) e.1 && selector.accepts (labels e.2)
  have within {e : ObjectKey × α} (mem : e ∈ table.entries.filter p) : e.1.ns = ns := by
    simp only [p, List.mem_filter, Bool.and_eq_true, inNamespace, Option.all_some, beq_iff_eq] at mem
    exact mem.2.1.symm
  have ascending : (table.entries.filter p).Pairwise fun a b => a.1.name < b.1.name := by
    refine (table.ascending.filter _).imp_of_mem fun {a b} ha hb lt => ?_
    rw [ObjectKey.compare_def, within ha, within hb, Std.compare_self] at lt
    exact compareOfLessAndEq_eq_lt.mp lt
  have met : ((walk.met.filter p).mergeSort fun a b => a.1.name ≤ b.1.name).Perm (table.entries.filter p) :=
    (List.mergeSort_perm ..).trans (walk.perm.filter p)
  have sorted : (walk.met.filter p).mergeSort (fun a b => a.1.name ≤ b.1.name) = table.entries.filter p := by
    refine met.eq_of_pairwise (fun a b ha hb le le' => ?_) (pairwise_byName _) (ascending.imp Std.le_of_lt)
    have ha := met.mem_iff.mp ha
    have name := String.le_antisymm le le'
    have ns := (within ha).trans (within hb).symm
    have same : a.1 = b.1 := calc
      a.1 = ⟨a.1.ns, a.1.name⟩ := rfl
      _ = b.1 := by rw [ns, name]
    exact Table.entry_eq (List.mem_filter.mp ha).1 (List.mem_filter.mp hb).1 same
  unfold select
  dsimp only
  rw [sorted]
  rfl

theorem mem_select_within {walk : table.Walk} {ns : String} (h : select walk labels (some ns) selector = .ok found)
    (a : α) : a ∈ found ↔ ∃ key, table.get? key = some a ∧ key.ns = ns ∧ selector.accepts (labels a) = true := by
  have within (key : ObjectKey) : inNamespace (some ns) key = true ↔ key.ns = ns := by
    rw [inNamespace, Option.all_some, beq_iff_eq, eq_comm]
  simp only [mem_select h a, within]

end

theorem mem_listWorkloads {s : Store} {ns : String} {selector : Selector} {found : List Workload}
    (h : s.listWorkloads ns selector = .ok found) (w : Workload) :
    w ∈ found ↔ ∃ key, s.workloads.get? key = some w ∧ key.ns = ns ∧ selector.accepts w.metadata.labels = true :=
  mem_select_within h w

end Store

theorem Selector.accepts_own {t : Trial} (labels : Labels) :
    t.ownSelector.accepts labels = true ↔ labels.get? Label.trial = some t.metadata.name := by
  have entries : t.ownSelector.exact.entries = [(Label.trial, t.metadata.name)] := rfl
  have requirements : t.ownSelector.requirements = [] := rfl
  rw [accepts, entries, requirements, List.all_nil, Bool.and_true, List.all_cons, List.all_nil, Bool.and_true,
    beq_iff_eq]

namespace Store

variable {s u : Store} {key : ObjectKey} {n : Nat}

/-! ## Writes -/

inductive Wrote (s : Store) (w : Write) (u : Store) : Prop where
  | nothing (same : u = s)
  | trial {t : Trial} {commits : Nat} (puts : s.Puts w t) (stored : u = { (s.putTrial t).2 with commits })
  | workload {v : Workload} (stored : u = (s.placeWorkload v).2)
  | other (trials : u.trials = s.trials) (workloads : u.workloads = s.workloads) (log : u.log = s.log)

theorem wrote_after (s : Store) (w : Write) : s.Wrote w (s.after w) := by
  cases w with
  | createTrial t =>
    simp only [after, write, createTrial]
    cases there : s.trials.contains t.key with
    | true => exact .nothing rfl
    | false => exact .trial (.create (by simpa [Table.contains] using there)) rfl
  | markDeleted key at_ =>
    simp only [after, write, markDeleted_eq]
    cases there : s.trials.get? key with
    | none => exact .nothing rfl
    | some t => exact .trial (.delete there) rfl
  | updateTrial t part =>
    simp only [after, write, replaceTrial_eq]
    cases there : s.trials.get? t.key with
    | none => exact .nothing rfl
    | some stored =>
      dsimp only
      by_cases fresh : stored.metadata.version = t.metadata.version
      · rw [if_neg (not_not_intro fresh)]
        cases same : part.agrees stored t with
        | true => exact .nothing rfl
        | false => exact .trial (.replace there fresh same) rfl
      · rw [if_pos fresh]
        exact .nothing rfl
  | createWorkload w =>
    simp only [after, write, createWorkload]
    cases s.workloads.contains w.key with
    | true => exact .nothing rfl
    | false => exact .workload rfl
  | updateWorkloadStatus key status =>
    simp only [after, write, updateWorkloadStatus]
    cases s.workloads.get? key with
    | none => exact .nothing rfl
    | some w => exact .workload (v := { w with status }) rfl
  | putWorkload w => exact .workload rfl
  | putExperiment e => exact .other rfl rfl rfl
  | putUnit u => exact .other rfl rfl rfl
  | putService e => exact .other rfl rfl rfl
  | setRollout target r => exact .other rfl rfl rfl

theorem workloads_after (s : Store) (w : Write) :
    (s.after w).workloads = s.workloads ∨ ∃ v : Workload, (s.after w).workloads = s.workloads.insert v.key v := by
  cases wrote_after s w with
  | nothing same => exact .inl (by rw [same])
  | trial puts stored => exact .inl (by rw [stored]; rfl)
  | workload stored => exact .inr ⟨_, by rw [stored]; rfl⟩
  | other trials workloads log => exact .inl workloads

theorem workload_present_after (present : s.workloads.get? key ≠ none) (w : Write) :
    (s.after w).workloads.get? key ≠ none := by
  rcases workloads_after s w with h | ⟨v, h⟩
  · rwa [h]
  · rw [h, Table.get?_insert]
    split
    · simp
    · exact present

def Housed (s : Store) : Prop := ∀ key w, s.workloads.get? key = some w → w.key = key

theorem Housed.after (housed : s.Housed) (w : Write) : (s.after w).Housed := by
  intro key x
  rcases workloads_after s w with h | ⟨v, h⟩
  · rw [h]
    exact housed key x
  · rw [h, Table.get?_insert]
    split
    · next here =>
      rintro ⟨⟩
      exact here.symm
    · exact housed key x

theorem Built.housed (built : Built n s) : s.Housed := by
  induction built with
  | empty =>
    intro key w there
    cases there
  | write built w ih => exact ih.after w

theorem taking_createWorkload (s : Store) (w : Workload) :
    (s.workloads.get? w.key = none ∧
        s.taking (s.createWorkload w) = (.ok (s.placeWorkload w).1, (s.placeWorkload w).2)) ∨
      s.workloads.get? w.key ≠ none ∧
        s.taking (s.createWorkload w) = (.error (.alreadyExists .workload w.key.text), s) := by
  unfold createWorkload Table.contains
  cases there : s.workloads.get? w.key with
  | none => exact .inl ⟨rfl, rfl⟩
  | some v => exact .inr ⟨nofun, rfl⟩

theorem placeWorkload_present (s : Store) (w : Workload) : (s.placeWorkload w).2.workloads.get? w.key ≠ none := by
  have stored : (s.placeWorkload w).2.workloads.get? w.key = some (s.placeWorkload w).1 := Table.get?_insert_self ..
  rw [stored]
  nofun

end Store

end TrialControl
