import TrialControl.Pass.Observe
import TrialControl.Proofs.Selections

/-!
# Lookups

What a store shows of a workload, a unit or a service, but for the version, is what the writes of this one object
have made of it in turn. So a listing is a matter of these writes alone, and it does not show in which order
different objects were put. The target of a metric is such a listing, or nothing at all.
-/

namespace TrialControl

def Workload.unnumbered (w : Workload) : Workload := { w with metadata.version := 0 }

def ExecutionUnit.unnumbered (u : ExecutionUnit) : ExecutionUnit := { u with metadata.version := 0 }

def Table.map {κ ν : Type} [Ord κ] (f : ν → ν) (table : Table κ ν) : Table κ ν where
  entries := table.entries.map fun e => (e.1, f e.2)
  ascending := by
    rw [List.pairwise_map]
    exact table.ascending

def Table.Walk.map {κ ν : Type} [Ord κ] {table : Table κ ν} (walk : table.Walk) (f : ν → ν) : (table.map f).Walk :=
  ⟨walk.met.map fun e => (e.1, f e.2), walk.perm.map _⟩

namespace Store

/-! ## Single objects -/

inductive Item where
  | workload (key : ObjectKey)
  | unit (key : ObjectKey)
  | service (key : ObjectKey)
deriving DecidableEq

inductive Shown where
  | workload (workload : Workload)
  | unit (unit : ExecutionUnit)
  | service (service : ServiceEndpoint)

def shown (s : Store) : Item → Option Shown
  | .workload key => (s.workloads.get? key).map fun w => .workload w.unnumbered
  | .unit key => (s.units.get? key).map fun u => .unit u.unnumbered
  | .service key => (s.services.get? key).map .service

def Write.item? : Write → Option Item
  | .putWorkload w | .createWorkload w => some (.workload w.key)
  | .updateWorkloadStatus key _ => some (.workload key)
  | .putUnit u => some (.unit u.key)
  | .putService e => some (.service e.key)
  | _ => none

def Write.makes : Write → Option Shown → Option Shown
  | .putWorkload w, _ | .createWorkload w, none => some (.workload w.unnumbered)
  | .updateWorkloadStatus _ status, some (.workload w) => some (.workload { w with status })
  | .putUnit u, _ => some (.unit u.unnumbered)
  | .putService e, _ => some (.service e)
  | _, there => there

variable {s u : Store}

theorem shown_placeWorkload (s : Store) (w : Workload) (x : Item) :
    (s.placeWorkload w).2.shown x = if x = .workload w.key then some (.workload w.unnumbered) else s.shown x := by
  cases x with
  | workload key => exact map_get?_insert _ _ (fun _ _ h => Item.workload.inj h) ..
  | unit key => rfl
  | service key => rfl

theorem shown_putUnit (s : Store) (v : ExecutionUnit) (x : Item) :
    (s.putUnit v).shown x = if x = .unit v.key then some (.unit v.unnumbered) else s.shown x := by
  cases x with
  | unit key => exact map_get?_insert _ _ (fun _ _ h => Item.unit.inj h) ..
  | workload key => rfl
  | service key => rfl

theorem shown_putService (s : Store) (e : ServiceEndpoint) (x : Item) :
    (s.putService e).shown x = if x = .service e.key then some (.service e) else s.shown x := by
  cases x with
  | service key => exact map_get?_insert _ _ (fun _ _ h => Item.service.inj h) ..
  | workload key => rfl
  | unit key => rfl

theorem shown_congr (workloads : u.workloads = s.workloads) (units : u.units = s.units)
    (services : u.services = s.services) (x : Item) : u.shown x = s.shown x := by
  cases x with
  | workload key => rw [shown, shown, workloads]
  | unit key => rw [shown, shown, units]
  | service key => rw [shown, shown, services]

theorem shown_after_aside (s : Store) {w : Write} (aside : w.item? = none) (x : Item) :
    (s.after w).shown x = s.shown x := by
  cases w with
  | createTrial t =>
    simp only [after, write, createTrial]
    cases s.trials.contains t.key <;> exact shown_congr rfl rfl rfl x
  | markDeleted key at_ =>
    simp only [after, write, markDeleted_eq]
    cases s.trials.get? key <;> exact shown_congr rfl rfl rfl x
  | updateTrial t part =>
    have written := s.written (.updateTrial t part)
    unfold after
    generalize s.write (.updateTrial t part) = r at written
    cases written with
    | refused refuses => rfl
    | idle idle => rfl
    | trial puts => exact shown_congr rfl rfl rfl x
    | workload v other => cases other
  | putExperiment e => exact shown_congr rfl rfl rfl x
  | setRollout target r => exact shown_congr rfl rfl rfl x
  | putWorkload w => cases aside
  | createWorkload w => cases aside
  | updateWorkloadStatus key status => cases aside
  | putUnit u => cases aside
  | putService e => cases aside

theorem shown_of_item {y : Item} {f : Option Shown → Option Shown} (own : u.shown y = f (s.shown y))
    (others : ∀ x, x ≠ y → u.shown x = s.shown x) (x : Item) :
    u.shown x = if some y = some x then f (s.shown x) else s.shown x := by
  by_cases here : x = y
  · rw [here, if_pos rfl, own]
  · rw [if_neg fun same => here (Option.some.inj same).symm, others x here]

theorem shown_after (filed : s.Filed) (w : Write) (x : Item) :
    (s.after w).shown x = if w.item? = some x then w.makes (s.shown x) else s.shown x := by
  have placed (w : Workload) : (s.placeWorkload w).2.shown (.workload w.key) = some (.workload w.unnumbered) := by
    rw [shown_placeWorkload, if_pos rfl]
  have beside (w : Workload) (x : Item) (other : x ≠ .workload w.key) :
      (s.placeWorkload w).2.shown x = s.shown x := by
    rw [shown_placeWorkload, if_neg other]
  cases w with
  | putWorkload w => exact shown_of_item (placed w) (beside w) x
  | createWorkload w =>
    cases there : s.workloads.get? w.key with
    | none =>
      have created : s.after (.createWorkload w) = (s.placeWorkload w).2 := by
        simp [after, write, createWorkload, Table.contains, there, Except.map]
      rw [created]
      refine shown_of_item ((placed w).trans ?_) (beside w) x
      simp [shown, there, Write.makes]
    | some v =>
      have refused : s.after (.createWorkload w) = s := by
        simp [after, write, createWorkload, Table.contains, there, Except.map]
      rw [refused]
      exact shown_of_item (by simp [shown, there, Write.makes]) (fun _ _ => rfl) x
  | updateWorkloadStatus key status =>
    cases there : s.workloads.get? key with
    | none =>
      have refused : s.after (.updateWorkloadStatus key status) = s := by
        simp [after, write, updateWorkloadStatus, there]
      rw [refused]
      exact shown_of_item (by simp [shown, there, Write.makes]) (fun _ _ => rfl) x
    | some w =>
      have own : w.key = key := filed.objects (.workload key) w.metadata (by rw [metadata?, there]; rfl)
      subst own
      have updated : s.after (.updateWorkloadStatus w.key status) = (s.placeWorkload { w with status }).2 := by
        simp [after, write, updateWorkloadStatus, there]
      rw [updated]
      have shows : s.shown (.workload w.key) = some (.workload w.unnumbered) := by rw [shown, there, Option.map_some]
      refine shown_of_item ((placed { w with status }).trans ?_) (beside { w with status }) x
      show _ = Write.makes _ (s.shown (.workload w.key))
      rw [shows]
      rfl
  | putUnit v =>
    refine shown_of_item (?_ : (s.putUnit v).shown (.unit v.key) = _) (fun x other => ?_) x
    · rw [shown_putUnit, if_pos rfl]
      rfl
    · exact (s.shown_putUnit v x).trans (if_neg other)
  | putService e =>
    refine shown_of_item (?_ : (s.putService e).shown (.service e.key) = _) (fun x other => ?_) x
    · rw [shown_putService, if_pos rfl]
      rfl
    · exact (s.shown_putService e x).trans (if_neg other)
  | _ => exact (shown_after_aside s rfl x).trans (if_neg (Option.some_ne_none x).symm).symm

theorem shown_writes (filed : s.Filed) (ws : List Write) (x : Item) :
    (ws.foldl after s).shown x = (ws.filter (·.item? = some x)).foldl (fun there w => w.makes there) (s.shown x) := by
  induction ws generalizing s with
  | nil => rfl
  | cons w ws ih =>
    rw [List.foldl_cons, ih (filed.after w), shown_after filed, List.filter_cons]
    by_cases about : w.item? = some x <;> simp [about]

/-! ## Listings of stores that show the same -/

section
variable {α : Type} {table table' : Table ObjectKey α} {key : α → ObjectKey} {labels : α → Labels}
variable {ns : Option String} {selector : Selector} {f : α → α}

theorem find_map (f : α → α) (k : ObjectKey) (es : List (ObjectKey × α)) :
    Table.find k (es.map fun e => (e.1, f e.2)) = (Table.find k es).map f := by
  induction es with
  | nil => rfl
  | cons e es ih =>
    rw [List.map_cons, Table.find, Table.find, ih]
    split <;> rfl

theorem get?_map (f : α → α) (table : Table ObjectKey α) (k : ObjectKey) :
    (table.map f).get? k = (table.get? k).map f :=
  find_map f k table.entries

theorem map_sift (kept : ∀ a, labels (f a) = labels a) (met : List (ObjectKey × α)) :
    (sift labels ns selector met).map f = sift labels ns selector (met.map fun e => (e.1, f e.2)) := by
  have picked : (pick labels ns selector met).map (fun e => (e.1, f e.2)) =
      pick labels ns selector (met.map fun e => (e.1, f e.2)) := by
    unfold pick
    have sorted (es : List (ObjectKey × α)) := List.map_mergeSort (r := fun a b => decide (a.1.name ≤ b.1.name))
      (s := fun a b : ObjectKey × α => decide (a.1.name ≤ b.1.name)) (f := fun e => (e.1, f e.2)) (l := es)
      fun a _ b _ => rfl
    rw [sorted, List.filter_map]
    simp only [Function.comp_def, kept]
  rw [sift, sift, ← picked, List.map_map, List.map_map]
  rfl

theorem map_select (kept : ∀ a, labels (f a) = labels a) (walk : table.Walk) :
    (select walk labels ns selector).map (·.map f) = select (walk.map f) labels ns selector := by
  rw [select_eq, select_eq]
  cases selector.validate with
  | error e => rfl
  | ok _ => exact congrArg Except.ok (map_sift kept walk.met)

theorem agree_alike (keyed : ∀ k a, table.get? k = some a → key a = k) (same : ∀ a, key (f a) = key a)
    (kept : ∀ a, labels (f a) = labels a) (alike : ∀ k, (table'.get? k).map f = (table.get? k).map f)
    (walk : table.Walk) (walk' : table'.Walk) :
    Agree key ns ((select walk labels ns selector).map (·.map f)) ((select walk' labels ns selector).map (·.map f)) := by
  rw [map_select kept, map_select kept]
  refine agree_select (fun k a there => ?_) (walk.map f) (Table.ext_get? fun k => ?_) (walk'.map f)
  · rw [get?_map] at there
    obtain ⟨b, stored, rfl⟩ := Option.map_eq_some_iff.mp there
    exact (same b).trans (keyed k b stored)
  · rw [get?_map, get?_map]
    exact alike k

end

theorem alike_of_shown (same : ∀ x, u.shown x = s.shown x) :
    (∀ key, (u.workloads.get? key).map Workload.unnumbered = (s.workloads.get? key).map Workload.unnumbered) ∧
      (∀ key, (u.units.get? key).map ExecutionUnit.unnumbered = (s.units.get? key).map ExecutionUnit.unnumbered) ∧
      u.services = s.services := by
  have stripped {α β : Type} {view : α → β} {wrap : β → Shown} (apart : Function.Injective wrap) {a b : Option α}
      (same : a.map (fun x => wrap (view x)) = b.map fun x => wrap (view x)) : a.map view = b.map view := by
    refine Option.map_injective apart ?_
    rw [Option.map_map, Option.map_map]
    exact same
  refine ⟨fun key => stripped (fun _ _ h => Shown.workload.inj h) (same (.workload key)),
    fun key => stripped (fun _ _ h => Shown.unit.inj h) (same (.unit key)), Table.ext_get? fun key => ?_⟩
  exact Option.map_injective (fun _ _ h => Shown.service.inj h) (same (.service key))

end Store

/-! ## Targets of metrics -/

open Store (Write Item Answers)

theorem Plan.tells_one {α : Type} {c : Call} {f : c.Answer → α} {a : α} {told : Transcript} {s u : Store} :
    (Plan.ask c fun r => .done (f r)).Tells [] s told a u ↔ ∃ r, s.Replies c r u ∧ told = [⟨c, r⟩] ∧ a = f r := by
  constructor
  · intro tells
    cases tells with
    | ask reply ended =>
      obtain ⟨rfl, rfl, rfl⟩ := tells_done.mp ended
      exact ⟨_, reply, rfl, rfl⟩
  · rintro ⟨r, reply, rfl, rfl⟩
    exact .ask reply (.done _ _ _)

/-- A metric of the trial itself asks for nothing, every other one for one listing. -/
theorem Metric.resolve_tells (m : Metric) (ns : String) {told : Transcript} {s u : Store}
    {r : Except Error MetricTarget} : (m.resolve ns).Tells [] s told r u ↔ u = s ∧
      match m.kind with
      | .computed => told = [] ∧ r = .ok .nothing
      | .pods =>
        let found := s.listUnits (some ns) m.selector
        told = [⟨.listUnits ns m.selector, found⟩] ∧ r = found.map .units
      | .prometheus | .jsonPath => ∃ walk,
        let found := s.listServices none m.selector walk
        told = [⟨.listServices m.selector, found⟩] ∧ r = found.map .services := by
  have services : (Plan.ask (.listServices m.selector) fun r => .done (r.map .services)).Tells [] s told r u ↔
      u = s ∧ ∃ walk, told = [⟨.listServices m.selector, s.listServices none m.selector walk⟩] ∧
        r = (s.listServices none m.selector walk).map .services := by
    refine Plan.tells_one.trans ⟨?_, ?_⟩
    · rintro ⟨_, ⟨⟨walk, rfl⟩, same⟩, asked, result⟩
      exact ⟨same, walk, asked, result⟩
    · rintro ⟨same, walk, asked, result⟩
      exact ⟨_, ⟨⟨walk, rfl⟩, same⟩, asked, result⟩
  unfold resolve MetricKind.scope
  cases m.kind with
  | computed =>
    rw [Plan.tells_done]
    exact ⟨fun ⟨told, result, same⟩ => ⟨same, told, result⟩, fun ⟨same, told, result⟩ => ⟨told, result, same⟩⟩
  | pods =>
    refine Plan.tells_one.trans ⟨?_, ?_⟩
    · rintro ⟨_, ⟨rfl, same⟩, asked, result⟩
      exact ⟨same, asked, result⟩
    · rintro ⟨same, asked, result⟩
      exact ⟨_, ⟨rfl, same⟩, asked, result⟩
  | prometheus => exact services
  | jsonPath => exact services

namespace Store

/-- In whatever order different objects are written, the writes of one object are the same. -/
theorem filter_item_of_perm {ws ws' : List Write} (perm : ws'.Perm ws) (distinct : (ws.map Write.item?).Nodup)
    (x : Item) : ws'.filter (·.item? = some x) = ws.filter (·.item? = some x) := by
  have once {vs : List Write} (distinct : (vs.map Write.item?).Nodup) :
      (vs.filter (·.item? = some x)).Pairwise fun _ _ => False := by
    refine ((List.pairwise_map.mp distinct).filter _).imp_of_mem fun {v w} mem mem' apart => apart ?_
    have about (v : Write) (mem : v ∈ vs.filter (·.item? = some x)) : v.item? = some x := by
      simpa using List.of_mem_filter mem
    rw [about v mem, about w mem']
  have distinct' : (ws'.map Write.item?).Nodup := (perm.map _).nodup_iff.mpr distinct
  exact (perm.filter _).eq_of_pairwise (fun _ _ _ _ => False.elim) (once distinct') (once distinct)

/-- A listing of a store that was written in any way is refused for an ill-formed selector and no other. It gives
all objects of the namespace, or of all namespaces, with the labels asked for, each once and by name. Stores with the
same writes of every single object, in whatever order those of different objects came, list the same objects but for
the versions, which number the writes; the order is the same within a namespace and where no two of the objects have
one name, and else that in which the objects are met. A metric on units is resolved to the listing of the namespace
that the trial targets, one on services to that of all namespaces, and one of the trial itself to nothing, without a
question. -/
theorem listings_are_exact (ws : List Write) :
    let s := ws.foldl after .empty
    (∀ (ns : String) selector walk,
      Answers s.workloads Workload.key (·.metadata.labels) (some ns) selector (s.listWorkloads ns selector walk)) ∧
    (∀ (ns : Option String) selector,
      (∀ walk, Answers s.units ExecutionUnit.key (·.metadata.labels) ns selector (s.listUnits ns selector walk)) ∧
      ∀ walk, Answers s.services ServiceEndpoint.key (·.labels) ns selector (s.listServices ns selector walk)) ∧
    (∀ ws' : List Write, (∀ x, ws'.filter (·.item? = some x) = ws.filter (·.item? = some x)) →
      let u := ws'.foldl after .empty
      ∀ (n : String) (ns : Option String) selector,
        (∀ walk walk', Agree Workload.key (some n) ((s.listWorkloads n selector walk).map (·.map Workload.unnumbered))
          ((u.listWorkloads n selector walk').map (·.map Workload.unnumbered))) ∧
        (∀ walk walk', Agree ExecutionUnit.key ns ((s.listUnits ns selector walk).map (·.map ExecutionUnit.unnumbered))
          ((u.listUnits ns selector walk').map (·.map ExecutionUnit.unnumbered))) ∧
        ∀ walk walk', Agree ServiceEndpoint.key ns (s.listServices ns selector walk) (u.listServices ns selector walk')) ∧
    ∀ (m : Metric) (t : Trial) told r u, (m.resolve t.targetNs).Tells [] s told r u ↔ u = s ∧
      match m.kind with
      | .computed => told = [] ∧ r = .ok .nothing
      | .pods =>
        let found := s.listUnits (some t.targetNs) m.selector
        told = [⟨.listUnits t.targetNs m.selector, found⟩] ∧ r = found.map .units
      | .prometheus | .jsonPath => ∃ walk,
        let found := s.listServices none m.selector walk
        told = [⟨.listServices m.selector, found⟩] ∧ r = found.map .services := by
  intro s
  obtain ⟨n, -, built⟩ := Built.empty.writes ws
  have filed := built.filed
  have workload (k : ObjectKey) (w : Workload) (there : s.workloads.get? k = some w) : w.key = k :=
    filed.objects (.workload k) w.metadata (by rw [metadata?, there]; rfl)
  have unit (k : ObjectKey) (v : ExecutionUnit) (there : s.units.get? k = some v) : v.key = k :=
    filed.objects (.unit k) v.metadata (by rw [metadata?, there]; rfl)
  refine ⟨fun ns selector walk => answers_select workload walk,
    fun ns selector => ⟨answers_select unit, answers_select filed.services⟩, fun ws' same => ?_,
    fun m t told r u => m.resolve_tells t.targetNs⟩
  intro u n ns selector
  have shows (x : Item) : u.shown x = s.shown x := by
    rw [shown_writes filed_empty, shown_writes filed_empty, same]
  obtain ⟨workloads, units, services⟩ := alike_of_shown shows
  exact ⟨agree_alike workload (fun _ => rfl) (fun _ => rfl) workloads, agree_alike unit (fun _ => rfl) (fun _ => rfl) units,
    fun walk => agree_select filed.services walk services⟩

/-- Units and services are put in one order and in the other. The versions tell the orders apart, the listings do
not, however the services are met. -/
theorem puts_in_reverse_list_alike :
    let labels : Labels := (∅ : Labels).insert "app" "web"
    let service (ns name : String) : ServiceEndpoint := { ServiceEndpoint.named ns name "10.0.0.7" with labels }
    let unit (name : String) := ExecutionUnit.pending { Metadata.named "a" name with labels }
    let ws : List Write := [.putUnit (unit "web-1"), .putUnit (unit "web-2"), .putService (service "b" "api"),
      .putService (service "a" "web")]
    let selector := Selector.everything.withLabel "app" "web"
    let s := ws.foldl after .empty
    let u := ws.reverse.foldl after .empty
    (∀ x, ws.reverse.filter (·.item? = some x) = ws.filter (·.item? = some x)) ∧
      (∀ walk, u.listServices none selector walk = .ok [service "b" "api", service "a" "web"]) ∧
      u.listUnits (some "a") selector ≠ s.listUnits (some "a") selector ∧
      ∀ walk, (u.listUnits (some "a") selector walk).map (·.map ExecutionUnit.unnumbered) =
        .ok [unit "web-1", unit "web-2"] := by
  intro labels service unit ws selector s u
  obtain ⟨-, -, orders, -⟩ := listings_are_exact ws
  have same := filter_item_of_perm ws.reverse_perm (by decide : (ws.map Write.item?).Nodup)
  obtain ⟨-, units, -⟩ := orders ws.reverse same "a" (some "a") selector
  obtain ⟨-, -, services⟩ := orders ws.reverse same "a" none selector
  let backwards : s.services.Walk := ⟨s.services.entries.reverse, s.services.entries.reverse_perm⟩
  have listed : s.listServices none selector backwards = .ok [service "b" "api", service "a" "web"] := by
    rw [listServices, select_eq, sift, pick, List.mergeSort_of_pairwise (by decide +kernel)]
    decide +kernel
  have unitsOf (x : Store) : x.listUnits (some "a") selector = _ := select_within ..
  have shown : (s.listUnits (some "a") selector).map (·.map ExecutionUnit.unnumbered) =
      .ok [unit "web-1", unit "web-2"] := by
    rw [unitsOf]
    decide +kernel
  refine ⟨same, fun walk => ?_, ?_, fun walk => ?_⟩
  · have agree := services backwards walk
    rw [listed] at agree
    exact agree.eq_ok (.inr (by decide))
  · rw [unitsOf, unitsOf]
    decide +kernel
  · have agree := units s.units.inOrder walk
    rw [shown] at agree
    exact agree.eq_ok (.inl (by decide))

/-- Services of one name are listed as they are met, and the versions of units show which was put first. So what
listings give is not a matter of what was put alone. -/
theorem services_of_one_name_list_as_met :
    let service (ns : String) := ServiceEndpoint.named ns "web" "10.0.0.7"
    let unit (name : String) := ExecutionUnit.pending (.named "a" name)
    let ws : List Write := [.putUnit (unit "web-1"), .putUnit (unit "web-2"), .putService (service "a"),
      .putService (service "b")]
    let s := ws.foldl after .empty
    let u := ws.reverse.foldl after .empty
    (∃ walk walk', s.listServices none .everything walk = .ok [service "a", service "b"] ∧
        u.listServices none .everything walk' = .ok [service "b", service "a"]) ∧
      s.listUnits (some "a") .everything ≠ u.listUnits (some "a") .everything := by
  intro service unit ws s u
  have unitsOf (x : Store) : x.listUnits (some "a") .everything = _ := select_within ..
  refine ⟨⟨s.services.inOrder, ⟨u.services.entries.reverse, u.services.entries.reverse_perm⟩, ?_, ?_⟩, ?_⟩
  · rw [listServices, select_eq, sift, pick, List.mergeSort_of_pairwise (by decide +kernel)]
    decide +kernel
  · rw [listServices, select_eq, sift, pick, List.mergeSort_of_pairwise (by decide +kernel)]
    decide +kernel
  · rw [unitsOf, unitsOf]
    decide +kernel

end Store

end TrialControl
