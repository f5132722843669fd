/-!
# Tables

A table maps keys to values and keeps its entries in strictly ascending key order, so a table is
determined by what it answers: `Table.ext_get?`. Labels, stored objects and the states of a work
queue are tables.
-/

namespace TrialControl

open Std (TransOrd LawfulEqOrd TransCmp OrientedCmp LawfulEqCmp)

variable {κ ν : Type} [Ord κ]

/-- Entries in strictly ascending key order. -/
structure Table (κ ν : Type) [Ord κ] where
  entries : List (κ × ν)
  ascending : entries.Pairwise fun a b => compare a.1 b.1 = .lt

namespace Table

instance [DecidableEq κ] [DecidableEq ν] : DecidableEq (Table κ ν) := fun s t =>
  decidable_of_iff (s.entries = t.entries) ⟨fun h => by cases s; cases t; cases h; rfl, fun h => h ▸ rfl⟩

def empty : Table κ ν := ⟨[], .nil⟩

instance : EmptyCollection (Table κ ν) := ⟨empty⟩
instance : Inhabited (Table κ ν) := ⟨empty⟩

def isEmpty (t : Table κ ν) : Bool := t.entries.isEmpty

def size (t : Table κ ν) : Nat := t.entries.length

def keys (t : Table κ ν) : List κ := t.entries.map Prod.fst

def values (t : Table κ ν) : List ν := t.entries.map Prod.snd

/-- The entries of a table as they are met, in whatever order. -/
structure Walk (t : Table κ ν) where
  met : List (κ × ν)
  perm : met.Perm t.entries

/-- The walk that meets the keys in ascending order. -/
def inOrder (t : Table κ ν) : t.Walk := ⟨t.entries, .refl t.entries⟩

def find (k : κ) : List (κ × ν) → Option ν
  | [] => none
  | (l, v) :: rest => if compare k l = .eq then some v else find k rest

def get? (t : Table κ ν) (k : κ) : Option ν := find k t.entries

def contains (t : Table κ ν) (k : κ) : Bool := (t.get? k).isSome

/-- Puts an entry at its place; an entry of the same key is replaced. -/
def place (k : κ) (v : ν) : List (κ × ν) → List (κ × ν)
  | [] => [(k, v)]
  | (l, w) :: rest =>
    match compare k l with
    | .lt => (k, v) :: (l, w) :: rest
    | .eq => (k, v) :: rest
    | .gt => (l, w) :: place k v rest

theorem mem_place {k : κ} {v : ν} {e : κ × ν} {es : List (κ × ν)} (h : e ∈ place k v es) :
    e = (k, v) ∨ e ∈ es := by
  induction es with
  | nil => simpa [place] using h
  | cons d rest ih =>
    simp only [place] at h
    split at h
    · simpa using h
    · rcases List.mem_cons.1 h with h | h
      · exact .inl h
      · exact .inr (List.mem_cons_of_mem _ h)
    · rcases List.mem_cons.1 h with h | h
      · exact .inr (h ▸ List.mem_cons_self ..)
      · exact (ih h).imp_right (List.mem_cons_of_mem _)

section Ordered
variable [TransOrd κ] [LawfulEqOrd κ]

theorem ascending_place (k : κ) (v : ν) {es : List (κ × ν)}
    (h : es.Pairwise fun a b => compare a.1 b.1 = .lt) :
    (place k v es).Pairwise fun a b => compare a.1 b.1 = .lt := by
  induction es with
  | nil => simp [place]
  | cons d rest ih =>
    obtain ⟨hd, hr⟩ := List.pairwise_cons.1 h
    simp only [place]
    split
    · next hk =>
      refine List.pairwise_cons.2 ⟨fun e he => ?_, h⟩
      rcases List.mem_cons.1 he with rfl | he
      · exact hk
      · exact TransCmp.lt_trans hk (hd e he)
    · next hk =>
      refine List.pairwise_cons.2 ⟨fun e he => ?_, hr⟩
      have : k = d.1 := LawfulEqCmp.eq_of_compare hk
      exact this ▸ hd e he
    · next hk =>
      refine List.pairwise_cons.2 ⟨fun e he => ?_, ih hr⟩
      rcases mem_place he with rfl | he
      · exact OrientedCmp.lt_of_gt hk
      · exact hd e he

def insert (t : Table κ ν) (k : κ) (v : ν) : Table κ ν :=
  ⟨place k v t.entries, ascending_place k v t.ascending⟩

def erase (t : Table κ ν) (k : κ) : Table κ ν :=
  ⟨t.entries.filter fun e => compare k e.1 != .eq, t.ascending.filter _⟩

/-- Later entries replace earlier ones of the same key. -/
def ofList (es : List (κ × ν)) : Table κ ν := es.foldl (fun t e => t.insert e.1 e.2) empty

def extend (t u : Table κ ν) : Table κ ν := u.entries.foldl (fun t e => t.insert e.1 e.2) t

/-! ## Look-up -/

variable [DecidableEq κ]

omit [TransOrd κ] in
theorem find_place (k l : κ) (v : ν) (es : List (κ × ν)) :
    find l (place k v es) = if l = k then some v else find l es := by
  induction es with
  | nil => by_cases h : l = k <;> simp [place, find, h]
  | cons d rest ih =>
    simp only [place]
    split
    · by_cases h : l = k <;> simp [find, h]
    · next hk =>
      have hkd : k = d.1 := Std.compare_eq_iff_eq.1 hk
      by_cases h : l = k
      · simp [find, h]
      · have : ¬ l = d.1 := fun e => h (e.trans hkd.symm)
        simp [find, h, this]
    · next hk =>
      have hkd : ¬ k = d.1 := fun e => by
        rw [e, Std.compare_self] at hk; cases hk
      by_cases h : l = k
      · subst h; simp [find, hkd, ih]
      · by_cases hd : l = d.1
        · have : ¬ d.1 = k := fun e => hkd e.symm
          simp [find, hd, this]
        · simp [find, hd, ih]

theorem get?_insert (t : Table κ ν) (k l : κ) (v : ν) :
    (t.insert k v).get? l = if l = k then some v else t.get? l := find_place k l v t.entries

@[simp] theorem get?_insert_self (t : Table κ ν) (k : κ) (v : ν) : (t.insert k v).get? k = some v := by
  simp [get?_insert]

omit [TransOrd κ] in
theorem find_filter (k l : κ) (es : List (κ × ν)) :
    find l (es.filter fun e => compare k e.1 != .eq) = if l = k then none else find l es := by
  induction es with
  | nil => simp [find]
  | cons d rest ih =>
    by_cases hk : k = d.1
    · rw [List.filter_cons_of_neg (by simp [hk]), ih]
      by_cases h : l = k
      · simp [h]
      · have : ¬ l = d.1 := fun e => h (e.trans hk.symm)
        simp [h, find, this]
    · rw [List.filter_cons_of_pos (by simp [hk])]
      by_cases h : l = d.1
      · have : ¬ d.1 = k := fun e => hk e.symm
        simp [find, h, this]
      · simp [find, h, ih]

omit [TransOrd κ] in
theorem get?_erase (t : Table κ ν) (k l : κ) :
    (t.erase k).get? l = if l = k then none else t.get? l := find_filter k l t.entries

omit [DecidableEq κ] [TransOrd κ] in
theorem mem_of_find {k : κ} {v : ν} {es : List (κ × ν)} (h : find k es = some v) : (k, v) ∈ es := by
  induction es with
  | nil => cases h
  | cons d rest ih =>
    simp only [find] at h
    split at h
    · next hk =>
      cases h
      have : k = d.1 := Std.compare_eq_iff_eq.1 hk
      rw [this]; exact List.mem_cons_self ..
    · exact List.mem_cons_of_mem _ (ih h)

omit [DecidableEq κ] [TransOrd κ] in
theorem find_of_mem {k : κ} {v : ν} {es : List (κ × ν)}
    (asc : es.Pairwise fun a b => compare a.1 b.1 = .lt) (h : (k, v) ∈ es) : find k es = some v := by
  induction es with
  | nil => cases h
  | cons d rest ih =>
    obtain ⟨hd, hr⟩ := List.pairwise_cons.1 asc
    rcases List.mem_cons.1 h with rfl | h
    · simp [find]
    · have : compare d.1 k = .lt := hd _ h
      have hne : ¬ k = d.1 := fun e => by rw [e, Std.compare_self] at this; cases this
      simp [find, hne, ih hr h]

omit [DecidableEq κ] [TransOrd κ] in
theorem get?_eq_some_iff {t : Table κ ν} {k : κ} {v : ν} : t.get? k = some v ↔ (k, v) ∈ t.entries :=
  ⟨mem_of_find, find_of_mem t.ascending⟩

omit [DecidableEq κ] [TransOrd κ] in
theorem entry_eq {t : Table κ ν} {d e : κ × ν} (hd : d ∈ t.entries) (he : e ∈ t.entries) (same : d.1 = e.1) :
    d = e := by
  have found : t.get? d.1 = some d.2 := get?_eq_some_iff.mpr hd
  rw [same, get?_eq_some_iff.mpr he] at found
  exact Prod.ext same (Option.some.inj found).symm

omit [DecidableEq κ] [TransOrd κ] [LawfulEqOrd κ] in
theorem find_eq_none_of_lt {k : κ} {es : List (κ × ν)} (h : ∀ e ∈ es, compare k e.1 = .lt) :
    find k es = none := by
  induction es with
  | nil => rfl
  | cons d rest ih =>
    have hd : compare k d.1 = .lt := h d (List.mem_cons_self ..)
    have : ¬ compare k d.1 = .eq := by rw [hd]; nofun
    simp [find, this, ih fun e he => h e (List.mem_cons_of_mem _ he)]

theorem get?_foldl_insert {es : List (κ × ν)} (asc : es.Pairwise fun a b => compare a.1 b.1 = .lt) (t : Table κ ν)
    (k : κ) : (es.foldl (fun t e => t.insert e.1 e.2) t).get? k = (find k es).or (t.get? k) := by
  induction es generalizing t with
  | nil => rfl
  | cons d rest ih =>
    obtain ⟨hd, hr⟩ := List.pairwise_cons.1 asc
    rw [List.foldl_cons, ih hr, get?_insert]
    by_cases h : k = d.1
    · subst h
      rw [find_eq_none_of_lt hd]
      simp [find]
    · simp [find, h]

/-- The entries of the second table count before those of the first. -/
theorem get?_extend (t u : Table κ ν) (k : κ) : (t.extend u).get? k = (u.get? k).or (t.get? k) :=
  get?_foldl_insert u.ascending t k

omit [DecidableEq κ] in
theorem eq_of_find_eq {es fs : List (κ × ν)} (he : es.Pairwise fun a b => compare a.1 b.1 = .lt)
    (hf : fs.Pairwise fun a b => compare a.1 b.1 = .lt) (h : ∀ k, find k es = find k fs) : es = fs := by
  induction es generalizing fs with
  | nil =>
    cases fs with
    | nil => rfl
    | cons d rest => have := h d.1; simp [find] at this
  | cons d rest ih =>
    cases fs with
    | nil => have := h d.1; simp [find] at this
    | cons c more =>
      obtain ⟨hd, hr⟩ := List.pairwise_cons.1 he
      obtain ⟨hc, hm⟩ := List.pairwise_cons.1 hf
      have key : d.1 = c.1 := by
        rcases hdc : compare d.1 c.1 with _ | _ | _
        · have h1 := h d.1
          have none_c : find d.1 (c :: more) = none := find_eq_none_of_lt fun e hem => by
            rcases List.mem_cons.1 hem with rfl | hem
            · exact hdc
            · exact TransCmp.lt_trans hdc (hc e hem)
          rw [none_c] at h1
          simp [find] at h1
        · exact Std.compare_eq_iff_eq.1 hdc
        · have hcd : compare c.1 d.1 = .lt := OrientedCmp.lt_of_gt hdc
          have h1 := h c.1
          have none_d : find c.1 (d :: rest) = none := find_eq_none_of_lt fun e hem => by
            rcases List.mem_cons.1 hem with rfl | hem
            · exact hcd
            · exact TransCmp.lt_trans hcd (hd e hem)
          rw [none_d] at h1
          simp [find] at h1
      have val : d.2 = c.2 := by
        have h1 := h d.1
        simpa [find, key] using h1
      have hdc : d = c := Prod.ext key val
      subst hdc
      congr 1
      refine ih hr hm fun k => ?_
      have h1 := h k
      by_cases hk : k = d.1
      · rw [hk, find_eq_none_of_lt hd, find_eq_none_of_lt hc]
      · simpa [find, hk] using h1

omit [DecidableEq κ] in
theorem ext_get? {s t : Table κ ν} (h : ∀ k, s.get? k = t.get? k) : s = t := by
  have := eq_of_find_eq s.ascending t.ascending h
  cases s; cases t; cases this; rfl

end Ordered

end Table

end TrialControl
