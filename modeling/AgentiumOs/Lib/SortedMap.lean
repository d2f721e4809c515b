import Mathlib

/-! Maps whose entries stand in the order of their keys, as one goes through them. -/

namespace AgentiumOs.Lib

open List

structure SortedMap (κ ν : Type*) [LT κ] where
  entries : List (κ × ν)
  sorted : entries.Pairwise fun a b => a.1 < b.1

namespace SortedMap

variable {κ ν μ : Type*} [LinearOrder κ]

instance [DecidableEq ν] : DecidableEq (SortedMap κ ν) := fun m m' =>
  decidable_of_iff (m.entries = m'.entries) (by cases m; cases m'; simp)

def empty : SortedMap κ ν := ⟨[], .nil⟩

instance : Inhabited (SortedMap κ ν) := ⟨empty⟩

def get (m : SortedMap κ ν) (k : κ) : Option ν := m.entries.lookup k

def contains (m : SortedMap κ ν) (k : κ) : Bool := (m.get k).isSome

/-- The entry takes the place of the one under its key, or its place in the order. -/
def insertEntry (k : κ) (v : ν) : List (κ × ν) → List (κ × ν)
  | [] => [(k, v)]
  | (k', v') :: rest =>
      if k < k' then (k, v) :: (k', v') :: rest
      else if k = k' then (k, v) :: rest
      else (k', v') :: insertEntry k v rest

variable {entries : List (κ × ν)}

theorem eq_or_mem_of_mem_insertEntry {k : κ} {v : ν} {e : κ × ν} (h : e ∈ insertEntry k v entries) :
    e = (k, v) ∨ e ∈ entries := by
  induction entries with
  | nil => exact .inl (mem_singleton.mp h)
  | cons e' rest ih =>
    rw [insertEntry] at h
    split at h
    · exact mem_cons.mp h
    · split at h
      · rcases mem_cons.mp h with rfl | hr
        · exact .inl rfl
        · exact .inr (mem_cons_of_mem _ hr)
      · rcases mem_cons.mp h with rfl | hr
        · exact .inr mem_cons_self
        · exact (ih hr).imp_right (mem_cons_of_mem _)

variable (k : κ)

theorem insertEntry_sorted (v : ν) (h : entries.Pairwise fun a b => a.1 < b.1) :
    (insertEntry k v entries).Pairwise fun a b => a.1 < b.1 := by
  induction entries with
  | nil => exact pairwise_singleton _ _
  | cons e rest ih =>
    obtain ⟨hf, hr⟩ := pairwise_cons.mp h
    rw [insertEntry]
    split
    · rename_i hlt
      refine pairwise_cons.mpr ⟨fun e he => ?_, h⟩
      rcases mem_cons.mp he with rfl | he
      · exact hlt
      · exact lt_trans hlt (hf e he)
    · rename_i hle
      split
      · rename_i heq
        subst heq
        exact pairwise_cons.mpr ⟨hf, hr⟩
      · rename_i hne
        refine pairwise_cons.mpr ⟨fun e he => ?_, ih hr⟩
        rcases eq_or_mem_of_mem_insertEntry he with rfl | he
        · exact lt_of_le_of_ne (not_lt.mp hle) (Ne.symm hne)
        · exact hf e he

def insert (m : SortedMap κ ν) (k : κ) (v : ν) : SortedMap κ ν :=
  ⟨insertEntry k v m.entries, insertEntry_sorted k v m.sorted⟩

def map (f : ν → μ) (m : SortedMap κ ν) : SortedMap κ μ :=
  ⟨m.entries.map fun e => (e.1, f e.2), List.pairwise_map.mpr m.sorted⟩

def filter (p : κ → Bool) (m : SortedMap κ ν) : SortedMap κ ν :=
  ⟨m.entries.filter fun e => p e.1, m.sorted.filter _⟩

@[simp] theorem get_empty : (empty : SortedMap κ ν).get k = none := rfl

theorem lookup_cons (l : κ) (w : ν) (rest : List (κ × ν)) :
    ((l, w) :: rest).lookup k = if k = l then some w else rest.lookup k := by
  rw [List.lookup_cons]
  by_cases h : k = l
  · rw [if_pos h, beq_iff_eq.mpr h]
  · rw [if_neg h, beq_eq_false_iff_ne.mpr h]

theorem lookup_insertEntry (v : ν) (entries : List (κ × ν)) (k' : κ) :
    (insertEntry k v entries).lookup k' = if k' = k then some v else entries.lookup k' := by
  induction entries with
  | nil => rw [insertEntry, lookup_cons]
  | cons e rest ih =>
    obtain ⟨l, w⟩ := e
    rw [insertEntry]
    split
    · rw [lookup_cons]
    · split
      · rename_i heq
        subst heq
        rw [lookup_cons, lookup_cons]
        split <;> rfl
      · rename_i hne
        rw [lookup_cons, lookup_cons, ih]
        by_cases hl : k' = l
        · have hk : k' ≠ k := fun hk => hne (hk.symm.trans hl)
          rw [if_pos hl, if_neg hk, if_pos hl]
        · rw [if_neg hl, if_neg hl]

theorem get_insert (m : SortedMap κ ν) (k : κ) (v : ν) (k' : κ) :
    (m.insert k v).get k' = if k' = k then some v else m.get k' :=
  lookup_insertEntry k v m.entries k'

theorem get_map (f : ν → μ) (m : SortedMap κ ν) (k : κ) : (m.map f).get k = (m.get k).map f := by
  show (m.entries.map fun e => (e.1, f e.2)).lookup k = (m.entries.lookup k).map f
  induction m.entries with
  | nil => rfl
  | cons e rest ih =>
    rw [map_cons, lookup_cons, lookup_cons, ih]
    split <;> rfl

theorem get_filter (p : κ → Bool) (m : SortedMap κ ν) (k : κ) :
    (m.filter p).get k = if p k then m.get k else none := by
  show (m.entries.filter fun e => p e.1).lookup k = if p k then m.entries.lookup k else none
  induction m.entries with
  | nil => simp
  | cons e rest ih =>
    obtain ⟨l, w⟩ := e
    by_cases hk : k = l
    · subst hk
      by_cases hp : p k <;> simp [hp, ih]
    · by_cases hl : p l <;> simp [hl, lookup_cons, hk, ih]

theorem mem_entries {m : SortedMap κ ν} {k : κ} {v : ν} : (k, v) ∈ m.entries ↔ m.get k = some v := by
  obtain ⟨entries, hs⟩ := m
  show (k, v) ∈ entries ↔ entries.lookup k = some v
  induction entries with
  | nil => simp
  | cons e rest ih =>
    obtain ⟨l, w⟩ := e
    obtain ⟨hf, hr⟩ := pairwise_cons.mp hs
    rw [mem_cons, ih hr, lookup_cons]
    by_cases hk : k = l
    · subst hk
      have hn : rest.lookup k ≠ some v := fun h => lt_irrefl k (hf (k, v) ((ih hr).mpr h))
      simp [hn, eq_comm]
    · simp [hk]

end SortedMap

end AgentiumOs.Lib
