import Mathlib

/-! Tables with a unique key and the statements a program runs on them. A table
lists its rows in the order of its storage; what a statement does is said by the
row it leaves under each key. -/

namespace AgentiumOs.Lib

open List

variable {ρ κ : Type*}

structure Table (key : ρ → κ) where
  rows : List ρ
  keys_nodup : (rows.map key).Nodup

namespace Table

variable {key : ρ → κ}

def empty : Table key := ⟨[], List.nodup_nil⟩

variable {r s : ρ}

theorem eq_of_key_eq (t : Table key) (hr : r ∈ t.rows) (hs : s ∈ t.rows) (h : key r = key s) : r = s :=
  inj_on_of_nodup_map t.keys_nodup hr hs h

/-- Rows that meet a condition, rewritten; the key of a row stays. -/
def update (t : Table key) (p : ρ → Bool) (f : ρ → ρ) (hkey : ∀ r, key (f r) = key r) : Table key where
  rows := t.rows.map fun r => if p r then f r else r
  keys_nodup := by
    have hsame : (t.rows.map fun r => if p r then f r else r).map key = t.rows.map key := by
      rw [List.map_map]
      refine List.map_congr_left fun r _ => ?_
      by_cases hp : p r = true <;> simp [hp, hkey]
    rw [hsame]
    exact t.keys_nodup

def delete (t : Table key) (p : ρ → Bool) : Table key where
  rows := t.rows.filter fun r => !p r
  keys_nodup := t.keys_nodup.sublist (List.filter_sublist.map key)

variable [DecidableEq κ]

def row (t : Table key) (k : κ) : Option ρ := t.rows.find? fun r => key r = k

/-- The row takes the place of the one under its key, or is new. -/
def upsert (t : Table key) (r : ρ) : Table key :=
  if hmem : key r ∈ t.rows.map key then
    { rows := t.rows.map fun s => if key s = key r then r else s
      keys_nodup := by
        have hsame : (t.rows.map fun s => if key s = key r then r else s).map key = t.rows.map key := by
          rw [List.map_map]
          refine List.map_congr_left fun s _ => ?_
          by_cases hs : key s = key r <;> simp [hs]
        rw [hsame]
        exact t.keys_nodup }
  else
    { rows := t.rows ++ [r]
      keys_nodup := by
        rw [List.map_append, List.nodup_append]
        refine ⟨t.keys_nodup, by simp, fun a ha b hb hab => hmem ?_⟩
        rw [List.map_singleton, List.mem_singleton] at hb
        exact hb ▸ hab ▸ ha }

variable {t t' : Table key}

theorem row_eq_some {k : κ} : t.row k = some r ↔ r ∈ t.rows ∧ key r = k := by
  constructor
  · intro h
    exact ⟨mem_of_find?_eq_some h, by simpa using find?_some h⟩
  · rintro ⟨hr, rfl⟩
    cases hf : t.row (key r) with
    | none => exact absurd (find?_eq_none.mp hf r hr) (by simp)
    | some s =>
      have hs : key s = key r := by simpa using find?_some hf
      rw [t.eq_of_key_eq (mem_of_find?_eq_some hf) hr hs]

theorem row_of_mem (hr : r ∈ t.rows) : t.row (key r) = some r :=
  row_eq_some.mpr ⟨hr, rfl⟩

theorem key_of_row {k : κ} (h : t.row k = some r) : key r = k :=
  (row_eq_some.mp h).2

@[simp] theorem row_empty (k : κ) : (empty : Table key).row k = none := rfl

theorem row_eq_of_mem_iff {k : κ} (h : ∀ r, key r = k → (r ∈ t'.rows ↔ r ∈ t.rows)) : t'.row k = t.row k := by
  refine Option.ext fun r => ?_
  simp only [row_eq_some]
  constructor
  · rintro ⟨hr, hk⟩
    exact ⟨(h r hk).mp hr, hk⟩
  · rintro ⟨hr, hk⟩
    exact ⟨(h r hk).mpr hr, hk⟩

theorem row_update (t : Table key) (p : ρ → Bool) (f : ρ → ρ) (hk : ∀ r, key (f r) = key r) (k : κ) :
    (t.update p f hk).row k = (t.row k).map fun r => if p r then f r else r := by
  have hs : ∀ r, key (if p r then f r else r) = key r := by
    intro r
    split
    · exact hk r
    · rfl
  refine Option.ext fun s => ?_
  simp only [row_eq_some, Option.map_eq_some_iff, update, mem_map]
  constructor
  · rintro ⟨⟨r, hr, rfl⟩, rfl⟩
    exact ⟨r, ⟨hr, (hs r).symm⟩, rfl⟩
  · rintro ⟨r, ⟨hr, rfl⟩, rfl⟩
    exact ⟨⟨r, hr, rfl⟩, hs r⟩

theorem row_delete (t : Table key) (p : ρ → Bool) (k : κ) :
    (t.delete p).row k = (t.row k).filter fun r => !p r := by
  refine Option.ext fun s => ?_
  simp only [Option.filter_eq_some_iff, row_eq_some, delete, mem_filter]
  tauto

theorem row_upsert (t : Table key) (r : ρ) (k : κ) :
    (t.upsert r).row k = if k = key r then some r else t.row k := by
  unfold upsert
  split
  case isTrue hm =>
    obtain ⟨old, ho, hke⟩ := mem_map.mp hm
    split
    case isTrue hk =>
      subst hk
      refine row_eq_some.mpr ⟨mem_map.mpr ⟨old, ho, by rw [if_pos hke]⟩, rfl⟩
    case isFalse hk =>
      refine row_eq_of_mem_iff fun s hs => ?_
      simp only [mem_map]
      constructor
      · rintro ⟨s', hs', rfl⟩
        by_cases heq : key s' = key r
        · rw [if_pos heq] at hs
          exact absurd hs.symm hk
        · rwa [if_neg heq]
      · intro hm
        exact ⟨s, hm, if_neg fun heq => hk (hs.symm.trans heq)⟩
  case isFalse hm =>
    split
    case isTrue hk =>
      subst hk
      exact row_eq_some.mpr ⟨by simp, rfl⟩
    case isFalse hk =>
      refine row_eq_of_mem_iff fun s hs => ?_
      have hne : s ≠ r := fun heq => hk (heq ▸ hs.symm)
      simp [hne]

theorem mem_upsert : s ∈ (t.upsert r).rows ↔ s = r ∨ s ∈ t.rows ∧ key s ≠ key r := by
  have hr : s ∈ (t.upsert r).rows ↔ (t.upsert r).row (key s) = some s := by simp [row_eq_some]
  rw [hr, row_upsert]
  split
  · rename_i hk
    simp [hk, eq_comm]
  · rename_i hk
    have hne : s ≠ r := fun heq => hk (heq ▸ rfl)
    simp [row_eq_some, hk, hne]

end Table

end AgentiumOs.Lib
