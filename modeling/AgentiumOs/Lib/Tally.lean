import Mathlib

/-! What a family of cells holds together, when all but finitely many of them are empty.
A change of one cell changes the total by what that cell gained and lost; bags whose
total repeats nothing repeat nothing themselves and share nothing. -/

namespace AgentiumOs.Lib

variable {ι M : Type*}

/-- Finitely many cells hold something, and together they hold `n`. -/
structure Tallied [AddCommMonoid M] (cells : ι → M) (n : M) : Prop where
  finite : (Function.support cells).Finite
  total : ∑ᶠ i, cells i = n

namespace Tallied

theorem zero [AddCommMonoid M] : Tallied (fun _ : ι => (0 : M)) 0 :=
  ⟨by simp, finsum_zero⟩

variable {cells : ι → M}

theorem finite_update [AddCommMonoid M] [DecidableEq ι] {n : M} (h : Tallied cells n) (i : ι) (v : M) :
    (Function.support (Function.update cells i v)).Finite := by
  refine (h.finite.insert i).subset fun j hj => ?_
  by_cases hji : j = i
  · exact .inl hji
  · rw [Function.mem_support, Function.update_of_ne hji] at hj
    exact .inr hj

/-- The total of the changed cells, with the old content of the cell that changed, is
the old total with the new content. -/
theorem total_update [AddCommMonoid M] [DecidableEq ι] {n : M} (h : Tallied cells n) (i : ι) (v : M) :
    ∑ᶠ j, Function.update cells i v j + cells i = n + v := by
  have hc : ∑ᶠ j, cells j = ∑ j ∈ insert i h.finite.toFinset, cells j :=
    finsum_eq_sum_of_support_subset _ (by intro j hj; simpa using .inr hj)
  have hu : ∑ᶠ j, Function.update cells i v j = ∑ j ∈ insert i h.finite.toFinset, Function.update cells i v j := by
    refine finsum_eq_sum_of_support_subset _ fun j hj => ?_
    by_cases hji : j = i
    · simp [hji]
    · rw [Function.mem_support, Function.update_of_ne hji] at hj
      simpa using .inr hj
  have hm : i ∈ insert i h.finite.toFinset := Finset.mem_insert_self _ _
  rw [← h.total, hc, hu, Finset.sum_update_of_mem hm,
    ← Finset.sum_sdiff (Finset.singleton_subset_iff.mpr hm), Finset.sum_singleton, add_comm v,
    add_assoc, add_assoc, add_comm v]

theorem update [AddCancelCommMonoid M] [DecidableEq ι] {n n' v : M} {i : ι} (h : Tallied cells n)
    (hv : n' + cells i = n + v) : Tallied (Function.update cells i v) n' :=
  ⟨h.finite_update i v, add_right_cancel ((h.total_update i v).trans hv.symm)⟩

theorem exists_update [AddCancelCommMonoid M] [DecidableEq ι] {n : M} (h : Tallied cells n) (i : ι) (v : M) :
    ∃ rest, n = cells i + rest ∧ Tallied (Function.update cells i v) (v + rest) := by
  have hr : n = cells i + ∑ᶠ j, Function.update cells i 0 j := by
    rw [add_comm, h.total_update i 0, add_zero]
  refine ⟨_, hr, h.update ?_⟩
  rw [add_right_comm, add_comm v, add_right_comm, ← hr]

section Bags

variable {α : Type*} {c : ι → Multiset α} {n : Multiset α}

theorem mem_of_mem (h : Tallied c n) {i : ι} {a : α} (ha : a ∈ c i) : a ∈ n := by
  classical
  obtain ⟨rest, rfl, -⟩ := h.exists_update i 0
  exact Multiset.mem_add.mpr (.inl ha)

theorem exists_mem (h : Tallied c n) {a : α} (ha : a ∈ n) : ∃ i, a ∈ c i := by
  rw [← h.total, finsum_eq_sum_of_support_subset _ (s := h.finite.toFinset) (by simp)] at ha
  obtain ⟨i, -, hi⟩ := Multiset.mem_sum.mp ha
  exact ⟨i, hi⟩

theorem nodup_cell (h : Tallied c n) (hn : n.Nodup) (i : ι) : (c i).Nodup := by
  classical
  obtain ⟨rest, rfl, -⟩ := h.exists_update i 0
  exact (Multiset.nodup_add.mp hn).1

theorem eq_of_mem_mem (h : Tallied c n) (hn : n.Nodup) {i j : ι} {a : α} (hi : a ∈ c i)
    (hj : a ∈ c j) : i = j := by
  classical
  by_contra hne
  obtain ⟨rest, rfl, hr⟩ := h.exists_update i 0
  rw [zero_add] at hr
  have hj' : a ∈ Function.update c i 0 j := by
    rwa [Function.update_of_ne (Ne.symm hne)]
  exact Multiset.disjoint_left.mp (Multiset.nodup_add.mp hn).2.2 hi (hr.mem_of_mem hj')

end Bags

end Tallied

end AgentiumOs.Lib
