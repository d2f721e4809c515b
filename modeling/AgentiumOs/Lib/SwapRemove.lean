import Mathlib

/-! Changes of one element of a vector, up to the order. A removal need not keep the
order: the last element takes the place of the one that is removed. -/

namespace AgentiumOs.Lib

variable {α : Type*}

/-- The elements of `l` but the one at `i`, whose place the last element takes. -/
def swapRemove (l : List α) (i : ℕ) : List α :=
  match l.getLast? with
  | none => []
  | some a => l.dropLast.set i a

theorem swapRemove_concat (l : List α) (a : α) (i : ℕ) : swapRemove (l ++ [a]) i = l.set i a := by
  simp [swapRemove]

variable {l : List α} {i : ℕ}

theorem cons_swapRemove_perm {a : α} (h : l[i]? = some a) : List.Perm (a :: swapRemove l i) l := by
  induction l using List.reverseRecOn with
  | nil => simp at h
  | append_singleton l b =>
    rw [swapRemove_concat]
    by_cases hi : i < l.length
    · rw [List.getElem?_append_left hi, List.getElem?_eq_getElem hi, Option.some_inj] at h
      subst h
      have hs : List.Perm (l.set i b) (b :: l.eraseIdx i) := List.set_perm_cons_eraseIdx hi b
      have ho : List.Perm (l[i] :: l.eraseIdx i) l := List.getElem_cons_eraseIdx_perm hi
      refine (hs.cons _).trans (.trans (.swap _ _ _) ?_)
      exact (ho.cons b).trans (List.perm_append_singleton b l).symm
    · have hl : i = l.length := by
        have := (List.getElem?_eq_some_iff.mp h).1
        rw [List.length_append, List.length_singleton] at this
        omega
      subst hl
      rw [List.getElem?_concat_length, Option.some_inj] at h
      subst h
      rw [List.set_eq_of_length_le (Nat.le_refl _)]
      exact (List.perm_append_singleton b l).symm

/-- The element put at a place and the one that was there have changed sides. -/
theorem set_append_perm {a : α} (h : l[i]? = some a) (b : α) : List.Perm (l.set i b ++ [a]) (l ++ [b]) := by
  obtain ⟨hi, rfl⟩ := List.getElem?_eq_some_iff.mp h
  have hs : List.Perm (l.set i b) (b :: l.eraseIdx i) := List.set_perm_cons_eraseIdx hi b
  have ho : List.Perm (l[i] :: l.eraseIdx i) l := List.getElem_cons_eraseIdx_perm hi
  refine (List.perm_append_singleton _ _).trans ((hs.cons _).trans (.trans (.swap _ _ _) ?_))
  exact (ho.cons b).trans (List.perm_append_singleton b l).symm

theorem exists_of_findIdx? {q : α → Bool} (h : l.findIdx? q = some i) : ∃ a, l[i]? = some a ∧ q a = true := by
  obtain ⟨hi, hq, -⟩ := List.findIdx?_eq_some_iff_getElem.mp h
  exact ⟨l[i], List.getElem?_eq_getElem hi, hq⟩

end AgentiumOs.Lib
