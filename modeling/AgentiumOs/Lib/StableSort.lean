import Mathlib

/-! Stable sorting and selection. A stable sort commutes with a filter, so a
selection made before sorting is the same selection made afterwards; and when a
selection from a list without repetitions is a final segment of it. -/

namespace AgentiumOs.Lib.StableSort

open List

variable {α : Type*} {r : α → α → Prop} [DecidableRel r] {l : List α} {p : α → Bool}

theorem orderedInsert_of_forall {a : α} (h : ∀ b ∈ l, r a b) : l.orderedInsert r a = a :: l := by
  cases l with
  | nil => rfl
  | cons b l => exact orderedInsert_cons_of_le r l (h b mem_cons_self)

theorem filter_orderedInsert_of_pos [IsTrans α r] {a : α} (ha : p a) (hl : l.Pairwise r) :
    (l.orderedInsert r a).filter p = (l.filter p).orderedInsert r a := by
  induction l with
  | nil => simp [ha]
  | cons b l ih =>
    obtain ⟨hb, hl⟩ := pairwise_cons.mp hl
    by_cases hab : r a b
    · have hf : ∀ c ∈ (b :: l).filter p, r a c := by
        intro c hc
        rcases mem_cons.mp (mem_filter.mp hc).1 with rfl | hc
        · exact hab
        · exact IsTrans.trans a b c hab (hb c hc)
      rw [orderedInsert_cons_of_le r l hab, filter_cons_of_pos ha, orderedInsert_of_forall hf]
    · rw [orderedInsert_of_not_le r l hab]
      by_cases hpb : p b
      · rw [filter_cons_of_pos hpb, filter_cons_of_pos hpb, ih hl, orderedInsert_of_not_le r _ hab]
      · rw [filter_cons_of_neg hpb, filter_cons_of_neg hpb, ih hl]

theorem filter_orderedInsert_of_neg {a : α} (ha : ¬ p a) (l : List α) :
    (l.orderedInsert r a).filter p = l.filter p := by
  induction l with
  | nil => simp [ha]
  | cons b l ih =>
    rw [orderedInsert_cons]
    split
    · rw [filter_cons_of_neg ha]
    · rw [filter_cons, filter_cons, ih]

/-- Sorting is stable: what a filter keeps is sorted as it would be on its own. -/
theorem filter_insertionSort [Std.Total r] [IsTrans α r] (p : α → Bool) (l : List α) :
    (l.insertionSort r).filter p = (l.filter p).insertionSort r := by
  induction l with
  | nil => rfl
  | cons a l ih =>
    rw [insertionSort_cons]
    by_cases ha : p a
    · rw [filter_orderedInsert_of_pos ha (pairwise_insertionSort r l), ih, filter_cons_of_pos ha,
        insertionSort_cons]
    · rw [filter_orderedInsert_of_neg ha, ih, filter_cons_of_neg ha]

/-- A selection from a list without repetitions is the final segment from `m` on exactly when it
takes everything from there and nothing before. -/
theorem filter_eq_drop_iff (hl : l.Nodup) (m : ℕ) :
    l.filter p = l.drop m ↔ (∀ a ∈ l.take m, ¬ p a) ∧ ∀ a ∈ l.drop m, p a := by
  have hs : l.filter p = (l.take m).filter p ++ (l.drop m).filter p := by
    rw [← filter_append, take_append_drop]
  constructor
  · intro h
    have hm : ∀ a, a ∈ l.drop m ↔ a ∈ l ∧ p a := fun a => by rw [← h, mem_filter]
    refine ⟨fun a ha hpa => ?_, fun a ha => ((hm a).mp ha).2⟩
    exact disjoint_take_drop hl le_rfl ha ((hm a).mpr ⟨mem_of_mem_take ha, hpa⟩)
  · rintro ⟨hb, hf⟩
    rw [hs, filter_eq_nil_iff.mpr hb, filter_eq_self.mpr hf, nil_append]

theorem take_eq_filter [DecidableEq α] (hl : l.Nodup) (n : ℕ) : l.take n = l.filter fun a => a ∈ l.take n := by
  have hd : ∀ a ∈ l.drop n, ¬ decide (a ∈ l.take n) = true := fun a ha h =>
    disjoint_take_drop hl le_rfl (of_decide_eq_true h) ha
  calc l.take n
      = (l.take n).filter (fun a => a ∈ l.take n) ++ (l.drop n).filter (fun a => a ∈ l.take n) := by
        rw [filter_eq_nil_iff.mpr hd, append_nil, filter_eq_self.mpr]
        exact fun a ha => decide_eq_true ha
    _ = l.filter fun a => a ∈ l.take n := by rw [← filter_append, take_append_drop]

/-! ### Selections from a list in the order of a key -/

section Key

variable {key : α → ℕ} {l : List α}

theorem filter_append_filter (hl : l.Pairwise fun a b => key a ≤ key b) {p q : α → Bool}
    (hpq : ∀ a ∈ l, p a → ∀ b ∈ l, q b → key a < key b) :
    l.filter p ++ l.filter q = l.filter fun a => p a || q a := by
  induction l with
  | nil => rfl
  | cons a l ih =>
    obtain ⟨ha, hl⟩ := pairwise_cons.mp hl
    have ht := ih hl fun b hb hpb c hc =>
      hpq b (mem_cons_of_mem a hb) hpb c (mem_cons_of_mem a hc)
    by_cases hp : p a
    · have hq : ¬ q a := fun hq =>
        lt_irrefl _ (hpq a mem_cons_self hp a mem_cons_self hq)
      rw [filter_cons_of_pos hp, filter_cons_of_neg hq, cons_append, ht, filter_cons_of_pos (by simp [hp])]
    · by_cases hq : q a
      · -- nothing after `a` is before it
        have hn : ∀ b ∈ l, ¬ p b := fun b hb hpb =>
          absurd (hpq b (mem_cons_of_mem a hb) hpb a mem_cons_self hq) (not_lt.mpr (ha b hb))
        rw [filter_eq_nil_iff.mpr hn, nil_append] at ht
        rw [filter_cons_of_neg hp, filter_eq_nil_iff.mpr hn, nil_append,
          filter_cons_of_pos hq, ht, filter_cons_of_pos (by simp [hq])]
      · rw [filter_cons_of_neg hp, filter_cons_of_neg hq, ht, filter_cons_of_neg (by simp [hp, hq])]

theorem exists_mem_take_lt_iff (hl : l.Pairwise fun a b => key a ≤ key b) {n : ℕ} (hn : n ≤ l.length)
    (c : ℕ) : (∃ a ∈ l.take n, c < key a) ↔ l.countP (fun a => key a ≤ c) < n := by
  have hs : (l.filter fun a => key a ≤ c) ++ (l.filter fun a => c < key a) = l := by
    rw [filter_append_filter hl fun a _ hp b _ hq => (of_decide_eq_true hp).trans_lt (of_decide_eq_true hq)]
    exact filter_eq_self.mpr fun a _ => by simpa using le_or_gt (key a) c
  rw [countP_eq_length_filter]
  have hln := congrArg length hs
  rw [length_append] at hln
  constructor
  · rintro ⟨a, ha, hlt⟩
    by_contra hge
    rw [← hs, take_append_of_le_length (not_lt.mp hge)] at ha
    have hle := of_decide_eq_true (mem_filter.mp (mem_of_mem_take ha)).2
    omega
  · intro hlt
    obtain ⟨a, ha⟩ := exists_mem_of_length_pos
      (l := (l.filter fun a => decide (c < key a)).take (n - (l.filter fun a => key a ≤ c).length))
      (by rw [length_take]; omega)
    refine ⟨a, ?_, of_decide_eq_true (mem_filter.mp (mem_of_mem_take ha)).2⟩
    rw [← hs, take_append]
    exact mem_append_right _ ha

end Key

/-! ### The first rows in the order of a key -/

section First

variable {κ : Type*} [LinearOrder κ] {key : α → κ} {l l' : List α}

theorem mem_take_iff_of_pairwise (hl : l.Pairwise fun a b => key a < key b) {a : α} (ha : a ∈ l) (n : ℕ) :
    a ∈ l.take n ↔ l.countP (fun b => key b < key a) < n := by
  induction l generalizing n with
  | nil => cases ha
  | cons b l ih =>
    obtain ⟨hb, hl⟩ := pairwise_cons.mp hl
    cases n with
    | zero => simp
    | succ n =>
      rcases mem_cons.mp ha with rfl | hm
      · -- nothing precedes the first element
        have hn : l.countP (fun c => decide (key c < key a)) = 0 :=
          countP_eq_zero.mpr fun c hc => by simpa using (hb c hc).le
        simp [hn]
      · have hlt := hb a hm
        have hne : a ≠ b := fun heq => lt_irrefl _ (heq ▸ hlt)
        rw [countP_cons_of_pos (by simpa using hlt), Nat.add_lt_add_iff_right, ← ih hl hm n]
        simp [hne]

theorem pairwise_lt_insertionSort (hk : (l.map key).Nodup) :
    (l.insertionSort fun b c => key b ≤ key c).Pairwise fun b c => key b < key c := by
  have hp := perm_insertionSort (fun b c : α => key b ≤ key c) l
  have hd : (l.insertionSort fun b c => key b ≤ key c).Pairwise fun b c => key b ≠ key c :=
    pairwise_map.mp ((hp.map key).nodup_iff.mpr hk)
  exact ((pairwise_insertionSort _ l).and hd).imp fun h => lt_of_le_of_ne h.1 h.2

theorem insertionSort_eq_iff_perm (hk : (l.map key).Nodup) (hk' : (l'.map key).Nodup) :
    (l.insertionSort fun b c => key b ≤ key c) = (l'.insertionSort fun b c => key b ≤ key c) ↔ l.Perm l' := by
  have hl := perm_insertionSort (fun b c : α => key b ≤ key c) l
  have hl' := perm_insertionSort (fun b c : α => key b ≤ key c) l'
  constructor
  · intro h
    exact hl.symm.trans (h ▸ hl')
  · intro h
    refine List.Perm.eq_of_pairwise (fun a b _ _ hab hba => absurd hba (lt_asymm hab))
      (pairwise_lt_insertionSort hk) (pairwise_lt_insertionSort hk') ?_
    exact hl.trans (h.trans hl'.symm)

theorem mem_take_insertionSort_iff (hk : (l.map key).Nodup) {a : α} (ha : a ∈ l) (n : ℕ) :
    a ∈ (l.insertionSort fun b c => key b ≤ key c).take n ↔ l.countP (fun b => key b < key a) < n := by
  have hp := perm_insertionSort (fun b c : α => key b ≤ key c) l
  rw [mem_take_iff_of_pairwise (pairwise_lt_insertionSort hk) (hp.mem_iff.mpr ha), hp.countP_eq]

end First

section Congr

variable {s : α → α → Prop} [DecidableRel s]

end Congr

section Repeats

variable [DecidableEq α]

theorem mem_destutter' {a b : α} {l : List α} : b ∈ l.destutter' (· ≠ ·) a ↔ b = a ∨ b ∈ l := by
  induction l generalizing a with
  | nil => simp
  | cons c l ih =>
    by_cases hac : a = c
    · subst hac
      rw [destutter'_cons_neg l (by simp), ih, mem_cons, or_self_left]
    · rw [destutter'_cons_pos l hac, mem_cons, ih, mem_cons]

theorem mem_destutter {b : α} {l : List α} : b ∈ l.destutter (· ≠ ·) ↔ b ∈ l := by
  cases l with
  | nil => simp
  | cons a l => rw [destutter_cons', mem_destutter', mem_cons]

end Repeats

end AgentiumOs.Lib.StableSort
