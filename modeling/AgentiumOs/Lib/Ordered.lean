import Mathlib

/-! Lists whose elements have strictly increasing keys, cut at a bound. What lies
after a bound is a tail of such a list; moving the bound over the first element of
that tail takes exactly this element out of it. -/

namespace AgentiumOs.Lib.Ordered

open List

variable {α K : Type*} [LinearOrder K] (key : α → K)

/-- The key lies after the bound; without a bound every key does. -/
def after (bound : Option K) (a : α) : Bool :=
  match bound with
  | none => true
  | some k => k < key a

def Increasing (l : List α) : Prop := l.Pairwise fun a b => key a < key b

/-- The elements after one bound and not after the other. -/
def window (start bound : Option K) (l : List α) : List α :=
  l.filter fun a => after key start a && !after key bound a

variable {key}

variable {a b : α} {bound s bound' : Option K} {l low rest m : List α}

theorem after_of_lt (ha : after key bound a) (h : key a < key b) : after key bound b := by
  cases bound with
  | none => rfl
  | some k =>
    simp only [after, decide_eq_true_eq] at ha ⊢
    exact ha.trans h

theorem lt_of_after (ha : ¬ after key bound a) (hb : after key bound b) : key a < key b := by
  cases bound with
  | none => exact absurd rfl ha
  | some k =>
    simp only [after, decide_eq_true_eq, not_lt] at ha hb
    exact ha.trans_lt hb

theorem Increasing.filter (h : Increasing key l) (p : α → Bool) : Increasing key (l.filter p) :=
  Pairwise.filter p h

theorem Increasing.concat (h : Increasing key l) (ha : ∀ b ∈ l, key b < key a) : Increasing key (l ++ [a]) := by
  unfold Increasing
  rw [pairwise_append]
  refine ⟨h, pairwise_singleton _ _, fun b hb c hc => ?_⟩
  rw [mem_singleton.mp hc]
  exact ha b hb

theorem Increasing.split (h : Increasing key l) (bound : Option K) :
    (l.filter fun a => !after key bound a) ++ l.filter (after key bound) = l := by
  induction l with
  | nil => rfl
  | cons a rest ih =>
    obtain ⟨ha, hr⟩ := pairwise_cons.mp h
    by_cases haf : after key bound a
    · have hal : ∀ b ∈ rest, after key bound b := fun b hb => after_of_lt haf (ha b hb)
      have hn : rest.filter (fun b => !after key bound b) = [] := by
        rw [filter_eq_nil_iff]
        intro b hb
        simp [hal b hb]
      simp [haf, hn, filter_eq_self.mpr hal]
    · simp [haf, ih hr]

theorem Increasing.filter_after_eq (h : Increasing key (low ++ a :: rest))
    (hl : ∀ b ∈ low, ¬ after key bound b) (ha : after key bound a) :
    (low ++ a :: rest).filter (after key bound) = a :: rest := by
  have hm := (pairwise_cons.mp (pairwise_append.mp h).2.1).1
  rw [filter_append, filter_eq_nil_iff.mpr hl, nil_append, filter_eq_self]
  intro b hb
  obtain rfl | hb := mem_cons.mp hb
  · exact ha
  · exact after_of_lt ha (hm b hb)

theorem window_append (s bound : Option K) (l m : List α) :
    window key s bound (l ++ m) = window key s bound l ++ window key s bound m :=
  filter_append ..

theorem window_eq_nil (h : ∀ a ∈ l, after key bound a) : window key s bound l = [] := by
  refine filter_eq_nil_iff.mpr fun a ha => ?_
  simp [h a ha]

theorem window_cons_self (hs : after key s a) (h : ∀ b ∈ l, key a < key b) :
    window key s (some (key a)) (a :: l) = [a] := by
  have hr : window key s (some (key a)) l = [] := window_eq_nil (by simpa [after] using h)
  have hse : ¬ after key (some (key a)) a := by simp [after]
  rw [window] at hr ⊢
  rw [filter_cons_of_pos (by simp [hse, hs]), hr]

/-- Moving the bound does not change a window over what lies after neither bound. -/
theorem window_congr_bound (h : ∀ a ∈ l, ¬ after key bound a) (h' : ∀ a ∈ l, ¬ after key bound' a) :
    window key s bound l = window key s bound' l := by
  refine filter_congr fun a ha => ?_
  simp [h a ha, h' a ha]

/-- Nothing is after the bound, and the next element is not either. -/
theorem not_after_concat (hl : ∀ b ∈ l, ¬ after key bound b) (ha : ¬ after key bound a) :
    ∀ b ∈ l ++ [a], ¬ after key bound b := by
  intro b hb
  obtain hb | hb := mem_append.mp hb
  · exact hl b hb
  · rw [mem_singleton.mp hb]
    exact ha

/-- Nothing is after the bound, and the bound moves to the next element. -/
theorem not_after_advance (hl : ∀ b ∈ l, ¬ after key bound b) (ha : after key bound a) :
    ∀ b ∈ l ++ [a], ¬ after key (some (key a)) b := by
  refine not_after_concat (fun b hb => ?_) (by simp [after])
  have hlt : key b < key a := lt_of_after (hl b hb) ha
  simpa [after] using hlt.le

theorem Increasing.advance (h : Increasing key l) {s : Option K} {a : α}
    (hr : l.filter (after key bound) = a :: rest)
    (hst : ∀ b, after key bound b → after key s b) :
    l.filter (after key (some (key a))) = rest ∧
      window key s (some (key a)) l = window key s bound l ++ [a] := by
  have hs := h.split bound
  rw [hr] at hs
  have hlo : ∀ b ∈ l.filter (fun b => !after key bound b), ¬ after key bound b := by
    simp
  have ha : after key bound a := (mem_filter.mp (hr ▸ mem_cons_self : a ∈ _)).2
  have hh : ∀ b ∈ rest, after key bound b := fun b hb =>
    (mem_filter.mp (hr ▸ mem_cons_of_mem a hb : b ∈ _)).2
  generalize (l.filter fun b => !after key bound b) = low at hs hlo
  subst hs
  have hm : ∀ b ∈ rest, key a < key b :=
    (pairwise_cons.mp (pairwise_append.mp h).2.1).1
  have hl : ∀ b ∈ low, ¬ after key (some (key a)) b := by
    intro b hb
    simpa [after] using (lt_of_after (hlo b hb) ha).le
  constructor
  · rw [filter_append, filter_cons_of_neg (by simp [after]), filter_eq_nil_iff.mpr hl]
    exact filter_eq_self.mpr (by simpa [after] using hm)
  · have he : window key s bound (a :: rest) = [] :=
      window_eq_nil (forall_mem_cons.mpr ⟨ha, hh⟩)
    rw [window_append, window_append, window_congr_bound hl hlo, window_cons_self (hst a ha) hm, he, append_nil]

/-- Once nothing is after the bound, the window is all that is after the start. -/
theorem window_eq_filter (h : ∀ a ∈ l, ¬ after key bound a) :
    window key s bound l = l.filter (after key s) := by
  refine filter_congr fun a ha => ?_
  simp [h a ha]

theorem Increasing.key_inj (h : Increasing key l) (ha : a ∈ l) (hb : b ∈ l) (heq : key a = key b) : a = b := by
  have hn : (l.map key).Nodup := pairwise_map.mpr (h.imp fun hlt => hlt.ne)
  exact inj_on_of_nodup_map hn ha hb heq

theorem Increasing.mergeSort_eq (h : Increasing key l) (hp : m.Perm l) :
    m.mergeSort (fun a b => decide (key a ≤ key b)) = l := by
  have hs : (m.mergeSort fun a b => decide (key a ≤ key b)).Pairwise fun a b => key a ≤ key b := by
    have hpa := @pairwise_mergeSort _ (fun a b => decide (key a ≤ key b))
      (by simp only [decide_eq_true_eq]; exact fun a b c => le_trans)
      (by simp only [Bool.or_eq_true, decide_eq_true_eq]; exact fun a b => le_total _ _) m
    simpa using hpa
  refine List.Perm.eq_of_pairwise (fun a b ha hb hab hba => ?_) hs
    (h.imp fun hlt => hlt.le) ((mergeSort_perm ..).trans hp)
  have hm : a ∈ l := hp.mem_iff.mp ((mergeSort_perm ..).mem_iff.mp ha)
  exact h.key_inj hm hb (le_antisymm hab hba)

end AgentiumOs.Lib.Ordered
