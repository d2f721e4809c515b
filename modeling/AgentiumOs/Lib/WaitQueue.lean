import Mathlib

/-! A queue for places of which there are only so many. Those who seek a place are on
their way to it or have queued up under a ticket, and whenever a place becomes free the
first of the queue is sent on its way. While somebody queues, there are enough seekers
on their way for all the free places, so none of them can be overlooked. -/

namespace AgentiumOs.Lib

open Multiset

variable {α : Type*}

/-- Free places, a queue of tickets, and the seekers: a ticket, or none while on the way. -/
structure Attended (room : ℕ) (queue : List α) (seekers : Multiset (Option α)) : Prop where
  queued : ((queue.map some : List (Option α)) : Multiset (Option α)) ≤ seekers
  served : queue ≠ [] → room + queue.length ≤ seekers.card

namespace Attended

variable {room room' : ℕ} {queue : List α} {seekers s : Multiset (Option α)} {w : α}

theorem nil (room : ℕ) (seekers : Multiset (Option α)) : Attended room [] seekers :=
  ⟨zero_le _, fun h => absurd rfl h⟩

theorem nodup (h : Attended room queue seekers) (hd : (seekers.filterMap id).Nodup) : queue.Nodup := by
  have hle : ((queue.map some : Multiset (Option α)).filterMap id) ≤
      seekers.filterMap id := filterMap_le_filterMap _ h.queued
  have hq : (queue.map some : Multiset (Option α)).filterMap id = queue := by
    simp
  rw [hq] at hle
  exact coe_nodup.mp (nodup_of_le hle hd)

theorem joins (h : Attended room queue seekers) : Attended room queue (none ::ₘ seekers) where
  queued := h.queued.trans (le_cons_self _ _)
  served hne := by
    rw [card_cons]
    exact Nat.le_succ_of_le (h.served hne)

theorem queued_of_cons_none (h : Attended room queue (none ::ₘ seekers)) :
    ((queue.map some : List (Option α)) : Multiset (Option α)) ≤ seekers :=
  (le_cons_of_notMem (by simp)).mp h.queued

theorem takes (h : Attended (room + 1) queue (none ::ₘ seekers)) : Attended room queue seekers where
  queued := h.queued_of_cons_none
  served hne := by
    have := h.served hne
    rw [card_cons] at this
    omega

theorem parks (h : Attended 0 queue (none ::ₘ seekers)) (w : α) :
    Attended 0 (queue ++ [w]) (some w ::ₘ seekers) where
  queued := by
    have hp : List.Perm ((queue ++ [w]).map some) (some w :: queue.map some) := by
      rw [List.map_append]
      exact List.perm_append_singleton _ _
    rw [coe_eq_coe.mpr hp]
    exact cons_le_cons _ h.queued_of_cons_none
  served _ := by
    have := card_le_card h.queued_of_cons_none
    rw [coe_card, List.length_map] at this
    rw [card_cons, List.length_append, List.length_singleton]
    omega

/-- One more place is free, and the first of the queue leaves it. -/
theorem frees (h : Attended room queue seekers) (hr : room' ≤ room + 1) : Attended room' queue.tail seekers where
  queued := (coe_le.mpr ((List.tail_sublist queue).map some).subperm).trans h.queued
  served hne := by
    cases queue with
    | nil => exact absurd rfl hne
    | cons w queue =>
      have := h.served (List.cons_ne_nil _ _)
      rw [List.length_cons] at this
      rw [List.tail_cons]
      omega

theorem wakes (h : Attended room queue (some w ::ₘ seekers)) (hw : w ∉ queue) :
    Attended room queue (none ::ₘ seekers) where
  queued := by
    have hm : some w ∉ queue.map some := by simpa using hw
    exact ((le_cons_of_notMem hm).mp h.queued).trans (le_cons_self _ _)
  served hne := by simpa only [card_cons] using h.served hne

theorem leaves [DecidableEq α] (h : Attended room queue (some w ::ₘ seekers)) (hn : queue.Nodup)
    (hw : w ∈ queue) : Attended room (queue.filter (· ≠ w)) seekers := by
  have hf : queue.filter (· ≠ w) = queue.erase w := by
    rw [hn.erase_eq_filter]
    exact List.filter_congr fun x _ => by simp [bne, beq_eq_decide]
  rw [hf]
  refine ⟨?_, fun hne => ?_⟩
  · have hp : List.Perm (queue.map some) (some w :: (queue.erase w).map some) :=
      (List.perm_cons_erase hw).map some
    have hle := h.queued
    rw [coe_eq_coe.mpr hp] at hle
    exact (cons_le_cons_iff _).mp hle
  · have hq : queue ≠ [] := List.ne_nil_of_mem hw
    have := h.served hq
    have := List.length_erase_of_mem hw
    have := List.length_pos_of_mem hw
    rw [card_cons] at *
    omega

theorem card_filterMap_id (h : none ∉ s) : (s.filterMap id).card = s.card := by
  induction s using Multiset.induction_on with
  | empty => rfl
  | cons x s ih =>
    rw [Multiset.mem_cons, not_or] at h
    cases x with
    | none => exact absurd rfl h.1
    | some w => rw [Multiset.filterMap_cons_some id (some w) s rfl, Multiset.card_cons, Multiset.card_cons, ih h.2]

/-- With somebody in the queue and a place free, somebody is on the way: there is a
seeker who does not wait in the queue. -/
theorem exists_onTheWay (h : Attended room queue seekers) (hd : (seekers.filterMap id).Nodup)
    (hr : 0 < room) (hne : queue ≠ []) : ∃ x ∈ seekers, ∀ w ∈ queue, x ≠ some w := by
  by_contra ha
  push Not at ha
  have hs : seekers.filterMap id ≤ queue := by
    refine (le_iff_subset hd).mpr fun w hw => ?_
    obtain ⟨x, hx, rfl⟩ := (mem_filterMap _ _).mp hw
    obtain ⟨v, hv, hxv⟩ := ha _ hx
    obtain rfl : w = v := Option.some.inj hxv
    exact mem_coe.mpr hv
  have hc : (seekers.filterMap id).card = seekers.card := by
    refine card_filterMap_id fun hn => ?_
    obtain ⟨v, -, hv⟩ := ha none hn
    cases hv
  have hle := card_le_card hs
  have := h.served hne
  rw [coe_card] at hle
  omega

end Attended

end AgentiumOs.Lib
