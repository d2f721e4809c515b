import AgentiumOs.Sandbox.PoolSafety

/-! The waiters of the session pool. A checkout that finds no idle sandbox and no room for
another queues up, and whatever frees a place wakes the first of the queue. Every step is
one of a few changes of the queues, the free places and those who seek one. -/

namespace AgentiumOs.Sandbox

open SessionPool List PoolEntry Lib Lib.Interleave

variable {κ ι : Type}

namespace PoolTask

/-- The key a task seeks a sandbox of, and the waiter it has queued up as. -/
def seeks : PoolTask κ → Option (κ × Option ℕ)
  | .entering key => some (key, none)
  | .parked key waiter => some (key, some waiter)
  | .cancelling key waiter => some (key, some waiter)
  | .tearing _ (some key) => some (key, none)
  | _ => none

end PoolTask

/-- The places of a key that a checkout could have: idle sandboxes, and room for new ones. -/
def room (poolMax : ℕ) (entries : List PoolEntry) : ℕ :=
  entries.countP PoolEntry.isIdle + (max poolMax 1 - entries.length)

def PoolEntry.reservation? : PoolEntry → Option ℕ
  | .reserving id => some id
  | _ => none

def reservations (entries : List PoolEntry) : List ℕ :=
  entries.filterMap PoolEntry.reservation?

/-- The entries are within the bound, and no two reservations are the same. -/
structure Orderly (poolMax : ℕ) (s : SessionPool κ) : Prop where
  capped : ∀ key, (s.pools key).entries.length ≤ max poolMax 1
  nodup : ∀ key, (reservations (s.pools key).entries).Nodup
  bound : ∀ key, ∀ id ∈ reservations (s.pools key).entries, id < s.nextId

variable {poolMax : ℕ} {s s' : SessionPool κ} {t t' : PoolTask κ} {key : κ} {out into : List PoolEntry}

theorem Exchanged.reservations_perm (h : Exchanged s s' key out into) :
    List.Perm (reservations (s'.pools key).entries ++ reservations out)
      (reservations (s.pools key).entries ++ reservations into) := by
  simpa only [reservations, filterMap_append] using h.entries.filterMap reservation?

theorem Orderly.exchange (h : Orderly poolMax s) (hc : ∀ k, (s'.pools k).entries.length ≤ max poolMax 1)
    (he : Exchanged s s' key out into) (hid : s.nextId ≤ s'.nextId)
    (hn : (reservations into).Nodup)
    (hne : ∀ id ∈ reservations into, s.nextId ≤ id ∧ id < s'.nextId) : Orderly poolMax s' := by
  have hbo : (reservations (s.pools key).entries ++ reservations into).Nodup := by
    refine nodup_append.mpr ⟨h.nodup key, hn, fun a ha b hb hab => ?_⟩
    have := h.bound key a ha
    have := (hne b hb).1
    omega
  refine ⟨hc, fun k => ?_, fun k id hid' => ?_⟩
  · by_cases hk : k = key
    · subst hk
      exact (nodup_append.mp (he.reservations_perm.nodup_iff.mpr hbo)).1
    · rw [he.other k hk]
      exact h.nodup k
  · by_cases hk : k = key
    · subst hk
      rcases mem_append.mp (he.reservations_perm.mem_iff.mp (mem_append.mpr (.inl hid'))) with ho | hi
      · exact (h.bound k id ho).trans_le hid
      · exact (hne id hi).2
    · rw [he.other k hk] at hid'
      exact (h.bound k id hid').trans_le hid

theorem Changes.orderly (h : Changes poolMax s t s' t') (hs : Orderly poolMax s) : Orderly poolMax s' := by
  have hcap := h.capped hs.capped
  cases h with
  | quiet he hc htorn hid =>
    refine ⟨hcap, fun k => ?_, fun k id hm => ?_⟩
    · rw [he]
      exact hs.nodup k
    · rw [he] at hm
      exact (hs.bound k id hm).trans_le hid
  | takes key out handle he hid =>
    exact hs.exchange hcap he (by omega) nodup_nil (by simp [reservations, reservation?])
  | gives sa d handle into he hid htask hi =>
    have hnone : reservations into = [] := by
      rcases hi with ⟨rfl, -⟩ | ⟨rfl, -⟩ <;> rfl
    exact hs.exchange hcap he hid.ge (by simp [hnone]) (by simp [hnone])
  | vanishes sa hpooled hgone hst =>
    subst hst
    exact hs
  | sweeps key swept he hid => exact hs.exchange hcap he hid.ge nodup_nil (by simp [reservations])
  | reserves key hroom he hid =>
    refine hs.exchange hcap he (by omega) (nodup_singleton _) fun id hm => ?_
    obtain rfl : id = s.nextId := mem_singleton.mp hm
    omega
  | unreserves key id handle out hout he hid =>
    exact hs.exchange hcap he hid.ge nodup_nil (by simp [reservations])
  | creates key id handle hst | handsOver handle handles next hst =>
    subst hst
    exact ⟨hs.capped, hs.nodup, hs.bound⟩

theorem orderly_emptyPool : Orderly poolMax (emptyPool : Pool (SessionPool κ) (PoolTask κ) ι).shared where
  capped _ := Nat.zero_le _
  nodup _ := nodup_nil
  bound := by simp [emptyPool, reservations]

/-- A turn changes the entries in an orderly way, also when a task ends. -/
theorem Orderly.poolAdvance [DecidableEq κ] (h : Orderly poolMax s) (m : PoolMove κ) (t : PoolTask κ) :
    Orderly poolMax (poolAdvance poolMax m s t).1 := by
  by_cases hd : ∃ i, m = .drop i
  · obtain ⟨i, rfl⟩ := hd
    exact h
  · refine (changes_poolAdvance fun i hm => ?_).orderly h
    exact absurd ⟨i, hm⟩ hd

theorem Exchanged.room_eq (h : Exchanged s s' key out into) (hc : (s.pools key).entries.length ≤ max poolMax 1)
    (hf : (s.pools key).entries.length + into.length ≤ max poolMax 1 + out.length) :
    room poolMax (s'.pools key).entries + (out.countP PoolEntry.isIdle + into.length) =
      room poolMax (s.pools key).entries + (into.countP PoolEntry.isIdle + out.length) := by
  have hi := h.entries.countP_eq isIdle
  have hl := h.length
  rw [countP_append, countP_append] at hi
  unfold room
  omega

/-! ### What a step does to the queue -/

structure SameQueues (s s' : SessionPool κ) : Prop where
  waiters : ∀ k, (s'.pools k).waiters = (s.pools k).waiters
  notified : s'.notified = s.notified
  nextId : s.nextId ≤ s'.nextId

/-- The first waiter of a key is notified and leaves the queue. -/
structure Notifies (s s' : SessionPool κ) (key : κ) : Prop where
  waiters : (s'.pools key).waiters = (s.pools key).waiters.tail
  other : ∀ k, k ≠ key → (s'.pools k).waiters = (s.pools k).waiters
  notified : s'.notified = (s.pools key).waiters.head?.toList ++ s.notified
  nextId : s'.nextId = s.nextId

variable [DecidableEq κ]

/-- What one step does to those who seek a sandbox and to the free places. -/
inductive Attends (poolMax : ℕ) (s : SessionPool κ) (t : PoolTask κ) (s' : SessionPool κ)
    (t' : PoolTask κ) : Prop
  | keeps (hqueues : SameQueues s s')
      (hroom : ∀ k, room poolMax (s'.pools k).entries = room poolMax (s.pools k).entries)
      (hseeks : t'.seeks = t.seeks)
  | joins (key : κ) (hstate : s' = s) (hseeks : t.seeks = none) (hseeks' : t'.seeks = some (key, none))
  | takes (key : κ) (hqueues : SameQueues s s')
      (hroom : room poolMax (s.pools key).entries = room poolMax (s'.pools key).entries + 1)
      (hother : ∀ k, k ≠ key → (s'.pools k).entries = (s.pools k).entries)
      (hseeks : t.seeks = some (key, none)) (hseeks' : t'.seeks = none)
  | parks (key : κ) (hfull : room poolMax (s.pools key).entries = 0)
      (hstate : s' = { s.updatePool key ⟨(s.pools key).entries, (s.pools key).waiters ++ [s.nextId]⟩ with
        nextId := s.nextId + 1 })
      (hseeks : t.seeks = some (key, none)) (hseeks' : t'.seeks = some (key, some s.nextId))
  | frees (key : κ) (hnotifies : Notifies s s' key)
      (hroom : room poolMax (s'.pools key).entries ≤ room poolMax (s.pools key).entries + 1)
      (hother : ∀ k, k ≠ key → (s'.pools k).entries = (s.pools k).entries)
      (hseeks : t'.seeks = t.seeks)
  | wakes (key : κ) (waiter : ℕ) (hwaiter : waiter ∈ s.notified) (hstate : s' = s)
      (hseeks : t.seeks = some (key, some waiter)) (hseeks' : t'.seeks = some (key, none))
  | leaves (key : κ) (waiter : ℕ)
      (hwaiter : waiter ∈ (s.pools key).waiters ∨ (s.pools key).waiters = [])
      (hstate : s' = s.cancelWaiter key waiter)
      (hseeks : t.seeks = some (key, some waiter)) (hseeks' : t'.seeks = none)
  /-- A checkout is gone without a word, at a time when nobody queues. -/
  | quits (a : κ × Option ℕ) (hnobody : (s.pools a.1).waiters = []) (hstate : s' = s)
      (hseeks : t.seeks = some a) (hseeks' : t'.seeks = none)

omit [DecidableEq κ] in
theorem SameQueues.refl (s : SessionPool κ) : SameQueues s s := ⟨fun _ => rfl, rfl, le_rfl⟩

theorem Attends.same (s : SessionPool κ) (hs : t'.seeks = t.seeks) : Attends poolMax s t s t' :=
  .keeps (.refl s) (fun _ => rfl) hs

theorem waiters_setEntries (s : SessionPool κ) (key k : κ) (e : List PoolEntry) :
    ((s.setEntries key e).pools k).waiters = (s.pools k).waiters := by
  by_cases hk : k = key
  · subst hk
    simp [setEntries, updatePool]
  · simp [setEntries, updatePool, hk]

theorem notifies_notifyOneWaiter (s : SessionPool κ) (key : κ) (e : List PoolEntry) :
    Notifies s ((s.setEntries key e).notifyOneWaiter key) key := by
  have hw := waiters_setEntries s key key e
  unfold notifyOneWaiter
  split
  · rename_i hn
    rw [hw] at hn
    refine ⟨?_, fun k _ => waiters_setEntries s key k e, ?_, rfl⟩
    · rw [hw, hn, tail_nil]
    · simp [hn, setEntries, updatePool]
  · rename_i waiter rest hc
    rw [hw] at hc
    refine ⟨?_, fun k hk => ?_, ?_, rfl⟩
    · simp [updatePool, hc]
    · simp [updatePool, setEntries, hk]
    · simp [hc, setEntries, updatePool]

variable {en : List PoolEntry}

theorem countP_isIdle_eq_zero (h : en.findIdx? PoolEntry.isIdle = none) : en.countP PoolEntry.isIdle = 0 := by
  rw [countP_eq_zero]
  intro e he
  simpa using findIdx?_eq_none_iff.mp h e he

theorem attends_claim (hs : Orderly poolMax s) (key : κ) :
    Attends poolMax s (.entering key) (s.claim poolMax key (s.pools key).entries).1
      (s.claim poolMax key (s.pools key).entries).2 := by
  unfold SessionPool.claim
  split
  · rename_i idx hf
    obtain ⟨entry, hid, hi⟩ := exists_of_findIdx? hf
    cases entry with
    | idle handle =>
      rw [hid]
      have hse := exchanged_setEntries (set_append_perm hid (.live s.nextId handle))
      have hr := hse.room_eq (hs.capped key) (Nat.add_le_add_right (hs.capped key) 1)
      exact .takes key ⟨fun k => waiters_setEntries s key k _, rfl, Nat.le_succ _⟩
        (Nat.succ.inj hr).symm hse.other rfl rfl
    | _ => cases hi
  · rename_i hn
    split_ifs with hsp
    · have hse : Exchanged s (s.setEntries key ((s.pools key).entries ++ [.reserving s.nextId])) key []
          [.reserving s.nextId] := exchanged_setEntries (by rw [append_nil])
      refine .takes key ⟨fun k => waiters_setEntries s key k _, rfl, Nat.le_succ _⟩ ?_ hse.other rfl rfl
      exact (hse.room_eq (hs.capped key) hsp).symm
    · refine .parks key ?_ rfl rfl rfl
      unfold room
      rw [countP_isIdle_eq_zero hn]
      omega

theorem attends_enter (hs : Orderly poolMax s) (key : κ) (e : String → Bool) :
    Attends poolMax s (.entering key) (s.enter poolMax key e).1 (s.enter poolMax key e).2 := by
  have hp := sweep_perm e (s.pools key).entries.length 0 (s.pools key).entries []
  have hn := @sweep_eq_of_nil e (s.pools key).entries.length 0 (s.pools key).entries []
  unfold SessionPool.enter
  split
  · rename_i en hsw
    rw [hsw] at hn
    obtain rfl : en = (s.pools key).entries := (hn rfl).2
    exact attends_claim hs key
  · rename_i en sw hswe hsw
    rw [hsw, map_nil] at hp
    have hse := exchanged_setEntries hp
    have hr := hse.notify.room_eq (hs.capped key) (Nat.le_add_right_of_le (hs.capped key))
    have hi : (sw.map PoolEntry.idle).countP isIdle = sw.length := by
      simp [isIdle]
    rw [hi, length_map, countP_nil, Nat.zero_add] at hr
    exact .frees key (notifies_notifyOneWaiter s key en)
      (Nat.le_succ_of_le (Nat.add_right_cancel hr).le) hse.notify.other rfl

theorem attends_promote (hs : Orderly poolMax s) (key : κ) (r : ℕ) (ha : String) :
    Attends poolMax s (.booted key r ha) (s.promote key r ha).1 (s.promote key r ha).2 := by
  simp only [promote]
  split
  · rename_i idx hf
    obtain ⟨entry, hi, he⟩ := exists_of_findIdx? hf
    cases entry with
    | reserving id =>
      have hse := exchanged_setEntries (set_append_perm hi (.live s.nextId ha))
      refine .keeps ⟨fun k => waiters_setEntries s key k _, rfl, Nat.le_succ _⟩ (fun k => ?_) rfl
      by_cases hk : k = key
      · subst hk
        exact Nat.add_right_cancel (hse.room_eq (hs.capped k) (Nat.add_le_add_right (hs.capped k) 1))
      · exact congrArg (room poolMax) (hse.other k hk)
    | _ => cases he
  · exact .same s rfl

theorem length_filter_isReserving (h : (reservations en).Nodup) (id : ℕ) :
    (en.filter fun e => e.isReserving id).length ≤ 1 := by
  have hc : (en.filter fun e => e.isReserving id).length = (reservations en).count id := by
    rw [reservations, count_filterMap, ← countP_eq_length_filter]
    refine countP_congr fun e _ => ?_
    cases e <;> simp [isReserving, reservation?]
  rw [hc]
  exact nodup_iff_count_le_one.mp h id

theorem exchanged_dropReservation (s : SessionPool κ) (key : κ) (r : ℕ) (ha : Option String) :
    Exchanged s (s.dropReservation key r ha).1 key
      ((s.pools key).entries.filter fun e => e.isReserving r) [] := by
  refine (exchanged_setEntries ?_).notify
  rw [append_nil]
  exact perm_append_comm.trans (filter_append_perm _ _)

theorem attends_dropReservation (hs : Orderly poolMax s) (key : κ) (r : ℕ) (ha : Option String) :
    Attends poolMax s (.dropping key r ha) (s.dropReservation key r ha).1 (s.dropReservation key r ha).2 := by
  have hse := exchanged_dropReservation s key r ha
  have hr := hse.room_eq (hs.capped key) (Nat.le_add_right_of_le (hs.capped key))
  rw [countP_nil, Nat.zero_add] at hr
  have ho := length_filter_isReserving (hs.nodup key) r
  exact .frees key (notifies_notifyOneWaiter s key _)
    ((Nat.le_of_add_right_le hr.le).trans (Nat.add_le_add_left ho _)) hse.other rfl

theorem exchanged_swapRemove (hi : (s.pools key).entries[idx]? = some e) :
    Exchanged s ((s.setEntries key (swapRemove (s.pools key).entries idx)).notifyOneWaiter key) key [e] [] := by
  refine (exchanged_setEntries ?_).notify
  rw [append_nil]
  exact (perm_append_singleton _ _).trans (cons_swapRemove_perm hi)

theorem attends_release (hs : Orderly poolMax s) (sa : PooledSandbox κ) (d : Release) :
    Attends poolMax s (.releasing sa d) (s.release sa d).1 (s.release sa d).2 := by
  simp only [release]
  split
  · rename_i idx hf
    obtain ⟨entry, hi, he⟩ := exists_of_findIdx? hf
    cases entry with
    | live session handle =>
      rw [hi]
      have hc := hs.capped sa.key
      cases d with
      | returnIdle =>
        have hse := exchanged_setEntries (set_append_perm hi (.idle handle))
        have hr := hse.notify.room_eq hc (Nat.add_le_add_right hc 1)
        exact .frees sa.key (notifies_notifyOneWaiter s _ _) (Nat.succ.inj hr).le hse.notify.other rfl
      | destroy =>
        have hse := exchanged_swapRemove hi
        have hr := hse.room_eq hc (Nat.le_add_right_of_le hc)
        exact .frees sa.key (notifies_notifyOneWaiter s _ _) hr.le hse.other rfl
    | _ => cases he
  · exact .same s rfl

theorem attends_poolProceed (hs : Orderly poolMax s) (e : String → Bool)
    (hy : ∀ key w, t = .cancelling key w → w ∈ (s.pools key).waiters ∨ (s.pools key).waiters = []) :
    Attends poolMax s t (poolProceed poolMax e s t).1 (poolProceed poolMax e s t).2 := by
  unfold poolProceed
  split
  · exact attends_enter hs _ e
  · exact .leaves _ _ (hy _ _ rfl) rfl rfl rfl
  · exact attends_promote hs _ _ _
  · exact attends_dropReservation hs _ _ _
  · exact attends_release hs _ _
  · exact .same s rfl
  · exact .same s rfl
  · exact .keeps ⟨fun _ => rfl, rfl, le_rfl⟩ (fun _ => rfl) (by rename_i n; cases n <;> rfl)
  · exact .same s rfl

omit [DecidableEq κ] in
theorem seeks_poolDrop (i : Bool) (t : PoolTask κ) : (poolDrop i t).seeks = none := by
  cases t <;> cases i <;> rfl

theorem attends_poolDrop (i : Bool) (hy : ∀ a, t.seeks = some a → (s.pools a.1).waiters = []) :
    Attends poolMax s t s (poolDrop i t) := by
  cases hs : t.seeks with
  | none => exact .same s ((seeks_poolDrop i t).trans hs.symm)
  | some a => exact .quits a (hy a hs) rfl hs (seeks_poolDrop i t)

theorem attends_poolAdvance (hs : Orderly poolMax s) (m : PoolMove κ)
    (hc : ∀ e key w, m = .proceed e → t = .cancelling key w →
      w ∈ (s.pools key).waiters ∨ (s.pools key).waiters = [])
    (hd : ∀ i a, m = .drop i → t.seeks = some a → (s.pools a.1).waiters = []) :
    Attends poolMax s t (poolAdvance poolMax m s t).1 (poolAdvance poolMax m s t).2 := by
  unfold poolAdvance
  split
  · exact .joins _ rfl rfl rfl
  · exact attends_poolProceed hs _ fun key w ht => hc _ key w rfl ht
  · exact .keeps ⟨fun _ => rfl, rfl, le_rfl⟩ (fun _ => rfl) rfl
  · exact .same s rfl
  · split_ifs with hn
    · exact .wakes _ _ hn rfl rfl rfl
    · exact .same s rfl
  · exact .same s rfl
  · exact .same s rfl
  · exact attends_poolDrop _ fun a ha => hd _ a rfl ha
  · exact .same s rfl

end AgentiumOs.Sandbox
