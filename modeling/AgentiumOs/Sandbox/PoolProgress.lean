import AgentiumOs.Lib.WaitQueue
import AgentiumOs.Sandbox.PoolWaiters

/-! No wake-up of the session pool is lost, so that no checkout stays parked in a pool at
rest that has a place for it. That is so as long as a checkout that was woken takes its
turn. One that gives up instead, because its time is over or because its caller is gone,
wakes nobody in its place. -/

namespace AgentiumOs.Sandbox

open Multiset SessionPool Lib Lib.Interleave

variable {κ ι : Type} [DecidableEq κ]

/-- A task that waits for a call of its owner or for its waiter to be notified. -/
def PoolTask.rests (s : SessionPool κ) : PoolTask κ → Bool
  | .idle => true
  | .holding _ => true
  | .parked _ waiter => waiter ∉ s.notified
  | _ => false

/-- What a task does by itself. Calls, the clock and the end of a task come from outside. -/
def PoolMove.internal : PoolMove κ → Bool
  | .proceed _ => true
  | .create _ => true
  | .wake => true
  | _ => false

/-- No step is left but those that come from outside. -/
def Quiescent [DecidableEq ι] (poolMax : ℕ) (p : Pool (SessionPool κ) (PoolTask κ) ι) : Prop :=
  ∀ op : PoolOp κ ι, op.move.internal = true → (poolStep poolMax p op).1 = p

/-- A checkout gives up only from its place in the queue, or when nobody queues for its key. -/
def YieldsTurn (p : Pool (SessionPool κ) (PoolTask κ) ι) (op : PoolOp κ ι) : Prop :=
  match op.move, p.thread op.task with
  | .proceed _, .cancelling key waiter =>
      waiter ∈ (p.shared.pools key).waiters ∨ (p.shared.pools key).waiters = []
  | .drop _, task => ∀ a ∈ task.seeks, (p.shared.pools a.1).waiters = []
  | _, _ => True

instance YieldsTurn.decidable (p : Pool (SessionPool κ) (PoolTask κ) ι) (op : PoolOp κ ι) :
    Decidable (YieldsTurn p op) := by
  unfold YieldsTurn
  generalize op.move = move, p.thread op.task = task
  casesm* PoolMove _, PoolTask _ <;> infer_instance

/-! ### Those who seek a sandbox -/

def seekersOf (total : Multiset (κ × Option ℕ)) (key : κ) : Multiset (Option ℕ) :=
  (total.filter (·.1 = key)).map Prod.snd

def sought (t : PoolTask κ) : Multiset (κ × Option ℕ) :=
  (t.seeks.toList : List (κ × Option ℕ))

variable {total rest total' : Multiset (κ × Option ℕ)} {key k : κ} {x : Option ℕ} {waiter : ℕ}

@[simp] theorem seekersOf_cons_self : seekersOf ((key, x) ::ₘ rest) key = x ::ₘ seekersOf rest key := by
  simp [seekersOf]

theorem seekersOf_cons_of_ne (hk : k ≠ key) : seekersOf ((key, x) ::ₘ rest) k = seekersOf rest k := by
  simp [seekersOf, Ne.symm hk]

theorem mem_seekersOf : x ∈ seekersOf total key ↔ (key, x) ∈ total := by
  simp [seekersOf]

theorem nodup_seekersOf (h : (total.filterMap Prod.snd).Nodup) (key : κ) :
    ((seekersOf total key).filterMap id).Nodup := by
  rw [seekersOf, filterMap_map]
  exact nodup_of_le (filterMap_le_filterMap _ (filter_le _ _)) h

theorem key_eq_of_mem (h : (total.filterMap Prod.snd).Nodup) (hke : (key, some waiter) ∈ total)
    (hk : (k, some waiter) ∈ total) : k = key := by
  by_contra hne
  obtain ⟨rest, rfl⟩ := exists_cons_of_mem hke
  rw [filterMap_cons_some Prod.snd (key, some waiter) rest rfl, nodup_cons] at h
  refine h.1 ((mem_filterMap _ _).mpr ⟨(k, some waiter), ?_, rfl⟩)
  exact (mem_cons.mp hk).resolve_left fun heq => hne (Prod.ext_iff.mp heq).1

variable {poolMax : ℕ} {s s' : SessionPool κ} {t t' : PoolTask κ}

omit [DecidableEq κ] in
theorem sought_of_none (h : t.seeks = none) : sought t + rest = rest := by
  simp [sought, h]

omit [DecidableEq κ] in
theorem sought_of_some {a : κ × Option ℕ} (h : t.seeks = some a) : sought t + rest = a ::ₘ rest := by
  simp [sought, h]

/-- Every key has its free places, its queue and its seekers in order. -/
def AllAttended (poolMax : ℕ) (s : SessionPool κ) (total : Multiset (κ × Option ℕ)) : Prop :=
  ∀ key, Attended (room poolMax (s.pools key).entries) (s.pools key).waiters (seekersOf total key)

theorem Attends.attended (h : Attends poolMax s t s' t') (ha : AllAttended poolMax s (sought t + rest))
    (hd : ((sought t + rest).filterMap Prod.snd).Nodup)
    (hc : ∀ key waiter, t.seeks = some (key, some waiter) → waiter ∈ s.notified →
      waiter ∉ (s.pools key).waiters) : AllAttended poolMax s' (sought t' + rest) := by
  intro k
  have hk := ha k
  cases h with
  | keeps hq hr hs =>
    rw [hr, hq.waiters, sought, hs]
    exact hk
  | joins key hst hs hs' =>
    subst hst
    rw [sought_of_none hs] at hk
    rw [sought_of_some hs']
    by_cases hke : k = key
    · subst hke
      rw [seekersOf_cons_self]
      exact hk.joins
    · rwa [seekersOf_cons_of_ne hke]
  | takes key hq hr ho hs hs' =>
    rw [sought_of_some hs] at hk
    rw [sought_of_none hs', hq.waiters]
    by_cases hke : k = key
    · subst hke
      rw [seekersOf_cons_self, hr] at hk
      exact hk.takes
    · rwa [ho k hke, ← seekersOf_cons_of_ne hke]
  | parks key hf hst hs hs' =>
    subst hst
    rw [sought_of_some hs] at hk
    rw [sought_of_some hs']
    by_cases hke : k = key
    · subst hke
      rw [seekersOf_cons_self, hf] at hk
      simp only [updatePool, Function.update_self, seekersOf_cons_self, hf]
      exact hk.parks _
    · simp only [updatePool, Function.update_of_ne hke]
      rw [seekersOf_cons_of_ne hke] at hk ⊢
      exact hk
  | frees key hno hr ho hs =>
    rw [sought, hs]
    by_cases hke : k = key
    · subst hke
      rw [hno.waiters]
      exact hk.frees hr
    · rw [hno.other k hke, ho k hke]
      exact hk
  | wakes key waiter hw hst hs hs' =>
    subst hst
    rw [sought_of_some hs] at hk
    rw [sought_of_some hs']
    by_cases hke : k = key
    · subst hke
      rw [seekersOf_cons_self] at hk ⊢
      exact hk.wakes (hc k waiter hs hw)
    · rw [seekersOf_cons_of_ne hke] at hk ⊢
      exact hk
  | leaves key waiter hw hst hs hs' =>
    subst hst
    rw [sought_of_some hs] at hk hd
    rw [sought_of_none hs']
    by_cases hke : k = key
    · subst hke
      have hnd := hk.nodup (nodup_seekersOf hd k)
      simp only [cancelWaiter, updatePool, Function.update_self]
      rw [seekersOf_cons_self] at hk
      rcases hw with hm | hn
      · exact hk.leaves hnd hm
      · rw [hn]
        exact .nil _ _
    · simp only [cancelWaiter, updatePool, Function.update_of_ne hke]
      rwa [← seekersOf_cons_of_ne hke]
  | quits a hn hst hs hs' =>
    subst hst
    rw [sought_of_some hs] at hk
    rw [sought_of_none hs']
    by_cases hke : k = a.1
    · subst hke
      rw [hn]
      exact .nil _ _
    · rwa [← seekersOf_cons_of_ne hke]

/-- A seeker that has queued up has a waiter of its own, which is in the queue of its key
until it is notified. -/
structure Tickets (s : SessionPool κ) (total : Multiset (κ × Option ℕ)) : Prop where
  distinct : (total.filterMap Prod.snd).Nodup
  bound : ∀ key waiter, (key, some waiter) ∈ total → waiter < s.nextId
  notified : ∀ waiter ∈ s.notified, waiter < s.nextId
  called : ∀ key waiter, (key, some waiter) ∈ total → (waiter ∈ (s.pools key).waiters ↔ waiter ∉ s.notified)

omit [DecidableEq κ] in
theorem Tickets.sub (h : Tickets s total) (hd : total'.filterMap Prod.snd ≤ total.filterMap Prod.snd)
    (hs : ∀ key waiter, (key, some waiter) ∈ total' → (key, some waiter) ∈ total) :
    Tickets s total' where
  distinct := Multiset.nodup_of_le hd h.distinct
  bound key waiter hm := h.bound key waiter (hs key waiter hm)
  notified := h.notified
  called key waiter hm := h.called key waiter (hs key waiter hm)

omit [DecidableEq κ] in
theorem Tickets.others {a : κ × Option ℕ} (h : Tickets s (a ::ₘ rest)) : Tickets s rest :=
  h.sub (Multiset.filterMap_le_filterMap _ (Multiset.le_cons_self _ _)) fun _ _ hm => Multiset.mem_cons_of_mem hm

omit [DecidableEq κ] in
theorem Tickets.onTheWay (h : Tickets s rest) (key : κ) : Tickets s ((key, none) ::ₘ rest) := by
  refine h.sub ?_ fun k waiter hm => ?_
  · rw [Multiset.filterMap_cons_none (key, none) rest rfl]
  · exact (Multiset.mem_cons.mp hm).resolve_left (by simp)

omit [DecidableEq κ] in
theorem Tickets.sameQueues (h : Tickets s total) (hq : SameQueues s s') : Tickets s' total where
  distinct := h.distinct
  bound key waiter hm := (h.bound key waiter hm).trans_le hq.nextId
  notified waiter hm := by
    rw [hq.notified] at hm
    exact (h.notified waiter hm).trans_le hq.nextId
  called key waiter hm := by
    rw [hq.waiters, hq.notified]
    exact h.called key waiter hm

theorem AllAttended.mem_of_waiter (h : AllAttended poolMax s total)
    (hw : waiter ∈ (s.pools key).waiters) : (key, some waiter) ∈ total :=
  mem_seekersOf.mp (Multiset.mem_of_le (h key).queued (Multiset.mem_coe.mpr (List.mem_map_of_mem hw)))

/-- The waiter that is notified has left its queue, and was in no other. -/
theorem Tickets.notifies (h : Tickets s total) (ha : AllAttended poolMax s total)
    (hn : Notifies s s' key) : Tickets s' total where
  distinct := h.distinct
  bound k waiter hm := hn.nextId ▸ h.bound k waiter hm
  notified waiter hm := by
    rw [hn.notified] at hm
    rw [hn.nextId]
    rcases List.mem_append.mp hm with hh | hol
    · refine h.bound key waiter (ha.mem_of_waiter ?_)
      exact List.mem_of_mem_head? (Option.mem_toList.mp hh)
    · exact h.notified waiter hol
  called k waiter hm := by
    have hc := h.called k waiter hm
    have hnd := (ha key).nodup (nodup_seekersOf h.distinct key)
    rw [hn.notified]
    cases hq : (s.pools key).waiters with
    | nil =>
      have hs : (s'.pools k).waiters = (s.pools k).waiters := by
        by_cases hk : k = key
        · subst hk
          rw [hn.waiters, hq, List.tail_nil]
        · exact hn.other k hk
      rw [hs]
      exact hc
    | cons f others =>
      have hf : (key, some f) ∈ total := ha.mem_of_waiter (hq ▸ List.mem_cons_self)
      rw [hq] at hnd
      simp only [List.head?_cons, Option.toList_some, List.singleton_append, List.mem_cons, not_or]
      by_cases hk : k = key
      · subst hk
        rw [hn.waiters, hq]
        rw [hq, List.mem_cons] at hc
        constructor
        · intro ho
          refine ⟨?_, hc.mp (.inr ho)⟩
          rintro rfl
          exact (List.nodup_cons.mp hnd).1 ho
        · rintro ⟨hne, hno⟩
          exact (hc.mpr hno).resolve_left hne
      · rw [hn.other k hk, hc]
        refine ⟨fun hno => ⟨?_, hno⟩, And.right⟩
        rintro rfl
        exact hk (key_eq_of_mem h.distinct hf hm)

theorem Tickets.parks (h : Tickets s rest) (key : κ) :
    Tickets { s.updatePool key ⟨(s.pools key).entries, (s.pools key).waiters ++ [s.nextId]⟩ with
      nextId := s.nextId + 1 } ((key, some s.nextId) ::ₘ rest) where
  distinct := by
    rw [filterMap_cons_some Prod.snd (key, some s.nextId) rest rfl]
    refine nodup_cons.mpr ⟨fun hm => ?_, h.distinct⟩
    obtain ⟨⟨k, x⟩, hx, rfl⟩ := (mem_filterMap _ _).mp hm
    exact absurd (h.bound k _ hx) (lt_irrefl _)
  bound k waiter hm := by
    rcases mem_cons.mp hm with heq | ho
    · cases heq
      exact Nat.lt_succ_self _
    · exact Nat.lt_succ_of_lt (h.bound k waiter ho)
  notified waiter hm := Nat.lt_succ_of_lt (h.notified waiter hm)
  called k waiter hm := by
    have hf : s.nextId ∉ s.notified := fun hm => absurd (h.notified _ hm) (lt_irrefl _)
    rcases mem_cons.mp hm with heq | ho
    · cases heq
      simpa [updatePool] using hf
    · have hc := h.called k waiter ho
      have hlt := h.bound k waiter ho
      by_cases hk : k = key
      · subst hk
        simpa [updatePool, hlt.ne] using hc
      · simpa [updatePool, hk] using hc

theorem Tickets.leaves (h : Tickets s ((key, some waiter) ::ₘ rest)) :
    Tickets (s.cancelWaiter key waiter) rest where
  distinct := h.others.distinct
  bound := h.others.bound
  notified := h.notified
  called k w hm := by
    have hc := h.others.called k w hm
    have hne : w ≠ waiter := by
      rintro rfl
      have hn := h.distinct
      rw [filterMap_cons_some Prod.snd (key, some w) rest rfl, nodup_cons] at hn
      exact hn.1 ((mem_filterMap _ _).mpr ⟨(k, some w), hm, rfl⟩)
    by_cases hk : k = key
    · subst hk
      simpa [cancelWaiter, updatePool, hne] using hc
    · simpa [cancelWaiter, updatePool, hk] using hc

theorem Attends.tickets (h : Attends poolMax s t s' t') (ha : AllAttended poolMax s (sought t + rest))
    (ht : Tickets s (sought t + rest)) : Tickets s' (sought t' + rest) := by
  cases h with
  | keeps hq hr hs =>
    rw [sought, hs]
    exact ht.sameQueues hq
  | joins key hst hs hs' =>
    subst hst
    rw [sought_of_none hs] at ht
    rw [sought_of_some hs']
    exact ht.onTheWay key
  | takes key hq hr ho hs hs' =>
    rw [sought_of_some hs] at ht
    rw [sought_of_none hs']
    exact ht.others.sameQueues hq
  | parks key hf hst hs hs' =>
    subst hst
    rw [sought_of_some hs] at ht
    rw [sought_of_some hs']
    exact ht.others.parks key
  | frees key hn hr ho hs =>
    rw [sought, hs]
    exact ht.notifies ha hn
  | wakes key waiter hw hst hs hs' =>
    subst hst
    rw [sought_of_some hs] at ht
    rw [sought_of_some hs']
    exact ht.others.onTheWay key
  | leaves key waiter hw hst hs hs' =>
    subst hst
    rw [sought_of_some hs] at ht
    rw [sought_of_none hs']
    exact ht.leaves
  | quits a hno hst hs hs' =>
    subst hst
    rw [sought_of_some hs] at ht
    rw [sought_of_none hs']
    exact ht.others

/-- What every step keeps in which nobody who was woken gives up before its turn. -/
structure Served (poolMax : ℕ) (p : Pool (SessionPool κ) (PoolTask κ) ι) : Prop where
  orderly : Orderly poolMax p.shared
  line : ∃ total, Tallied (fun i => sought (p.thread i)) total ∧ Tickets p.shared total ∧
    AllAttended poolMax p.shared total

theorem served_emptyPool : Served poolMax (emptyPool : Pool (SessionPool κ) (PoolTask κ) ι) where
  orderly := orderly_emptyPool
  line := ⟨0, .zero, ⟨nodup_zero, by simp, by simp [emptyPool], by simp⟩, fun _ => .nil _ _⟩

variable [DecidableEq ι] {p : Pool (SessionPool κ) (PoolTask κ) ι}

theorem Served.step (h : Served poolMax p) (op : PoolOp κ ι) (hy : YieldsTurn p op) :
    Served poolMax (poolStep poolMax p op).1 := by
  obtain ⟨ho, total, hta, ht, hal⟩ := h
  have ha : Attends poolMax p.shared (p.thread op.task) _ _ :=
    attends_poolAdvance ho op.move (fun e key waiter hm hts => by
        unfold YieldsTurn at hy
        rwa [hm, hts] at hy)
      (fun i a hm hs => by
        unfold YieldsTurn at hy
        rw [hm] at hy
        exact hy a hs)
  obtain ⟨rest, rfl, hr⟩ := hta.exists_update op.task
    (sought (poolAdvance poolMax op.move p.shared (p.thread op.task)).2)
  have hc : ∀ key waiter, (p.thread op.task).seeks = some (key, some waiter) →
      waiter ∈ p.shared.notified → waiter ∉ (p.shared.pools key).waiters := by
    intro key waiter hs hw hme
    refine (ht.called key waiter ?_).mp hme hw
    exact hal.mem_of_waiter hme
  refine ⟨ho.poolAdvance op.move (p.thread op.task), _, ?_, ha.tickets hal ht, ha.attended hal ht.distinct hc⟩
  rw [poolStep, comp_thread_turn]
  exact hr

theorem enter_ne_entering (s : SessionPool κ) (key key' : κ) (e : String → Bool) :
    (s.enter poolMax key e).2 ≠ .entering key' := by
  unfold SessionPool.enter SessionPool.claim
  repeat' split
  all_goals exact fun h => by cases h

theorem release_ne_releasing (s : SessionPool κ) (sa : PooledSandbox κ) (disposition : Release) :
    (s.release sa disposition).2 ≠ .releasing sa disposition := by
  simp only [release]
  repeat' split
  all_goals exact fun h => by cases h

theorem promote_ne_booted (s : SessionPool κ) (key : κ) (r : ℕ) (handle : String) :
    (s.promote key r handle).2 ≠ .booted key r handle := by
  simp only [promote]
  split
  all_goals exact fun h => by cases h

theorem poolAdvance_of_rests (ht : t.rests s = true) (hm : move.internal = true) :
    poolAdvance poolMax move s t = (s, t) := by
  cases move with
  | proceed expired => cases t <;> first | rfl | cases ht
  | create result => cases result <;> cases t <;> first | rfl | cases ht
  | wake =>
    cases t with
    | parked key waiter =>
      have hn : waiter ∉ s.notified := of_decide_eq_true ht
      simp [poolAdvance, hn]
    | _ => rfl
  | _ => cases hm

theorem quiescent_iff : Quiescent poolMax p ↔ ∀ i, (p.thread i).rests p.shared = true := by
  constructor
  · intro h i
    have hproceed := congrArg (fun q => q.thread i) (h ⟨i, .proceed fun _ => false⟩ rfl)
    have hcreate := congrArg (fun q => q.thread i) (h ⟨i, .create none⟩ rfl)
    have hwake := congrArg (fun q => q.thread i) (h ⟨i, .wake⟩ rfl)
    simp only [poolStep, turn_thread_self] at hproceed hcreate hwake
    cases ht : p.thread i with
    | idle => rfl
    | holding sa => rfl
    | parked key waiter =>
      rw [ht] at hwake
      by_cases hnotified : waiter ∈ p.shared.notified
      · simp [poolAdvance, hnotified] at hwake
      · simp [PoolTask.rests, hnotified]
    | entering key =>
      rw [ht] at hproceed
      exact absurd hproceed (enter_ne_entering _ _ _ _)
    | cancelling key waiter | dropping key r handle =>
      rw [ht] at hproceed
      cases hproceed
    | booting key r =>
      rw [ht] at hcreate
      cases hcreate
    | booted key r handle =>
      rw [ht] at hproceed
      exact absurd hproceed (promote_ne_booted _ _ _ _)
    | releasing sa d =>
      rw [ht] at hproceed
      exact absurd hproceed (release_ne_releasing _ _ _)
    | tearing handles n =>
      rw [ht] at hproceed
      cases handles with
      | nil => cases n <;> cases hproceed
      | cons handle handles => exact absurd (PoolTask.tearing.inj hproceed).1 (List.ne_cons_self)
  · intro h op hi
    exact turn_eq_self _ (poolAdvance_of_rests (h op.task) hi)

/-- In a pool at rest everybody who seeks a sandbox is in a queue, so nobody is on the way
to a free place. -/
theorem Served.room_eq_zero (h : Served poolMax p) (hq : Quiescent poolMax p)
    (hp : p.thread i = .parked key waiter) : room poolMax (p.shared.pools key).entries = 0 := by
  obtain ⟨-, total, hta, hti, hall⟩ := h
  have hqueued : ∀ x, (key, x) ∈ total → ∃ w ∈ (p.shared.pools key).waiters, x = some w := by
    intro x hx
    obtain ⟨j, hj⟩ := hta.exists_mem hx
    have hseeks : (p.thread j).seeks = some (key, x) := Option.mem_toList.mp (mem_coe.mp hj)
    have hrests := quiescent_iff.mp hq j
    cases ht : p.thread j with
    | parked key' w =>
      rw [ht] at hseeks hrests
      obtain ⟨rfl, rfl⟩ := Prod.ext_iff.mp (Option.some.inj hseeks)
      exact ⟨w, (hti.called _ w hx).mpr (of_decide_eq_true hrests), rfl⟩
    | idle | holding sandbox =>
      rw [ht] at hseeks
      cases hseeks
    | _ =>
      rw [ht] at hrests
      cases hrests
  have hmem : (key, some waiter) ∈ total :=
    hta.mem_of_mem (show (key, some waiter) ∈ sought (p.thread i) by rw [hp]; exact List.mem_cons_self)
  obtain ⟨w, hw, -⟩ := hqueued _ hmem
  by_contra hroom
  obtain ⟨x, hx, hn⟩ := (hall key).exists_onTheWay (nodup_seekersOf hti.distinct key)
    (Nat.pos_of_ne_zero hroom) (List.ne_nil_of_mem hw)
  obtain ⟨v, hv, rfl⟩ := hqueued x (mem_seekersOf.mp hx)
  exact hn v hv rfl

/-- In every interleaving in which a checkout that gives up does so from its place in the
queue or with nobody in the queue, a checkout that is parked in a pool at rest has no
place: no sandbox of its key is idle, and there is no room for another. -/
theorem parked_has_no_place (poolMax : ℕ) (ops : List (PoolOp κ ι))
    (hyields : Run.Along (poolStep poolMax) YieldsTurn emptyPool ops)
    (hquiet : Quiescent poolMax (Run.exec (poolStep poolMax) emptyPool ops)) (i : ι) (key : κ) (waiter : ℕ)
    (hparked : (Run.exec (poolStep poolMax) emptyPool ops).thread i = .parked key waiter) :
    (∀ e ∈ ((Run.exec (poolStep poolMax) emptyPool ops).shared.pools key).entries, e.isIdle = false) ∧
    max poolMax 1 ≤ ((Run.exec (poolStep poolMax) emptyPool ops).shared.pools key).entries.length := by
  have hs := Run.along_invariant (poolStep poolMax) YieldsTurn (Served poolMax)
    (fun _ op hop hp => hp.step op hop) emptyPool served_emptyPool ops hyields
  have hf := hs.room_eq_zero hquiet hparked
  rw [room, Nat.add_eq_zero_iff, List.countP_eq_zero] at hf
  refine ⟨fun e he => ?_, Nat.sub_eq_zero_iff_le.mp hf.2⟩
  simpa using hf.1 e he

/-- Task 0 has the only sandbox of a key, and tasks 1 and 2 queue for it. -/
def twoWaiters : List (PoolOp Unit (Fin 3)) :=
  [⟨0, .checkout ()⟩, ⟨0, .proceed fun _ => false⟩, ⟨0, .create (some "a")⟩, ⟨0, .proceed fun _ => false⟩,
    ⟨1, .checkout ()⟩, ⟨1, .proceed fun _ => false⟩, ⟨2, .checkout ()⟩, ⟨2, .proceed fun _ => false⟩]

/-- The sandbox comes back, and the first of the queue gets it. -/
def handedOn : List (PoolOp Unit (Fin 3)) :=
  twoWaiters ++ [⟨0, .release .returnIdle⟩, ⟨0, .proceed fun _ => false⟩, ⟨1, .wake⟩, ⟨1, .proceed fun _ => false⟩]

theorem second_waiter_has_no_place : (Run.exec (poolStep 1) emptyPool handedOn).thread 2 = .parked () 3 ∧
    max 1 1 ≤ ((Run.exec (poolStep 1) emptyPool handedOn).shared.pools ()).entries.length :=
  have hp : (Run.exec (poolStep 1) emptyPool handedOn).thread 2 = .parked () 3 := by decide +kernel
  ⟨hp, (parked_has_no_place 1 handedOn (by decide +kernel) (quiescent_iff.mpr (by decide +kernel)) 2 ()
    3 hp).2⟩

/-- The time of task 1 is over when the sandbox comes back: it is the first of the queue
and is notified, but it returns, and task 2 stays parked with the sandbox idle. -/
def lateWakeUp : List (PoolOp Unit (Fin 3)) :=
  twoWaiters ++ [⟨1, .timeout⟩, ⟨0, .release .returnIdle⟩, ⟨0, .proceed fun _ => false⟩,
    ⟨1, .proceed fun _ => false⟩]

theorem timed_out_waiter_takes_wake_up : Quiescent 1 (Run.exec (poolStep 1) emptyPool lateWakeUp) ∧
    (Run.exec (poolStep 1) emptyPool lateWakeUp).thread 2 = .parked () 3 ∧
    ((Run.exec (poolStep 1) emptyPool lateWakeUp).shared.pools ()).entries = [.idle "a"] :=
  ⟨quiescent_iff.mpr (by decide +kernel), by decide +kernel, by decide +kernel⟩

end AgentiumOs.Sandbox
